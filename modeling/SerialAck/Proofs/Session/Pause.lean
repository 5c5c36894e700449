/-
How long a script keeps a call waiting. The waits in front of the first other event are the pause
of the script, and `next_of_pause_le` and `next_of_lt_pause` say what they make of a budget. From
there reads and writes are told apart from the patience of the observer: what a script brings
(`Brings`, `Takes`) is settled by the script and the limit alone, and a call that is not stuck
comes to just that (`Stream.brings_of_read`, `Stream.takes_of_write`).
-/
import Mathlib.Algebra.GroupWithZero.Nat
import SerialAck.Session.Stream

namespace SerialAck.Session

namespace Step

variable {α : Type}

def isWait : Step α → Bool
  | .wait _ => true
  | _ => false

def milliseconds : Step α → Nat
  | .wait ms => ms
  | _ => 0

def event? : Step α → Option α
  | .now a => some a
  | _ => none

end Step

namespace Script

variable {α : Type} {script rest : Script α} {budget : Nat}

/-- All the waits of a script, together. -/
def waits (script : Script α) : Nat :=
  (script.map Step.milliseconds).sum

/-- What a script has apart from waits. -/
def events (script : Script α) : List α :=
  script.filterMap Step.event?

/-- The waits before the first other event, together. -/
def pause (script : Script α) : Nat :=
  Script.waits (script.takeWhile Step.isWait)

/-- The script from its first event on that is not a wait. -/
def upcoming (script : Script α) : Script α :=
  script.dropWhile Step.isWait

/-- What comes after the waits never comes about. -/
def Hangs (script : Script α) : Prop :=
  script.upcoming.head? = some .hang

@[simp] theorem waits_nil : Script.waits ([] : Script α) = 0 := rfl

@[simp] theorem waits_cons (e : Step α) (rest : Script α) :
    Script.waits (e :: rest) = e.milliseconds + Script.waits rest := by
  simp [waits]

@[simp] theorem waits_append (first second : Script α) :
    Script.waits (first ++ second) = Script.waits first + Script.waits second := by
  simp [waits]

@[simp] theorem pause_nil : Script.pause ([] : Script α) = 0 := rfl
@[simp] theorem pause_now (a : α) (rest : Script α) : Script.pause (.now a :: rest) = 0 := rfl
@[simp] theorem pause_hang (rest : Script α) : Script.pause (.hang :: rest) = 0 := rfl

@[simp] theorem pause_wait (ms : Nat) (rest : Script α) :
    Script.pause (.wait ms :: rest) = ms + Script.pause rest :=
  waits_cons _ _

@[simp] theorem upcoming_wait (ms : Nat) (rest : Script α) :
    Script.upcoming (.wait ms :: rest) = Script.upcoming rest := rfl

@[simp] theorem upcoming_nil : Script.upcoming ([] : Script α) = [] := rfl
@[simp] theorem upcoming_now (a : α) (rest : Script α) :
    Script.upcoming (.now a :: rest) = .now a :: rest := rfl
@[simp] theorem upcoming_hang (rest : Script α) :
    Script.upcoming (.hang :: rest) = .hang :: rest := rfl

theorem upcoming_cases (script : Script α) :
    script.upcoming = [] ∨ (∃ a rest, script.upcoming = .now a :: rest) ∨
      ∃ rest, script.upcoming = .hang :: rest := by
  induction script with
  | nil => exact .inl rfl
  | cons e rest ih =>
    cases e with
    | now a => exact .inr (.inl ⟨a, rest, rfl⟩)
    | wait ms => simpa using ih
    | hang => exact .inr (.inr ⟨rest, rfl⟩)

/-- The pause comes first, and nothing else before what is upcoming. -/
theorem exists_append_upcoming (script : Script α) :
    ∃ before, script = before ++ script.upcoming ∧ Script.waits before = script.pause :=
  ⟨_, List.takeWhile_append_dropWhile.symm, rfl⟩

theorem events_upcoming (script : Script α) : script.upcoming.events = script.events := by
  induction script with
  | nil => rfl
  | cons e rest ih =>
    cases e with
    | wait ms => exact ih
    | now | hang => rfl

theorem events_of_upcoming {a : α} (h : script.upcoming = .now a :: rest) :
    script.events = a :: Script.events rest := by
  rw [← events_upcoming, h]
  rfl

/-- A script that does not hang has its next event at hand, or none. -/
theorem events_tail_upcoming (h : ¬ script.Hangs) :
    Script.events script.upcoming.tail = script.events.tail := by
  rcases upcoming_cases script with hu | ⟨a, rest, hu⟩ | ⟨rest, hu⟩
  · rw [← events_upcoming script, hu]
    rfl
  · rw [events_of_upcoming hu, hu]
    rfl
  · exact absurd (by rw [Hangs, hu]; rfl) h

/-! ## Within a budget -/

theorem next_of_pause_le (h : script.pause ≤ budget) :
    script.next budget = (script.upcoming.next 0).after script.pause := by
  fun_induction Script.next budget script with
  | case1 | case2 | case3 => rfl
  | case4 budget ms rest hm ih =>
    rw [pause_wait] at h ⊢
    have hrest : Script.pause rest ≤ budget - ms := by omega
    rw [ih hrest, upcoming_wait]
    cases (Script.upcoming rest).next 0 <;> simp [Next.after, Nat.add_assoc]
  | case5 budget ms rest hm =>
    rw [pause_wait] at h
    omega

theorem next_of_lt_pause (h : budget < script.pause) : ∃ rest, script.next budget = .late rest := by
  fun_induction Script.next budget script with
  | case1 | case2 | case3 => simp at h
  | case4 budget ms rest hm ih =>
    rw [pause_wait] at h
    obtain ⟨late, hl⟩ := ih (by omega)
    exact ⟨late, by rw [hl]; rfl⟩
  | case5 => exact ⟨_, rfl⟩

theorem next_of_hangs (h : script.Hangs) : ∃ rest, script.next budget = .late rest := by
  by_cases hp : script.pause ≤ budget
  · rcases upcoming_cases script with hu | ⟨a, rest, hu⟩ | ⟨rest, hu⟩
    · simp [Hangs, hu] at h
    · simp [Hangs, hu] at h
    · exact ⟨_, by rw [next_of_pause_le hp, hu]; rfl⟩
  · exact next_of_lt_pause (Nat.lt_of_not_le hp)

theorem next_of_late (h : budget < script.pause ∨ script.Hangs) :
    ∃ rest, script.next budget = .late rest :=
  h.elim next_of_lt_pause next_of_hangs

/-! ## Reads -/

/-- What a read leaves of the script, from the event on that it is about. -/
def remainder (size : Nat) : Script Arrival → Script Arrival
  | .now (.data bytes) :: rest =>
    if bytes.drop size = [] then rest else .now (.data (bytes.drop size)) :: rest
  | script => script.tail

end Script

/-- What a read of `size` bytes makes of the next event, or of the end of the script. -/
def Reading.of (size : Nat) : Option Arrival → Reading
  | some (.data bytes) => .got (bytes.take size)
  | some (.failure f) => .failed f
  | some .eof | none => .got []

/-- What a write that offers `bytes` makes of the next event, or of the end of the script. -/
def Writing.of (bytes : List UInt8) : Option Acceptance → Writing
  | some (.take n) => .took (bytes.take n)
  | some (.failure f) => .failed f
  | none => .took bytes

/-- What a script brings a read, what is left of it then, and how long that takes. -/
inductive Brings (size : Nat) (limit : Option Nat) (script : Script Arrival) :
    Reading → Script Arrival → Nat → Prop where
  | ready (hl : ∀ l ∈ limit, script.pause ≤ l) (hh : ¬ script.Hangs) :
      Brings size limit script (.of size script.events.head?) (script.upcoming.remainder size)
        script.pause
  | late {l rest} (hl : limit = some l) (hw : l < script.pause ∨ script.Hangs)
      (hn : script.next l = .late rest) : Brings size limit script .timedOut rest l

/-- The same of a write, which waits as long as it takes. -/
inductive Takes (bytes : List UInt8) (script : Script Acceptance) :
    Writing → Script Acceptance → Nat → Prop where
  | ready (hh : ¬ script.Hangs) :
      Takes bytes script (.of bytes script.events.head?) script.upcoming.tail script.pause

variable {size spent : Nat} {limit : Option Nat} {script rest : Script Arrival} {r : Reading}

/-- A write meets the next event of its script, whenever that comes. -/
theorem Takes.eq {bytes : List UInt8} {script rest : Script Acceptance} {w : Writing}
    (h : Takes bytes script w rest spent) :
    w = .of bytes script.events.head? ∧ rest.events = script.events.tail ∧
      spent = script.pause := by
  cases h with
  | ready hh => exact ⟨rfl, Script.events_tail_upcoming hh, rfl⟩

theorem Reading.of_ne_timedOut (size : Nat) (a : Option Arrival) :
    Reading.of size a ≠ .timedOut := by
  unfold Reading.of
  split <;> simp

/-- A read is cut short by its limit, and at that very time. -/
theorem Brings.of_timedOut (h : Brings size limit script .timedOut rest spent) :
    limit = some spent ∧ (spent < script.pause ∨ script.Hangs) ∧
      script.next spent = .late rest := by
  generalize hr : Reading.timedOut = r at h
  cases h with
  | ready => exact absurd hr.symm (Reading.of_ne_timedOut _ _)
  | late hl hw hn => exact ⟨hl, hw, hn⟩

/-- A script brings one thing. -/
theorem Brings.unique {r' : Reading} {rest' : Script Arrival} {spent' : Nat}
    (h : Brings size limit script r rest spent) (h' : Brings size limit script r' rest' spent') :
    r = r' ∧ rest = rest' ∧ spent = spent' := by
  cases h with
  | ready hl hh =>
    cases h' with
    | ready => exact ⟨rfl, rfl, rfl⟩
    | late hl' hw =>
      have hle := hl _ hl'
      exact absurd hw (not_or.mpr ⟨Nat.not_lt.mpr hle, hh⟩)
  | late hl hw hn =>
    cases h' with
    | ready hl' hh =>
      have hle := hl' _ hl
      exact absurd hw (not_or.mpr ⟨Nat.not_lt.mpr hle, hh⟩)
    | late hl' _ hn' =>
      obtain rfl : _ = _ := Option.some.inj (hl.symm.trans hl')
      exact ⟨rfl, Next.late.inj (hn.symm.trans hn'), rfl⟩

/-- A wider limit changes nothing of what comes within the narrower one. -/
theorem Brings.widen {limit' : Option Nat} (h : Brings size limit script r rest spent)
    (hr : r ≠ .timedOut) (hl : ∀ l' ∈ limit', ∃ l ∈ limit, l ≤ l') :
    Brings size limit' script r rest spent := by
  cases h with
  | ready hp hh =>
    refine .ready (fun l' hl' => ?_) hh
    obtain ⟨l, hmem, hle⟩ := hl l' hl'
    exact Nat.le_trans (hp l hmem) hle
  | late => exact absurd rfl hr

namespace Stream

variable {t : Stream}

/-- With patience enough, a read comes to what the script brings. -/
theorem read_of_brings (h : Brings size limit t.reads r rest spent) (hs : spent ≤ t.left) :
    t.read size limit = (r, { t with reads := rest, left := t.left - spent }) := by
  cases h with
  | ready hl hh =>
    have hb : t.reads.pause ≤ t.readBudget limit := by
      unfold readBudget
      split
      · exact hs
      · exact Nat.le_min.mpr ⟨hl _ rfl, hs⟩
    rw [read, Script.next_of_pause_le hb]
    rcases Script.upcoming_cases t.reads with hu | ⟨a, rest, hu⟩ | ⟨rest, hu⟩
    · have he : t.reads.events = [] := by rw [← Script.events_upcoming, hu]; rfl
      rw [hu, he]
      rfl
    · rw [Script.events_of_upcoming hu, hu]
      cases a <;> rfl
    · exact absurd (by rw [Script.Hangs, hu]; rfl) hh
  | late hl hw hn =>
    subst hl
    have hb : t.readBudget (some spent) = spent := Nat.min_eq_left hs
    have hlim : t.isLimited (some spent) = true := by simpa [isLimited] using hs
    rw [read, hb, hn, hlim]
    rfl

/-- A read that nothing comes of while the patience lasts is stuck, whatever the limit. -/
theorem read_of_stuck (size : Nat) (hl : ∀ l ∈ limit, t.left < l)
    (hw : t.left < t.reads.pause ∨ t.reads.Hangs) :
    ∃ rest, t.reads.next t.left = .late rest ∧
      t.read size limit = (.stuck, { t with reads := rest, left := 0 }) := by
  obtain ⟨rest, hn⟩ := Script.next_of_late hw
  have hb : t.readBudget limit = t.left := by
    cases limit with
    | none => rfl
    | some l => exact Nat.min_eq_right (Nat.le_of_lt (hl l rfl))
  have hlim : t.isLimited limit = false := by
    cases limit with
    | none => rfl
    | some l => simpa [isLimited] using hl l rfl
  exact ⟨rest, hn, by rw [read, hb, hn, hlim, Nat.sub_self]; rfl⟩

/-- A read is stuck, or comes to what the script brings. -/
theorem read_cases (t : Stream) (size : Nat) (limit : Option Nat) :
    ((∀ l ∈ limit, t.left < l) ∧ (t.left < t.reads.pause ∨ t.reads.Hangs)) ∨
      ∃ r rest spent, Brings size limit t.reads r rest spent ∧ spent ≤ t.left := by
  by_cases hp : t.left < t.reads.pause ∨ t.reads.Hangs
  · by_cases hl : ∀ l ∈ limit, t.left < l
    · exact .inl ⟨hl, hp⟩
    · cases limit with
      | none => simp at hl
      | some l =>
        have hle : l ≤ t.left := by simpa using hl
        obtain ⟨rest, hn⟩ := Script.next_of_late (hp.imp_left (Nat.lt_of_le_of_lt hle))
        exact .inr ⟨_, rest, l, .late rfl (hp.imp_left (Nat.lt_of_le_of_lt hle)) hn, hle⟩
  · obtain ⟨hle, hh⟩ := not_or.mp hp
    have hle := Nat.le_of_not_lt hle
    cases limit with
    | none => exact .inr ⟨_, _, _, .ready (by simp) hh, hle⟩
    | some l =>
      by_cases hl : t.reads.pause ≤ l
      · exact .inr ⟨_, _, _, .ready (by simpa using hl) hh, hle⟩
      · have hlt := Nat.lt_of_not_le hl
        obtain ⟨rest, hn⟩ := Script.next_of_lt_pause hlt
        exact .inr ⟨_, rest, l, .late rfl (.inl hlt) hn, Nat.le_trans (Nat.le_of_lt hlt) hle⟩

theorem brings_of_read {u : Stream} (h : t.read size limit = (r, u)) (hr : r ≠ .stuck) :
    ∃ spent, Brings size limit t.reads r u.reads spent ∧ spent ≤ t.left ∧
      u.writes = t.writes ∧ u.left = t.left - spent := by
  rcases t.read_cases size limit with ⟨hl, hw⟩ | ⟨r', rest, spent, hb, hs⟩
  · obtain ⟨rest, -, hstuck⟩ := t.read_of_stuck size hl hw
    rw [hstuck] at h
    exact absurd (Prod.mk.inj h).1.symm hr
  · rw [read_of_brings hb hs] at h
    obtain ⟨rfl, rfl⟩ := Prod.mk.inj h
    exact ⟨spent, hb, hs, rfl, rfl⟩

theorem write_of_takes {bytes : List UInt8} {rest : Script Acceptance} {w : Writing}
    (h : Takes bytes t.writes w rest spent) (hs : spent ≤ t.left) :
    t.write bytes = (w, { t with writes := rest, left := t.left - spent }) := by
  cases h with
  | ready hh =>
    rw [write, Script.next_of_pause_le hs]
    rcases Script.upcoming_cases t.writes with hu | ⟨a, rest, hu⟩ | ⟨rest, hu⟩
    · have he : t.writes.events = [] := by rw [← Script.events_upcoming, hu]; rfl
      rw [hu, he]
      rfl
    · rw [Script.events_of_upcoming hu, hu]
      cases a <;> rfl
    · exact absurd (by rw [Script.Hangs, hu]; rfl) hh

theorem takes_of_write {bytes : List UInt8} {w : Writing} {u : Stream}
    (h : t.write bytes = (w, u)) (hw : w ≠ .stuck) :
    ∃ spent, Takes bytes t.writes w u.writes spent ∧ spent ≤ t.left ∧
      u.reads = t.reads ∧ u.left = t.left - spent := by
  by_cases hp : t.left < t.writes.pause ∨ t.writes.Hangs
  · obtain ⟨rest, hn⟩ := Script.next_of_late hp
    rw [write, hn] at h
    exact absurd (Prod.mk.inj h).1.symm hw
  · obtain ⟨hle, hh⟩ := not_or.mp hp
    have hle := Nat.le_of_not_lt hle
    rw [write_of_takes (.ready hh) hle] at h
    obtain ⟨rfl, rfl⟩ := Prod.mk.inj h
    exact ⟨_, .ready hh, hle, rfl, rfl⟩

end Stream

end SerialAck.Session

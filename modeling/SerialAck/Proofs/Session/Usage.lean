/-
What a session has used up of its stream. `Uses` keeps, next to the stream as it is now, the
events that are gone from either script and the time that their waits took; each call that is not
cut short by the limit adds to it what it waited for, and so `Calls.uses` tells the time of a whole
run by the waits it has gone through.
-/
import SerialAck.Proofs.Session.Calls
import SerialAck.Proofs.Session.Pause
import SerialAck.Proofs.Session.Trace

namespace SerialAck.Session

/-- The events of a script that are gone where `left` is left. A data event that has been read in
part is not. -/
def Script.used {α : Type} (script left : Script α) : Script α :=
  script.take (script.length - left.length)

theorem Script.used_eq {α : Type} {script gone left : Script α} (h : script = gone ++ left) :
    script.used left = gone := by
  simp [used, h]

/-- Of a script of arrivals some events are gone, and the next may have been read in part. -/
inductive Leftover : Script Arrival → Script Arrival → Script Arrival → Prop where
  | whole (gone left) : Leftover (gone ++ left) gone left
  | part (gone bytes kept left) :
      Leftover (gone ++ .now (.data bytes) :: left) gone (.now (.data kept) :: left)

variable {script gone left left' : Script Arrival} {size spent : Nat} {limit : Option Nat}
  {r : Reading}

theorem Leftover.used_eq (h : Leftover script gone left) : script.used left = gone := by
  cases h with
  | whole => exact Script.used_eq rfl
  | part => simp [Script.used]

theorem Leftover.next (gone : Script Arrival) (e : Step Arrival) (left : Script Arrival) :
    Leftover (gone ++ e :: left) (gone ++ [e]) left := by
  have h := Leftover.whole (gone ++ [e]) left
  rwa [List.append_assoc] at h

theorem Leftover.append (h : Leftover script gone left) (before : Script Arrival) :
    Leftover (before ++ script) (before ++ gone) left := by
  cases h with
  | whole => exact List.append_assoc before gone left ▸ .whole _ _
  | part => exact List.append_assoc before gone _ ▸ .part _ _ _ _

/-- What a read takes off the script that is not cut short. If it fails, that ends with the
fault. -/
theorem Brings.leftover (h : Brings size limit script r left spent) (hr : r ≠ .timedOut) :
    ∃ more, Leftover script more left ∧ Script.waits more = spent ∧
      ∀ f, r = .failed f → more.getLast? = some (.now (.failure f)) := by
  obtain ⟨before, hscript, hwaits⟩ := script.exists_append_upcoming
  cases h with
  | late => exact absurd rfl hr
  | ready hl hh =>
    rw [← hwaits]
    rcases script.upcoming_cases with hu | ⟨a, rest, hu⟩ | ⟨rest, hu⟩
    · rw [hu] at hscript ⊢
      have hnone : script.events = [] := by rw [← Script.events_upcoming, hu]; rfl
      rw [hnone]
      exact ⟨before, hscript ▸ .whole _ _, rfl, by simp [Reading.of]⟩
    · rw [hu] at hscript
      have hgone : Leftover script (before ++ [.now a]) rest := hscript ▸ .next _ _ _
      have hw : Script.waits (before ++ [.now a]) = Script.waits before := by
        simp [Step.milliseconds]
      rw [Script.events_of_upcoming hu, hu]
      cases a with
      | failure f =>
        refine ⟨_, hgone, hw, fun g hg => ?_⟩
        simp only [List.head?_cons, Reading.of, Reading.failed.injEq] at hg
        simp [hg]
      | eof => exact ⟨_, hgone, hw, by simp [Reading.of]⟩
      | data bytes =>
        by_cases hk : bytes.drop size = []
        · refine ⟨_, ?_, hw, by simp [Reading.of]⟩
          rwa [Script.remainder, if_pos hk]
        · refine ⟨before, ?_, rfl, by simp [Reading.of]⟩
          rw [Script.remainder, if_neg hk, hscript]
          exact .part _ _ _ _
    · exact absurd (by rw [Script.Hangs, hu]; rfl) hh

/-- The same where the script is itself what is left of another. -/
theorem Leftover.brings (h : Leftover script gone left) (hb : Brings size limit left r left' spent)
    (hr : r ≠ .timedOut) :
    ∃ more, Leftover script (gone ++ more) left' ∧ Script.waits more = spent ∧
      ∀ f, r = .failed f → more.getLast? = some (.now (.failure f)) := by
  cases h with
  | whole =>
    obtain ⟨more, hm, hw, hf⟩ := hb.leftover hr
    exact ⟨more, hm.append gone, hw, hf⟩
  | part _ bytes kept rest =>
    cases hb with
    | late => exact absurd rfl hr
    | ready hl hh =>
      by_cases hk : kept.drop size = []
      · refine ⟨[.now (.data bytes)], ?_, rfl, by simp [Reading.of, Script.events, Step.event?]⟩
        rw [Script.upcoming_now, Script.remainder, if_pos hk]
        exact .next _ _ _
      · refine ⟨[], ?_, rfl, by simp [Reading.of, Script.events, Step.event?]⟩
        rw [Script.upcoming_now, Script.remainder, if_neg hk, List.append_nil]
        exact .part _ _ _ _

/-- What a write takes off its script. -/
theorem Takes.leftover {bytes : List UInt8} {script left : Script Acceptance} {w : Writing}
    (h : Takes bytes script w left spent) :
    ∃ more, script = more ++ left ∧ Script.waits more = spent ∧
      ∀ f, w = .failed f → more.getLast? = some (.now (.failure f)) := by
  obtain ⟨before, hscript, hwaits⟩ := script.exists_append_upcoming
  cases h with
  | ready hh =>
    rw [← hwaits]
    rcases script.upcoming_cases with hu | ⟨a, rest, hu⟩ | ⟨rest, hu⟩
    · rw [hu] at hscript ⊢
      have hnone : script.events = [] := by rw [← Script.events_upcoming, hu]; rfl
      exact ⟨before, hscript, rfl, by simp [hnone, Writing.of]⟩
    · rw [hu] at hscript ⊢
      have hw : Script.waits (before ++ [.now a]) = Script.waits before := by
        simp [Step.milliseconds]
      refine ⟨before ++ [.now a], by simpa using hscript, hw, fun f hf => ?_⟩
      rw [Script.events_of_upcoming hu] at hf
      cases a <;> simp_all [Writing.of]
    · exact absurd (by rw [Script.Hangs, hu]; rfl) hh

theorem Brings.within (h : Brings size limit script r left spent) : ∀ l ∈ limit, spent ≤ l := by
  cases h with
  | ready hl => exact hl
  | late hl =>
    intro l hmem
    obtain rfl := Option.some.inj (hl.symm.trans hmem)
    exact Nat.le_refl _

/-- `reads` and `writes` are gone from the scripts of `start`, and their waits have passed. -/
structure Uses (start : Stream) (reads : Script Arrival) (writes : Script Acceptance)
    (t : Stream) : Prop where
  input : Leftover start.reads reads t.reads
  output : start.writes = writes ++ t.writes
  time : start.left = t.left + (Script.waits reads + Script.waits writes)

namespace Uses

variable {start t u : Stream} {reads : Script Arrival} {writes : Script Acceptance}

theorem refl (t : Stream) : Uses t [] [] t :=
  ⟨.whole [] t.reads, rfl, rfl⟩

theorem read (h : Uses start reads writes t) (hr : t.read size limit = (r, u)) (hs : r ≠ .stuck)
    (ht : r ≠ .timedOut) :
    ∃ more, Uses start (reads ++ more) writes u ∧ (∀ l ∈ limit, Script.waits more ≤ l) ∧
      ∀ f, r = .failed f → more.getLast? = some (.now (.failure f)) := by
  obtain ⟨spent, hb, hle, hwrites, hleft⟩ := Stream.brings_of_read hr hs
  obtain ⟨more, hm, hw, hf⟩ := h.input.brings hb ht
  refine ⟨more, ⟨hm, hwrites ▸ h.output, ?_⟩, hw ▸ hb.within, hf⟩
  have htime := h.time
  rw [Script.waits_append, hw, hleft]
  omega

theorem write {bytes : List UInt8} {w : Writing} (h : Uses start reads writes t)
    (hw : t.write bytes = (w, u)) (hs : w ≠ .stuck) :
    ∃ more, Uses start reads (writes ++ more) u ∧
      ∀ f, w = .failed f → more.getLast? = some (.now (.failure f)) := by
  obtain ⟨spent, ht, hle, hreads, hleft⟩ := Stream.takes_of_write hw hs
  obtain ⟨more, hm, hspent, hf⟩ := ht.leftover
  refine ⟨more, ⟨hreads ▸ h.input, ?_, ?_⟩, hf⟩
  · rw [h.output, hm, List.append_assoc]
  · have htime := h.time
    rw [Script.waits_append, hspent, hleft]
    omega

theorem reads_used (h : Uses start reads writes t) : start.reads.used t.reads = reads :=
  h.input.used_eq

theorem writes_used (h : Uses start reads writes t) : start.writes.used t.writes = writes :=
  Script.used_eq h.output

theorem left_le (h : Uses start reads writes t) : t.left ≤ start.left := by
  have htime := h.time
  omega

theorem elapsed_eq (h : Uses start reads writes t) (hl : start.left = patience) :
    t.elapsed = Script.waits reads + Script.waits writes := by
  have htime := h.time
  rw [Stream.elapsed, ← hl]
  omega

end Uses

/-! ## Over many calls -/

variable {c : Config} {s s' : State} {start t t' : Stream} {trace entries : List Entry}

/-- How many reads there are in a trace. One that times out leaves no entry. -/
def readCount (trace : List Entry) : Nat :=
  trace.countP Entry.isRead

@[simp] theorem readCount_nil : readCount [] = 0 := rfl

@[simp] theorem readCount_cons (e : Entry) (p : List Entry) :
    readCount (e :: p) = readCount p + if e.isRead then 1 else 0 :=
  List.countP_cons

@[simp] theorem readCount_append (p q : List Entry) :
    readCount (p ++ q) = readCount p + readCount q :=
  List.countP_append

@[simp] theorem readCount_map_log (events : List Event) : readCount (events.map .log) = 0 := by
  simp [readCount, Entry.isRead]

/-- What one call adds to what is gone, if it makes `n` reads. -/
def Spends (limit : Option Nat) (start : Stream) (reads : Script Arrival)
    (writes : Script Acceptance) (n : Nat) (t : Stream) : Prop :=
  ∃ more output, Uses start (reads ++ more) (writes ++ output) t ∧
    ∀ l ∈ limit, Script.waits more ≤ l * n

theorem Uses.spends_read {reads : Script Arrival} {writes : Script Acceptance}
    (h : Uses start reads writes t) (hr : t.read size limit = (r, t')) (hs : r ≠ .stuck)
    (ht : r ≠ .timedOut) : Spends limit start reads writes 1 t' := by
  obtain ⟨more, hm, hle, -⟩ := h.read hr hs ht
  exact ⟨more, [], by simpa using hm, by simpa using hle⟩

theorem Uses.spends_write {reads : Script Arrival} {writes : Script Acceptance}
    {bytes : List UInt8} {w : Writing} (h : Uses start reads writes t)
    (hw : t.write bytes = (w, t')) (hs : w ≠ .stuck) :
    Spends limit start reads writes 0 t' := by
  obtain ⟨output, hm, -⟩ := h.write hw hs
  exact ⟨[], output, by simpa using hm, by simp⟩

theorem Call.spends {reads : Script Arrival} {writes : Script Acceptance}
    (h : Call c s t entries s' t') (hu : Uses start reads writes t) :
    Spends c.limit start reads writes (readCount entries) t' := by
  cases h with
  | read hp hr hb => simpa [Entry.isRead] using hu.spends_read hr (by simp) (by simp)
  | drain hp hr hb => exact hu.spends_read hr (by simp) (by simp)
  | write hp hw ht => exact hu.spends_write hw (by simp)
  | retry hp hw hk => exact hu.spends_write hw (by simp)

/-- The last call, if it is not a read that is cut short. -/
theorem LastCall.spends {reads : Script Arrival} {writes : Script Acceptance} {o : Outcome}
    (h : LastCall c s t entries o t') (ho : ∀ d, o ≠ .failed (.idle d))
    (hu : Uses start reads writes t) : Spends c.limit start reads writes (readCount entries) t' := by
  cases h with
  | closed hp hr => exact hu.spends_read hr (by simp) (by simp)
  | drained hp hr => simpa [Entry.isRead] using hu.spends_read hr (by simp) (by simp)
  | readFailed hp hr => exact hu.spends_read hr (by simp) (by simp)
  | timedOut => exact absurd rfl (ho _)
  | writeZero hp hw => exact hu.spends_write hw (by simp)
  | writeFailed hp hw hk => exact hu.spends_write hw (by simp)

/-- The time of the calls so far is what they have waited for, and no read has waited longer than
the limit. -/
theorem Calls.uses (h : Calls c s start trace s' t) :
    ∃ reads writes, Uses start reads writes t ∧
      ∀ l ∈ c.limit, Script.waits reads ≤ l * readCount trace := by
  induction h with
  | none => exact ⟨[], [], .refl start, by simp⟩
  | more _ hc ih =>
    obtain ⟨reads, writes, hu, hle⟩ := ih
    obtain ⟨more, output, hm, hmore⟩ := hc.spends hu
    refine ⟨_, _, hm, fun l hl => ?_⟩
    rw [Script.waits_append, readCount_append, Nat.mul_add]
    exact Nat.add_le_add (hle l hl) (hmore l hl)

/-- The same of a whole session, if no read is cut short. -/
theorem handle_uses {o : Outcome} (h : (handle c start).result = .ended o)
    (ho : ∀ d, o ≠ .failed (.idle d)) :
    ∃ reads writes, Uses start reads writes (handle c start).stream ∧
      ∀ l ∈ c.limit, Script.waits reads ≤ l * readCount (handle c start).trace := by
  obtain ⟨trace, s, t, hcs, ⟨entries, o', u, hl, hr⟩ | ⟨u, -, hr⟩⟩ := run_cases c {} start
  · rw [handle, hr] at h ⊢
    obtain rfl := Result.ended.inj h
    obtain ⟨reads, writes, hu, hle⟩ := hcs.uses
    obtain ⟨more, output, hm, hmore⟩ := hl.spends ho hu
    refine ⟨_, _, hm, fun l hl => ?_⟩
    rw [Script.waits_append, readCount_append, Nat.mul_add]
    exact Nat.add_le_add (hle l hl) (hmore l hl)
  · simp [handle, hr] at h

end SerialAck.Session

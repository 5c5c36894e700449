/-
Chunk mode does not look at the bytes it reads. To blank a stream is to put a zero in the place of
every byte that it brings, and the run on a blanked stream is the blanked run (`run_blank`). What
an observer sees of an entry apart from the field `text` (`Entry.outline`) is not changed by that.
-/
import SerialAck.Proofs.Session.Calls

namespace SerialAck.Session

/-! ## Blanking -/

/-- So many zeros. -/
def blank (bytes : List UInt8) : List UInt8 :=
  bytes.map fun _ => 0

@[simp] theorem length_blank (bytes : List UInt8) : (blank bytes).length = bytes.length :=
  List.length_map _

@[simp] theorem blank_eq_nil {bytes : List UInt8} : blank bytes = [] ↔ bytes = [] :=
  List.map_eq_nil_iff

theorem blank_take (n : Nat) (bytes : List UInt8) : blank (bytes.take n) = (blank bytes).take n :=
  List.map_take

theorem blank_drop (n : Nat) (bytes : List UInt8) : blank (bytes.drop n) = (blank bytes).drop n :=
  List.map_drop

def Step.map {α β : Type} (f : α → β) : Step α → Step β
  | .now a => .now (f a)
  | .wait ms => .wait ms
  | .hang => .hang

def Arrival.blank : Arrival → Arrival
  | .data bytes => .data (Session.blank bytes)
  | a => a

/-- The same script with other bytes in its data. -/
def Script.blank (script : Script Arrival) : Script Arrival :=
  script.map (Step.map Arrival.blank)

def Next.map {α β : Type} (f : α → β) : Next α → Next β
  | .due a rest spent => .due (f a) (rest.map (Step.map f)) spent
  | .nothing spent => .nothing spent
  | .late rest => .late (rest.map (Step.map f))

theorem Next.map_after {α β : Type} (f : α → β) (ms : Nat) (x : Next α) :
    (x.after ms).map f = (x.map f).after ms := by
  cases x <;> rfl

theorem Script.next_map {α β : Type} (f : α → β) (budget : Nat) (script : Script α) :
    Script.next budget (script.map (Step.map f)) = (script.next budget).map f := by
  fun_induction Script.next budget script with
  | case1 | case2 | case3 => rfl
  | case4 budget n rest hn ih => rw [List.map_cons, Step.map, Script.next, if_pos hn, ih, Next.map_after]
  | case5 budget n rest hn => rw [List.map_cons, Step.map, Script.next, if_neg hn]; rfl

def Reading.blank : Reading → Reading
  | .got bytes => .got (Session.blank bytes)
  | r => r

namespace Stream

def blank (t : Stream) : Stream :=
  { t with reads := t.reads.blank }

theorem read_blank (size : Nat) (limit : Option Nat) (t : Stream) :
    t.blank.read size limit = ((t.read size limit).1.blank, (t.read size limit).2.blank) := by
  have hb : t.blank.readBudget limit = t.readBudget limit := rfl
  have hl : t.blank.isLimited limit = t.isLimited limit := rfl
  rw [read, hb, hl, blank, Script.blank, Script.next_map]
  unfold read
  cases t.reads.next (t.readBudget limit) with
  | late rest =>
    cases t.isLimited limit <;> rfl
  | nothing spent => rfl
  | due a rest spent =>
    cases a with
    | data bytes =>
      simp only [Next.map, Arrival.blank, Reading.blank, ← blank_take, ← blank_drop, blank_eq_nil]
      split <;> rfl
    | failure f => rfl
    | eof => rfl

theorem write_blank (bytes : List UInt8) (t : Stream) :
    t.blank.write bytes = ((t.write bytes).1, (t.write bytes).2.blank) := by
  unfold write blank
  cases t.writes.next t.left with
  | late | nothing => rfl
  | due a => cases a <;> rfl

/-- All but the bytes is left as it is. -/
theorem eq_of_blank_eq {t u : Stream} (h : t.blank = u.blank) :
    t.elapsed = u.elapsed ∧ t.reads.length = u.reads.length ∧ t.writes = u.writes := by
  simp only [blank, mk.injEq] at h
  obtain ⟨hreads, hwrites, hleft⟩ := h
  have hlength := congrArg List.length hreads
  simp only [Script.blank, List.length_map] at hlength
  exact ⟨by rw [elapsed, elapsed, hleft], hlength, hwrites⟩

end Stream

def Event.blank : Event → Event
  | .chunk bytes => .chunk (Session.blank bytes)
  | e => e

def Entry.blank : Entry → Entry
  | .read size bytes => .read size (Session.blank bytes)
  | .log event => .log event.blank
  | e => e

def Progress.blank : Progress → Progress
  | .goes entries s t => .goes (entries.map Entry.blank) s t.blank
  | .ends entries o t => .ends (entries.map Entry.blank) o t.blank
  | .stuck t => .stuck t.blank

def Run.blank (r : Run) : Run :=
  ⟨r.trace.map Entry.blank, r.result, r.stream.blank⟩

/-! ## Runs -/

variable {c : Config}

theorem receive_blank (hm : c.mode = .chunk) (s : State) (bytes : List UInt8) :
    s.receive c (blank bytes) = ((s.receive c bytes).1.map Event.blank, (s.receive c bytes).2) := by
  unfold State.receive
  split <;> simp only [blank_eq_nil, length_blank] <;> split
  · split <;> rfl
  · rfl
  · simp [hm, State.closing, Event.blank]
  · simp [hm, State.report, ReadMode.endsWith, Event.blank]

theorem Turn.progress_blank (entries : List Entry) (t : Stream) (turn : Turn) :
    (turn.progress entries t).blank = turn.progress (entries.map Entry.blank) t.blank := by
  cases turn <;> rfl

theorem map_blank_log (events : List Event) :
    (events.map Entry.log).map Entry.blank = (events.map Event.blank).map Entry.log := by
  simp [Entry.blank]

theorem step_blank (hm : c.mode = .chunk) (s : State) (t : Stream) :
    step c s t.blank = (step c s t).blank := by
  unfold step
  split
  · rename_i rest last hp
    unfold speak
    rw [Stream.write_blank]
    rcases t.write rest with ⟨taken | f | _, u⟩
    · dsimp only
      rw [Turn.progress_blank]
      rfl
    · dsimp only
      split <;> rfl
    · rfl
  · unfold listen
    rw [Stream.read_blank]
    rcases t.read (s.readSize c.mode) c.limit with ⟨bytes | f | _ | _, u⟩
    · simp only [Reading.blank]
      rw [receive_blank hm, Turn.progress_blank, List.map_cons, map_blank_log]
      rfl
    · rfl
    · rfl
    · rfl

theorem run_blank (hm : c.mode = .chunk) (s : State) (t : Stream) :
    run c s t.blank = (run c s t).blank := by
  fun_induction run c s t with
  | case1 s t entries s' t' hs ih =>
    have hb : step c s t.blank = .goes (entries.map Entry.blank) s' t'.blank := by
      rw [step_blank hm, hs]
      rfl
    rw [run_of_call (step_goes_iff.mp hb), ih]
    simp [Run.blank, Run.prepend]
  | case2 s t entries o t' hs =>
    have hb : step c s t.blank = .ends (entries.map Entry.blank) o t'.blank := by
      rw [step_blank hm, hs]
      rfl
    rw [run_of_lastCall (step_ends_iff.mp hb)]
    rfl
  | case3 s t t' hs =>
    have hb : step c s t.blank = .stuck t'.blank := by
      rw [step_blank hm, hs]
      rfl
    rw [run_of_stuck hb]
    rfl

/-! ## What stays to be seen -/

/-- An entry as it looks to someone who counts the bytes that are read, and passes over the field
`text` of the log. -/
inductive Outline where
  | read (size count : Nat)
  | readFailed (size : Nat)
  | write (offered : Nat) (taken : List UInt8)
  | writeFailed (offered : Nat)
  | log (record : Log.Record)

def Entry.outline : Entry → Outline
  | .read size bytes => .read size bytes.length
  | .readFailed size => .readFailed size
  | .write offered taken => .write offered taken
  | .writeFailed offered => .writeFailed offered
  | .log event =>
    .log { event.record with fields := event.record.fields.filter (·.1 ≠ "text") }

theorem Entry.outline_blank (e : Entry) : e.blank.outline = e.outline := by
  cases e with
  | read size bytes => simp [blank, outline]
  | readFailed | write | writeFailed => rfl
  | log event =>
    cases event with
    | chunk bytes => simp [blank, outline, Event.blank, Event.record]
    | _ => rfl

/-- Chunk mode comes to the same on two streams that differ in nothing but their bytes. -/
theorem handle_of_blank_eq (hm : c.mode = .chunk) {t u : Stream} (h : t.blank = u.blank) :
    (handle c t).result = (handle c u).result ∧
      (handle c t).trace.map Entry.outline = (handle c u).trace.map Entry.outline ∧
      (handle c t).stream.blank = (handle c u).stream.blank := by
  have hr : (handle c t).blank = (handle c u).blank := by
    rw [handle, handle, ← run_blank hm, ← run_blank hm, h]
  have ho : ∀ r : Run, r.trace.map Entry.outline = r.blank.trace.map Entry.outline := by
    intro r
    simp [Run.blank, Entry.outline_blank, Function.comp_def]
  refine ⟨?_, ?_, ?_⟩
  · change (handle c t).blank.result = (handle c u).blank.result
    rw [hr]
  · calc (handle c t).trace.map Entry.outline
      _ = (handle c t).blank.trace.map Entry.outline := ho _
      _ = (handle c u).blank.trace.map Entry.outline := by rw [hr]
      _ = (handle c u).trace.map Entry.outline := (ho _).symm
  · change (handle c t).blank.stream = (handle c u).blank.stream
    rw [hr]

end SerialAck.Session

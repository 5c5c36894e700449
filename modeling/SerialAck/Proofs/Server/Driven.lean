/-
Servers that are driven by what they see. An answer leads to the same whatever comes after it
(`steady_of_suits`), so a turn that follows from what is seen is a turn of a world in which just
this comes. All that a driven server does is therefore one of the histories (`Driven.history`), and
what holds of these holds of it.
-/
import SerialAck.Server.Lifecycle

namespace SerialAck

namespace Session

/-- There is time left for the limit. -/
def Stream.Outlasts (c : Config) (t : Stream) : Prop :=
  ∀ l ∈ c.limit, l ≤ t.left

/-- The answer leads to the same entries and to the same state, whatever the stream has behind it. -/
def Answer.Steady (c : Config) (s : State) (a : Answer) : Prop :=
  (∃ entries s', ∀ t : Stream, t.Outlasts c → step c s (a.before t) = .goes entries s' t) ∨
    ∃ entries o, ∀ t : Stream, t.Outlasts c → ∃ u, step c s (a.before t) = .ends entries o u

variable {c : Config} {s : State} {a : Answer} {t : Stream} {limit : Option Nat} {size : Nat}
  {bytes rest : List UInt8} {last : Bool}

/-! ## Answered calls -/

theorem Stream.read_input (h : bytes.length ≤ size) :
    ((Answer.input bytes).before t).read size limit = (.got bytes, t) := by
  simp [read, Answer.before, Script.next, List.take_of_length_le h, List.drop_eq_nil_of_le h]

theorem Stream.read_noInput (f : Fault) :
    ((Answer.noInput f).before t).read size limit = (.failed f, t) := by
  simp [read, Answer.before, Script.next]

theorem Stream.read_timeUp {l : Nat} (h : l ≤ t.left) :
    (Answer.timeUp.before t).read size (some l) =
      (.timedOut, { Answer.timeUp.before t with left := t.left - l }) := by
  simp [read, Answer.before, Script.next, isLimited, readBudget, h]

theorem Stream.write_output (n : Nat) :
    ((Answer.output n).before t).write bytes = (.took (bytes.take n), t) := by
  simp [write, Answer.before, Script.next]

theorem Stream.write_noOutput (f : Fault) :
    ((Answer.noOutput f).before t).write bytes = (.failed f, t) := by
  simp [write, Answer.before, Script.next]

theorem Answer.steady_of_progress {turn : Turn} {entries : List Entry}
    (h : ∀ t, step c s (a.before t) = turn.progress entries t) : a.Steady c s := by
  cases turn with
  | goes s' => exact .inl ⟨entries, s', fun t _ => h t⟩
  | ends o => exact .inr ⟨entries, o, fun t _ => ⟨t, h t⟩⟩

theorem Answer.steady_of_replying (hp : s.phase = .replying rest last) (h : a.suits c s = true) :
    a.Steady c s := by
  have hstep (t : Stream) : step c s (a.before t) = speak s rest last (a.before t) := by
    rw [step, hp]
  cases a with
  | output n =>
    have htook (t : Stream) : step c s ((output n).before t) =
        (s.sent rest (rest.take n) last).progress [.write rest.length (rest.take n)] t := by
      rw [hstep, speak, Stream.write_output]
    exact steady_of_progress htook
  | noOutput f =>
    by_cases hf : f.kind = .interrupted
    · refine .inl ⟨[.writeFailed rest.length], s, fun t _ => ?_⟩
      rw [hstep, speak, Stream.write_noOutput]
      exact if_pos hf
    · refine .inr ⟨[.writeFailed rest.length], .failed (.write f), fun t _ => ⟨t, ?_⟩⟩
      rw [hstep, speak, Stream.write_noOutput]
      exact if_neg hf
  | input | noInput | timeUp => simp [suits, State.wish, hp] at h

theorem Answer.steady_of_listening (hp : ∀ rest last, s.phase ≠ .replying rest last)
    (h : a.suits c s = true) : a.Steady c s := by
  have hstep (t : Stream) : step c s (a.before t) = listen c s (a.before t) := by
    unfold step
    split
    · exact absurd ‹_› (hp _ _)
    · rfl
  have hwish : s.wish c.mode = .input (s.readSize c.mode) := by
    unfold State.wish
    split
    · exact absurd ‹_› (hp _ _)
    · rfl
  simp only [suits, hwish] at h
  cases a with
  | input bytes =>
    have hgot (t : Stream) : step c s ((input bytes).before t) =
        (s.receive c bytes).2.progress
          (.read (s.readSize c.mode) bytes :: (s.receive c bytes).1.map .log) t := by
      rw [hstep, listen, Stream.read_input (of_decide_eq_true h)]
    exact steady_of_progress hgot
  | noInput f =>
    refine .inr ⟨[.readFailed (s.readSize c.mode)], .failed (.read f), fun t _ => ⟨t, ?_⟩⟩
    rw [hstep, listen, Stream.read_noInput]
  | timeUp =>
    obtain ⟨l, hl⟩ := Option.isSome_iff_exists.mp h
    refine .inr ⟨[], .failed (.idle (c.idle.getD ⟨0⟩)), fun t ht =>
      ⟨{ timeUp.before t with left := t.left - l }, ?_⟩⟩
    rw [hstep, listen, hl, Stream.read_timeUp (ht l hl)]
  | output | noOutput => simp at h

/-- **An answer counts for itself.** -/
theorem Answer.steady_of_suits (h : a.suits c s = true) : a.Steady c s := by
  cases hp : s.phase with
  | replying rest last => exact steady_of_replying hp h
  | listening | draining => exact steady_of_listening (by simp [hp]) h

theorem Stream.outlasts_limit (c : Config) : ({ left := c.limit.getD 0 } : Stream).Outlasts c := by
  intro l hl
  simp [Option.mem_def.mp hl]

theorem Answer.outlasts_before (h : t.Outlasts c) : (a.before t).Outlasts c := by
  cases a <;> exact h

end Session

namespace Server

/-- All that a server has done that sees one thing after the other. -/
inductive Driven (config : Session.Config) : List Act → State → Prop where
  | start : Driven config State.opening {}
  | see {acts more : List Act} {s s' : State} {seen : Seen} (h : Driven config acts s)
      (hs : s.see config seen = some (more, s')) : Driven config (acts ++ more) s'

/-- The same server, with `t` still to come over its connection. -/
def State.onto (t : Session.Stream) (s : State) : State :=
  match s.phase with
  | .serving c session _ => { s with phase := .serving c session t }
  | _ => s

variable {config : Session.Config} {acts more : List Act} {s s' : State} {c : Connection}
  {session : Session.State} {t u : Session.Stream} {a : Session.Answer} {f : Fault} {peer : Peer}
  {coming : List Arrival} {w : World}

namespace State

theorem onto_of_waiting (h : s.phase = .waiting) : s.onto t = s := by
  simp [onto, h]

theorem onto_of_serving (h : s.phase = .serving c session u) :
    s.onto t = { s with phase := .serving c session t } := by
  simp [onto, h]

theorem onto_onto (t u : Session.Stream) (s : State) : (s.onto u).onto t = s.onto t := by
  cases hp : s.phase <;> simp [onto, hp]

theorem stop_onto (t : Session.Stream) (s : State) :
    (s.onto t).stop = (s.stop.1, s.stop.2.onto t) := by
  cases hp : s.phase <;> simp [onto, stop, hp]

/-! ## What is seen -/

theorem see_arrived (h : s.see config (.arrived peer) = some (more, s')) :
    s.phase = .waiting ∧ s.accept peer {} = (more, s') := by
  simp only [see] at h
  split at h
  · exact ⟨‹_›, Option.some.inj h⟩
  · cases h

theorem see_missed (h : s.see config (.missed f) = some (more, s')) :
    s.phase = .waiting ∧ s.miss f = (more, s') := by
  simp only [see] at h
  split at h
  · exact ⟨‹_›, Option.some.inj h⟩
  · cases h

theorem see_answered (h : s.see config (.answered a) = some (more, s')) :
    ∃ c session u, s.phase = .serving c session u ∧ a.suits config session = true ∧
      { s with phase := .serving c session (a.stream config) }.advance config =
        some (more, s') := by
  simp only [see] at h
  split at h
  · split at h
    · exact ⟨_, _, _, ‹_›, ‹_›, h⟩
    · cases h
  · cases h

/-- An answer leads to one turn, on whatever stream it is given. -/
theorem advance_of_suits (s : State) (c : Connection) (ha : a.suits config session = true) :
    ∃ (more : List Act) (s' : State), ∀ t : Session.Stream, t.Outlasts config →
      { s with phase := .serving c session (a.before t) }.advance config =
        some (more, s'.onto t) := by
  rcases a.steady_of_suits ha with ⟨entries, session', hgoes⟩ | ⟨entries, o, hends⟩
  · refine ⟨[.calls c entries], { s with phase := .serving c session' {} }, fun t ht => ?_⟩
    simp [advance, hgoes t ht, onto]
  · refine ⟨[.calls c entries, .finishes c o, .closes c true, .awaits],
      { s with phase := .waiting }, fun t ht => ?_⟩
    obtain ⟨u, hstep⟩ := hends t ht
    simp [advance, hstep, onto]

theorem advance_before (ha : a.suits config session = true) (ht : t.Outlasts config)
    (h : { s with phase := .serving c session (a.stream config) }.advance config =
      some (more, s')) :
    { s with phase := .serving c session (a.before t) }.advance config =
      some (more, s'.onto t) := by
  obtain ⟨more', s₀, hall⟩ := advance_of_suits s c ha
  obtain ⟨rfl, rfl⟩ := Prod.mk.inj (Option.some.inj
    (h.symm.trans (hall _ (Session.Stream.outlasts_limit config))))
  rw [hall t ht, onto_onto]

/-- A server is never at a loss for an answer that its session can get. -/
theorem see_isSome_of_suits (hp : s.phase = .serving c session u)
    (ha : a.suits config session = true) : (s.see config (.answered a)).isSome := by
  obtain ⟨more, s', hall⟩ := advance_of_suits s c ha
  simp only [see, hp, ha, if_true]
  rw [Session.Answer.stream, hall _ (Session.Stream.outlasts_limit config), Option.isSome_some]

end State

/-! ## Histories -/

/-- Whether the request comes now or has been there before, it can be seen. -/
theorem History.stop (h : History config coming acts w) :
    ∃ asked, History config coming (acts ++ w.server.stop.1)
      { w with server := w.server.stop.2, asked } := by
  by_cases hp : w.server.phase = .stopped
  · refine ⟨w.asked, ?_⟩
    simpa [State.stop, hp] using h
  · cases hw : w.asked with
    | true => exact ⟨true, hw ▸ h.turn (.stop hw hp)⟩
    | false =>
      have hasked : History config coming acts { w with asked := true } := by
        simpa using h.turn (.ask hw)
      exact ⟨true, hasked.turn (.stop rfl hp)⟩

/-- **What a driven server does, a world can lead to.** The arrivals and streams of that world
bring what the server has seen, and may go on in any way. -/
theorem Driven.history (h : Driven config acts s) (ht : t.Outlasts config)
    (later : List Arrival) :
    ∃ coming asked, History config coming acts ⟨s.onto t, later, asked⟩ := by
  induction h generalizing t later with
  | start => exact ⟨later, false, .start⟩
  | @see acts more s s' seen _ hs ih =>
    cases seen with
    | asked =>
      obtain ⟨coming, asked, hist⟩ := ih ht later
      obtain ⟨asked', hstop⟩ := hist.stop
      rw [State.stop_onto, Option.some.inj hs] at hstop
      exact ⟨coming, asked', hstop⟩
    | arrived peer =>
      obtain ⟨hp, haccept⟩ := State.see_arrived hs
      obtain ⟨coming, asked, hist⟩ := ih ht (.connection peer t :: later)
      rw [State.onto_of_waiting hp] at hist
      cases haccept
      exact ⟨coming, asked, hist.turn (.accept hp rfl)⟩
    | missed f =>
      obtain ⟨hp, hmiss⟩ := State.see_missed hs
      obtain ⟨coming, asked, hist⟩ := ih ht (.fault f :: later)
      rw [State.onto_of_waiting hp] at hist
      cases hmiss
      refine ⟨coming, asked, ?_⟩
      rw [State.onto_of_waiting hp]
      exact hist.turn (.miss hp rfl)
    | answered a =>
      obtain ⟨c, session, u, hp, ha, hadvance⟩ := State.see_answered hs
      obtain ⟨coming, asked, hist⟩ := ih (a.outlasts_before ht) later
      rw [State.onto_of_serving hp] at hist
      exact ⟨coming, asked, hist.turn (.advance (State.advance_before ha ht hadvance))⟩

end Server

end SerialAck

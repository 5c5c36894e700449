/-
Sessions call by call. `Call` and `LastCall` list what one call of a session can be, and
`step_goes_iff` and `step_ends_iff` say that these are all; `Calls` is any number of calls that
let the session go on, and `run_cases` takes a whole run apart into such calls and what ended it.
-/
import SerialAck.Session.Run

namespace SerialAck.Session

/-- A call after which the session goes on. -/
inductive Call (c : Config) (s : State) (t : Stream) : List Entry → State → Stream → Prop where
  | read {bytes t'} (hp : s.phase = .listening)
      (hr : t.read c.mode.size c.limit = (.got bytes, t')) (hb : bytes ≠ []) :
      Call c s t (.read c.mode.size bytes :: (State.report c.mode bytes).map .log)
        (State.reply { s with bytesRead := s.bytesRead + bytes.length } c.ack
          (c.mode.endsWith bytes)) t'
  | drain {n bytes t'} (hp : s.phase = .draining n)
      (hr : t.read ReadMode.chunkSize c.limit = (.got bytes, t')) (hb : bytes ≠ []) :
      Call c s t [.read ReadMode.chunkSize bytes]
        { s with phase := .draining (n + bytes.length) } t'
  | write {rest last taken t'} (hp : s.phase = .replying rest last)
      (hw : t.write rest = (.took taken, t')) (ht : taken ≠ []) :
      Call c s t [.write rest.length taken] (s.reply (rest.drop taken.length) last) t'
  | retry {rest last f t'} (hp : s.phase = .replying rest last)
      (hw : t.write rest = (.failed f, t')) (hk : f.kind = .interrupted) :
      Call c s t [.writeFailed rest.length] s t'

/-- A call that ends the session. -/
inductive LastCall (c : Config) (s : State) (t : Stream) :
    List Entry → Outcome → Stream → Prop where
  | closed {t'} (hp : s.phase = .listening)
      (hr : t.read c.mode.size c.limit = (.got [], t')) :
      LastCall c s t [.read c.mode.size [], .log (State.closing c.mode)]
        (.finished ⟨.peerClosed, s.bytesRead, s.acksSent⟩) t'
  | drained {n t'} (hp : s.phase = .draining n)
      (hr : t.read ReadMode.chunkSize c.limit = (.got [], t')) :
      LastCall c s t
        (.read ReadMode.chunkSize [] :: (if n = 0 then [] else [.discarded n]).map .log)
        (.finished ⟨.terminator, s.bytesRead, s.acksSent⟩) t'
  | readFailed {f t'} (hp : ∀ rest last, s.phase ≠ .replying rest last)
      (hr : t.read (s.readSize c.mode) c.limit = (.failed f, t')) :
      LastCall c s t [.readFailed (s.readSize c.mode)] (.failed (.read f)) t'
  | timedOut {t'} (hp : ∀ rest last, s.phase ≠ .replying rest last)
      (hr : t.read (s.readSize c.mode) c.limit = (.timedOut, t')) :
      LastCall c s t [] (.failed (.idle (c.idle.getD ⟨0⟩))) t'
  | writeZero {rest last t'} (hp : s.phase = .replying rest last)
      (hw : t.write rest = (.took [], t')) :
      LastCall c s t [.write rest.length []] (.failed (.write (.ofKind .writeZero))) t'
  | writeFailed {rest last f t'} (hp : s.phase = .replying rest last)
      (hw : t.write rest = (.failed f, t')) (hk : f.kind ≠ .interrupted) :
      LastCall c s t [.writeFailed rest.length] (.failed (.write f)) t'

/-- Calls one after the other, with all that they leave in the trace. -/
inductive Calls (c : Config) (s : State) (t : Stream) : List Entry → State → Stream → Prop where
  | none : Calls c s t [] s t
  | more {trace entries s' t' s'' t''} (h : Calls c s t trace s' t')
      (hc : Call c s' t' entries s'' t'') : Calls c s t (trace ++ entries) s'' t''

namespace Progress

def entries : Progress → List Entry
  | goes entries _ _ | ends entries _ _ => entries
  | stuck _ => []

def stream : Progress → Stream
  | goes _ _ stream | ends _ _ stream | stuck stream => stream

end Progress

/-- The next call is a read. -/
def State.Reads (s : State) : Prop :=
  ∀ rest last, s.phase ≠ .replying rest last

variable {c : Config} {s s' s'' : State} {t t' t'' : Stream} {entries trace : List Entry}

theorem Call.of_speak {rest : List UInt8} {last : Bool} (hp : s.phase = .replying rest last)
    (h : speak s rest last t = .goes entries s' t') : Call c s t entries s' t' := by
  unfold speak at h
  split at h
  · rename_i taken u hw
    rw [Turn.progress_eq_goes] at h
    obtain ⟨ht, rfl, rfl⟩ := h
    unfold State.sent at ht
    split at ht
    · simp at ht
    · rename_i hne
      simp only [Turn.goes.injEq] at ht
      exact ht ▸ .write hp hw hne
  · rename_i f u hw
    split at h
    · rename_i hk
      simp only [Progress.goes.injEq] at h
      obtain ⟨rfl, rfl, rfl⟩ := h
      exact .retry hp hw hk
    · simp at h
  · simp at h

theorem Call.of_listen (hp : ∀ rest last, s.phase ≠ .replying rest last)
    (h : listen c s t = .goes entries s' t') : Call c s t entries s' t' := by
  unfold listen at h
  split at h
  · rename_i bytes u hr
    rw [Turn.progress_eq_goes] at h
    obtain ⟨ht, rfl, rfl⟩ := h
    have hb := State.ne_nil_of_receive ht
    cases hph : s.phase with
    | listening =>
      simp only [State.readSize, hph] at hr ⊢
      simp only [State.receive, hph, if_neg hb, Turn.goes.injEq] at ht ⊢
      exact ht ▸ .read hph hr hb
    | replying rest last => exact absurd hph (hp rest last)
    | draining n =>
      simp only [State.readSize, hph] at hr ⊢
      simp only [State.receive, hph, if_neg hb, Turn.goes.injEq] at ht ⊢
      exact ht ▸ .drain hph hr hb
  all_goals simp at h

theorem LastCall.of_speak {rest : List UInt8} {last : Bool} {o : Outcome}
    (hp : s.phase = .replying rest last) (h : speak s rest last t = .ends entries o t') :
    LastCall c s t entries o t' := by
  unfold speak at h
  split at h
  · rename_i taken u hw
    unfold State.sent at h
    split at h
    · rename_i ht
      simp only [Turn.progress, Progress.ends.injEq] at h
      obtain ⟨rfl, rfl, rfl⟩ := h
      subst ht
      exact .writeZero hp hw
    · simp [Turn.progress] at h
  · rename_i f u hw
    split at h
    · simp at h
    · rename_i hk
      simp only [Progress.ends.injEq] at h
      obtain ⟨rfl, rfl, rfl⟩ := h
      exact .writeFailed hp hw hk
  · simp at h

theorem LastCall.of_listen {o : Outcome} (hp : ∀ rest last, s.phase ≠ .replying rest last)
    (h : listen c s t = .ends entries o t') : LastCall c s t entries o t' := by
  unfold listen at h
  split at h
  · rename_i bytes u hr
    cases hph : s.phase with
    | listening =>
      by_cases hb : bytes = []
      · subst hb
        simp only [State.receive, hph, State.readSize, if_true, State.finish, Turn.progress,
          Progress.ends.injEq] at h hr
        obtain ⟨rfl, rfl, rfl⟩ := h
        exact .closed hph hr
      · simp [State.receive, hph, hb, Turn.progress] at h
    | replying rest last => exact absurd hph (hp rest last)
    | draining n =>
      by_cases hb : bytes = []
      · subst hb
        simp only [State.receive, hph, State.readSize, if_true, State.finish, Turn.progress,
          Progress.ends.injEq] at h hr
        obtain ⟨rfl, rfl, rfl⟩ := h
        exact .drained hph hr
      · simp [State.receive, hph, hb, Turn.progress] at h
  · rename_i f u hr
    simp only [Progress.ends.injEq] at h
    obtain ⟨rfl, rfl, rfl⟩ := h
    exact .readFailed hp hr
  · rename_i u hr
    simp only [Progress.ends.injEq] at h
    obtain ⟨rfl, rfl, rfl⟩ := h
    exact .timedOut hp hr
  · simp at h

theorem step_goes_iff : step c s t = .goes entries s' t' ↔ Call c s t entries s' t' := by
  constructor
  · intro h
    unfold step at h
    split at h
    · rename_i rest last hp
      exact .of_speak hp h
    · rename_i hp
      exact .of_listen hp h
  · rintro (⟨hp, hr, hb⟩ | ⟨hp, hr, hb⟩ | ⟨hp, hw, ht⟩ | ⟨hp, hw, hk⟩)
    · simp [step, listen, State.readSize, State.receive, Turn.progress, hp, hr, hb]
    · simp [step, listen, State.readSize, State.receive, Turn.progress, hp, hr, hb]
    · simp [step, speak, State.sent, Turn.progress, hp, hw, ht]
    · simp [step, speak, hp, hw, hk]

theorem step_ends_iff {o : Outcome} :
    step c s t = .ends entries o t' ↔ LastCall c s t entries o t' := by
  constructor
  · intro h
    unfold step at h
    split at h
    · rename_i rest last hp
      exact .of_speak hp h
    · rename_i hp
      exact .of_listen hp h
  · rintro (⟨hp, hr⟩ | ⟨hp, hr⟩ | ⟨hp, hr⟩ | ⟨hp, hr⟩ | ⟨hp, hw⟩ | ⟨hp, hw, hk⟩)
    · simp [step, listen, State.readSize, State.receive, State.finish, Turn.progress, hp, hr]
    · simp [step, listen, State.readSize, State.receive, State.finish, Turn.progress, hp, hr]
    · cases hph : s.phase <;> simp_all [step, listen]
    · cases hph : s.phase <;> simp_all [step, listen]
    · simp [step, speak, State.sent, Turn.progress, hp, hw]
    · simp [step, speak, hp, hw, hk]

theorem State.reads_acked (s : State) (last : Bool) : (s.acked last).Reads := by
  intro rest last' h
  cases last <;> simp [acked] at h

@[simp] theorem Turn.entries_progress (entries : List Entry) (stream : Stream) (turn : Turn) :
    (turn.progress entries stream).entries = entries := by
  cases turn <;> rfl

@[simp] theorem Turn.stream_progress (entries : List Entry) (stream : Stream) (turn : Turn) :
    (turn.progress entries stream).stream = stream := by
  cases turn <;> rfl

theorem State.replying_or_reads (s : State) :
    (∃ rest last, s.phase = .replying rest last) ∨ s.Reads := by
  by_cases hp : ∃ rest last, s.phase = .replying rest last
  · exact .inl hp
  · exact .inr fun rest last h => hp ⟨rest, last, h⟩

theorem step_of_reads (hp : s.Reads) (t : Stream) :
    step c s t = listen c s t := by
  unfold step
  split
  · rename_i rest last hph
    exact absurd hph (hp rest last)
  · rfl

theorem step_of_replying {rest : List UInt8} {last : Bool} (hp : s.phase = .replying rest last)
    (t : Stream) : step c s t = speak s rest last t := by
  simp only [step, hp]

theorem Turn.progress_ne_stuck (entries : List Entry) (stream : Stream) (turn : Turn) :
    turn.progress entries stream ≠ .stuck t := by
  cases turn <;> simp [progress]

/-- A session is stuck in a read or in a write. -/
theorem step_stuck_iff : step c s t = .stuck t' ↔
    (s.Reads ∧ t.read (s.readSize c.mode) c.limit = (.stuck, t')) ∨
      ∃ rest last, s.phase = .replying rest last ∧ t.write rest = (.stuck, t') := by
  rcases s.replying_or_reads with ⟨rest, last, hp⟩ | hp
  · have hn : ¬ s.Reads := fun hr => hr rest last hp
    rw [step_of_replying hp, speak]
    split <;> rename_i hw
    · simp [Turn.progress_ne_stuck, hn, hp, hw]
    · split <;> simp [hn, hp, hw]
    · simp [hn, hp, hw]
  · have hn : ∀ rest last, s.phase ≠ .replying rest last := hp
    rw [step_of_reads hp, listen]
    split <;> rename_i hr
    · simp [Turn.progress_ne_stuck, hn, hr]
    all_goals simp [hp, hn, hr]

/-! ## Many calls -/

theorem Call.calls (h : Call c s t entries s' t') : Calls c s t entries s' t' := by
  simpa using Calls.none.more h

theorem Calls.trans (h : Calls c s t trace s' t') {more : List Entry}
    (h' : Calls c s' t' more s'' t'') : Calls c s t (trace ++ more) s'' t'' := by
  induction h' with
  | none => simpa using h
  | more _ hc ih => simpa using ih.more hc

theorem Run.prepend_prepend (first second : List Entry) (r : Run) :
    (r.prepend second).prepend first = r.prepend (first ++ second) := by
  simp [Run.prepend]

theorem run_of_call (h : Call c s t entries s' t') : run c s t = (run c s' t').prepend entries := by
  rw [run]
  split <;> rename_i hs <;> simp [step_goes_iff.mpr h] at hs
  obtain ⟨rfl, rfl, rfl⟩ := hs
  rfl

theorem run_of_lastCall {o : Outcome} (h : LastCall c s t entries o t') :
    run c s t = ⟨entries, .ended o, t'⟩ := by
  rw [run]
  split <;> rename_i hs <;> simp [step_ends_iff.mpr h] at hs
  obtain ⟨rfl, rfl, rfl⟩ := hs
  rfl

theorem run_of_stuck (h : step c s t = .stuck t') : run c s t = ⟨[], .stuck, t'⟩ := by
  rw [run]
  split <;> rename_i hs <;> simp [h] at hs
  rw [hs]

theorem step_ne_stuck (h : (run c s t).result ≠ .stuck) (u : Stream) : step c s t ≠ .stuck u := by
  intro hs
  rw [run_of_stuck hs] at h
  exact h rfl

/-- A run begins with its next call. -/
theorem entries_prefix_trace (c : Config) (s : State) (t : Stream) :
    (step c s t).entries <+: (run c s t).trace := by
  rw [run]
  split <;> rename_i hs <;> rw [hs]
  · exact List.prefix_append _ _
  · exact List.prefix_rfl
  · exact List.prefix_rfl

theorem Calls.run_eq (h : Calls c s t trace s' t') :
    run c s t = (run c s' t').prepend trace := by
  induction h with
  | none => rfl
  | more _ hc ih => rw [ih, run_of_call hc, Run.prepend_prepend]

theorem State.ne_nil_of_reply {rest left : List UInt8} {last last' : Bool}
    (h : (s.reply rest last).phase = .replying left last') : left ≠ [] := by
  unfold reply at h
  split at h
  · cases last <;> simp [acked] at h
  · rename_i hr
    simp only [Phase.replying.injEq] at h
    exact h.1 ▸ hr

/-- A session that has nothing left to write does not go on writing. -/
theorem Calls.rest_ne_nil (h : Calls c {} t trace s t') {rest : List UInt8} {last : Bool}
    (hp : s.phase = .replying rest last) : rest ≠ [] := by
  induction h with
  | none => simp at hp
  | more _ hc ih =>
    cases hc with
    | read | write => exact State.ne_nil_of_reply hp
    | drain => simp at hp
    | retry => exact ih hp

/-- A run is calls that let the session go on, and then one that does not. -/
theorem run_cases (c : Config) (s : State) (t : Stream) :
    ∃ trace s' t', Calls c s t trace s' t' ∧
      ((∃ entries o u, LastCall c s' t' entries o u ∧
          run c s t = ⟨trace ++ entries, .ended o, u⟩) ∨
        ∃ u, step c s' t' = .stuck u ∧ run c s t = ⟨trace, .stuck, u⟩) := by
  fun_induction run c s t with
  | case1 s t entries s' t' hs ih =>
    have hc := (step_goes_iff.mp hs).calls
    obtain ⟨trace, s₁, t₁, hcs, ⟨last, o, u, hl, hr⟩ | ⟨u, hu, hr⟩⟩ := ih
    · exact ⟨_, s₁, t₁, hc.trans hcs, .inl ⟨last, o, u, hl, by simp [hr, Run.prepend]⟩⟩
    · exact ⟨_, s₁, t₁, hc.trans hcs, .inr ⟨u, hu, by simp [hr, Run.prepend]⟩⟩
  | case2 s t entries o t' hs =>
    exact ⟨[], s, t, .none, .inl ⟨entries, o, t', step_ends_iff.mp hs, rfl⟩⟩
  | case3 s t t' hs => exact ⟨[], s, t, .none, .inr ⟨t', hs, rfl⟩⟩

/-- A call of the session at this point leaves `entries`. -/
def Leaves (c : Config) (s : State) (t : Stream) (entries : List Entry) : Prop :=
  (∃ s' t', Call c s t entries s' t') ∨ ∃ o t', LastCall c s t entries o t'

/-- Each call leaves at most one entry of its own, and then what is logged. -/
theorem Leaves.shape (h : Leaves c s t entries) :
    entries = [] ∨ ∃ e, ∃ events : List Event,
      (∀ event, e ≠ .log event) ∧ entries = e :: events.map .log := by
  rcases h with ⟨s', t', h⟩ | ⟨o, t', h⟩
  · cases h
    case read bytes _ _ _ => exact .inr ⟨_, State.report c.mode bytes, by simp, rfl⟩
    all_goals exact .inr ⟨_, [], by simp, rfl⟩
  · cases h
    case timedOut => exact .inl rfl
    case closed => exact .inr ⟨_, [State.closing c.mode], by simp, rfl⟩
    case drained n _ _ => exact .inr ⟨_, if n = 0 then [] else [.discarded n], by simp, rfl⟩
    all_goals exact .inr ⟨_, [], by simp, rfl⟩

/-- A call comes first in what it leaves. -/
theorem Leaves.eq_nil_of_call {q : List Entry} {e : Entry} (h : Leaves c s t entries)
    (hq : q ++ [e] <+: entries) (he : ∀ event, e ≠ .log event) : q = [] := by
  rcases h.shape with rfl | ⟨first, events, -, rfl⟩
  · simp at hq
  · cases q with
    | nil => rfl
    | cons a q =>
      have hmem : e ∈ events.map Entry.log :=
        (List.cons_prefix_cons.mp hq).2.sublist.subset (by simp)
      obtain ⟨event, -, rfl⟩ := List.mem_map.mp hmem
      exact absurd rfl (he event)

/-- What ends with `e` either lies within the first part or reaches into the second. -/
theorem prefix_append_cases {α : Type} {p first second : List α} {e : α}
    (h : p ++ [e] <+: first ++ second) :
    p ++ [e] <+: first ∨ ∃ q, p = first ++ q ∧ q ++ [e] <+: second := by
  by_cases hl : p ++ [e] <+: first
  · exact .inl hl
  · have hf := (List.prefix_or_prefix_of_prefix h (List.prefix_append first second)).resolve_left hl
    have hp : first <+: p :=
      (List.prefix_concat_iff.mp hf).resolve_left fun he => hl (he ▸ List.prefix_rfl)
    obtain ⟨q, rfl⟩ := hp
    rw [List.append_assoc, List.prefix_append_right_inj] at h
    exact .inr ⟨q, rfl, h⟩

theorem Calls.call_of_entry {p : List Entry} {e : Entry} (h : Calls c s t trace s' t')
    (hp : p ++ [e] <+: trace) : ∃ before s₁ t₁ q entries s₂ t₂, Calls c s t before s₁ t₁ ∧
      Call c s₁ t₁ entries s₂ t₂ ∧ p = before ++ q ∧ q ++ [e] <+: entries := by
  induction h with
  | none => simp at hp
  | @more trace entries s₁ t₁ s₂ t₂ h hc ih =>
    rcases prefix_append_cases hp with hl | ⟨q, rfl, hq⟩
    · exact ih hl
    · exact ⟨trace, s₁, t₁, q, entries, s₂, t₂, h, hc, rfl, hq⟩

/-- Each entry of a run comes from a call, after the calls that have left what is before it. -/
theorem leaves_of_entry {p : List Entry} {e : Entry} (h : p ++ [e] <+: (run c s t).trace) :
    ∃ before s₁ t₁ q entries, Calls c s t before s₁ t₁ ∧ Leaves c s₁ t₁ entries ∧
      p = before ++ q ∧ q ++ [e] <+: entries := by
  obtain ⟨trace, s', t', hcs, ⟨entries, o, u, hl, hr⟩ | ⟨u, -, hr⟩⟩ := run_cases c s t <;>
    simp only [hr] at h
  · rcases prefix_append_cases h with h | ⟨q, rfl, hq⟩
    · obtain ⟨before, s₁, t₁, q, entries, s₂, t₂, hb, hc, hp, hq⟩ := hcs.call_of_entry h
      exact ⟨before, s₁, t₁, q, entries, hb, .inl ⟨s₂, t₂, hc⟩, hp, hq⟩
    · exact ⟨trace, s', t', q, entries, hcs, .inr ⟨o, u, hl⟩, rfl, hq⟩
  · obtain ⟨before, s₁, t₁, q, entries, s₂, t₂, hb, hc, hp, hq⟩ := hcs.call_of_entry h
    exact ⟨before, s₁, t₁, q, entries, hb, .inl ⟨s₂, t₂, hc⟩, hp, hq⟩

/-- The same of an entry at a place in the trace. -/
theorem leaves_of_split {p q : List Entry} {e : Entry} (h : (run c s t).trace = p ++ e :: q) :
    ∃ before s₁ t₁ q' entries, Calls c s t before s₁ t₁ ∧ Leaves c s₁ t₁ entries ∧
      p = before ++ q' ∧ q' ++ [e] <+: entries :=
  leaves_of_entry ⟨q, by rw [h, List.append_assoc, List.singleton_append]⟩

end SerialAck.Session

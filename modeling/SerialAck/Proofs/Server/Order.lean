/-
In which order a server acts. `Follows` says which acts there are at each place of its loop and
where they lead; `Path` is any number of them, and every history is one. What holds of all acts
that come one after the other on a path is then shown act by act.
-/
import SerialAck.Server.Lifecycle
import SerialAck.Proofs.Session.Calls

namespace SerialAck.Server

/-- Where a server is between two acts, and with which connection. -/
inductive Place where
  /-- At the top of its loop. -/
  | free
  /-- Waiting for a connection, or for the session of the one it has. -/
  | attending (c : Option Connection)
  | done (c : Connection)
  | stopping (c : Option Connection)
  | leaving (c : Option Connection)
  | gone

inductive Follows : Place → Act → Place → Prop where
  | awaits : Follows .free .awaits (.attending none)
  | looks (c : Option Connection) : Follows (.attending c) (.looks false) (.attending c)
  | accepts (c : Connection) : Follows (.attending none) (.accepts c) (.attending (some c))
  | misses (f : Fault) : Follows (.attending none) (.misses f) .free
  | calls (c : Connection) (entries : List Session.Entry) :
      Follows (.attending (some c)) (.calls c entries) (.attending (some c))
  | finishes (c : Connection) (o : Session.Outcome) :
      Follows (.attending (some c)) (.finishes c o) (.done c)
  | closes (c : Connection) : Follows (.done c) (.closes c true) .free
  | stops (c : Option Connection) : Follows (.attending c) (.looks true) (.stopping c)
  | leaves (c : Option Connection) : Follows (.stopping c) (.leaves c) (.leaving c)
  | drops (c : Connection) : Follows (.leaving (some c)) (.closes c false) (.leaving none)
  | closesListener : Follows (.leaving none) .closesListener .gone

inductive Path : Place → List Act → Place → Prop where
  | nil {p : Place} : Path p [] p
  | cons {p q r : Place} {act : Act} {acts : List Act} (h : Follows p act q)
      (hp : Path q acts r) : Path p (act :: acts) r

def Phase.place : Phase → Place
  | .waiting => .attending none
  | .serving c .. => .attending (some c)
  | .stopped => .gone

variable {config : Session.Config} {coming : List Arrival} {acts more : List Act}
  {w w' : World} {p q r : Place} {c : Connection}

/-! ## Turns -/

/-- What comes of the next call of a session. -/
theorem State.advance_cases {s s' : State} (h : s.advance config = some (acts, s')) :
    ∃ c session stream, s.phase = .serving c session stream ∧
      ((∃ entries session' stream',
          Session.Call config session stream entries session' stream' ∧
          acts = [.calls c entries] ∧ s' = { s with phase := .serving c session' stream' }) ∨
        ∃ entries o stream', Session.LastCall config session stream entries o stream' ∧
          acts = [.calls c entries, .finishes c o, .closes c true, .awaits] ∧
          s' = { s with phase := .waiting }) := by
  unfold advance at h
  split at h
  · rename_i c session stream hp
    refine ⟨c, session, stream, hp, ?_⟩
    split at h
    · rename_i entries session' stream' hs
      simp only [Option.some.injEq, Prod.mk.injEq] at h
      exact .inl ⟨entries, session', stream', Session.step_goes_iff.mp hs, h.1.symm, h.2.symm⟩
    · rename_i entries o stream' hs
      simp only [Option.some.injEq, Prod.mk.injEq] at h
      exact .inr ⟨entries, o, stream', Session.step_ends_iff.mp hs, h.1.symm, h.2.symm⟩
    · simp at h
  · simp at h

/-- Being asked is all that a stopped server can still meet with. -/
theorem Turn.asked_of_stopped (h : Turn config w more w') (hp : w.server.phase = .stopped) :
    w.asked = false := by
  cases h with
  | ask h => exact h
  | look _ hn => exact absurd hp hn
  | accept hw _ => simp [hp] at hw
  | miss hw _ => simp [hp] at hw
  | advance ha =>
    obtain ⟨c, session, stream, hs, -⟩ := State.advance_cases ha
    simp [hp] at hs
  | stop _ hn => exact absurd hp hn

theorem History.asked_of_stopped (h : History config coming acts w)
    (hp : w.server.phase = .stopped) : w.asked = true := by
  cases h with
  | start => simp at hp
  | turn h ht =>
    cases ht with
    | ask _ => rfl
    | look _ hn => exact absurd hp hn
    | accept _ _ => simp [State.accept] at hp
    | miss hw _ => simp [State.miss, hw] at hp
    | advance ha =>
      obtain ⟨c, session, stream, -, ⟨_, _, _, -, -, rfl⟩ | ⟨_, _, _, -, -, rfl⟩⟩ :=
        State.advance_cases ha <;> simp at hp
    | stop ha _ => exact ha

/-- A server that has stopped stays as it is. -/
theorem History.no_turn (h : History config coming acts w) (hp : w.server.phase = .stopped) :
    ¬ Turn config w more w' := by
  intro ht
  have hf := ht.asked_of_stopped hp
  have ha := h.asked_of_stopped hp
  simp [hf] at ha

/-- A server that has stopped did so because it saw that it is asked to, and left nothing open. -/
theorem History.stop_acts (h : History config coming acts w) (hp : w.server.phase = .stopped) :
    ∃ before c, acts = before ++
      (.looks true :: .leaves c :: (c.toList.map (.closes · false) ++ [.closesListener])) := by
  cases h with
  | start => simp at hp
  | @turn acts _ w₀ _ h ht =>
    cases ht with
    | ask ha =>
      have := h.asked_of_stopped hp
      simp [ha] at this
    | look _ hn => exact absurd hp hn
    | accept _ _ => simp [State.accept] at hp
    | miss hw _ => simp [State.miss, hw] at hp
    | advance ha =>
      obtain ⟨c, session, stream, -, ⟨_, _, _, -, -, rfl⟩ | ⟨_, _, _, -, -, rfl⟩⟩ :=
        State.advance_cases ha <;> simp at hp
    | stop _ hn =>
      cases hph : w₀.server.phase with
      | waiting => exact ⟨acts, none, by simp [State.stop, hph]⟩
      | serving c session stream => exact ⟨acts, some c, by simp [State.stop, hph]⟩
      | stopped => exact absurd hph hn

/-! ## Paths -/

theorem Path.append (h : Path p acts q) (h' : Path q more r) : Path p (acts ++ more) r := by
  induction h with
  | nil => exact h'
  | cons hf _ ih => exact .cons hf (ih h')

theorem Path.split {acts : List Act} (h : Path p (acts ++ more) r) :
    ∃ q, Path p acts q ∧ Path q more r := by
  induction acts generalizing p with
  | nil => exact ⟨p, .nil, h⟩
  | cons act acts ih =>
    cases h with
    | cons hf hp =>
      obtain ⟨q, ha, hm⟩ := ih hp
      exact ⟨q, .cons hf ha, hm⟩

/-- What a server does in a turn leads from where it was to where it is afterwards. -/
theorem Turn.path (h : Turn config w more w') :
    Path w.server.phase.place more w'.server.phase.place := by
  cases h with
  | ask _ => exact .nil
  | look _ hn =>
    cases hp : w.server.phase with
    | waiting => exact .cons (.looks none) .nil
    | serving c _ _ => exact .cons (.looks (some c)) .nil
    | stopped => exact absurd hp hn
  | accept hp _ =>
    rw [hp]
    exact .cons (.accepts _) .nil
  | miss hp _ =>
    simp only [State.miss, hp]
    exact .cons (.misses _) (.cons .awaits .nil)
  | advance ha =>
    obtain ⟨c, session, stream, hp, ⟨entries, _, _, -, rfl, rfl⟩ | ⟨entries, o, _, -, rfl, rfl⟩⟩ :=
      State.advance_cases ha
    · rw [hp]
      exact .cons (.calls c entries) .nil
    · rw [hp]
      exact .cons (.calls c entries) (.cons (.finishes c o) (.cons (.closes c) (.cons .awaits .nil)))
  | stop _ hn =>
    cases hp : w.server.phase with
    | waiting =>
      simp only [State.stop, hp]
      exact .cons (.stops none) (.cons (.leaves none) (.cons .closesListener .nil))
    | serving c _ _ =>
      simp only [State.stop, hp]
      exact .cons (.stops (some c))
        (.cons (.leaves (some c)) (.cons (.drops c) (.cons .closesListener .nil)))
    | stopped => exact absurd hp hn

theorem History.path (h : History config coming acts w) :
    Path .free acts w.server.phase.place := by
  induction h with
  | start => exact .cons .awaits .nil
  | turn _ ht ih => exact ih.append ht.path

/-! ## What is open -/

/-- What is open after one more act. -/
def Act.keeps (held : List Connection) : Act → List Connection
  | .accepts c => c :: held
  | .closes c _ => held.erase c
  | _ => held

/-- The connections that have been accepted and not closed yet. -/
def openAfter (acts : List Act) : List Connection :=
  acts.foldl Act.keeps []

def Place.held : Place → List Connection
  | .attending c | .stopping c | .leaving c => c.toList
  | .done c => [c]
  | .free | .gone => []

theorem Place.length_held_le (p : Place) : p.held.length ≤ 1 := by
  cases p with
  | free | gone => exact Nat.zero_le 1
  | done c => exact Nat.le_refl 1
  | attending c | stopping c | leaving c => cases c <;> simp [held]

theorem Follows.held {act : Act} (h : Follows p act q) : Act.keeps p.held act = q.held := by
  cases h with
  | closes c | drops c => simp [Act.keeps, Place.held]
  | _ => rfl

theorem Path.held (h : Path p acts q) : acts.foldl Act.keeps p.held = q.held := by
  induction h with
  | nil => rfl
  | cons hf _ ih => rw [List.foldl_cons, hf.held, ih]

theorem Path.openAfter (h : Path .free acts q) : openAfter acts = q.held :=
  h.held

/-! ## Once the server has seen that it is asked to stop -/

/-- On the way out of the loop, or out of it. -/
def Place.ending : Place → Prop
  | .stopping _ | .leaving _ | .gone => True
  | _ => False

/-- What only a server does that has not yet seen that it is asked to stop, or is seeing it. -/
def Act.goesOn : Act → Prop
  | .awaits | .looks _ | .accepts _ => True
  | _ => False

theorem Path.ending (h : Path p acts q) (hp : p.ending) :
    q.ending ∧ ∀ act ∈ acts, ¬ act.goesOn := by
  induction h with
  | nil => exact ⟨hp, by simp⟩
  | cons hf _ ih =>
    cases hf with
    | leaves | drops | closesListener =>
      obtain ⟨hq, hm⟩ := ih trivial
      exact ⟨hq, by simpa [Act.goesOn] using hm⟩
    | _ => exact hp.elim

/-- What is open is closed once its session is over, or is open still, or the server stops. -/
theorem Path.closes_of_held (h : Path p acts q) (hc : c ∈ p.held) (hq : ¬ q.ending) :
    c ∈ q.held ∨ .closes c true ∈ acts := by
  induction h with
  | nil => exact .inl hc
  | cons hf hp ih =>
    cases hf with
    | closes d =>
      obtain rfl : c = d := by simpa [Place.held] using hc
      exact .inr (by simp)
    | stops | leaves | drops => exact absurd (hp.ending trivial).1 hq
    | awaits | accepts | misses | closesListener => simp [Place.held] at hc
    | looks | calls | finishes => simpa using ih (by simpa [Place.held] using hc) hq

theorem Path.closes_of_accepts (h : Path p acts q) (hc : .accepts c ∈ acts) (hq : ¬ q.ending) :
    c ∈ q.held ∨ .closes c true ∈ acts := by
  induction h with
  | nil => simp at hc
  | @cons p₁ q₁ r₁ act acts hf hp ih =>
    rcases List.mem_cons.mp hc with rfl | hc
    · cases hf
      simpa using hp.closes_of_held (by simp [Place.held]) hq
    · exact (ih hc hq).imp_right (List.mem_cons_of_mem _)

/-! ## What comes next -/

theorem Phase.place_ne_free (phase : Phase) : phase.place ≠ .free := by
  cases phase <;> simp [place]

theorem Phase.place_ne_done (phase : Phase) : phase.place ≠ .done c := by
  cases phase <;> simp [place]

theorem Phase.eq_stopped_of_ending {phase : Phase} (h : phase.place.ending) : phase = .stopped := by
  cases phase with
  | stopped => rfl
  | waiting | serving => exact h.elim

theorem Path.awaits_next (h : Path .free acts q) (hq : q ≠ .free) :
    ∃ more, acts = .awaits :: more := by
  cases h with
  | nil => exact absurd rfl hq
  | cons hf _ =>
    cases hf
    exact ⟨_, rfl⟩

theorem Path.closes_next (h : Path (.done c) acts q) (hd : q ≠ .done c) (hq : q ≠ .free) :
    ∃ more, acts = .closes c true :: .awaits :: more := by
  cases h with
  | nil => exact absurd rfl hd
  | cons hf hp =>
    cases hf
    obtain ⟨more, rfl⟩ := hp.awaits_next hq
    exact ⟨more, rfl⟩

/-! ## The moments of a history -/

theorem History.path_of_prefix {before : List Act} (h : History config coming acts w)
    (hb : before <+: acts) : ∃ p, Path .free before p := by
  obtain ⟨after, rfl⟩ := hb
  obtain ⟨p, hp, -⟩ := h.path.split
  exact ⟨p, hp⟩

theorem History.path_of_act {before after : List Act} {act : Act}
    (h : History config coming (before ++ act :: after) w) :
    ∃ p q, Path .free before p ∧ Follows p act q ∧ Path q after w.server.phase.place := by
  obtain ⟨p, hb, ha⟩ := h.path.split
  cases ha with
  | cons hf hq => exact ⟨p, _, hb, hf, hq⟩

/-- A connection is waited for at the top of the loop, and there only. -/
theorem History.path_of_awaits {before : List Act} (h : History config coming acts w)
    (hb : before ++ [.awaits] <+: acts) : Path .free before .free := by
  obtain ⟨after, rfl⟩ := hb
  rw [List.append_assoc] at h
  obtain ⟨p, q, hp, hf, -⟩ := h.path_of_act
  cases hf
  exact hp

end SerialAck.Server

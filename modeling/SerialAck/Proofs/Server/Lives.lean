/-
What becomes of each connection. Its acts among all those of the server are a session of its own:
accepted, served call by call, and closed, with nothing else in between. `Register` says so of
every connection that has been accepted so far, and each turn of the world keeps it.
-/
import SerialAck.Proofs.Server.Order

namespace SerialAck.Server

/-- The connections among the arrivals, with what comes over them. -/
def connections (coming : List Arrival) : List (Peer × Session.Stream) :=
  coming.filterMap fun
    | .connection peer stream => some (peer, stream)
    | .fault _ => none

def Act.connection? : Act → Option Connection
  | .accepts c | .calls c _ | .finishes c _ | .closes c _ => some c
  | .awaits | .looks _ | .misses _ | .leaves _ | .closesListener => none

/-- The acts that are about `c`. -/
def about (c : Connection) (acts : List Act) : List Act :=
  acts.filter (·.connection? = some c)

/-- The acts about a connection over which `stream` comes, of a server that is in the phase: its
session is still going on, or has been gone through to its end, or was cut short by the stop. -/
inductive Life (config : Session.Config) (c : Connection) (stream : Session.Stream) :
    Phase → List Act → Prop where
  | serving {calls : List (List Session.Entry)} {s t}
      (h : Session.Calls config {} stream calls.flatten s t) :
      Life config c stream (.serving c s t) (.accepts c :: calls.map (.calls c))
  | served {phase} {calls : List (List Session.Entry)} {o t} (hp : ∀ s t, phase ≠ .serving c s t)
      (h : Session.handle config stream = ⟨calls.flatten, .ended o, t⟩) :
      Life config c stream phase
        (.accepts c :: calls.map (.calls c) ++ [.finishes c o, .closes c true])
  | dropped {calls : List (List Session.Entry)} {s t}
      (h : Session.Calls config {} stream calls.flatten s t) :
      Life config c stream .stopped (.accepts c :: calls.map (.calls c) ++ [.closes c false])

/-- The connection is one of the first `accepted` of those that come. -/
def Accepted (coming : List Arrival) (accepted : Nat) (c : Connection) (stream : Session.Stream) :
    Prop :=
  c.number < accepted ∧ (connections coming)[c.number]? = some (c.peer, stream)

/-- What is known of all connections at some moment. -/
structure Register (config : Session.Config) (coming : List Arrival) (acts : List Act)
    (w : World) : Prop where
  /-- Those that have not been accepted are still to come. -/
  left : (connections coming).drop w.server.accepted = connections w.coming
  lives : ∀ c stream, Accepted coming w.server.accepted c stream →
    Life config c stream w.server.phase (about c acts)
  known : ∀ c, about c acts ≠ [] → ∃ stream, Accepted coming w.server.accepted c stream
  serving : ∀ c s t, w.server.phase = .serving c s t →
    ∃ stream, Accepted coming w.server.accepted c stream

variable {config : Session.Config} {coming : List Arrival} {acts more : List Act}
  {w w' : World} {c d : Connection} {stream : Session.Stream} {phase phase' : Phase}

@[simp] theorem about_append (c : Connection) (p q : List Act) :
    about c (p ++ q) = about c p ++ about c q := by
  simp [about]

theorem about_ne_nil : about c acts ≠ [] ↔ ∃ act ∈ acts, act.connection? = some c := by
  simp [about, List.filter_eq_nil_iff]

/-- A connection that is not the present one has been served. -/
theorem Life.elsewhere (h : Life config c stream phase acts) (hs : phase ≠ .stopped)
    (hp : ∀ s t, phase ≠ .serving c s t) (hp' : ∀ s t, phase' ≠ .serving c s t) :
    Life config c stream phase' acts := by
  cases h with
  | serving h => exact absurd rfl (hp _ _)
  | served _ h => exact .served hp' h
  | dropped h => exact absurd rfl hs

theorem Life.accepts_mem (h : Life config c stream phase acts) : .accepts c ∈ acts := by
  cases h <;> simp

theorem Life.present {s : Session.State} {t : Session.Stream}
    (h : Life config c stream (.serving c s t) acts) :
    ∃ calls : List (List Session.Entry), acts = .accepts c :: calls.map (.calls c) ∧
      Session.Calls config {} stream calls.flatten s t := by
  cases h with
  | serving h => exact ⟨_, rfl, h⟩
  | served hp _ => exact absurd rfl (hp _ _)

theorem Accepted.succ {n : Nat} (h : Accepted coming n c stream) :
    Accepted coming (n + 1) c stream :=
  ⟨Nat.lt_succ_of_lt h.1, h.2⟩

/-- Only one connection is the last of so many. -/
theorem Accepted.pred {n : Nat} {peer : Peer} {next : Session.Stream}
    (h : Accepted coming (n + 1) c stream) (hn : (connections coming)[n]? = some (peer, next))
    (hc : c ≠ ⟨n, peer⟩) : Accepted coming n c stream := by
  refine ⟨Nat.lt_of_le_of_ne (Nat.le_of_lt_succ h.1) fun he => hc ?_, h.2⟩
  -- a connection with this number has the peer that came with it
  have hs := h.2
  rw [he, hn] at hs
  simp only [Option.some.injEq, Prod.mk.injEq] at hs
  cases c
  simp only [Connection.mk.injEq]
  exact ⟨he, hs.1.symm⟩

/-! ## Turn by turn -/

/-- Nothing has been done with a connection that is still to come. -/
theorem Register.fresh (h : Register config coming acts w) (hc : w.server.accepted ≤ c.number) :
    about c acts = [] := by
  by_cases hn : about c acts = []
  · exact hn
  · obtain ⟨_, hlt, -⟩ := h.known c hn
    exact absurd hc (Nat.not_le.mpr hlt)

/-- Acts about no connection, at most from waiting to being stopped, leave all lives as they are. -/
theorem Register.quiet (h : Register config coming acts w) (hm : ∀ d, about d more = [])
    (hn : w'.server.accepted = w.server.accepted)
    (hc : connections w'.coming = connections w.coming)
    (hp : w'.server.phase = w.server.phase ∨
      w.server.phase = .waiting ∧ w'.server.phase = .stopped) :
    Register config coming (acts ++ more) w' := by
  refine ⟨?_, ?_, ?_, ?_⟩
  · rw [hn, hc]
    exact h.left
  · intro d stream hd
    rw [hn] at hd
    rw [about_append, hm, List.append_nil]
    rcases hp with hp | ⟨hw, hs⟩
    · rw [hp]
      exact h.lives d stream hd
    · exact (h.lives d stream hd).elsewhere (by simp [hw]) (by simp [hw]) (by simp [hs])
  · intro d hd
    rw [about_append, hm, List.append_nil] at hd
    rw [hn]
    exact h.known d hd
  · intro d s t hd
    rw [hn]
    rcases hp with hp | ⟨-, hs⟩
    · exact h.serving d s t (hp ▸ hd)
    · simp [hs] at hd

/-- Acts about the present connection alone leave all other lives as they are. -/
theorem Register.present {s : Session.State} {t : Session.Stream}
    (h : Register config coming acts w) (hp : w.server.phase = .serving c s t)
    (hm : ∀ d, d ≠ c → about d more = [])
    (hn : w'.server.accepted = w.server.accepted) (hc : w'.coming = w.coming)
    (hp' : ∀ d s t, w'.server.phase = .serving d s t → d = c)
    (hl : ∀ stream, Life config c stream (.serving c s t) (about c acts) →
      Life config c stream w'.server.phase (about c acts ++ about c more)) :
    Register config coming (acts ++ more) w' := by
  refine ⟨?_, ?_, ?_, ?_⟩
  · rw [hn, hc]
    exact h.left
  · intro d stream hd
    rw [hn] at hd
    have hlife := h.lives d stream hd
    rw [hp] at hlife
    rw [about_append]
    by_cases hdc : d = c
    · subst hdc
      exact hl stream hlife
    · rw [hm d hdc, List.append_nil]
      refine hlife.elsewhere (by simp) ?_ fun s t he => hdc (hp' d s t he)
      intro s t he
      simp only [Phase.serving.injEq] at he
      exact hdc he.1.symm
  · intro d hd
    rw [hn]
    by_cases hdc : d = c
    · subst hdc
      exact h.serving d s t hp
    · rw [about_append, hm d hdc, List.append_nil] at hd
      exact h.known d hd
  · intro d s' t' hd
    rw [hn]
    obtain rfl := hp' d s' t' hd
    exact h.serving d s t hp

theorem Register.accept {peer : Peer} {rest : List Arrival} (h : Register config coming acts w)
    (hp : w.server.phase = .waiting) (hc : w.coming = .connection peer stream :: rest) :
    Register config coming (acts ++ (w.server.accept peer stream).1)
      { w with server := (w.server.accept peer stream).2, coming := rest } := by
  have hl := h.left
  rw [hc] at hl
  have hn : Accepted coming (w.server.accepted + 1) ⟨w.server.accepted, peer⟩ stream := by
    refine ⟨Nat.lt_succ_self _, ?_⟩
    rw [← List.head?_drop, hl]
    rfl
  have hnew : about ⟨w.server.accepted, peer⟩ acts = [] := h.fresh (Nat.le_refl _)
  have hother : ∀ d : Connection, d ≠ ⟨w.server.accepted, peer⟩ →
      about d (acts ++ [.accepts ⟨w.server.accepted, peer⟩]) = about d acts := by
    intro d hd
    simp [about, Act.connection?, hd.symm]
  refine ⟨?_, ?_, ?_, ?_⟩
  · rw [State.accept, ← List.drop_drop, hl]
    rfl
  · intro d stream' hd
    by_cases hdc : d = ⟨w.server.accepted, peer⟩
    · subst hdc
      obtain rfl : stream = stream' := by simpa [hn.2] using hd.2
      rw [about_append, hnew]
      have hcs : Session.Calls config {} stream (List.flatten []) {} stream := .none
      simpa [about, Act.connection?, State.accept] using Life.serving hcs
    · rw [State.accept, hother d hdc]
      refine (h.lives d stream' (hd.pred hn.2 hdc)).elsewhere (by simp [hp]) (by simp [hp]) ?_
      intro s t he
      simp only [Phase.serving.injEq] at he
      exact hdc he.1.symm
  · intro d hd
    by_cases hdc : d = ⟨w.server.accepted, peer⟩
    · subst hdc
      exact ⟨stream, hn⟩
    · rw [State.accept, hother d hdc] at hd
      obtain ⟨stream', hk⟩ := h.known d hd
      exact ⟨stream', hk.succ⟩
  · intro d s t hd
    simp only [State.accept, Phase.serving.injEq] at hd
    obtain ⟨rfl, -, -⟩ := hd
    exact ⟨stream, hn⟩

theorem Register.call {s s' : Session.State} {t t' : Session.Stream}
    {entries : List Session.Entry} (h : Register config coming acts w)
    (hp : w.server.phase = .serving c s t) (hc : Session.Call config s t entries s' t') :
    Register config coming (acts ++ [.calls c entries])
      { w with server := { w.server with phase := .serving c s' t' } } := by
  refine h.present hp ?_ rfl rfl ?_ ?_
  · intro d hd
    simp [about, Act.connection?, hd.symm]
  · intro d s t he
    simp only [Phase.serving.injEq] at he
    exact he.1.symm
  · intro stream hl
    obtain ⟨calls, he, hcs⟩ := hl.present
    have hnext : Session.Calls config {} stream (calls ++ [entries]).flatten s' t' := by
      simpa using hcs.more hc
    rw [he]
    simpa [about, Act.connection?] using Life.serving hnext

theorem Register.lastCall {s : Session.State} {t u : Session.Stream}
    {entries : List Session.Entry} {o : Session.Outcome} (h : Register config coming acts w)
    (hp : w.server.phase = .serving c s t) (hc : Session.LastCall config s t entries o u) :
    Register config coming
      (acts ++ [.calls c entries, .finishes c o, .closes c true, .awaits])
      { w with server := { w.server with phase := .waiting } } := by
  refine h.present hp ?_ rfl rfl ?_ ?_
  · intro d hd
    simp [about, Act.connection?, hd.symm]
  · simp
  · intro stream hl
    obtain ⟨calls, he, hcs⟩ := hl.present
    have hrun : Session.handle config stream = ⟨(calls ++ [entries]).flatten, .ended o, u⟩ := by
      rw [Session.handle, hcs.run_eq, Session.run_of_lastCall hc]
      simp [Session.Run.prepend]
    have hlife : Life config c stream .waiting _ := .served (by simp) hrun
    rw [he]
    simpa [about, Act.connection?] using hlife

/-- Being stopped in the middle of a session. -/
theorem Register.drop {s : Session.State} {t : Session.Stream}
    (h : Register config coming acts w) (hp : w.server.phase = .serving c s t) :
    Register config coming
      (acts ++ [.looks true, .leaves (some c), .closes c false, .closesListener])
      { w with server := { w.server with phase := .stopped } } := by
  refine h.present hp ?_ rfl rfl (by simp) ?_
  · intro d hd
    simp [about, Act.connection?, hd.symm]
  · intro stream hl
    obtain ⟨calls, he, hcs⟩ := hl.present
    rw [he]
    simpa [about, Act.connection?] using Life.dropped hcs

theorem Register.turn (h : Register config coming acts w) (ht : Turn config w more w') :
    Register config coming (acts ++ more) w' := by
  cases ht with
  | ask _ => exact h.quiet (fun _ => rfl) rfl rfl (.inl rfl)
  | look _ _ => exact h.quiet (fun _ => rfl) rfl rfl (.inl rfl)
  | accept hp hc => exact h.accept hp hc
  | miss _ hc => exact h.quiet (fun _ => rfl) rfl (by rw [hc]; rfl) (.inl rfl)
  | advance ha =>
    obtain ⟨c, s, t, hp, ⟨entries, s', t', hc, rfl, rfl⟩ | ⟨entries, o, u, hc, rfl, rfl⟩⟩ :=
      State.advance_cases ha
    · exact h.call hp hc
    · exact h.lastCall hp hc
  | stop _ hn =>
    cases hp : w.server.phase with
    | waiting =>
      simp only [State.stop, hp]
      exact h.quiet (fun _ => rfl) rfl rfl (.inr ⟨hp, rfl⟩)
    | serving c s t =>
      simp only [State.stop, hp]
      exact h.drop hp
    | stopped => exact absurd hp hn

/-- Every connection that a server has accepted so far has had a session of its own, or has it. -/
theorem History.register (h : History config coming acts w) : Register config coming acts w := by
  induction h with
  | start =>
    refine ⟨rfl, ?_, ?_, ?_⟩
    · intro d stream hd
      exact absurd hd.1 (Nat.not_lt_zero _)
    · intro d hd
      exact absurd rfl hd
    · simp
  | turn _ ht ih => exact ih.turn ht

end SerialAck.Server

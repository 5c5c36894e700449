/-
One connection at a time. `Serial` says what a server that has done these acts owes to those who
connect and to the one who stops it, and `serial_of_history` that it holds at any moment of any
history: whatever comes, in any order, and whenever the server is asked to stop.
-/
import SerialAck.Proofs.Server.Lives

namespace SerialAck.Server

structure Serial (config : Session.Config) (coming : List Arrival) (acts : List Act)
    (w : World) : Prop where
  /-- At no moment is more than one connection open. -/
  one_open : ∀ before, before <+: acts → (openAfter before).length ≤ 1
  none_awaiting : ∀ before, before ++ [.awaits] <+: acts → openAfter before = []
  none_waiting : w.server.phase = .waiting → openAfter acts = []
  /-- All that is done about a connection is done about one that has been accepted. -/
  known : ∀ act ∈ acts, ∀ c, act.connection? = some c → .accepts c ∈ acts
  /-- The connections are those that come, in their order, and all that is done about one is its
  own session, once, to the end of it unless the server stops. -/
  life : ∀ c, .accepts c ∈ acts → ∃ stream,
    (connections coming)[c.number]? = some (c.peer, stream) ∧
      Life config c stream w.server.phase (about c acts)
  closed_first : ∀ before c, before ++ [.awaits] <+: acts → .accepts c ∈ before →
    .closes c true ∈ before
  /-- Neither a connection that is missed nor any outcome of a session ends the loop. -/
  after_miss : ∀ before f after, acts = before ++ .misses f :: after →
    ∃ more, after = .awaits :: more
  after_session : ∀ before c o after, acts = before ++ .finishes c o :: after →
    ∃ more, after = .closes c true :: .awaits :: more
  /-- Once the server has seen that it is asked to stop, it looks no more and accepts no more. -/
  seen_once : ∀ before after, acts = before ++ .looks true :: after →
    w.server.phase = .stopped ∧ (∀ asked, .looks asked ∉ after) ∧ ∀ c, .accepts c ∉ after
  stopped_iff : w.server.phase = .stopped ↔ .closesListener ∈ acts
  stopped : w.server.phase = .stopped → w.asked = true ∧ openAfter acts = [] ∧
    (∃ before c, acts = before ++
      (.looks true :: .leaves c :: (c.toList.map (.closes · false) ++ [.closesListener]))) ∧
    ∀ more w', ¬ Turn config w more w'

variable {config : Session.Config} {coming : List Arrival} {acts : List Act} {w : World}

/-- **A server is serial.** -/
theorem serial_of_history (h : History config coming acts w) : Serial config coming acts w where
  one_open before hb := by
    obtain ⟨p, hp⟩ := h.path_of_prefix hb
    rw [hp.openAfter]
    exact p.length_held_le
  none_awaiting before hb := (h.path_of_awaits hb).openAfter
  none_waiting hw := by
    rw [h.path.openAfter, hw]
    rfl
  known act hm c hc := by
    have hne : about c acts ≠ [] := about_ne_nil.mpr ⟨act, hm, hc⟩
    obtain ⟨stream, ha⟩ := h.register.known c hne
    exact (List.mem_filter.mp (h.register.lives c stream ha).accepts_mem).1
  life c hc := by
    have hne : about c acts ≠ [] := about_ne_nil.mpr ⟨_, hc, rfl⟩
    obtain ⟨stream, ha⟩ := h.register.known c hne
    exact ⟨stream, ha.2, h.register.lives c stream ha⟩
  closed_first before c hb hc := by
    rcases (h.path_of_awaits hb).closes_of_accepts hc id with hh | hm
    · simp [Place.held] at hh
    · exact hm
  after_miss before f after he := by
    subst he
    obtain ⟨p, q, -, hf, hq⟩ := h.path_of_act
    cases hf
    exact hq.awaits_next w.server.phase.place_ne_free
  after_session before c o after he := by
    subst he
    obtain ⟨p, q, -, hf, hq⟩ := h.path_of_act
    cases hf
    exact hq.closes_next w.server.phase.place_ne_done w.server.phase.place_ne_free
  seen_once before after he := by
    subst he
    obtain ⟨p, q, -, hf, hq⟩ := h.path_of_act
    have hending : q.ending := by
      cases hf
      trivial
    obtain ⟨ho, hm⟩ := hq.ending hending
    exact ⟨Phase.eq_stopped_of_ending ho, fun asked hl => hm _ hl trivial,
      fun c hc => hm _ hc trivial⟩
  stopped_iff := by
    constructor
    · intro hs
      obtain ⟨before, c, rfl⟩ := h.stop_acts hs
      simp
    · intro hm
      obtain ⟨before, after, rfl⟩ := List.append_of_mem hm
      obtain ⟨p, q, -, hf, hq⟩ := h.path_of_act
      cases hf
      exact Phase.eq_stopped_of_ending (hq.ending trivial).1
  stopped hs := by
    refine ⟨h.asked_of_stopped hs, ?_, h.stop_acts hs, fun more w' => h.no_turn hs⟩
    rw [h.path.openAfter, hs]
    rfl

def resetFault : Fault := .ofKind .connectionReset

def briefConfig : Session.Config := ⟨.byte, [65], none⟩

/-- A connection that is missed, one that is reset, and one over which nothing comes. -/
def briefArrivals : List Arrival :=
  [.fault resetFault, .connection "a" { reads := [.now (.failure resetFault)] },
    .connection "b" { reads := [.hang] }]

def briefActs : List Act :=
  [.awaits, .misses resetFault, .awaits,
    .accepts ⟨0, "a"⟩, .calls ⟨0, "a"⟩ [.readFailed 1],
    .finishes ⟨0, "a"⟩ (.failed (.read resetFault)), .closes ⟨0, "a"⟩ true, .awaits,
    .accepts ⟨1, "b"⟩, .looks false,
    .looks true, .leaves (some ⟨1, "b"⟩), .closes ⟨1, "b"⟩ false, .closesListener]

def briefWorld : World :=
  ⟨⟨.stopped, 2⟩, [], true⟩

theorem history_brief : History briefConfig briefArrivals briefActs briefWorld := by
  have opened : History briefConfig briefArrivals State.opening { coming := briefArrivals } := .start
  have missed := opened.turn (.miss rfl rfl)
  have first := missed.turn (.accept rfl rfl)
  have ended := first.turn (@Turn.advance _ _ [.calls ⟨0, "a"⟩ [.readFailed 1],
    .finishes ⟨0, "a"⟩ (.failed (.read resetFault)), .closes ⟨0, "a"⟩ true, .awaits]
    ⟨.waiting, 1⟩ rfl)
  have second := ended.turn (.accept rfl rfl)
  have looked := second.turn (.look rfl (by simp [State.accept]))
  have asked := looked.turn (.ask rfl)
  exact asked.turn (.stop rfl (by simp [State.accept]))

theorem serial_brief : Serial briefConfig briefArrivals briefActs briefWorld :=
  serial_of_history history_brief

end SerialAck.Server

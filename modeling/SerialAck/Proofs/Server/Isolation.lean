/-
What a connection has to do with the others: nothing. The trace that a server leaves on one is the
trace of `Session.handle` alone on the stream of that connection, as far as the server came with
it; `isolated_of_history` says so of every connection of every history, and of any two histories
that bring the same stream, whatever else comes in them.
-/
import SerialAck.Proofs.Server.Lives
import SerialAck.Proofs.Session.Trace

namespace SerialAck.Server

/-- What an act leaves in the trace of the session with `c`. -/
def Act.entries (c : Connection) : Act → List Session.Entry
  | .calls d entries => if d = c then entries else []
  | _ => []

/-- The trace of the session with `c`, out of all that the server does. -/
def sessionTrace (c : Connection) (acts : List Act) : List Session.Entry :=
  acts.flatMap (Act.entries c)

/-- The connection is one of those that come, and `stream` is what comes over it. -/
def Brings (coming : List Arrival) (c : Connection) (stream : Session.Stream) : Prop :=
  (connections coming)[c.number]? = some (c.peer, stream)

/-- The acts about `c` are those of a session alone on `stream`, as far as they go. -/
structure Alone (config : Session.Config) (stream : Session.Stream) (c : Connection)
    (acts : List Act) : Prop where
  /-- A session that has finished did all that it does alone, with the same outcome. -/
  whole : ∀ o, .finishes c o ∈ acts →
    ∃ left, Session.handle config stream = ⟨sessionTrace c acts, .ended o, left⟩
  /-- One that has not is somewhere on its way, and alone it goes on from there. -/
  unfinished : (∀ o, .finishes c o ∉ acts) →
    ∃ s left, Session.handle config stream =
      (Session.run config s left).prepend (sessionTrace c acts)
  /-- In either case nothing is done or written that is not done alone. -/
  part : sessionTrace c acts <+: (Session.handle config stream).trace
  written : Session.written (sessionTrace c acts) <+:
    Session.written (Session.handle config stream).trace

structure Isolated (config : Session.Config) (coming : List Arrival) (acts : List Act)
    (w : World) : Prop where
  /-- Each connection has the stream that comes over it for its own, by its number. -/
  alone : ∀ c, .accepts c ∈ acts → ∃ stream, Brings coming c stream ∧ Alone config stream c acts
  /-- Only the present session is unfinished, or the one that the stop cut short. -/
  finished : ∀ c, .accepts c ∈ acts → (∀ s t, w.server.phase ≠ .serving c s t) →
    .closes c false ∉ acts → ∃ o, .finishes c o ∈ acts
  /-- In two histories the same stream makes for the same session, whatever its number is in them,
  and whatever comes before it, beside it and after it. -/
  alike : ∀ {coming' acts' w'}, History config coming' acts' w' → ∀ {c c' stream o o'},
    Brings coming c stream → Brings coming' c' stream →
    .finishes c o ∈ acts → .finishes c' o' ∈ acts' →
    sessionTrace c acts = sessionTrace c' acts' ∧ o = o'

variable {config : Session.Config} {coming coming' : List Arrival} {acts acts' : List Act}
  {w w' : World} {c c' : Connection} {stream : Session.Stream} {phase : Phase}

theorem entries_eq_nil {act : Act} (h : act.connection? ≠ some c) : act.entries c = [] := by
  cases act with
  | calls d entries =>
    have hd : d ≠ c := by simpa [Act.connection?] using h
    simp [Act.entries, hd]
  | _ => rfl

/-- The trace is that of the acts about the connection, for all others add nothing to it. -/
theorem sessionTrace_about (c : Connection) (acts : List Act) :
    sessionTrace c (about c acts) = sessionTrace c acts := by
  induction acts with
  | nil => rfl
  | cons act acts ih =>
    by_cases hc : act.connection? = some c
    · rw [about, List.filter_cons_of_pos (by simpa using hc)]
      simp only [sessionTrace, List.flatMap_cons]
      exact congrArg _ ih
    · rw [about, List.filter_cons_of_neg (by simpa using hc)]
      simp only [sessionTrace, List.flatMap_cons, entries_eq_nil hc, List.nil_append]
      exact ih

theorem sessionTrace_calls (c : Connection) (calls : List (List Session.Entry)) :
    sessionTrace c (calls.map (.calls c)) = calls.flatten := by
  induction calls with
  | nil => rfl
  | cons entries calls ih =>
    simp only [sessionTrace, List.map_cons, List.flatMap_cons] at ih ⊢
    rw [ih]
    simp [Act.entries]

theorem finishes_mem_about {o : Session.Outcome} :
    .finishes c o ∈ about c acts ↔ .finishes c o ∈ acts := by
  simp [about, Act.connection?]

/-- Calls that let a session go on are a part of what it does alone. -/
theorem Alone.of_calls {s : Session.State} {t : Session.Stream}
    (h : Session.Calls config {} stream (sessionTrace c acts) s t)
    (hn : ∀ o, .finishes c o ∉ acts) : Alone config stream c acts := by
  have hrun : Session.handle config stream =
      (Session.run config s t).prepend (sessionTrace c acts) := h.run_eq
  refine ⟨fun o ho => absurd ho (hn o), fun _ => ⟨s, t, hrun⟩, ?_, ?_⟩
  · rw [hrun]
    exact List.prefix_append _ _
  · rw [hrun, Session.Run.prepend, Session.written_append]
    exact List.prefix_append _ _

theorem Alone.of_handle {o : Session.Outcome} {t : Session.Stream}
    (h : Session.handle config stream = ⟨sessionTrace c acts, .ended o, t⟩)
    (ho : ∀ o', .finishes c o' ∈ acts ↔ o' = o) : Alone config stream c acts := by
  refine ⟨fun o' hm => ?_, fun hn => absurd ((ho o).mpr rfl) (hn o), ?_, ?_⟩
  · obtain rfl := (ho o').mp hm
    exact ⟨t, h⟩
  · exact ⟨[], by rw [h, List.append_nil]⟩
  · exact ⟨[], by rw [h, List.append_nil]⟩

/-- A life is that of a session alone: the whole of it if it is over, and a part of it if not. -/
theorem Life.alone (h : Life config c stream phase (about c acts)) :
    Alone config stream c acts := by
  have htrace := sessionTrace_about c acts
  have hfinishes : ∀ o, .finishes c o ∈ acts ↔ .finishes c o ∈ about c acts :=
    fun o => finishes_mem_about.symm
  generalize about c acts = life at h htrace hfinishes
  cases h with
  | @serving calls s t hcs =>
    have he : sessionTrace c acts = calls.flatten := by
      rw [← htrace, ← sessionTrace_calls c calls]
      rfl
    exact .of_calls (he ▸ hcs) fun o ho => by simpa using (hfinishes o).mp ho
  | @dropped calls s t hcs =>
    have he : sessionTrace c acts = calls.flatten := by
      rw [← htrace, ← sessionTrace_calls c calls]
      simp [sessionTrace, Act.entries]
    exact .of_calls (he ▸ hcs) fun o ho => by simpa using (hfinishes o).mp ho
  | @served _ calls o t hp hrun =>
    have he : sessionTrace c acts = calls.flatten := by
      rw [← htrace, ← sessionTrace_calls c calls]
      simp [sessionTrace, Act.entries]
    refine .of_handle (he ▸ hrun) fun o' => ?_
    rw [hfinishes]
    simp

/-- A session that is neither going on nor cut short has finished. -/
theorem Life.finished (h : Life config c stream phase (about c acts))
    (hp : ∀ s t, phase ≠ .serving c s t) (hc : .closes c false ∉ acts) :
    ∃ o, .finishes c o ∈ acts := by
  have hdrop : .closes c false ∉ about c acts := fun hm => hc (List.mem_filter.mp hm).1
  generalize hl : about c acts = life at h hdrop
  cases h with
  | serving _ => exact absurd rfl (hp _ _)
  | dropped _ => simp at hdrop
  | @served _ calls o t _ _ =>
    refine ⟨o, ?_⟩
    rw [← finishes_mem_about, hl]
    simp

/-- The life of a connection on which anything was done, on the stream that comes over it. -/
theorem History.life (h : History config coming acts w) (hc : about c acts ≠ []) :
    ∃ stream, Brings coming c stream ∧ Life config c stream w.server.phase (about c acts) := by
  obtain ⟨stream, ha⟩ := h.register.known c hc
  exact ⟨stream, ha.2, h.register.lives c stream ha⟩

/-- A finished session is what `handle` makes of its stream. -/
theorem History.handle_of_finishes {o : Session.Outcome} (h : History config coming acts w)
    (hb : Brings coming c stream) (ho : .finishes c o ∈ acts) :
    ∃ left, Session.handle config stream = ⟨sessionTrace c acts, .ended o, left⟩ := by
  obtain ⟨stream', hb', hl⟩ := h.life (about_ne_nil.mpr ⟨_, ho, rfl⟩)
  have hs : stream = stream' := by
    rw [Brings] at hb hb'
    simpa using hb.symm.trans hb'
  subst hs
  exact hl.alone.whole o ho

/-- **Connections do not see each other.** -/
theorem isolated_of_history (h : History config coming acts w) :
    Isolated config coming acts w where
  alone c hc := by
    obtain ⟨stream, hb, hl⟩ := h.life (about_ne_nil.mpr ⟨_, hc, rfl⟩)
    exact ⟨stream, hb, hl.alone⟩
  finished c hc hp hd := by
    obtain ⟨stream, -, hl⟩ := h.life (about_ne_nil.mpr ⟨_, hc, rfl⟩)
    exact hl.finished hp hd
  alike h' c c' stream o o' hb hb' ho ho' := by
    obtain ⟨left, he⟩ := h.handle_of_finishes hb ho
    obtain ⟨left', he'⟩ := h'.handle_of_finishes hb' ho'
    have hrun := he.symm.trans he'
    simp only [Session.Run.mk.injEq, Session.Result.ended.injEq] at hrun
    exact ⟨hrun.1, hrun.2.1⟩

/-! ## The same stream in two histories -/

def twinConfig : Session.Config := ⟨.byte, [65, 66], none⟩

/-- Two bytes in one piece, the second of them the terminator. -/
def twinStream : Session.Stream :=
  { reads := [.now (.data [104, 36])], writes := [.now (.take 1)] }

def twinOutcome : Session.Outcome := .finished ⟨.terminator, 2, 2⟩

def brokenPipe : Fault := .ofKind .brokenPipe

/-- Before it a connection that breaks in the middle of an acknowledgment, and one that is missed;
after it one that the stop cuts short. -/
def crowdedArrivals : List Arrival :=
  [.connection "a"
      { reads := [.now (.data [104])], writes := [.now (.take 1), .now (.failure brokenPipe)] },
    .fault brokenPipe, .connection "b" twinStream,
    .connection "c" { reads := [.now (.data [105]), .hang] }]

def crowdedActs : List Act :=
  [.awaits, .accepts ⟨0, "a"⟩, .calls ⟨0, "a"⟩ [.read 1 [104], .log (.received 104)],
    .calls ⟨0, "a"⟩ [.write 2 [65]], .calls ⟨0, "a"⟩ [.writeFailed 1],
    .finishes ⟨0, "a"⟩ (.failed (.write brokenPipe)), .closes ⟨0, "a"⟩ true, .awaits,
    .misses brokenPipe, .awaits,
    .accepts ⟨1, "b"⟩, .calls ⟨1, "b"⟩ [.read 1 [104], .log (.received 104)],
    .calls ⟨1, "b"⟩ [.write 2 [65]], .calls ⟨1, "b"⟩ [.write 1 [66]],
    .calls ⟨1, "b"⟩ [.read 1 [36], .log (.terminated 36)], .calls ⟨1, "b"⟩ [.write 2 [65, 66]],
    .calls ⟨1, "b"⟩ [.read 1024 []], .finishes ⟨1, "b"⟩ twinOutcome, .closes ⟨1, "b"⟩ true, .awaits,
    .accepts ⟨2, "c"⟩, .calls ⟨2, "c"⟩ [.read 1 [105], .log (.received 105)],
    .looks true, .leaves (some ⟨2, "c"⟩), .closes ⟨2, "c"⟩ false, .closesListener]

def crowdedWorld : World :=
  ⟨⟨.stopped, 3⟩, [], true⟩

theorem history_crowded : History twinConfig crowdedArrivals crowdedActs crowdedWorld := by
  have opened : History twinConfig crowdedArrivals State.opening { coming := crowdedArrivals } :=
    .start
  have first := opened.turn (.accept rfl rfl)
  have broken := ((first.turn (.advance rfl)).turn (.advance rfl)).turn (.advance rfl)
  have second := (broken.turn (.miss rfl rfl)).turn (.accept rfl rfl)
  have acked := ((second.turn (.advance rfl)).turn (.advance rfl)).turn (.advance rfl)
  have ended := ((acked.turn (.advance rfl)).turn (.advance rfl)).turn (.advance rfl)
  have third := (ended.turn (.accept rfl rfl)).turn (.advance rfl)
  exact (third.turn (.ask rfl)).turn (.stop rfl nofun)

/-- The same stream, with nothing before it. -/
def lonelyActs : List Act :=
  [.awaits, .accepts ⟨0, "z"⟩, .calls ⟨0, "z"⟩ [.read 1 [104], .log (.received 104)],
    .calls ⟨0, "z"⟩ [.write 2 [65]], .calls ⟨0, "z"⟩ [.write 1 [66]],
    .calls ⟨0, "z"⟩ [.read 1 [36], .log (.terminated 36)], .calls ⟨0, "z"⟩ [.write 2 [65, 66]],
    .calls ⟨0, "z"⟩ [.read 1024 []], .finishes ⟨0, "z"⟩ twinOutcome, .closes ⟨0, "z"⟩ true, .awaits]

theorem history_lonely :
    History twinConfig [.connection "z" twinStream] lonelyActs ⟨⟨.waiting, 1⟩, [], false⟩ := by
  have opened : History twinConfig [.connection "z" twinStream] State.opening
      { coming := [.connection "z" twinStream] } := .start
  have first := opened.turn (.accept rfl rfl)
  have acked := ((first.turn (.advance rfl)).turn (.advance rfl)).turn (.advance rfl)
  exact ((acked.turn (.advance rfl)).turn (.advance rfl)).turn (.advance rfl)

theorem isolated_twins : Isolated twinConfig crowdedArrivals crowdedActs crowdedWorld ∧
    sessionTrace ⟨1, "b"⟩ crowdedActs = sessionTrace ⟨0, "z"⟩ lonelyActs := by
  have crowded := isolated_of_history history_crowded
  have hb : Brings crowdedArrivals ⟨1, "b"⟩ twinStream := rfl
  have hz : Brings [.connection "z" twinStream] ⟨0, "z"⟩ twinStream := rfl
  have hfb : .finishes ⟨1, "b"⟩ twinOutcome ∈ crowdedActs := by decide
  have hfz : .finishes ⟨0, "z"⟩ twinOutcome ∈ lonelyActs := by decide
  exact ⟨crowded, (crowded.alike history_lonely hb hz hfb hfz).1⟩

end SerialAck.Server

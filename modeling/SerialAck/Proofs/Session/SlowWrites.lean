/-
A peer that takes its time. The session on a stream that takes acknowledgments in pieces and after
waits is put next to the one on a stream that takes them at once. The two are `Abreast` wherever
nothing is owed: they have the same to read, and the slow one is behind by what its writes have
waited. A read comes to the same on both (`Abreast.step_onto`), and what is one write for the fast one
is a block of writes for the slow one (`exists_pays`).
-/
import SerialAck.Proofs.Session.Blocks
import SerialAck.Proofs.Session.Feed
import SerialAck.Proofs.Session.Usage

namespace SerialAck.Session

/-- Two runs of which the second is slower by what it has used of `writes`, and else the same. -/
structure SameButSlower (ack : List UInt8) (writes : Script Acceptance) (fast slow : Run) :
    Prop where
  result : slow.result = fast.result
  reads : slow.trace.filter Entry.isRead = fast.trace.filter Entry.isRead
  events : logged slow.trace = logged fast.trace
  unread : slow.stream.reads = fast.stream.reads
  output : written slow.trace = written fast.trace
  merged : merge slow.trace = merge fast.trace
  /-- The fast one writes each acknowledgment at once. -/
  whole : merge fast.trace = fast.trace
  blocks : ∀ block, Block slow.trace block → Pays ack.length block
  elapsed : slow.stream.elapsed =
    fast.stream.elapsed + (writes.used slow.stream.writes).waits

/-- The second stream brings the same as the first, but its writes have taken the time of what is
gone from `writes`. -/
structure Abreast (writes : Script Acceptance) (t u : Stream) : Prop where
  reads : u.reads = t.reads
  free : t.writes = []
  yields : Yields u.writes
  watched : t.left ≤ patience
  behind : ∃ used, writes = used ++ u.writes ∧ t.left = u.left + Script.waits used

variable {c : Config} {s : State} {t t' u : Stream} {writes : Script Acceptance}

/-! ## Reads -/

/-- The same progress on another stream. -/
def Progress.onto (u : Stream) : Progress → Progress
  | goes entries s _ => goes entries s u
  | ends entries o _ => ends entries o u
  | stuck _ => stuck u

theorem Turn.onto_progress (entries : List Entry) (turn : Turn) :
    (turn.progress entries t).onto u = turn.progress entries u := by
  cases turn <;> rfl

theorem Abreast.read {size : Nat} {limit : Option Nat} {r r' : Reading} {u' : Stream}
    (h : Abreast writes t u) (hr : t.read size limit = (r, t')) (hs : r ≠ .stuck)
    (hr' : u.read size limit = (r', u')) (hs' : r' ≠ .stuck) : r' = r ∧ Abreast writes t' u' := by
  obtain ⟨spent, hb, hle, hwrites, hleft⟩ := Stream.brings_of_read hr hs
  obtain ⟨spent', hb', hle', hwrites', hleft'⟩ := Stream.brings_of_read hr' hs'
  rw [h.reads] at hb'
  obtain ⟨rfl, hrest, rfl⟩ := hb'.unique hb
  obtain ⟨used, hused, hbehind⟩ := h.behind
  have hwatched := h.watched
  refine ⟨rfl, ⟨hrest, hwrites ▸ h.free, hwrites' ▸ h.yields, by omega, used, ?_, by omega⟩⟩
  rw [hused, hwrites']

/-- Where nothing is owed the two go on alike. -/
theorem Abreast.step_onto (h : Abreast writes t u) (hp : s.Reads)
    (ht : ∀ v, step c s t ≠ .stuck v) (hu : ∀ v, step c s u ≠ .stuck v) :
    ∃ u', step c s u = (step c s t).onto u' ∧ Abreast writes (step c s t).stream u' := by
  rw [step_of_reads hp] at ht hu
  rw [step_of_reads hp, step_of_reads hp]
  obtain ⟨r, t', hr⟩ : ∃ r t', t.read (s.readSize c.mode) c.limit = (r, t') := ⟨_, _, rfl⟩
  obtain ⟨r', u', hr'⟩ : ∃ r u', u.read (s.readSize c.mode) c.limit = (r, u') := ⟨_, _, rfl⟩
  have hs : r ≠ .stuck := by
    rintro rfl
    exact ht t' (by rw [listen, hr])
  have hs' : r' ≠ .stuck := by
    rintro rfl
    exact hu u' (by rw [listen, hr'])
  obtain ⟨rfl, h'⟩ := h.read hr hs hr' hs'
  refine ⟨u', ?_, ?_⟩
  · rw [listen, listen, hr, hr']
    cases r' with
    | got bytes => exact (Turn.onto_progress _ _).symm
    | _ => rfl
  · rw [listen, hr]
    cases r' with
    | got bytes => simpa using h'
    | _ => exact h'

/-! ## Writes -/

/-- All that has become of `u` is that `used` is gone from its writes. -/
structure Written (u : Stream) (used : Script Acceptance) (v : Stream) : Prop where
  reads : v.reads = u.reads
  writes : u.writes = used ++ v.writes
  time : u.left = v.left + Script.waits used

theorem Written.of_write {v : Stream} {bytes : List UInt8} {w : Writing}
    (hw : u.write bytes = (w, v)) (hs : w ≠ .stuck) : ∃ used, Written u used v := by
  obtain ⟨spent, ht, hle, hreads, hleft⟩ := Stream.takes_of_write hw hs
  obtain ⟨used, hused, hspent, -⟩ := ht.leftover
  exact ⟨used, hreads, hused, by omega⟩

theorem Written.trans {v w : Stream} {used more : Script Acceptance} (h : Written u used v)
    (h' : Written v more w) : Written u (used ++ more) w := by
  refine ⟨h'.reads.trans h.reads, by rw [h.writes, h'.writes, List.append_assoc], ?_⟩
  rw [h.time, h'.time, Script.waits_append]
  omega

theorem Abreast.written {v : Stream} {used : Script Acceptance} (h : Abreast writes t u)
    (hw : Written u used v) (hy : Yields v.writes) : Abreast writes t v := by
  obtain ⟨before, hbefore, hbehind⟩ := h.behind
  refine ⟨hw.reads.trans h.reads, h.free, hy, h.watched, before ++ used, ?_, ?_⟩
  · rw [hbefore, hw.writes, List.append_assoc]
  · rw [hbehind, hw.time, Script.waits_append]
    omega

/-- A peer that yields takes the whole of what is owed, in one piece or more. -/
theorem exists_pays {rest : List UInt8} {last : Bool} (hy : Yields u.writes)
    (hp : s.phase = .replying rest last) (hne : rest ≠ []) (hr : (run c s u).result ≠ .stuck) :
    ∃ block v used, run c s u = (run c (s.acked last) v).prepend block ∧
      Pays rest.length block ∧ written block = rest ∧ Written u used v ∧ Yields v.writes := by
  induction hlen : rest.length using Nat.strongRecOn generalizing s u rest with
  | ind n ih =>
    subst hlen
    rcases hy.write rest with ⟨v, hv⟩ | ⟨taken, v, hw, hsome, -, hy'⟩
    · have hstep : step c s u = .stuck v := by rw [step_of_replying hp, speak, hv]
      exact absurd hstep (step_ne_stuck hr v)
    · have ht := hsome hne
      have hpre := Stream.prefix_of_write hw
      have hsplit := List.prefix_iff_eq_append.mp hpre
      have hrun := run_of_call (c := c) (.write hp hw ht)
      obtain ⟨used, hused⟩ := Written.of_write hw (by simp)
      by_cases hd : rest.drop taken.length = []
      · -- all is taken
        have hall : taken = rest := by rwa [hd, List.append_nil] at hsplit
        subst hall
        rw [State.reply, if_pos hd] at hrun
        refine ⟨_, v, used, hrun, .more ht (Nat.le_refl _) ?_, ?_, hused, hy'⟩
        · rw [Nat.sub_self]
          exact .done
        · simp [Entry.written]
      · rw [State.reply, if_neg hd] at hrun
        have hless : (rest.drop taken.length).length < rest.length := by
          have hpos := List.length_pos_iff.mpr ht
          have hle := hpre.length_le
          rw [List.length_drop]
          omega
        obtain ⟨block, v', more, hrun', hpays, hwritten, hmore, hyields⟩ :=
          ih _ hless hy' rfl hd (by rwa [hrun] at hr) rfl
        rw [List.length_drop] at hpays
        refine ⟨.write rest.length taken :: block, v', used ++ more, ?_,
          .more ht hpre.length_le hpays, ?_, hused.trans hmore, hyields⟩
        · rw [hrun, hrun', Run.prepend_prepend]
          rfl
        · rw [written_cons, hwritten]
          exact hsplit

/-- To write where every write takes all is one call. -/
theorem step_of_free {rest : List UInt8} {last : Bool} (h : t.writes = [])
    (hp : s.phase = .replying rest last) (hne : rest ≠ []) :
    step c s t = .goes [.write rest.length rest] (s.acked last) t := by
  have hw : t.write rest = (.took rest, t) := by
    cases t
    subst h
    rfl
  rw [step_of_replying hp, speak, hw]
  simp [State.sent, hne, State.reply, Turn.progress]

/-! ## The whole run -/

theorem step_silent (hp : s.Reads) :
    ∀ e ∈ (step c s t).entries, ¬ e.isWrite := by
  rw [step_of_reads hp]
  unfold listen
  split
  · rw [Turn.entries_progress]
    simp [Entry.isWrite]
  all_goals simp [Progress.entries, Entry.isWrite]

/-- What comes after an acknowledgment is no write. -/
theorem head_trace_not_write (hp : s.Reads) :
    ∀ e ∈ (run c s t).trace.head?, ¬ e.isWrite := by
  rw [run]
  split <;> rename_i hs
  · cases step_goes_iff.mp hs with
    | read | drain => simp [Run.prepend, Entry.isWrite]
    | write hp' | retry hp' => exact absurd hp' (hp _ _)
  · cases step_ends_iff.mp hs with
    | writeZero hp' | writeFailed hp' => exact absurd hp' (hp _ _)
    | _ => simp [Entry.isWrite]
  · simp

theorem State.eq_of_reply {rest left : List UInt8} {last last' : Bool}
    (h : (s.reply rest last).phase = .replying left last') : left = rest := by
  unfold reply at h
  split at h
  · cases last <;> simp [acked] at h
  · simp only [Phase.replying.injEq] at h
    exact h.1.symm

/-- Between acknowledgments nothing is owed or a whole one. -/
def State.IsEven (ack : List UInt8) (s : State) : Prop :=
  ∀ rest last, s.phase = .replying rest last → rest = ack ∧ rest ≠ []

theorem Call.isEven {s' : State} {entries : List Entry} (h : Call c s t entries s' t')
    (hp : s.Reads) : s'.IsEven c.ack := by
  intro rest last h'
  cases h with
  | read => exact ⟨State.eq_of_reply h', State.ne_nil_of_reply h'⟩
  | drain => simp at h'
  | write hp' | retry hp' => exact absurd hp' (hp _ _)

theorem State.Reads.isEven (h : s.Reads) (ack : List UInt8) : s.IsEven ack := by
  intro rest last hp
  exact absurd hp (h rest last)

theorem Abreast.folds (h : Abreast writes t u) (he : s.IsEven c.ack)
    (ht : (run c s t).result ≠ .stuck) (hu : (run c s u).result ≠ .stuck) :
    (run c s u).result = (run c s t).result ∧
      Abreast writes (run c s t).stream (run c s u).stream ∧
      Folds c.ack (run c s u).trace (run c s t).trace := by
  fun_induction run c s t generalizing u with
  | case1 s t entries s' t' hs ih =>
    rcases s.replying_or_reads with ⟨rest, last, hp⟩ | hp
    · obtain ⟨rfl, hne⟩ := he rest last hp
      obtain ⟨block, v, used, hrun, hpays, hwritten, hv, hyields⟩ := exists_pays h.yields hp hne hu
      rw [step_of_free h.free hp hne] at hs
      obtain ⟨rfl, rfl, rfl⟩ := Progress.goes.inj hs
      rw [hrun] at hu ⊢
      have hnext := h.written hv hyields
      have hreads := s.reads_acked last
      obtain ⟨hresult, habreast, hfolds⟩ := ih hnext (hreads.isEven c.ack) ht hu
      exact ⟨hresult, habreast, .block hpays hwritten hne (head_trace_not_write hreads) hfolds⟩
    · obtain ⟨v, hstep, hnext⟩ := h.step_onto hp (by simp [hs]) (step_ne_stuck hu)
      have hsilent := step_silent hp (c := c) (t := t)
      rw [hs] at hstep hnext hsilent
      have hrun := run_of_call (step_goes_iff.mp hstep)
      rw [hrun] at hu ⊢
      have heven := (step_goes_iff.mp hs).isEven hp
      obtain ⟨hresult, habreast, hfolds⟩ := ih hnext heven ht hu
      exact ⟨hresult, habreast, hfolds.append hsilent⟩
  | case2 s t entries o t' hs =>
    rcases s.replying_or_reads with ⟨rest, last, hp⟩ | hp
    · rw [step_of_free h.free hp (he rest last hp).2] at hs
      simp at hs
    · obtain ⟨v, hstep, hend⟩ := h.step_onto hp (by simp [hs]) (step_ne_stuck hu)
      have hsilent := step_silent hp (c := c) (t := t)
      rw [hs] at hstep hend hsilent
      rw [run_of_lastCall (step_ends_iff.mp hstep)]
      have hfolds : Folds c.ack (entries ++ []) (entries ++ []) := Folds.nil.append hsilent
      rw [List.append_nil] at hfolds
      exact ⟨rfl, hend, hfolds⟩
  | case3 s t t' hs => exact absurd rfl ht

/-- **Slow writes change nothing but the time.** -/
theorem handle_same_but_slower {reads : Script Arrival} (hy : Yields writes)
    (hf : (handle c { reads }).result ≠ .stuck)
    (hs : (handle c { reads, writes }).result ≠ .stuck) :
    SameButSlower c.ack writes (handle c { reads }) (handle c { reads, writes }) := by
  have heven : State.IsEven c.ack {} := by
    intro rest last hp
    simp at hp
  have hstart : Abreast writes { reads } { reads, writes } :=
    ⟨rfl, rfl, hy, Nat.le_refl _, [], rfl, rfl⟩
  obtain ⟨hresult, habreast, hfolds⟩ := hstart.folds heven hf hs
  have hmerge := hfolds.merge_eq
  -- the fast run is the slow one of a peer that needs no time
  have hself : Abreast [] { reads } { reads } :=
    ⟨rfl, rfl, by simp [Yields], Nat.le_refl _, [], rfl, rfl⟩
  obtain ⟨-, -, hsame⟩ := hself.folds heven hf hf
  have hwhole := hsame.merge_eq
  obtain ⟨used, hused, htime⟩ := habreast.behind
  have hwatched := habreast.watched
  constructor
  · exact hresult
  · rw [← reads_merge, handle, hmerge, handle]
  · rw [← logged_merge, handle, hmerge, handle]
  · exact habreast.reads
  · rw [← written_merge, handle, hmerge, handle]
  · rw [handle, hmerge, handle, hwhole]
  · rw [handle, hwhole]
  · exact fun block hb => hfolds.pays hb
  · have hgone : writes.used (handle c { reads, writes }).stream.writes = used :=
      Script.used_eq hused
    rw [hgone, Stream.elapsed, Stream.elapsed, handle, handle]
    omega

/-- Two chunks, the second in the last moment. -/
def evenReads : Script Arrival :=
  [.now (.data [97]), .wait 10, .now (.data [98])]

/-- Two acknowledgments in two pieces each, and more than the limit goes by. -/
def sluggishWrites : Script Acceptance :=
  [.wait 20, .now (.take 1), .now (.take 5), .now (.take 2), .wait 7]

def limitedConfig : Config :=
  ⟨.chunk, [79, 107, 33], some (.ofMilliseconds 10)⟩

theorem handle_same_but_slower_sluggish :
    Yields sluggishWrites ∧
    (handle limitedConfig { reads := evenReads }).result ≠ .stuck ∧
    (handle limitedConfig { reads := evenReads, writes := sluggishWrites }).result ≠ .stuck ∧
    SameButSlower limitedConfig.ack sluggishWrites (handle limitedConfig { reads := evenReads })
      (handle limitedConfig { reads := evenReads, writes := sluggishWrites }) ∧
    (handle limitedConfig { reads := evenReads }).stream.elapsed = 10 ∧
    (handle limitedConfig { reads := evenReads, writes := sluggishWrites }).stream.elapsed = 37 := by
  have hy : Yields sluggishWrites := by simp [Yields, sluggishWrites]
  have hfast : (handle limitedConfig { reads := evenReads }).result =
      .ended (.finished ⟨.peerClosed, 2, 2⟩) := by cbv
  have hslow : (handle limitedConfig { reads := evenReads, writes := sluggishWrites }).result =
      .ended (.finished ⟨.peerClosed, 2, 2⟩) := by cbv
  have hf : (handle limitedConfig { reads := evenReads }).result ≠ .stuck := by simp [hfast]
  have hs : (handle limitedConfig { reads := evenReads, writes := sluggishWrites }).result ≠
      .stuck := by simp [hslow]
  exact ⟨hy, hf, hs, handle_same_but_slower hy hf hs, by cbv, by cbv⟩

end SerialAck.Session

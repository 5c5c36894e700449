/-
Byte mode is deaf once it has acknowledged the terminator. Two sessions whose peers send the same
up to a terminator make the same calls until its acknowledgment is out (`Mirrors.calls`); from
there on each only drains what comes, and draining shows the peer nothing and counts for nothing
(`drained_run`). So of what comes after the terminator neither the peer nor the summary tells.
-/
import SerialAck.Proofs.Session.Bytes

namespace SerialAck.Session

/-- The trace goes up to the acknowledgment of the first terminator, of which `rest` is not out
yet. -/
def Answers (c : Config) (rest : List UInt8) (trace : List Entry) : Prop :=
  ∃ before block, trace = before ++ .read 1 [ReadMode.terminator] ::
      .log (.terminated ReadMode.terminator) :: block ∧
    ReadMode.terminator ∉ (received before).flatten ∧ (∀ e ∈ block, e.isWrite) ∧
    (c.ack = [] → block = []) ∧ written block ++ rest = c.ack

/-- The trace ends within the acknowledgment of the terminator. -/
def BreaksOff (c : Config) (trace : List Entry) : Prop :=
  ∃ rest, rest ≠ [] ∧ Answers c rest trace

/-- Nothing that the peer could see, or that tells of a byte to be acknowledged. -/
def Entry.IsQuiet : Entry → Prop
  | .read size _ | .readFailed size => size = ReadMode.chunkSize
  | .write .. | .writeFailed .. => False
  | .log event => event.record.level ≠ .info

/-- What a session leaves, and how it ends, that does nothing but drain. -/
structure Drained (summary : Summary) (trace : List Entry) (result : Result) : Prop where
  quiet : ∀ e ∈ trace, e.IsQuiet
  noWriteFault : ∀ f, result ≠ .ended (.failed (.write f))
  finished : ∀ other, result = .ended (.finished other) → other = summary

/-- Two runs that tell nothing of what sets them apart after the first terminator. -/
structure Deaf (c : Config) (r r' : Run) : Prop where
  /-- Where one of them reads no terminator they are the same. -/
  unread : ReadMode.terminator ∉ (received r.trace).flatten ∨
      ReadMode.terminator ∉ (received r'.trace).flatten →
    r'.trace = r.trace ∧ r'.result = r.result
  /-- And so they are where the acknowledgment of it fails or blocks in one of them. -/
  brokenOff : BreaksOff c r.trace ∨ BreaksOff c r'.trace →
    BreaksOff c r.trace ∧ r'.trace = r.trace ∧ r'.result = r.result ∧
      (r.result = .stuck ∨ ∃ f, r.result = .ended (.failed (.write f)))
  /-- Else they are the same up to the end of the acknowledgment, and only drain after that. -/
  answered : ReadMode.terminator ∈ (received r.trace).flatten → ¬ BreaksOff c r.trace →
    ∃ head rest rest' summary, Answers c [] head ∧ r.trace = head ++ rest ∧
      r'.trace = head ++ rest' ∧ summary.ending = .terminator ∧
      Drained summary rest r.result ∧ Drained summary rest' r'.result

/-- Two scripts that are the same up to a terminator. -/
inductive SameToTerminator : Script Arrival → Script Arrival → Prop where
  | here (bytes tail tail' : List UInt8) (rest rest' : Script Arrival) :
      SameToTerminator (.now (.data (bytes ++ ReadMode.terminator :: tail)) :: rest)
        (.now (.data (bytes ++ ReadMode.terminator :: tail')) :: rest')
  | later {rest rest' : Script Arrival} (e : Step Arrival) (h : SameToTerminator rest rest') :
      SameToTerminator (e :: rest) (e :: rest')

/-- The same of what two such scripts have within a budget. -/
inductive SameNext : Next Arrival → Next Arrival → Prop where
  | here (bytes tail tail' : List UInt8) (rest rest' : Script Arrival) (spent : Nat) :
      SameNext (.due (.data (bytes ++ ReadMode.terminator :: tail)) rest spent)
        (.due (.data (bytes ++ ReadMode.terminator :: tail')) rest' spent)
  | due {rest rest' : Script Arrival} (a : Arrival) (spent : Nat)
      (h : SameToTerminator rest rest') : SameNext (.due a rest spent) (.due a rest' spent)
  | late (rest rest' : Script Arrival) : SameNext (.late rest) (.late rest')

/-! ## Reading the same -/

theorem SameToTerminator.append {script script' : Script Arrival}
    (h : SameToTerminator script script') (before : Script Arrival) :
    SameToTerminator (before ++ script) (before ++ script') := by
  induction before with
  | nil => exact h
  | cons e before ih => exact .later e ih

theorem SameNext.after {next next' : Next Arrival} (h : SameNext next next') (ms : Nat) :
    SameNext (next.after ms) (next'.after ms) := by
  cases h with
  | here => exact .here ..
  | due a spent h => exact .due a _ h
  | late => exact .late ..

theorem SameToTerminator.next {script script' : Script Arrival}
    (h : SameToTerminator script script') (budget : Nat) :
    SameNext (script.next budget) (script'.next budget) := by
  induction h generalizing budget with
  | here => exact .here ..
  | later e h ih =>
    cases e with
    | now a => exact .due a 0 h
    | wait ms =>
      rw [Script.next, Script.next]
      split
      · exact (ih _).after ms
      · exact .late ..
    | hang => exact .late ..

variable {t t' u : Stream}

/-- Reading byte by byte, nobody can tell two such streams apart but behind the terminator. -/
theorem SameToTerminator.read {limit : Option Nat} {r : Reading}
    (h : SameToTerminator t.reads u.reads) (hw : u.writes = t.writes) (hl : u.left = t.left)
    (hr : t.read 1 limit = (r, t')) :
    ∃ u', u.read 1 limit = (r, u') ∧ u'.writes = t'.writes ∧ u'.left = t'.left ∧
      ∀ bytes, r = .got bytes →
        ReadMode.terminator ∈ bytes ∨ SameToTerminator t'.reads u'.reads := by
  have hbudget : u.readBudget limit = t.readBudget limit := by
    unfold Stream.readBudget
    rw [hl]
  have hlimited : u.isLimited limit = t.isLimited limit := by
    unfold Stream.isLimited
    rw [hl]
  have hnext := h.next (t.readBudget limit)
  unfold Stream.read at hr ⊢
  rw [hbudget, hlimited, hw, hl]
  revert hr
  generalize t.reads.next (t.readBudget limit) = next at hnext
  generalize u.reads.next (t.readBudget limit) = next' at hnext
  intro hr
  cases hnext with
  | here bytes tail tail' rest rest' spent =>
    obtain ⟨rfl, rfl⟩ := Prod.mk.inj hr
    cases bytes with
    | nil => exact ⟨_, rfl, rfl, rfl, by simp⟩
    | cons b bytes =>
      refine ⟨_, rfl, rfl, rfl, fun _ _ => .inr ?_⟩
      simpa using SameToTerminator.here bytes tail tail' rest rest'
  | due a spent h =>
    cases a with
    | data bytes =>
      obtain ⟨rfl, rfl⟩ := Prod.mk.inj hr
      refine ⟨_, rfl, rfl, rfl, fun _ _ => .inr ?_⟩
      dsimp only
      split
      · exact h
      · exact .later _ h
    | failure f =>
      obtain ⟨rfl, rfl⟩ := Prod.mk.inj hr
      exact ⟨_, rfl, rfl, rfl, by simp⟩
    | eof =>
      obtain ⟨rfl, rfl⟩ := Prod.mk.inj hr
      exact ⟨_, rfl, rfl, rfl, fun _ _ => .inr h⟩
  | late rest rest' =>
    obtain ⟨rfl, rfl⟩ := Prod.mk.inj hr
    refine ⟨_, rfl, rfl, rfl, fun bytes hb => ?_⟩
    split at hb <;> simp at hb

/-- A write does not look at what there is to read. -/
theorem Stream.write_congr {bytes : List UInt8} {w : Writing} (hw : u.writes = t.writes)
    (hl : u.left = t.left) (h : t.write bytes = (w, t')) :
    ∃ u', u.write bytes = (w, u') ∧ u'.writes = t'.writes ∧ u'.left = t'.left ∧
      t'.reads = t.reads ∧ u'.reads = u.reads := by
  unfold write at h ⊢
  rw [hw, hl]
  split at h <;> obtain ⟨rfl, rfl⟩ := Prod.mk.inj h <;> exact ⟨_, rfl, rfl, rfl, rfl, rfl⟩

/-! ## In lockstep until the acknowledgment is out -/

/-- What is to come of the acknowledgment of the terminator, as long as nothing has come
since. -/
def State.answer? (s : State) : Option (List UInt8) :=
  match s.phase with
  | .replying rest true => some rest
  | .draining 0 => some []
  | _ => none

theorem State.answer?_reply (s : State) (rest : List UInt8) (last : Bool) :
    (s.reply rest last).answer? = if last then some rest else none := by
  unfold reply
  split
  · rename_i hr
    subst hr
    cases last <;> rfl
  · cases last <;> rfl

/-- The second stream is like the first, except that it may bring anything once the terminator is
read. -/
structure Mirrors (s : State) (t u : Stream) : Prop where
  writes : u.writes = t.writes
  left : u.left = t.left
  reads : s.answer? = none → SameToTerminator t.reads u.reads

variable {c : Config} {s s' : State} {trace entries : List Entry}

theorem Mirrors.read {r : Reading} (h : Mirrors s t u) (hm : c.mode = .byte) (hp : s.Reads)
    (hd : ∀ n, s.phase ≠ .draining n) (hr : t.read (s.readSize c.mode) c.limit = (r, t')) :
    ∃ u', u.read (s.readSize c.mode) c.limit = (r, u') ∧ u'.writes = t'.writes ∧
      u'.left = t'.left ∧ ∀ bytes, r = .got bytes →
        ReadMode.terminator ∈ bytes ∨ SameToTerminator t'.reads u'.reads := by
  cases hph : s.phase with
  | listening =>
    have hsame := h.reads (by simp [State.answer?, hph])
    have hone : s.readSize c.mode = 1 := by simp [State.readSize, hph, hm, ReadMode.size]
    rw [hone] at hr ⊢
    exact hsame.read h.writes h.left hr
  | replying rest last => exact absurd hph (hp rest last)
  | draining n => exact absurd hph (hd n)

theorem Mirrors.call (h : Mirrors s t u) (hm : c.mode = .byte) (hd : ∀ n, s.phase ≠ .draining n)
    (hc : Call c s t entries s' t') : ∃ u', Call c s u entries s' u' ∧ Mirrors s' t' u' := by
  cases hc with
  | @read bytes _ hp hr hb =>
    have hsize : s.readSize c.mode = c.mode.size := by simp [State.readSize, hp]
    obtain ⟨u', hu, hwrites, hleft, hnext⟩ :=
      h.read hm (by simp [State.Reads, hp]) hd (hsize ▸ hr)
    refine ⟨u', .read hp (hsize ▸ hu) hb, hwrites, hleft, fun hn => ?_⟩
    rcases hnext bytes rfl with ht | hreads
    · have hlast := endsWith_iff.mpr ⟨hm, ht⟩
      simp [State.answer?_reply, hlast] at hn
    · exact hreads
  | drain hp => exact absurd hp (hd _)
  | @write rest last taken _ hp hw ht =>
    obtain ⟨u', hu, hwrites, hleft, hreads, hreads'⟩ := Stream.write_congr h.writes h.left hw
    refine ⟨u', .write hp hu ht, hwrites, hleft, fun hn => ?_⟩
    rw [hreads, hreads']
    refine h.reads ?_
    cases last with
    | true => simp [State.answer?_reply] at hn
    | false => simp [State.answer?, hp]
  | @retry rest last f _ hp hw hk =>
    obtain ⟨u', hu, hwrites, hleft, hreads, hreads'⟩ := Stream.write_congr h.writes h.left hw
    refine ⟨u', .retry hp hu hk, hwrites, hleft, fun hn => ?_⟩
    rw [hreads, hreads']
    exact h.reads hn

theorem Mirrors.lastCall {o : Outcome} (h : Mirrors s t u) (hm : c.mode = .byte)
    (hd : ∀ n, s.phase ≠ .draining n) (hl : LastCall c s t entries o t') :
    ∃ u', LastCall c s u entries o u' := by
  cases hl with
  | closed hp hr =>
    have hsize : s.readSize c.mode = c.mode.size := by simp [State.readSize, hp]
    obtain ⟨u', hu, -⟩ := h.read hm (by simp [State.Reads, hp]) hd (hsize ▸ hr)
    exact ⟨u', .closed hp (hsize ▸ hu)⟩
  | drained hp => exact absurd hp (hd _)
  | readFailed hp hr =>
    obtain ⟨u', hu, -⟩ := h.read hm hp hd hr
    exact ⟨u', .readFailed hp hu⟩
  | timedOut hp hr =>
    obtain ⟨u', hu, -⟩ := h.read hm hp hd hr
    exact ⟨u', .timedOut hp hu⟩
  | writeZero hp hw =>
    obtain ⟨u', hu, -⟩ := Stream.write_congr h.writes h.left hw
    exact ⟨u', .writeZero hp hu⟩
  | writeFailed hp hw hk =>
    obtain ⟨u', hu, -⟩ := Stream.write_congr h.writes h.left hw
    exact ⟨u', .writeFailed hp hu hk⟩

theorem Mirrors.stuck (h : Mirrors s t u) (hm : c.mode = .byte)
    (hd : ∀ n, s.phase ≠ .draining n) (hs : step c s t = .stuck t') :
    ∃ u', step c s u = .stuck u' := by
  rcases step_stuck_iff.mp hs with ⟨hp, hr⟩ | ⟨rest, last, hp, hw⟩
  · obtain ⟨u', hu, -⟩ := h.read hm hp hd hr
    exact ⟨u', step_stuck_iff.mpr (.inl ⟨hp, hu⟩)⟩
  · obtain ⟨u', hu, -⟩ := Stream.write_congr h.writes h.left hw
    exact ⟨u', step_stuck_iff.mpr (.inr ⟨rest, last, hp, hu⟩)⟩

/-- A session that has discarded nothing did not drain before its last call. -/
theorem Call.not_draining (h : Call c s t entries s' t') (hd : s'.discarded = 0) (n : Nat) :
    s.phase ≠ .draining n := by
  cases h with
  | read hp | write hp | retry hp => simp [hp]
  | drain hp hr hb => simp [State.discarded, hb] at hd

theorem State.discarded_of_not_draining (hd : ∀ n, s.phase ≠ .draining n) : s.discarded = 0 := by
  unfold discarded
  split
  · rename_i n hp
    exact absurd hp (hd n)
  · rfl

theorem State.eq_zero_of_draining {n : Nat} (hp : s.phase = .draining n) (hd : s.discarded = 0) :
    n = 0 := by
  simpa [discarded, hp] using hd

variable {start other : Stream}

theorem Mirrors.calls (h : Mirrors {} start other) (hm : c.mode = .byte)
    (hc : Calls c {} start trace s t) (hd : s.discarded = 0) :
    ∃ u, Calls c {} other trace s u ∧ Mirrors s t u := by
  induction hc with
  | none => exact ⟨other, .none, h⟩
  | @more trace entries s₁ t₁ s₂ t₂ _ hc ih =>
    have hn := hc.not_draining hd
    obtain ⟨u₁, hu₁, hm₁⟩ := ih (State.discarded_of_not_draining hn)
    obtain ⟨u₂, hu₂, hm₂⟩ := hm₁.call hm hn hc
    exact ⟨u₂, hu₁.more hu₂, hm₂⟩

/-- A session that drains has come to a point where the acknowledgment was just out. -/
theorem Calls.exists_draining {n : Nat} (h : Calls c {} start trace s t)
    (hp : s.phase = .draining n) :
    ∃ head s₀ t₀, Calls c {} start head s₀ t₀ ∧ s₀.phase = .draining 0 := by
  induction h generalizing n with
  | none => simp at hp
  | more h hc ih =>
    cases hc with
    | drain hp' => exact ih hp'
    | retry hp' => simp [hp'] at hp
    | read hp' hr hb =>
      obtain rfl := State.eq_zero_of_draining hp (State.discarded_reply _ _ _)
      exact ⟨_, _, _, h.more (.read hp' hr hb), hp⟩
    | write hp' hw ht =>
      obtain rfl := State.eq_zero_of_draining hp (State.discarded_reply _ _ _)
      exact ⟨_, _, _, h.more (.write hp' hw ht), hp⟩

/-! ## The acknowledgment -/

theorem Answers.snoc {rest left : List UInt8} {e : Entry} (h : Answers c rest trace)
    (he : e.isWrite) (hne : rest ≠ []) (hl : e.written ++ left = rest) :
    Answers c left (trace ++ [e]) := by
  obtain ⟨before, block, htrace, hbefore, hblock, -, hack⟩ := h
  refine ⟨before, block ++ [e], ?_, hbefore, ?_, ?_, ?_⟩
  · rw [htrace, List.append_assoc]
    rfl
  · intro a ha
    rcases List.mem_append.mp ha with ha | ha
    · exact hblock a ha
    · rwa [List.mem_singleton.mp ha]
  · intro hnil
    rw [hnil] at hack
    exact absurd (List.append_eq_nil_iff.mp hack).2 hne
  · simpa [← hl] using hack

/-- Who has not acknowledged a terminator has read none, or is at it. -/
theorem Calls.unread_or_answer (h : Calls c {} start trace s t) (hm : c.mode = .byte)
    (hd : ∀ n, s.phase ≠ .draining n) :
    ReadMode.terminator ∉ (received trace).flatten ∨ ∃ rest, s.phase = .replying rest true := by
  have hb := h.balanced
  cases hp : s.phase with
  | draining n => exact absurd hp (hd n)
  | listening =>
    simp only [Balanced, hp] at hb
    have hover := hb.terminated
    rw [hm, over_iff_mem_flatten] at hover
    exact .inl (by simp [hover])
  | replying rest last =>
    simp only [Balanced, hp] at hb
    have hover := hb.last
    rw [hm, over_iff_mem_flatten] at hover
    cases last with
    | true => exact .inr ⟨rest, rfl⟩
    | false => exact .inl (by simp [hover])

theorem Calls.answers {rest : List UInt8} (h : Calls c {} start trace s t) (hm : c.mode = .byte)
    (ha : s.answer? = some rest) : Answers c rest trace := by
  induction h generalizing rest with
  | none => simp [State.answer?] at ha
  | @more trace entries s₁ t₁ s₂ t₂ hcs hc ih =>
    cases hc with
    | @read bytes _ hp hr hb =>
      rw [State.answer?_reply] at ha
      split at ha
      · rename_i hlast
        obtain rfl := Option.some.inj ha
        have ht := (endsWith_iff.mp hlast).2
        obtain ⟨b, rfl⟩ := Stream.exists_byte hm hr hb
        obtain rfl := List.mem_singleton.mp ht
        have hunread := (hcs.unread_or_answer hm (by simp [hp])).resolve_right (by simp [hp])
        exact ⟨trace, [], by simp [hm, State.report, ReadMode.size], hunread, by simp,
          fun _ => rfl, rfl⟩
      · simp at ha
    | drain hp hr hb => simp [State.answer?, hb] at ha
    | @write rest' last taken _ hp hw ht =>
      cases last with
      | true =>
        rw [State.answer?_reply] at ha
        obtain rfl := Option.some.inj ha
        have hsplit := List.prefix_iff_eq_append.mp (Stream.prefix_of_write hw)
        have hopen : s₁.answer? = some rest' := by simp [State.answer?, hp]
        exact (ih hopen).snoc rfl (hcs.rest_ne_nil hp) hsplit
      | false => simp [State.answer?_reply] at ha
    | @retry rest' last f _ hp hw hk =>
      have hne : rest ≠ [] := by
        cases last with
        | true =>
          simp only [State.answer?, hp, Option.some.injEq] at ha
          exact ha ▸ hcs.rest_ne_nil hp
        | false => simp [State.answer?, hp] at ha
      exact (ih ha).snoc rfl hne rfl

theorem Answers.terminator_mem {rest : List UInt8} (h : Answers c rest trace) :
    ReadMode.terminator ∈ (received trace).flatten := by
  obtain ⟨before, block, htrace, -⟩ := h
  simp [htrace, Entry.received]

/-- A list has one first `a`. -/
theorem eq_of_append_cons {α : Type} {a : α} {p q p' q' : List α}
    (h : p ++ a :: q = p' ++ a :: q') (hp : a ∉ p) (hp' : a ∉ p') : q = q' := by
  induction p generalizing p' with
  | nil =>
    cases p' with
    | nil => exact (List.cons.inj h).2
    | cons b p' =>
      obtain ⟨rfl, -⟩ := List.cons.inj h
      exact absurd List.mem_cons_self hp'
  | cons b p ih =>
    cases p' with
    | nil =>
      obtain ⟨rfl, -⟩ := List.cons.inj h
      exact absurd List.mem_cons_self hp
    | cons b' p' =>
      obtain ⟨-, htail⟩ := List.cons.inj h
      exact ih htail (List.not_mem_of_not_mem_cons hp) (List.not_mem_of_not_mem_cons hp')

/-- An acknowledgment that is out does not break off. -/
theorem Answers.not_breaksOff (h : Answers c [] trace) (more : List Entry) :
    ¬ BreaksOff c (trace ++ more) := by
  intro hoff
  obtain ⟨before, block, htrace, hbefore, -, -, hack⟩ := h
  obtain ⟨rest, hne, before', block', htrace', hbefore', -, -, hack'⟩ := hoff
  have hfirst : ∀ p, ReadMode.terminator ∉ (received p).flatten →
      .read 1 [ReadMode.terminator] ∉ p := by
    intro p hp hmem
    refine hp (List.mem_flatten.mpr ⟨[ReadMode.terminator], ?_, List.mem_singleton_self _⟩)
    exact List.mem_flatMap.mpr ⟨_, hmem, List.mem_singleton_self _⟩
  rw [htrace, List.append_assoc, List.cons_append, List.cons_append] at htrace'
  have hbehind := eq_of_append_cons htrace' (hfirst _ hbefore) (hfirst _ hbefore')
  obtain ⟨-, hblock⟩ := List.cons.inj hbehind
  have hlength := congrArg List.length hack'
  rw [← hblock, ← hack] at hlength
  simp only [written_append, List.length_append, List.length_nil] at hlength
  exact hne (List.length_eq_zero_iff.mp (by omega))

/-! ## Draining -/

theorem drained_run {n : Nat} (hp : s.phase = .draining n) (t : Stream) :
    Drained ⟨.terminator, s.bytesRead, s.acksSent⟩ (run c s t).trace (run c s t).result := by
  fun_induction run c s t generalizing n with
  | case1 s t entries s' t' hs ih =>
    cases step_goes_iff.mp hs with
    | read hp' | write hp' | retry hp' => simp [hp] at hp'
    | drain hp' hr hb =>
      have hnext := ih rfl
      refine ⟨fun e he => ?_, hnext.noWriteFault, hnext.finished⟩
      rcases List.mem_cons.mp he with rfl | he
      · rfl
      · exact hnext.quiet e he
  | case2 s t entries o t' hs =>
    cases step_ends_iff.mp hs with
    | closed hp' | writeZero hp' | writeFailed hp' => simp [hp] at hp'
    | drained hp' hr =>
      refine ⟨fun e he => ?_, by simp, ?_⟩
      · rcases List.mem_cons.mp he with rfl | he
        · rfl
        · obtain ⟨event, hevent, rfl⟩ := List.mem_map.mp he
          split at hevent
          · simp at hevent
          · obtain rfl := List.mem_singleton.mp hevent
            simp [Entry.IsQuiet, Event.record]
      · rintro other ⟨rfl⟩
        rfl
    | readFailed hp' hr =>
      refine ⟨?_, by simp, by simp⟩
      simp [Entry.IsQuiet, State.readSize, hp]
    | timedOut => exact ⟨by simp, by simp, by simp⟩
  | case3 => exact ⟨by simp, by simp, by simp⟩

/-! ## Two runs -/

/-- A session that ends before the acknowledgment of a terminator is out. -/
theorem LastCall.unread_or_breaksOff {o : Outcome} (h : LastCall c s t entries o t')
    (hcs : Calls c {} start trace s t) (hm : c.mode = .byte) (hd : ∀ n, s.phase ≠ .draining n) :
    ReadMode.terminator ∉ (received (trace ++ entries)).flatten ∨
      BreaksOff c (trace ++ entries) ∧ ∃ f, o = .failed (.write f) := by
  rcases hcs.unread_or_answer hm hd with hu | ⟨rest, hp⟩
  · exact .inl (by simpa [h.silent] using hu)
  · have hans := hcs.answers hm (by simp [State.answer?, hp] : s.answer? = some rest)
    have hne := hcs.rest_ne_nil hp
    right
    cases h with
    | closed hp' | drained hp' => simp [hp] at hp'
    | readFailed hp' | timedOut hp' => exact absurd hp (hp' _ _)
    | writeZero | writeFailed => exact ⟨⟨rest, hne, hans.snoc rfl hne rfl⟩, _, rfl⟩

/-- The runs on two such streams are the same, or both come to the end of the acknowledgment. -/
theorem Mirrors.run_cases (h : Mirrors {} start other) (hm : c.mode = .byte) :
    ((run c {} other).trace = (run c {} start).trace ∧
        (run c {} other).result = (run c {} start).result ∧
        (ReadMode.terminator ∉ (received (run c {} start).trace).flatten ∨
          BreaksOff c (run c {} start).trace ∧ ((run c {} start).result = .stuck ∨
            ∃ f, (run c {} start).result = .ended (.failed (.write f))))) ∨
      ∃ head s t u, Calls c {} start head s t ∧ Calls c {} other head s u ∧
        s.phase = .draining 0 := by
  obtain ⟨trace, s, t, hcs, hend⟩ := Session.run_cases c {} start
  by_cases hd : ∃ n, s.phase = .draining n
  · obtain ⟨n, hp⟩ := hd
    obtain ⟨head, s₀, t₀, hhead, hp₀⟩ := hcs.exists_draining hp
    obtain ⟨u₀, hu₀, -⟩ := h.calls hm hhead (by simp [State.discarded, hp₀])
    exact .inr ⟨head, s₀, t₀, u₀, hhead, hu₀, hp₀⟩
  · have hn : ∀ n, s.phase ≠ .draining n := fun n hp => hd ⟨n, hp⟩
    obtain ⟨u, hu, hmirror⟩ := h.calls hm hcs (State.discarded_of_not_draining hn)
    left
    rcases hend with ⟨entries, o, t', hl, hr⟩ | ⟨t', hs, hr⟩
    · obtain ⟨u', hl'⟩ := hmirror.lastCall hm hn hl
      have hr' : run c {} other = ⟨trace ++ entries, .ended o, u'⟩ := by
        rw [hu.run_eq, run_of_lastCall hl']
        rfl
      rw [hr, hr']
      refine ⟨rfl, rfl, (hl.unread_or_breaksOff hcs hm hn).imp_right fun hoff => ?_⟩
      obtain ⟨hoff, f, rfl⟩ := hoff
      exact ⟨hoff, .inr ⟨f, rfl⟩⟩
    · obtain ⟨u', hs'⟩ := hmirror.stuck hm hn hs
      have hr' : run c {} other = ⟨trace, .stuck, u'⟩ := by
        rw [hu.run_eq, run_of_stuck hs', Run.prepend, List.append_nil]
      rw [hr, hr']
      refine ⟨rfl, rfl, (hcs.unread_or_answer hm hn).imp_right fun hans => ?_⟩
      obtain ⟨rest, hp⟩ := hans
      have hopen : s.answer? = some rest := by simp [State.answer?, hp]
      exact ⟨⟨rest, hcs.rest_ne_nil hp, hcs.answers hm hopen⟩, .inl rfl⟩

/-- **Nothing after the terminator reaches the peer or the summary.** Two peers that send the same
up to a terminator, and whatever they like behind it, see the same and are summed up alike. -/
theorem handle_deaf_after_terminator (ack : List UInt8) (idle : Option Duration)
    (writes : Script Acceptance) (before : Script Arrival) (bytes tail tail' : List UInt8)
    (rest rest' : Script Arrival) :
    Deaf ⟨.byte, ack, idle⟩
      (handle ⟨.byte, ack, idle⟩
        { reads := before ++ .now (.data (bytes ++ ReadMode.terminator :: tail)) :: rest, writes })
      (handle ⟨.byte, ack, idle⟩
        { reads := before ++ .now (.data (bytes ++ ReadMode.terminator :: tail')) :: rest',
          writes }) := by
  generalize hc : (⟨.byte, ack, idle⟩ : Config) = c
  have hm : c.mode = .byte := by rw [← hc]
  have hsame := (SameToTerminator.here bytes tail tail' rest rest').append before
  generalize before ++ .now (.data (bytes ++ ReadMode.terminator :: tail)) :: rest = reads
    at hsame ⊢
  generalize before ++ .now (.data (bytes ++ ReadMode.terminator :: tail')) :: rest' = reads'
    at hsame ⊢
  have hmirror : Mirrors {} { reads, writes } { reads := reads', writes } :=
    ⟨rfl, rfl, fun _ => hsame⟩
  rcases hmirror.run_cases hm with ⟨htrace, hresult, hend⟩ | ⟨head, s, t, u, ht, hu, hp⟩
  · rw [handle, handle]
    constructor
    · exact fun _ => ⟨htrace, hresult⟩
    · rw [htrace, or_self]
      intro hoff
      obtain ⟨_, -, hans⟩ := hoff
      rcases hend with hunread | hend
      · exact absurd hans.terminator_mem hunread
      · exact ⟨hend.1, rfl, hresult, hend.2⟩
    · intro hread hon
      rcases hend with hunread | hend
      · exact absurd hread hunread
      · exact absurd hend.1 hon
  · have hans := ht.answers hm (by simp [State.answer?, hp] : s.answer? = some [])
    rw [handle, handle, ht.run_eq, hu.run_eq]
    constructor
    · simp [Run.prepend, hans.terminator_mem]
    · intro hoff
      exact (hoff.elim (hans.not_breaksOff _) (hans.not_breaksOff _)).elim
    · intro _ _
      exact ⟨head, _, _, _, hans, rfl, rfl, rfl, drained_run hp t, drained_run hp u⟩

end SerialAck.Session

/-
The first fault ends a session, and is told as it is. The calls that go before the last one end
nothing (`Calls.passing`), and the last one decides how the session ends (`LastCall.verdict`).
There is one kind of fault that ends nothing: a write that is interrupted is made again.
-/
import SerialAck.Proofs.Session.Usage

namespace SerialAck.Session

namespace Entry

/-- A call, and not a line of the log. -/
def isCall : Entry → Bool
  | .log _ => false
  | _ => true

/-- How much a write offers. -/
def offered? : Entry → Option Nat
  | .write offered _ | .writeFailed offered => some offered
  | _ => none

/-- The input is over, a write makes no headway, or a call fails. -/
def isFinal : Entry → Bool
  | .read _ bytes => bytes = []
  | .write offered taken => offered ≠ 0 ∧ taken = []
  | .readFailed _ | .writeFailed _ => true
  | .log _ => false

end Entry

def callsOf (trace : List Entry) : List Entry :=
  trace.filter Entry.isCall

def writeCount (trace : List Entry) : Nat :=
  trace.countP Entry.isWrite

/-- What becomes of a stream by the calls of a trace and by nothing else. -/
inductive Made (limit : Option Nat) (t : Stream) : List Entry → Stream → Prop where
  | none : Made limit t [] t
  | read {trace u v size bytes} (h : Made limit t trace u)
      (hr : u.read size limit = (.got bytes, v)) : Made limit t (trace ++ [.read size bytes]) v
  | readFailed {trace u v size f} (h : Made limit t trace u)
      (hr : u.read size limit = (.failed f, v)) : Made limit t (trace ++ [.readFailed size]) v
  | timedOut {trace u v size} (h : Made limit t trace u)
      (hr : u.read size limit = (.timedOut, v)) : Made limit t trace v
  | write {trace u v bytes taken} (h : Made limit t trace u)
      (hw : u.write bytes = (.took taken, v)) :
      Made limit t (trace ++ [.write bytes.length taken]) v
  | writeFailed {trace u v bytes f} (h : Made limit t trace u)
      (hw : u.write bytes = (.failed f, v)) :
      Made limit t (trace ++ [.writeFailed bytes.length]) v

/-- Of the calls `p ++ e :: q`, `e` is a write with a fault that `spared` holds of, and the next
call is a write that offers the same once more. -/
def Spares (spared : Fault → Prop) (script : Script Acceptance) (p : List Entry) (e : Entry)
    (q : List Entry) : Prop :=
  ∃ offered f, e = .writeFailed offered ∧ script.events[writeCount p]? = some (.failure f) ∧
    spared f ∧ q.head?.bind Entry.offered? = some offered

/-- How a session ends that stops at its first fault, and says which one that was. Faults of
writes that `spared` holds of do not count. -/
structure StopsAtFault (spared : Fault → Prop) (c : Config) (stream : Stream) : Prop where
  /-- What ends a session comes last of its calls. -/
  comesLast : ∀ p e q, callsOf (handle c stream).trace = p ++ e :: q → e.isFinal = true →
    q = [] ∨ Spares spared stream.writes p e q
  finished : (∃ summary, (handle c stream).result = .ended (.finished summary)) ↔
    ∃ size, (callsOf (handle c stream).trace).getLast? = some (.read size [])
  readFailed : (∃ f, (handle c stream).result = .ended (.failed (.read f))) ↔
    ∃ size, (callsOf (handle c stream).trace).getLast? = some (.readFailed size)
  /-- The fault of a read is the last event that is gone from the script. -/
  readFault : ∀ f, (handle c stream).result = .ended (.failed (.read f)) →
    (stream.reads.used (handle c stream).stream.reads).getLast? = some (.now (.failure f))
  writeFailed : (∃ f, (handle c stream).result = .ended (.failed (.write f))) ↔
    ∃ offered, (callsOf (handle c stream).trace).getLast? = some (.writeFailed offered) ∨
      offered ≠ 0 ∧ (callsOf (handle c stream).trace).getLast? = some (.write offered [])
  writeFault : ∀ f, (handle c stream).result = .ended (.failed (.write f)) →
    ∀ offered, (callsOf (handle c stream).trace).getLast? = some (.writeFailed offered) →
      (stream.writes.used (handle c stream).stream.writes).getLast? = some (.now (.failure f))
  /-- A fault that is spared ends no session. -/
  unspared : ∀ f, (handle c stream).result = .ended (.failed (.write f)) → ¬ spared f
  writeZero : ∀ f, (handle c stream).result = .ended (.failed (.write f)) →
    ∀ offered, (callsOf (handle c stream).trace).getLast? = some (.write offered []) →
      f = ⟨.writeZero, "write zero"⟩
  timedOut : (∃ d, (handle c stream).result = .ended (.failed (.idle d))) ↔
    ∀ e ∈ (callsOf (handle c stream).trace).getLast?, e.isFinal = false
  limit : ∀ d, (handle c stream).result = .ended (.failed (.idle d)) → c.idle = some d
  /-- There are no calls but the reads and writes of the trace. -/
  untouched : Made c.limit stream (callsOf (handle c stream).trace) (handle c stream).stream

/-! ## Counting calls -/

@[simp] theorem callsOf_nil : callsOf [] = [] := rfl

@[simp] theorem callsOf_cons (e : Entry) (p : List Entry) :
    callsOf (e :: p) = if e.isCall then e :: callsOf p else callsOf p :=
  List.filter_cons

@[simp] theorem callsOf_append (p q : List Entry) : callsOf (p ++ q) = callsOf p ++ callsOf q :=
  List.filter_append p q

@[simp] theorem callsOf_map_log (events : List Event) : callsOf (events.map .log) = [] := by
  simp [callsOf, Entry.isCall]

@[simp] theorem writeCount_nil : writeCount [] = 0 := rfl

@[simp] theorem writeCount_cons (e : Entry) (p : List Entry) :
    writeCount (e :: p) = writeCount p + if e.isWrite then 1 else 0 :=
  List.countP_cons

@[simp] theorem writeCount_map_log (events : List Event) : writeCount (events.map .log) = 0 := by
  simp [writeCount, Entry.isWrite]

@[simp] theorem writeCount_append (p q : List Entry) :
    writeCount (p ++ q) = writeCount p + writeCount q :=
  List.countP_append

theorem writeCount_callsOf (trace : List Entry) : writeCount (callsOf trace) = writeCount trace := by
  rw [writeCount, callsOf, List.countP_filter]
  refine List.countP_congr fun e _ => ?_
  cases e <;> simp [Entry.isWrite, Entry.isCall]

/-- A place in a list that is one longer is the last one, or one that was there before. -/
theorem concat_eq_append_cons {α : Type} {l p q : List α} {a e : α}
    (h : l ++ [a] = p ++ e :: q) :
    q = [] ∧ p = l ∧ e = a ∨ ∃ q', q = q' ++ [a] ∧ l = p ++ e :: q' := by
  rcases List.eq_nil_or_concat q with rfl | ⟨q', b, rfl⟩
  · obtain ⟨hp, he⟩ := List.append_inj' h rfl
    exact .inl ⟨rfl, hp.symm, (List.singleton_inj.mp he).symm⟩
  · have h' : l ++ [a] = (p ++ e :: q') ++ [b] := by simpa using h
    obtain ⟨hl, hb⟩ := List.append_inj' h' rfl
    exact .inr ⟨q', by rw [List.singleton_inj.mp hb, List.concat_eq_append], hl⟩

/-! ## Before the last call -/

variable {c : Config} {s s' : State} {start t t' : Stream} {trace entries : List Entry}

/-- Each write takes one event off its script, as long as there is one. -/
theorem Calls.events_eq (h : Calls c s start trace s' t) :
    t.writes.events = start.writes.events.drop (writeCount trace) := by
  induction h with
  | none => simp [writeCount]
  | @more trace entries s₁ t₁ s₂ t₂ _ hc ih =>
    have reading : ∀ {size bytes}, t₁.read size c.limit = (.got bytes, t₂) →
        t₂.writes.events = start.writes.events.drop (writeCount trace) := by
      intro size bytes hr
      obtain ⟨_, _, _, hwrites, _⟩ := Stream.brings_of_read hr (by simp)
      rw [hwrites, ih]
    have writing : ∀ {bytes w}, t₁.write bytes = (w, t₂) → w ≠ .stuck →
        t₂.writes.events = start.writes.events.drop (writeCount trace + 1) := by
      intro bytes w hw hs
      obtain ⟨_, ht, _⟩ := Stream.takes_of_write hw hs
      rw [ht.eq.2.1, ih, List.tail_drop]
    rw [writeCount_append]
    cases hc with
    | read hp hr hb => simpa [Entry.isWrite] using reading hr
    | drain hp hr hb => exact reading hr
    | write hp hw ht => exact writing hw (by simp)
    | retry hp hw hk => exact writing hw (by simp)

/-- A call that lets the session go on is final only where it is a write that is interrupted. -/
theorem Call.exists_callsOf (h : Call c s t entries s' t') :
    ∃ a, callsOf entries = [a] ∧
      (∀ rest last, s.phase = .replying rest last → a.offered? = some rest.length) ∧
      (a.isFinal = true → s' = s ∧ ∃ rest last f, s.phase = .replying rest last ∧
        a = .writeFailed rest.length ∧ t.writes.events.head? = some (.failure f) ∧
        f.kind = .interrupted) := by
  cases h with
  | @read bytes _ hp hr hb =>
    refine ⟨.read c.mode.size bytes, by simp [Entry.isCall], by simp [hp], ?_⟩
    simp [Entry.isFinal, hb]
  | @drain n bytes _ hp hr hb =>
    refine ⟨.read ReadMode.chunkSize bytes, rfl, by simp [hp], ?_⟩
    simp [Entry.isFinal, hb]
  | @write rest last taken _ hp hw ht =>
    refine ⟨.write rest.length taken, rfl, by simp [hp, Entry.offered?], ?_⟩
    simp [Entry.isFinal, ht]
  | @retry rest last f _ hp hw hk =>
    refine ⟨.writeFailed rest.length, rfl, by simp [hp, Entry.offered?], fun _ => ⟨rfl, ?_⟩⟩
    obtain ⟨_, ht, _⟩ := Stream.takes_of_write hw (by simp)
    have hof := ht.eq.1
    refine ⟨rest, last, f, hp, rfl, ?_, hk⟩
    cases he : t.writes.events.head? with
    | none => simp [he, Writing.of] at hof
    | some a => cases a <;> simp_all [Writing.of]

/-- The calls `q` begin with a write that offers so much, or there are none and the next one will
be that write. -/
def Offers (s : State) (q : List Entry) (offered : Nat) : Prop :=
  q.head?.bind Entry.offered? = some offered ∨
    q = [] ∧ ∃ rest last, s.phase = .replying rest last ∧ rest.length = offered

theorem Offers.next {q : List Entry} {offered : Nat} {a : Entry} (h : Offers s q offered)
    (ha : ∀ rest last, s.phase = .replying rest last → a.offered? = some rest.length) :
    (q ++ [a]).head?.bind Entry.offered? = some offered := by
  rcases h with hq | ⟨rfl, rest, last, hp, rfl⟩
  · cases q with
    | nil => simp at hq
    | cons => simpa using hq
  · simpa using ha rest last hp

/-- Of the calls so far a final one is a write that was interrupted, and the same is offered
again. -/
theorem Calls.passing (h : Calls c {} start trace s t) :
    ∀ p e q, callsOf trace = p ++ e :: q → e.isFinal = true →
      ∃ offered f, e = .writeFailed offered ∧
        start.writes.events[writeCount p]? = some (.failure f) ∧ f.kind = .interrupted ∧
        Offers s q offered := by
  induction h with
  | none => simp
  | @more trace entries s₁ t₁ s₂ t₂ hcs hc ih =>
    intro p e q hsplit he
    obtain ⟨a, ha, hoffers, hfinal⟩ := hc.exists_callsOf
    rw [callsOf_append, ha] at hsplit
    rcases concat_eq_append_cons hsplit with ⟨rfl, rfl, rfl⟩ | ⟨q, rfl, hbefore⟩
    · obtain ⟨rfl, rest, last, f, hp, rfl, hf, hk⟩ := hfinal he
      refine ⟨rest.length, f, rfl, ?_, hk, .inr ⟨rfl, rest, last, hp, rfl⟩⟩
      rwa [writeCount_callsOf, ← List.head?_drop, ← hcs.events_eq]
    · obtain ⟨offered, f, rfl, hf, hk, hnext⟩ := ih p e q hbefore he
      exact ⟨offered, f, rfl, hf, hk, .inl (hnext.next hoffers)⟩

theorem Calls.made (h : Calls c s start trace s' t) : Made c.limit start (callsOf trace) t := by
  induction h with
  | none => exact .none
  | more _ hc ih =>
    rw [callsOf_append]
    cases hc with
    | read hp hr hb => simpa [Entry.isCall] using ih.read hr
    | drain hp hr hb => exact ih.read hr
    | write hp hw ht => exact ih.write hw
    | retry hp hw hk => exact ih.writeFailed hw

/-! ## The last call -/

/-- What the last call says of the outcome, where `u` is what it leaves of the stream. -/
inductive Verdict (c : Config) (start u : Stream) : Option Entry → Outcome → Prop where
  | finished (size summary) : Verdict c start u (some (.read size [])) (.finished summary)
  | readFailed (size) {f}
      (h : (start.reads.used u.reads).getLast? = some (.now (.failure f))) :
      Verdict c start u (some (.readFailed size)) (.failed (.read f))
  | writeFailed (offered) {f} (hk : f.kind ≠ .interrupted)
      (h : (start.writes.used u.writes).getLast? = some (.now (.failure f))) :
      Verdict c start u (some (.writeFailed offered)) (.failed (.write f))
  | writeZero {offered} (h : offered ≠ 0) :
      Verdict c start u (some (.write offered [])) (.failed (.write (.ofKind .writeZero)))
  | timedOut {last d} (hl : ∀ e ∈ last, e.isFinal = false) (hd : c.idle = some d) :
      Verdict c start u last (.failed (.idle d))

namespace Verdict

variable {u : Stream} {last : Option Entry} {o : Outcome}

theorem finished_iff (h : Verdict c start u last o) :
    (∃ summary, o = .finished summary) ↔ ∃ size, last = some (.read size []) := by
  cases h with
  | timedOut hl =>
    have hne : ∀ size, last ≠ some (.read size []) := by
      rintro size rfl
      simp [Entry.isFinal] at hl
    simp [hne]
  | _ => simp

theorem read_iff (h : Verdict c start u last o) :
    (∃ f, o = .failed (.read f)) ↔ ∃ size, last = some (.readFailed size) := by
  cases h with
  | timedOut hl =>
    have hne : ∀ size, last ≠ some (.readFailed size) := by
      rintro size rfl
      simp [Entry.isFinal] at hl
    simp [hne]
  | _ => simp

theorem write_iff (h : Verdict c start u last o) :
    (∃ f, o = .failed (.write f)) ↔ ∃ offered, last = some (.writeFailed offered) ∨
      offered ≠ 0 ∧ last = some (.write offered []) := by
  cases h with
  | timedOut hl =>
    have hne : ∀ offered, last ≠ some (.writeFailed offered) := by
      rintro offered rfl
      simp [Entry.isFinal] at hl
    have hzero : ∀ offered, offered ≠ 0 → last ≠ some (.write offered []) := by
      rintro offered ho rfl
      simp [Entry.isFinal, ho] at hl
    constructor
    · simp
    · rintro ⟨offered, hlast | ⟨ho, hlast⟩⟩
      · exact absurd hlast (hne offered)
      · exact absurd hlast (hzero offered ho)
  | writeZero ho => simp [ho]
  | _ => simp

theorem timedOut_iff (h : Verdict c start u last o) :
    (∃ d, o = .failed (.idle d)) ↔ ∀ e ∈ last, e.isFinal = false := by
  cases h with
  | timedOut hl => simpa using hl
  | writeZero ho => simp [Entry.isFinal, ho]
  | _ => simp [Entry.isFinal]

/-- What is told of a read that failed. -/
theorem of_read {f : Fault} (h : Verdict c start u last (.failed (.read f))) :
    (start.reads.used u.reads).getLast? = some (.now (.failure f)) := by
  cases h with
  | readFailed _ h => exact h

/-- What is told of a write that failed, or made no headway. -/
theorem of_write {f : Fault} (h : Verdict c start u last (.failed (.write f))) :
    (∃ offered, last = some (.writeFailed offered) ∧ f.kind ≠ .interrupted ∧
        (start.writes.used u.writes).getLast? = some (.now (.failure f))) ∨
      (∃ offered, last = some (.write offered [])) ∧ f = .ofKind .writeZero := by
  cases h with
  | writeFailed offered hk h => exact .inl ⟨offered, rfl, hk, h⟩
  | writeZero h => exact .inr ⟨⟨_, rfl⟩, rfl⟩

theorem of_timedOut {d : Duration} (h : Verdict c start u last (.failed (.idle d))) :
    c.idle = some d := by
  cases h with
  | timedOut _ hd => exact hd

end Verdict

theorem idle_of_timedOut {size : Nat} (h : t.read size c.limit = (.timedOut, t')) :
    ∃ d, c.idle = some d := by
  obtain ⟨spent, hb, -⟩ := Stream.brings_of_read h (by simp)
  obtain ⟨hl, -⟩ := hb.of_timedOut
  rw [Config.limit, Option.map_eq_some_iff] at hl
  obtain ⟨d, hd, -⟩ := hl
  exact ⟨d, hd⟩

/-- Where nothing is owed, no fault has been spared just now. -/
theorem Calls.last_not_final (h : Calls c {} start trace s t)
    (hp : s.Reads) :
    ∀ e ∈ (callsOf trace).getLast?, e.isFinal = false := by
  intro e he
  obtain ⟨p, hsplit⟩ := List.getLast?_eq_some_iff.mp he
  cases hf : e.isFinal with
  | false => rfl
  | true =>
    obtain ⟨_, _, _, _, _, hq | ⟨_, rest, last, hph, _⟩⟩ := h.passing p e [] hsplit hf
    · simp at hq
    · exact absurd hph (hp rest last)

theorem getLast?_callsOf {e : Entry} (h : callsOf entries = [e]) (trace : List Entry) :
    (callsOf (trace ++ entries)).getLast? = some e := by
  rw [callsOf_append, h, List.getLast?_concat]

theorem LastCall.verdict {o : Outcome} (h : LastCall c s t entries o t')
    (hcs : Calls c {} start trace s t) :
    Verdict c start t' (callsOf (trace ++ entries)).getLast? o := by
  obtain ⟨reads, writes, hu, -⟩ := hcs.uses
  cases h with
  | closed hp hr =>
    rw [getLast?_callsOf (e := .read c.mode.size []) rfl]
    exact .finished _ _
  | drained hp hr =>
    rw [getLast?_callsOf (e := .read ReadMode.chunkSize []) (by simp [Entry.isCall])]
    exact .finished _ _
  | @readFailed f _ hp hr =>
    obtain ⟨more, hm, -, hf⟩ := hu.read hr (by simp) (by simp)
    rw [getLast?_callsOf (e := .readFailed (s.readSize c.mode)) rfl]
    exact .readFailed _ (by simp [hm.reads_used, hf f rfl])
  | timedOut hp hr =>
    obtain ⟨d, hd⟩ := idle_of_timedOut hr
    rw [hd, List.append_nil]
    exact .timedOut (hcs.last_not_final hp) hd
  | @writeZero rest last _ hp hw =>
    rw [getLast?_callsOf (e := .write rest.length []) rfl]
    exact .writeZero (by simpa using hcs.rest_ne_nil hp)
  | @writeFailed rest last f _ hp hw hk =>
    obtain ⟨more, hm, hf⟩ := hu.write hw (by simp)
    rw [getLast?_callsOf (e := .writeFailed rest.length) rfl]
    exact .writeFailed _ hk (by simp [hm.writes_used, hf f rfl])

/-- The last call of all is final, or the session timed out; whatever is final before it was
spared. -/
theorem LastCall.comesLast {o : Outcome} (h : LastCall c s t entries o t')
    (hcs : Calls c {} start trace s t) :
    ∀ p e q, callsOf (trace ++ entries) = p ++ e :: q → e.isFinal = true →
      q = [] ∨ Spares (·.kind = .interrupted) start.writes p e q := by
  intro p e q hsplit he
  have single : ∀ a, callsOf entries = [a] →
      (∀ rest last, s.phase = .replying rest last → a.offered? = some rest.length) →
      q = [] ∨ Spares (·.kind = .interrupted) start.writes p e q := by
    intro a ha hoffers
    rw [callsOf_append, ha] at hsplit
    rcases concat_eq_append_cons hsplit with ⟨rfl, -⟩ | ⟨q, rfl, hbefore⟩
    · exact .inl rfl
    · obtain ⟨offered, f, rfl, hf, hk, hnext⟩ := hcs.passing p e q hbefore he
      exact .inr ⟨offered, f, rfl, hf, hk, hnext.next hoffers⟩
  cases h with
  | closed hp hr => exact single _ rfl (by simp [hp])
  | drained hp hr => exact single (.read ReadMode.chunkSize []) (by simp [Entry.isCall]) (by simp [hp])
  | readFailed hp hr => exact single _ rfl fun rest last hph => absurd hph (hp rest last)
  | timedOut hp hr =>
    rw [List.append_nil] at hsplit
    obtain ⟨offered, f, rfl, hf, hk, hq | ⟨-, rest, last, hph, -⟩⟩ := hcs.passing p e q hsplit he
    · exact .inr ⟨offered, f, rfl, hf, hk, hq⟩
    · exact absurd hph (hp rest last)
  | writeZero hp hw => exact single _ rfl (by simp [hp, Entry.offered?])
  | writeFailed hp hw hk => exact single _ rfl (by simp [hp, Entry.offered?])

theorem LastCall.made {o : Outcome} (h : LastCall c s t entries o t')
    (hcs : Calls c {} start trace s t) : Made c.limit start (callsOf (trace ++ entries)) t' := by
  have hm := hcs.made
  rw [callsOf_append]
  cases h with
  | closed hp hr => exact hm.read hr
  | drained hp hr => simpa [Entry.isCall] using hm.read hr
  | readFailed hp hr => exact hm.readFailed hr
  | timedOut hp hr => simpa using hm.timedOut hr
  | writeZero hp hw => exact hm.write hw
  | writeFailed hp hw hk => exact hm.writeFailed hw

/-- **The first fault ends a session and is told as it is.** Only a write that is interrupted ends
nothing: it is made once more. -/
theorem handle_stops_at_fault {c : Config} {stream : Stream}
    (h : (handle c stream).result ≠ .stuck) :
    StopsAtFault (·.kind = .interrupted) c stream := by
  obtain ⟨trace, s, t, hcs, ⟨entries, o, u, hl, hr⟩ | ⟨u, -, hr⟩⟩ := run_cases c {} stream
  · have hv := hl.verdict hcs
    rw [← handle] at hr
    constructor <;> rw [hr]
    · exact hl.comesLast hcs
    · simpa using hv.finished_iff
    · simpa using hv.read_iff
    · rintro f ⟨rfl⟩
      exact hv.of_read
    · simpa using hv.write_iff
    · rintro f ⟨rfl⟩ offered hlast
      rcases hv.of_write with ⟨_, -, -, hf⟩ | ⟨⟨_, hzero⟩, -⟩
      · exact hf
      · exact absurd (hlast.symm.trans hzero) (by simp)
    · rintro f ⟨rfl⟩
      rcases hv.of_write with ⟨_, -, hk, -⟩ | ⟨-, rfl⟩
      · exact hk
      · simp [Fault.ofKind]
    · rintro f ⟨rfl⟩ offered hlast
      rcases hv.of_write with ⟨_, hfailed, -, -⟩ | ⟨-, hf⟩
      · exact absurd (hlast.symm.trans hfailed) (by simp)
      · exact hf
    · simpa using hv.timedOut_iff
    · rintro d ⟨rfl⟩
      exact hv.of_timedOut
    · exact hl.made hcs
  · exact absurd (by rw [handle, hr]) h

/-- A terminator and more to drain, pauses, and a write that is interrupted twice over. -/
def faultyStream : Stream where
  reads := [.now (.data [36, 97]), .wait 4, .now (.data [98]),
    .now (.failure (.ofKind .wouldBlock)), .now (.data [99])]
  writes := [.now (.take 1), .now (.failure (.ofKind .interrupted)), .wait 2,
    .now (.failure (.ofNumber 4))]

def faultyConfig : Config :=
  ⟨.byte, [79, 107], some (.ofMilliseconds 10)⟩

/-- The fault by number of a call that is interrupted. -/
theorem ofNumber_interrupted :
    Fault.ofNumber 4 = ⟨.interrupted, "Interrupted system call (os error 4)"⟩ := by
  decide +kernel

theorem handle_stops_at_fault_draining :
    (handle faultyConfig faultyStream).result ≠ .stuck ∧
    StopsAtFault (·.kind = .interrupted) faultyConfig faultyStream ∧
    (handle faultyConfig faultyStream).result = .ended (.failed (.read (.ofKind .wouldBlock))) ∧
    callsOf (handle faultyConfig faultyStream).trace =
      [.read 1 [36], .write 2 [79], .writeFailed 1, .writeFailed 1, .write 1 [107],
        .read 1024 [97], .read 1024 [98], .readFailed 1024] := by
  have hres : (handle faultyConfig faultyStream).result =
      .ended (.failed (.read (.ofKind .wouldBlock))) := by
    rw [faultyStream, ofNumber_interrupted]
    cbv
  have hstuck : (handle faultyConfig faultyStream).result ≠ .stuck := by
    rw [hres]
    simp
  refine ⟨hstuck, handle_stops_at_fault hstuck, hres, ?_⟩
  rw [faultyStream, ofNumber_interrupted]
  set_option maxRecDepth 1000 in cbv

/-- One byte, and the write that is to acknowledge it is interrupted. -/
def interruptedStream : Stream where
  reads := [.now (.data [97])]
  writes := [.now (.failure (.ofKind .interrupted))]

/-- Not every fault ends a session. -/
theorem not_stops_at_interruption :
    (handle (.ofMode .chunk) interruptedStream).result ≠ .stuck ∧
      ¬ StopsAtFault (fun _ => False) (.ofMode .chunk) interruptedStream := by
  have htrace : callsOf (handle (.ofMode .chunk) interruptedStream).trace =
      [.read 1024 [97]] ++ .writeFailed 3 :: [.write 3 [79, 107, 33], .read 1024 []] := by cbv
  have hresult : (handle (.ofMode .chunk) interruptedStream).result =
      .ended (.finished ⟨.peerClosed, 1, 1⟩) := by cbv
  refine ⟨by simp [hresult], fun h => ?_⟩
  rcases h.comesLast [.read 1024 [97]] (.writeFailed 3) _ htrace rfl with hq | ⟨_, _, -, -, hf, -⟩
  · simp at hq
  · exact hf

end SerialAck.Session

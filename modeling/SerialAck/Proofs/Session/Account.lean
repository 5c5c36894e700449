/-
The books of a session. Each read that brought something is owed one acknowledgment, in byte mode
up to the read that brought the terminator. `Balanced` says how the bytes written stand against
that between two calls; each call keeps it (`Balanced.call`), and so `handle_accounts` holds at
every cut through the trace of every session.
-/
import SerialAck.Proofs.Session.Calls
import SerialAck.Proofs.Session.Script
import SerialAck.Proofs.Session.Trace

namespace SerialAck.Session

/-- The reads that are owed an acknowledgment, out of all that brought something: in byte mode
none after the terminator. -/
def due (mode : ReadMode) : List (List UInt8) → List (List UInt8)
  | [] => []
  | bytes :: reads =>
    if mode = .byte ∧ ReadMode.terminator ∈ bytes then [bytes] else bytes :: due mode reads

/-- No more and no less has been written than is owed. -/
def Paid (c : Config) (trace : List Entry) : Prop :=
  written trace = repeated (due c.mode (received trace)).length c.ack

/-- The session waits in a call to write that does not come to an end. -/
def BlockedWriting (c : Config) (stream : Stream) : Prop :=
  ∃ trace s t u rest last, Calls c {} stream trace s t ∧ s.phase = .replying rest last ∧
    step c s t = .stuck u

/-! ## What is owed -/

/-- One of the reads was the last to be acknowledged. -/
def Over (mode : ReadMode) (reads : List (List UInt8)) : Prop :=
  ∃ bytes ∈ reads, mode.endsWith bytes = true

theorem endsWith_iff {mode : ReadMode} {bytes : List UInt8} :
    mode.endsWith bytes = true ↔ mode = .byte ∧ ReadMode.terminator ∈ bytes := by
  cases mode <;> simp [ReadMode.endsWith]

theorem over_append_singleton {mode : ReadMode} {reads : List (List UInt8)} {bytes : List UInt8} :
    Over mode (reads ++ [bytes]) ↔ Over mode reads ∨ mode.endsWith bytes = true := by
  simp only [Over, List.mem_append, List.mem_singleton]
  grind

theorem due_append_of_over {mode : ReadMode} {reads : List (List UInt8)}
    (h : Over mode reads) (more : List (List UInt8)) :
    due mode (reads ++ more) = due mode reads := by
  induction reads with
  | nil => simp [Over] at h
  | cons bytes reads ih =>
    simp only [List.cons_append, due]
    split
    · rfl
    · rename_i hb
      rw [ih]
      simpa [Over, endsWith_iff, hb] using h

theorem due_append_of_not_over {mode : ReadMode} {reads : List (List UInt8)}
    (h : ¬ Over mode reads) (more : List (List UInt8)) :
    due mode (reads ++ more) = reads ++ due mode more := by
  induction reads with
  | nil => rfl
  | cons bytes reads ih =>
    simp only [Over, List.mem_cons, exists_eq_or_imp, not_or, endsWith_iff] at h
    rw [List.cons_append, due, if_neg h.1, ih (by simpa [Over, endsWith_iff] using h.2)]
    rfl

theorem due_of_not_over {mode : ReadMode} {reads : List (List UInt8)} (h : ¬ Over mode reads) :
    due mode reads = reads := by
  simpa [due] using due_append_of_not_over h []

theorem due_append_singleton {mode : ReadMode} {reads : List (List UInt8)}
    (h : ¬ Over mode reads) (bytes : List UInt8) :
    due mode (reads ++ [bytes]) = due mode reads ++ [bytes] := by
  rw [due_append_of_not_over h, due_of_not_over h]
  simp [due]

/-! ## Between two calls -/

section

variable (c : Config) (w : List UInt8) (reads : List (List UInt8)) (s : State)

/-- How the books of a session stand that has written `w` for `reads`, where of the last
acknowledgment `rest` is still to come. -/
structure Owing (rest : List UInt8) (last : Bool) : Prop where
  bytes : s.bytesRead = (due c.mode reads).flatten.length
  acks : s.acksSent + 1 = (due c.mode reads).length
  sum : w ++ rest = repeated (s.acksSent + 1) c.ack
  rest : rest.length ≤ c.ack.length
  last : Over c.mode reads ↔ last = true

/-- The same where nothing is owed; `ended` tells that nothing will be. -/
structure Settled (ended : Bool) : Prop where
  bytes : s.bytesRead = (due c.mode reads).flatten.length
  acks : s.acksSent = (due c.mode reads).length
  paid : w = repeated s.acksSent c.ack
  terminated : Over c.mode reads ↔ ended = true

end

def Balanced (c : Config) (trace : List Entry) (s : State) : Prop :=
  match s.phase with
  | .listening => Settled c (written trace) (received trace) s false
  | .replying rest last => Owing c (written trace) (received trace) s rest last
  | .draining _ => Settled c (written trace) (received trace) s true

variable {c : Config} {s s' : State} {t t' : Stream} {trace entries : List Entry}

theorem Owing.reply {rest : List UInt8} {last : Bool}
    (h : Owing c (written trace) (received trace) s rest last) :
    Balanced c trace (s.reply rest last) := by
  by_cases hr : rest = []
  · subst hr
    have hw : written trace = repeated (s.acksSent + 1) c.ack := by simpa using h.sum
    have hs : Settled c (written trace) (received trace) (s.acked last) last :=
      ⟨h.bytes, h.acks, hw, h.last⟩
    cases last <;> simpa [State.reply, Balanced, State.acked] using hs
  · rw [State.reply, if_neg hr]
    exact ⟨h.bytes, h.acks, h.sum, h.rest, h.last⟩

theorem Balanced.due_listening (h : Balanced c trace s) (hp : s.phase = .listening)
    (bytes : List UInt8) :
    due c.mode (received trace ++ [bytes]) = due c.mode (received trace) ++ [bytes] := by
  simp only [Balanced, hp] at h
  exact due_append_singleton (by simp [h.terminated]) bytes

theorem Balanced.due_draining {n : Nat} (h : Balanced c trace s) (hp : s.phase = .draining n)
    (more : List (List UInt8)) :
    due c.mode (received trace ++ more) = due c.mode (received trace) := by
  simp only [Balanced, hp] at h
  exact due_append_of_over (h.terminated.mpr rfl) more

/-- One call keeps the books balanced. -/
theorem Balanced.call (h : Balanced c trace s) (hc : Call c s t entries s' t') :
    Balanced c (trace ++ entries) s' := by
  cases hc with
  | @read bytes _ hp _ hb =>
    have hd := h.due_listening hp bytes
    simp only [Balanced, hp] at h
    refine Owing.reply ⟨?_, ?_, ?_, Nat.le_refl _, ?_⟩
    · simp [Entry.received_read hb, hd, h.bytes]
    · simp [Entry.received_read hb, hd, h.acks]
    · simp [Entry.written, h.paid, repeated_succ]
    · simp [Entry.received_read hb, over_append_singleton, h.terminated]
  | @drain n bytes _ hp _ hb =>
    have hd := h.due_draining hp [bytes]
    simp only [Balanced, hp] at h ⊢
    refine ⟨?_, ?_, ?_, ?_⟩
    · simp [Entry.received_read hb, hd, h.bytes]
    · simp [Entry.received_read hb, hd, h.acks]
    · simp [Entry.written, h.paid]
    · simp [Entry.received_read hb, over_append_singleton, h.terminated]
  | @write rest last taken _ hp hw ht =>
    simp only [Balanced, hp] at h
    obtain ⟨left, rfl⟩ := Stream.prefix_of_write hw
    have hl := h.rest
    refine Owing.reply ⟨?_, ?_, ?_, ?_, ?_⟩
    · simpa [Entry.received] using h.bytes
    · simpa [Entry.received] using h.acks
    · simpa [Entry.written] using h.sum
    · simp only [List.length_append] at hl
      simp only [List.drop_left]
      omega
    · simpa [Entry.received] using h.last
  | retry hp hw hk => simpa [Balanced, hp, Entry.written, Entry.received] using h

theorem Calls.balanced (h : Calls c {} t trace s t') : Balanced c trace s := by
  induction h with
  | none => exact ⟨rfl, rfl, rfl, by simp [Over]⟩
  | more _ hc ih => exact ih.call hc

/-! ## At any cut -/

/-- What is written goes no further than what is owed, and lags behind by one payload at most. -/
def Bounded (c : Config) (trace : List Entry) : Prop :=
  written trace <+: repeated (due c.mode (received trace)).length c.ack ∧
    ((due c.mode (received trace)).length - 1) * c.ack.length ≤ (written trace).length

theorem Paid.bounded (h : Paid c trace) : Bounded c trace := by
  rw [Paid] at h
  refine ⟨h ▸ List.prefix_rfl, ?_⟩
  rw [h, length_repeated]
  exact Nat.mul_le_mul_right _ (Nat.sub_le _ _)

theorem Settled.isPaid {ended : Bool} (h : Settled c (written trace) (received trace) s ended) :
    Paid c trace := by
  rw [Paid, ← h.acks]
  exact h.paid

theorem Balanced.paid (h : Balanced c trace s) (hp : ∀ rest last, s.phase ≠ .replying rest last) :
    Paid c trace := by
  cases hph : s.phase with
  | replying rest last => exact absurd hph (hp rest last)
  | listening | draining =>
    simp only [Balanced, hph] at h
    exact h.isPaid

theorem Balanced.bounded (h : Balanced c trace s) : Bounded c trace := by
  cases hph : s.phase with
  | replying rest last =>
    simp only [Balanced, hph] at h
    have hl := congrArg List.length h.sum
    have hr := h.rest
    rw [List.length_append, length_repeated, Nat.succ_mul] at hl
    rw [Bounded, ← h.acks, ← h.sum]
    exact ⟨List.prefix_append _ _, by simp only [Nat.add_sub_cancel]; omega⟩
  | listening | draining =>
    exact (h.paid (by simp [hph])).bounded

/-- The call that ends a session neither brings nor writes anything. -/
theorem LastCall.silent {o : Outcome} (h : LastCall c s t entries o t') :
    received entries = [] ∧ written entries = [] := by
  cases h <;> simp [Entry.received, Entry.written]

theorem bounded_append_of_silent (hr : received entries = []) (hw : written entries = []) :
    Bounded c (trace ++ entries) ↔ Bounded c trace := by
  simp [Bounded, hr, hw]

theorem Leaves.bounded (h : Leaves c s t entries) (hb : Balanced c trace s) :
    Bounded c (trace ++ entries) := by
  rcases h with ⟨s', t', hc⟩ | ⟨o, t', hl⟩
  · exact (hb.call hc).bounded
  · exact (bounded_append_of_silent hl.silent.1 hl.silent.2).mpr hb.bounded

/-- Only the first entry of a call counts in the books. -/
theorem Leaves.cut {q : List Entry} (h : Leaves c s t entries) (hq : q <+: entries) :
    q = [] ∨ written q = written entries ∧ received q = received entries := by
  rcases h.shape with rfl | ⟨e, events, -, rfl⟩
  · exact .inl (List.prefix_nil.mp hq)
  · rcases List.prefix_cons_iff.mp hq with rfl | ⟨l, rfl, hl⟩
    · exact .inl rfl
    · obtain ⟨some, -, rfl⟩ := List.prefix_map_iff.mp hl
      exact .inr (by simp)

/-- A read is the first thing that a call does, and nothing is owed then. -/
theorem Leaves.of_read {q : List Entry} {e : Entry} (h : Leaves c s t entries)
    (hq : q ++ [e] <+: entries) (he : e.isRead = true) :
    q = [] ∧ ∀ rest last, s.phase ≠ .replying rest last := by
  obtain rfl := h.eq_nil_of_call hq (Entry.ne_log_of_isRead he)
  refine ⟨rfl, fun rest last hp => ?_⟩
  rcases h with ⟨s', t', h⟩ | ⟨o, t', h⟩ <;> cases h <;> simp_all [Entry.isRead]

theorem prefix_cases {α : Type} {p l : List α} (h : p <+: l) : p = l ∨ ∃ a, p ++ [a] <+: l := by
  obtain ⟨rest, rfl⟩ := h
  cases rest with
  | nil => exact .inl (List.append_nil p).symm
  | cons a rest => exact .inr ⟨a, rest, by simp⟩

theorem bounded_trace (c : Config) (stream : Stream) : Bounded c (handle c stream).trace := by
  obtain ⟨trace, s, t, hcs, ⟨entries, o, u, hl, hr⟩ | ⟨u, -, hr⟩⟩ := run_cases c {} stream <;>
    simp only [handle, hr]
  · exact (bounded_append_of_silent hl.silent.1 hl.silent.2).mpr hcs.balanced.bounded
  · exact hcs.balanced.bounded

theorem bounded_of_prefix {stream : Stream} {p : List Entry} (h : p <+: (handle c stream).trace) :
    Bounded c p := by
  rcases prefix_cases h with rfl | ⟨e, he⟩
  · exact bounded_trace c stream
  · obtain ⟨before, s, t, q, entries, hcs, hl, rfl, hq⟩ := leaves_of_entry he
    rcases hl.cut ((List.prefix_append q [e]).trans hq) with rfl | ⟨hw, hr⟩
    · simpa using hcs.balanced.bounded
    · simpa [Bounded, hw, hr] using hl.bounded hcs.balanced

theorem paid_before_read {stream : Stream} {p : List Entry} {e : Entry}
    (h : p ++ [e] <+: (handle c stream).trace) (he : e.isRead = true) : Paid c p := by
  obtain ⟨before, s, t, q, entries, hcs, hl, rfl, hq⟩ := leaves_of_entry h
  obtain ⟨rfl, hp⟩ := hl.of_read hq he
  simpa using hcs.balanced.paid hp

theorem paid_at_end {stream : Stream}
    (hw : ∀ f, (handle c stream).result ≠ .ended (.failed (.write f)))
    (hb : ¬ BlockedWriting c stream) : Paid c (handle c stream).trace := by
  obtain ⟨trace, s, t, hcs, ⟨entries, o, u, hl, hr⟩ | ⟨u, hu, hr⟩⟩ := run_cases c {} stream <;>
    simp only [handle, hr] at hw ⊢
  · have hp : ∀ rest last, s.phase ≠ .replying rest last := by
      intro rest last hp
      cases hl <;> simp_all
    simpa [Paid, hl.silent] using hcs.balanced.paid hp
  · exact hcs.balanced.paid fun rest last hp => hb ⟨trace, s, t, u, rest, last, hcs, hp, hu⟩

theorem summary_of_end {stream : Stream} {summary : Summary}
    (h : (handle c stream).result = .ended (.finished summary)) :
    summary.acksSent = (due c.mode (received (handle c stream).trace)).length ∧
      summary.bytesRead = (due c.mode (received (handle c stream).trace)).flatten.length := by
  obtain ⟨trace, s, t, hcs, ⟨entries, o, u, hl, hr⟩ | ⟨u, hu, hr⟩⟩ := run_cases c {} stream <;>
    simp only [handle, hr] at h ⊢
  · have hb := hcs.balanced
    simp only [received_append, hl.silent, List.append_nil]
    cases hl with
    | closed hp | drained hp =>
      simp only [Result.ended.injEq, Outcome.finished.injEq] at h
      subst h
      simp only [Balanced, hp] at hb
      exact ⟨hb.acks, hb.bytes⟩
    | _ => simp at h
  · simp at h

/-- **The wire accounts of a session.** Cut its trace anywhere: the bytes written are the start of
as many payloads as reads are owed one, and at most one payload is not out in full. Before every
read all are, and so they are at the end, unless a call to write fails or does not come back. On
a clean end the summary tells how many there were, and how many bytes they were for. -/
theorem handle_accounts (c : Config) (stream : Stream) :
    (∀ p, p <+: (handle c stream).trace →
      written p <+: repeated (due c.mode (received p)).length c.ack ∧
        ((due c.mode (received p)).length - 1) * c.ack.length ≤ (written p).length) ∧
    (∀ p e, p ++ [e] <+: (handle c stream).trace → e.isRead = true → Paid c p) ∧
    ((∀ f, (handle c stream).result ≠ .ended (.failed (.write f))) → ¬ BlockedWriting c stream →
      Paid c (handle c stream).trace) ∧
    ∀ summary, (handle c stream).result = .ended (.finished summary) →
      summary.acksSent = (due c.mode (received (handle c stream).trace)).length ∧
        summary.bytesRead = (due c.mode (received (handle c stream).trace)).flatten.length :=
  ⟨fun _ hp => bounded_of_prefix hp, fun _ _ hp he => paid_before_read hp he, paid_at_end,
    fun _ => summary_of_end⟩

end SerialAck.Session

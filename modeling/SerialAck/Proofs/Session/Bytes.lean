/-
Byte mode on streams that do their part. What it acknowledges, counts and logs is a function of
the input byte by byte, whatever events the bytes came in: `byteSummary` and `byteLog` are that
function, and `Supplies.byte_mode` ties a whole run to it.
-/
import Mathlib.Data.List.Basic
import SerialAck.Proofs.Session.Feed
import SerialAck.Proofs.Session.Report

namespace SerialAck.Session

/-- What byte mode acknowledges of an input: all up to the first terminator. -/
def acknowledged (input : List UInt8) : List UInt8 :=
  input.take (input.idxOf ReadMode.terminator + 1)

def byteSummary (input : List UInt8) : Summary where
  ending := if ReadMode.terminator ∈ input then .terminator else .peerClosed
  bytesRead := (acknowledged input).length
  acksSent := (acknowledged input).length

def byteLog (input : List UInt8) : List Event :=
  State.report .byte (acknowledged input) ++
    if ReadMode.terminator ∈ input then
      if (acknowledged input).length < input.length then
        [.discarded (input.length - (acknowledged input).length)]
      else []
    else [.nothingMore]

/-- The records of a trace that are there for debugging. -/
def debugged (trace : List Entry) : List Log.Record :=
  ((logged trace).map Event.record).filter (·.level = .debug)

theorem acknowledged_of_not_mem {input : List UInt8} (h : ReadMode.terminator ∉ input) :
    acknowledged input = input := by
  rw [acknowledged, List.idxOf_eq_length h, List.take_of_length_le (Nat.le_succ _)]

theorem length_acknowledged_of_mem {input : List UInt8} (h : ReadMode.terminator ∈ input) :
    (acknowledged input).length = input.idxOf ReadMode.terminator + 1 := by
  have := List.idxOf_lt_length_of_mem h
  simp only [acknowledged, List.length_take]
  omega

/-- With a terminator, it is the last byte that is acknowledged. -/
theorem acknowledged_of_mem {input : List UInt8} (h : ReadMode.terminator ∈ input) :
    acknowledged input =
      input.take (input.idxOf ReadMode.terminator) ++ [ReadMode.terminator] := by
  have hl := List.idxOf_lt_length_of_mem h
  rw [acknowledged, List.take_succ_eq_append_getElem hl, List.getElem_idxOf]

theorem report_of_not_mem {bytes : List UInt8} (h : ReadMode.terminator ∉ bytes) :
    State.report .byte bytes = bytes.map .received := by
  refine List.map_congr_left fun b hb => ?_
  rw [if_neg]
  rintro rfl
  exact h hb

theorem report_acknowledged_of_mem {input : List UInt8} (h : ReadMode.terminator ∈ input) :
    State.report .byte (acknowledged input) =
      (input.take (input.idxOf ReadMode.terminator)).map .received ++
        [.terminated ReadMode.terminator] := by
  have hn : ReadMode.terminator ∉ input.take (input.idxOf ReadMode.terminator) := by
    rw [List.mem_take_iff_idxOf_lt h]
    exact Nat.lt_irrefl _
  rw [acknowledged_of_mem h, ← report_of_not_mem hn]
  simp [State.report]

/-- Read one by one, the bytes that are owed an acknowledgment are those up to the terminator. -/
theorem flatten_due_byte {reads : List (List UInt8)} (h : ∀ bytes ∈ due .byte reads, bytes.length = 1) :
    (due .byte reads).flatten = acknowledged reads.flatten := by
  induction reads with
  | nil => rfl
  | cons bytes reads ih =>
    simp only [due, true_and] at h ⊢
    by_cases ht : ReadMode.terminator ∈ bytes
    · simp only [if_pos ht, List.mem_singleton, forall_eq] at h ⊢
      obtain ⟨b, rfl⟩ := List.length_eq_one_iff.mp h
      obtain rfl := List.mem_singleton.mp ht
      simp [acknowledged]
    · simp only [if_neg ht, List.mem_cons, forall_eq_or_imp] at h ⊢
      obtain ⟨b, rfl⟩ := List.length_eq_one_iff.mp h.1
      have hb : (b == ReadMode.terminator) = false :=
        beq_eq_false_iff_ne.mpr fun he => ht (List.mem_singleton.mpr he.symm)
      rw [List.flatten_cons, ih h.2]
      simp [acknowledged, List.idxOf_cons, hb]

theorem over_iff_mem_flatten {reads : List (List UInt8)} :
    Over .byte reads ↔ ReadMode.terminator ∈ reads.flatten := by
  simp [Over, endsWith_iff, List.mem_flatten]

theorem flatMap_report (reads : List (List UInt8)) :
    reads.flatMap (State.report .byte) = State.report .byte reads.flatten := by
  rw [State.report, List.map_flatten, List.flatMap]
  rfl

/-- In whole, with a terminator: what is left of the input is told to be discarded. -/
theorem byteLog_of_mem {input : List UInt8} {n : Nat} (h : ReadMode.terminator ∈ input)
    (hn : input.length = (acknowledged input).length + n) :
    byteLog input =
      State.report .byte (acknowledged input) ++ if n = 0 then [] else [.discarded n] := by
  have hs : n = input.length - (acknowledged input).length := by omega
  rw [byteLog, if_pos h]
  by_cases h0 : n = 0
  · have hl : ¬ (acknowledged input).length < input.length := by omega
    rw [if_neg hl, if_pos h0]
  · have hl : (acknowledged input).length < input.length := by omega
    rw [if_pos hl, if_neg h0, ← hs]

/-- Of all that byte mode logs only what it discards is there for debugging. -/
theorem debugged_of_logged {trace : List Entry} {input : List UInt8}
    (h : logged trace = byteLog input) : debugged trace =
      if ReadMode.terminator ∈ input ∧ (acknowledged input).length < input.length then
        [⟨.debug, .session, "Discarded input after terminator",
          [("discarded", .number (input.length - (acknowledged input).length))]⟩]
      else [] := by
  have hreport : ((State.report .byte (acknowledged input)).map Event.record).filter
      (·.level = .debug) = [] := by
    rw [List.filter_eq_nil_iff]
    intro r hr
    simp only [State.report, List.map_map, List.mem_map, Function.comp_apply] at hr
    obtain ⟨b, -, rfl⟩ := hr
    split <;> simp [Event.record]
  rw [debugged, h, byteLog, List.map_append, List.filter_append, hreport, List.nil_append]
  by_cases ht : ReadMode.terminator ∈ input
  · by_cases hl : (acknowledged input).length < input.length
    · simp [ht, hl, Event.record]
    · simp [ht, hl]
  · simp [ht, Event.record]

variable {c : Config} {s : State} {stream t : Stream} {trace : List Entry}
  {chunks : List (List UInt8)}

theorem Calls.flatten_due (h : Calls c {} stream trace s t) (hm : c.mode = .byte) :
    (due c.mode (received trace)).flatten = acknowledged (received trace).flatten := by
  have hone := h.length_of_mem_due hm
  rw [hm] at hone ⊢
  exact flatten_due_byte hone

theorem Calls.length_due (h : Calls c {} stream trace s t) (hm : c.mode = .byte) :
    (due c.mode (received trace)).length = (acknowledged (received trace).flatten).length := by
  rw [← h.flatten_due hm, List.length_flatten, List.map_congr_left (h.length_of_mem_due hm),
    List.map_const', List.sum_replicate_nat, Nat.mul_one]

/-- What byte mode logs as it goes is the report of what it acknowledges. -/
theorem Calls.logged_byte (h : Calls c {} stream trace s t) (hm : c.mode = .byte) :
    logged trace = State.report .byte (acknowledged (received trace).flatten) := by
  rw [h.logged_eq, hm, flatMap_report, ← hm, h.flatten_due hm]

/-- With nothing owed, the books of byte mode are those of the input so far. -/
theorem Calls.byte_counts {ended : Bool} (h : Calls c {} stream trace s t) (hm : c.mode = .byte)
    (hs : Settled c (written trace) (received trace) s ended) :
    s.bytesRead = (acknowledged (received trace).flatten).length ∧
      s.acksSent = (acknowledged (received trace).flatten).length ∧
      written trace = repeated (acknowledged (received trace).flatten).length c.ack ∧
      (ReadMode.terminator ∈ (received trace).flatten ↔ ended = true) := by
  obtain ⟨hbytes, hsent, hpaid, hended⟩ := hs
  rw [h.flatten_due hm] at hbytes
  rw [h.length_due hm] at hsent
  refine ⟨hbytes, hsent, ?_, ?_⟩
  · rw [hpaid, hsent]
  · rw [← hended, hm]
    exact over_iff_mem_flatten.symm

/-- **Byte mode is a function of its input.** -/
theorem Supplies.byte_mode (h : Supplies c stream chunks) (hm : c.mode = .byte)
    (hr : (handle c stream).result ≠ .stuck) :
    (handle c stream).result = .ended (.finished (byteSummary chunks.flatten)) ∧
      logged (handle c stream).trace = byteLog chunks.flatten ∧
      written (handle c stream).trace = repeated (acknowledged chunks.flatten).length c.ack := by
  obtain ⟨trace, s, t, entries, summary, u, hcs, hl, -, hd, he⟩ := h.exists_end hr
  have hb := hcs.balanced
  have hlog : logged trace = State.report .byte (acknowledged chunks.flatten) := by
    rw [hcs.logged_byte hm, hd]
  have hlen := hcs.length_received
  rw [hcs.flatten_due hm, hd] at hlen
  rw [he]
  simp only [logged_append, written_append, hl.silent, List.append_nil, hlog]
  cases hl with
  | closed hp =>
    simp only [Balanced, hp] at hb
    obtain ⟨hbytes, hsent, hpaid, hended⟩ := hcs.byte_counts hm hb
    rw [hd] at hbytes hsent hpaid hended
    have ht : ReadMode.terminator ∉ chunks.flatten := by simp [hended]
    refine ⟨?_, ?_, hpaid⟩
    · simp [byteSummary, ht, hbytes, hsent]
    · simp [byteLog, ht, Entry.logged, State.closing, hm]
  | drained hp =>
    simp only [Balanced, hp] at hb
    obtain ⟨hbytes, hsent, hpaid, hended⟩ := hcs.byte_counts hm hb
    rw [hd] at hbytes hsent hpaid hended
    have ht : ReadMode.terminator ∈ chunks.flatten := hended.mpr rfl
    simp only [State.discarded, hp] at hlen
    refine ⟨?_, ?_, hpaid⟩
    · simp [byteSummary, ht, hbytes, hsent]
    · rw [byteLog_of_mem ht hlen]
      simp [Entry.logged]

/-- **What byte mode makes of an input that comes in time.** Only the bytes count, joined: up to
the first terminator each is acknowledged, counted and logged, and of what follows only how much
it is. So two streams with the same bytes, however these are spread over events, come to the same
summary, the same log and the same bytes written. -/
theorem handle_byte_mode {c : Config} {stream : Stream} {chunks : List (List UInt8)}
    {input : List UInt8} (hm : c.mode = .byte) (hi : chunks.flatten = input)
    (hf : Feeds c.limit 0 stream.reads chunks) (hy : Yields stream.writes)
    (hr : (handle c stream).result ≠ .stuck) :
    (ReadMode.terminator ∉ input →
      (handle c stream).result = .ended (.finished ⟨.peerClosed, input.length, input.length⟩) ∧
      logged (handle c stream).trace = input.map .received ++ [.nothingMore] ∧
      debugged (handle c stream).trace = [] ∧
      written (handle c stream).trace = repeated input.length c.ack) ∧
    (∀ i, ReadMode.terminator ∈ input → i = input.idxOf ReadMode.terminator →
      (handle c stream).result = .ended (.finished ⟨.terminator, i + 1, i + 1⟩) ∧
      logged (handle c stream).trace =
        (input.take i).map .received ++ .terminated ReadMode.terminator ::
          (if i + 1 < input.length then [.discarded (input.length - (i + 1))] else []) ∧
      debugged (handle c stream).trace =
        (if i + 1 < input.length then
          [⟨.debug, .session, "Discarded input after terminator",
            [("discarded", .number (input.length - (i + 1)))]⟩]
        else []) ∧
      written (handle c stream).trace = repeated (i + 1) c.ack) ∧
    ∀ other pieces, Feeds c.limit 0 other.reads pieces → Yields other.writes →
      (handle c other).result ≠ .stuck → pieces.flatten = input →
      (handle c other).result = (handle c stream).result ∧
        logged (handle c other).trace = logged (handle c stream).trace ∧
        written (handle c other).trace = written (handle c stream).trace := by
  subst hi
  obtain ⟨hres, hlog, hwritten⟩ := Supplies.byte_mode ⟨hf, hy⟩ hm hr
  refine ⟨fun ht => ?_, ?_, fun other pieces hf' hy' hr' hp => ?_⟩
  · have ha := acknowledged_of_not_mem ht
    rw [hres, debugged_of_logged hlog, hlog, hwritten]
    simp only [byteSummary, byteLog, ha, report_of_not_mem ht, ht, false_and, if_false, and_self]
  · rintro i ht rfl
    have ha := length_acknowledged_of_mem ht
    rw [hres, debugged_of_logged hlog, hlog, hwritten]
    simp only [byteSummary, byteLog, ha, report_acknowledged_of_mem ht, ht, if_true, true_and]
    simp
  · obtain ⟨hres', hlog', hwritten'⟩ := Supplies.byte_mode ⟨hf', hy'⟩ hm hr'
    rw [hres, hlog, hwritten, hres', hlog', hwritten', hp]
    exact ⟨rfl, rfl, rfl⟩

/-- Five milliseconds for each read. -/
def briskConfig : Config :=
  ⟨.byte, [111, 107], some (.ofMilliseconds 5)⟩

/-- Two events, of which the second goes past the terminator, with waits as long as they may be,
and room for one byte at first. -/
def briskStream : Stream where
  reads := [.now (.data [104]), .wait 3, .wait 2, .now (.data [105, 36, 120, 121]), .wait 5,
    .now .eof]
  writes := [.now (.take 1), .wait 7, .now (.take 5)]

theorem handle_byte_mode_brisk :
    (Feeds briskConfig.limit 0 briskStream.reads [[104], [105, 36, 120, 121]] ∧
      Yields briskStream.writes ∧ (handle briskConfig briskStream).result ≠ .stuck) ∧
    (handle briskConfig briskStream).result = .ended (.finished ⟨.terminator, 3, 3⟩) ∧
    logged (handle briskConfig briskStream).trace =
      [.received 104, .received 105, .terminated 36, .discarded 2] ∧
    debugged (handle briskConfig briskStream).trace =
      [⟨.debug, .session, "Discarded input after terminator", [("discarded", .number 2)]⟩] ∧
    written (handle briskConfig briskStream).trace = [111, 107, 111, 107, 111, 107] := by
  have hf : Feeds briskConfig.limit 0 briskStream.reads [[104], [105, 36, 120, 121]] :=
    .data (by decide) (.wait (by decide) (.wait (by decide) (.data (by decide)
      (.wait (by decide) .eof))))
  have hy : Yields briskStream.writes := by simp [Yields, briskStream]
  have hr : (handle briskConfig briskStream).result ≠ .stuck := by
    cbv
    decide
  exact ⟨⟨hf, hy, hr⟩, (handle_byte_mode rfl rfl hf hy hr).2.1 2 (by decide) (by decide)⟩

end SerialAck.Session

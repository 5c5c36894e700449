/-
The log of chunk mode. Each read that brings something is reported at once, by the number of its
bytes and by the text that they are shown as, and nothing else is (`Calls.reports_eq`). All reads
go into one buffer, and what an earlier one has left there is never reported (`Leaves.of_report`).
On a clean end nothing of the input is missing (`received_of_end`).
-/
import SerialAck.Proofs.Session.Chunks
import SerialAck.Proofs.Session.Transcript
import SerialAck.Proofs.Text.Lossy

namespace SerialAck

namespace Log.Record

/-- One of the records that report a chunk. -/
def isReport (r : Record) : Bool :=
  r.level = .info ∧ r.message = "Message received"

/-- The number in the field `len`. -/
def len (r : Record) : Nat :=
  match r.fields.lookup "len" with
  | some (.number n) => n
  | _ => 0

/-- The text in the field `text`. -/
def text (r : Record) : String :=
  match r.fields.lookup "text" with
  | some (.text s) => s
  | _ => ""

end Log.Record

theorem ReadMode.size_pos (mode : ReadMode) : 0 < mode.size := by
  cases mode <;> decide

theorem ReadMode.size_le (mode : ReadMode) : mode.size ≤ chunkSize := by
  cases mode <;> decide

namespace Session

/-- The records of a trace that report chunks. -/
def reports (trace : List Entry) : List Log.Record :=
  ((logged trace).map Event.record).filter Log.Record.isReport

/-- How a chunk is to be reported. -/
def reported (bytes : List UInt8) : Log.Record :=
  ⟨.info, .session, "Message received",
    [("len", .number bytes.length), ("text", .text (Utf8.toString bytes))]⟩

/-- A buffer after a read: the bytes are at its front, and behind them is what was there before. -/
def overwritten (buffer bytes : List UInt8) : List UInt8 :=
  bytes ++ buffer.drop bytes.length

/-- The buffer of a session after the reads of a trace. -/
def bufferAfter (buffer : List UInt8) (trace : List Entry) : List UInt8 :=
  (received trace).foldl overwritten buffer

/-- All that a script brings before the input ends. -/
def Script.input : Script Arrival → List UInt8
  | .wait _ :: rest => Script.input rest
  | .now (.data (b :: bytes)) :: rest => b :: bytes ++ Script.input rest
  | _ => []

/-- What makes the log of a session an account of its chunks. -/
structure ReportsChunks (c : Config) (stream : Stream) : Prop where
  inOrder : reports (handle c stream).trace = (received (handle c stream).trace).map reported
  /-- A chunk is reported right after it is read, and before anything is written for it. -/
  placed : ∀ p event q, (handle c stream).trace = p ++ .log event :: q →
    event.record.isReport → ∃ before bytes, p = before ++ [.read ReadMode.chunkSize bytes] ∧
      bytes ≠ [] ∧ event.record = reported bytes ∧ Paid c before
  /-- And so is each that is read. -/
  complete : ∀ p size bytes q, (handle c stream).trace = p ++ .read size bytes :: q →
    bytes ≠ [] → ∃ event q', q = .log event :: q' ∧ event.record = reported bytes
  /-- Of the buffer the front is reported, as much as has just been read. -/
  buffered : ∀ buffer p event q, buffer.length = ReadMode.chunkSize →
    (handle c stream).trace = p ++ .log event :: q → event.record.isReport →
    (bufferAfter buffer p).length = ReadMode.chunkSize ∧
      event.record = reported ((bufferAfter buffer p).take event.record.len)
  faithful : ∀ bytes ∈ received (handle c stream).trace, Utf8.Faithful bytes
  summed : ∀ summary, (handle c stream).result = .ended (.finished summary) →
    ((reports (handle c stream).trace).map Log.Record.len).sum = summary.bytesRead
  /-- Where all chunks are text, the whole input is in the log. -/
  whole : ∀ summary, (handle c stream).result = .ended (.finished summary) →
    (∀ bytes ∈ received (handle c stream).trace, Utf8.WellFormed bytes) →
    (reports (handle c stream).trace).flatMap (fun r => Utf8.ofString r.text) =
      stream.reads.input

variable {c : Config} {s s' : State} {start t t' : Stream} {trace entries q : List Entry}
  {bytes buffer : List UInt8}

/-! ## Records -/

theorem isReport_reported (bytes : List UInt8) : (reported bytes).isReport := rfl

@[simp] theorem len_reported (bytes : List UInt8) : (reported bytes).len = bytes.length := rfl

@[simp] theorem reports_append (p q : List Entry) :
    reports (p ++ q) = reports p ++ reports q := by
  simp [reports]

theorem mem_reports {event : Event} (h : .log event ∈ trace) (hr : event.record.isReport) :
    event.record ∈ reports trace := by
  have hlogged : event ∈ logged trace := List.mem_flatMap.mpr ⟨_, h, List.mem_singleton_self _⟩
  exact List.mem_filter.mpr ⟨List.mem_map_of_mem hlogged, hr⟩

/-! ## The buffer -/

theorem length_overwritten (h : bytes.length ≤ buffer.length) :
    (overwritten buffer bytes).length = buffer.length := by
  rw [overwritten, List.length_append, List.length_drop]
  omega

/-- What has just been read is at the front of the buffer, and nothing else is between. -/
theorem take_overwritten (buffer bytes : List UInt8) :
    (overwritten buffer bytes).take bytes.length = bytes := by
  rw [overwritten, List.take_left]

theorem length_foldl_overwritten {reads : List (List UInt8)}
    (h : ∀ bytes ∈ reads, bytes.length ≤ buffer.length) :
    (reads.foldl overwritten buffer).length = buffer.length := by
  induction reads generalizing buffer with
  | nil => rfl
  | cons bytes reads ih =>
    obtain ⟨hbytes, hreads⟩ := List.forall_mem_cons.mp h
    have hlen := length_overwritten hbytes
    rw [List.foldl_cons, ih (by rwa [hlen]), hlen]

/-! ## The input -/

/-- What there is of the input once the next event is known. -/
def Next.input : Next Arrival → List UInt8
  | .due (.data (b :: bytes)) rest _ => b :: bytes ++ rest.input
  | .late rest => rest.input
  | _ => []

theorem Script.input_next (budget : Nat) (script : Script Arrival) :
    script.input = (script.next budget).input := by
  fun_induction Script.next budget script with
  | case1 | case3 | case5 => rfl
  | case2 _ a rest =>
    cases a with
    | data bytes => cases bytes <;> rfl
    | failure | eof => rfl
  | case4 _ n rest _ ih =>
    rw [Script.input, ih]
    generalize Script.next _ rest = x
    cases x with
    | due a =>
      cases a with
      | data bytes => cases bytes <;> rfl
      | failure | eof => rfl
    | nothing | late => rfl

/-- What a read leaves of an event comes before the events behind it. -/
theorem Script.input_kept (kept : List UInt8) (rest : Script Arrival) :
    Script.input (if kept = [] then rest else .now (.data kept) :: rest) =
      kept ++ rest.input := by
  cases kept <;> rfl

/-- What a read brings comes off the front of the input, and it brings nothing only at the end. -/
theorem Stream.input_read {size : Nat} {limit : Option Nat} (hs : 0 < size)
    (h : t.read size limit = (.got bytes, t')) :
    t.reads.input = if bytes = [] then [] else bytes ++ t'.reads.input := by
  have hi := Script.input_next (t.readBudget limit) t.reads
  unfold read at h
  split at h <;> rename_i he <;> rw [he] at hi <;>
    simp only [Prod.mk.injEq, Reading.got.injEq, reduceCtorEq, false_and] at h
  · split at h <;> simp at h
  · obtain ⟨rfl, rfl⟩ := h
    exact hi
  · rename_i data rest spent
    obtain ⟨rfl, rfl⟩ := h
    cases data with
    | nil => simpa [Next.input] using hi
    | cons b data =>
      have hne : (b :: data).take size ≠ [] := by
        simp only [ne_eq, List.take_eq_nil_iff, not_or]
        exact ⟨Nat.ne_of_gt hs, List.cons_ne_nil b data⟩
      rw [if_neg hne, Script.input_kept, ← List.append_assoc, List.take_append_drop]
      exact hi
  · obtain ⟨rfl, rfl⟩ := h
    exact hi

/-- What has been read is the beginning of the input. -/
theorem Calls.input_eq (h : Calls c s start trace s' t) :
    start.reads.input = (received trace).flatten ++ t.reads.input := by
  induction h with
  | none => rfl
  | more _ hc ih =>
    rw [ih]
    cases hc with
    | read hp hr hb =>
      have hinput := Stream.input_read (ReadMode.size_pos c.mode) hr
      rw [if_neg hb] at hinput
      simp [Entry.received_read hb, hinput]
    | drain hp hr hb =>
      have hinput := Stream.input_read (by decide) hr
      rw [if_neg hb] at hinput
      simp [Entry.received_read hb, hinput]
    | write hp hw => simp [Entry.received, (Stream.length_writes_write hw).1]
    | retry hp hw => simp [Entry.received, (Stream.length_writes_write_failed hw).1]

/-- A session that ends without a fault has read all of the input. -/
theorem received_of_end {summary : Summary}
    (h : (handle c start).result = .ended (.finished summary)) :
    (received (handle c start).trace).flatten = start.reads.input := by
  obtain ⟨trace, s, t, hcs, ⟨entries, o, u, hl, hr⟩ | ⟨u, hu, hr⟩⟩ := run_cases c {} start <;>
    simp only [handle, hr] at h ⊢
  · simp only [received_append, hl.silent, List.append_nil, hcs.input_eq]
    cases hl with
    | closed hp hread => simp [Stream.input_read (ReadMode.size_pos c.mode) hread]
    | drained hp hread => simp [Stream.input_read (by decide) hread]
    | _ => simp at h
  · simp at h

/-! ## Reads and records -/

/-- In chunk mode the log of calls is the chunks, one after the other. -/
theorem Calls.reports_eq (h : Calls c {} start trace s t) (hm : c.mode = .chunk) :
    reports trace = (received trace).map reported := by
  have hdue : due c.mode (received trace) = received trace :=
    due_of_not_over (hm ▸ not_over_chunk _)
  have hlogged : logged trace = (received trace).map .chunk := by
    rw [h.logged_eq, hdue, hm]
    exact List.map_eq_flatMap.symm
  rw [reports, hlogged, List.map_map]
  refine List.filter_eq_self.mpr fun r hr => ?_
  obtain ⟨bytes, -, rfl⟩ := List.mem_map.mp hr
  exact isReport_reported bytes

/-- The last call reports nothing. -/
theorem LastCall.reports_eq {o : Outcome} (h : LastCall c s t entries o t') :
    reports entries = [] := by
  cases h with
  | closed =>
    cases hm : c.mode <;> simp [reports, State.closing, Entry.logged, Event.record,
      Log.Record.isReport]
  | @drained n =>
    by_cases hn : n = 0 <;>
      simp [hn, reports, Entry.logged, Event.record, Log.Record.isReport]
  | _ => rfl

/-- What is reported is what has just been read. -/
theorem Leaves.of_report {event : Event} (h : Leaves c s t entries) (hm : c.mode = .chunk)
    (hq : q ++ [.log event] <+: entries) (hr : event.record.isReport) :
    s.phase = .listening ∧ ∃ bytes, q = [.read ReadMode.chunkSize bytes] ∧ bytes ≠ [] ∧
      event.record = reported bytes := by
  rcases h with ⟨s', t', h⟩ | ⟨o, t', h⟩
  · cases h with
    | @read bytes _ hp hread hb =>
      rw [hm] at hq hread
      obtain ⟨rfl, rfl⟩ := of_prefix_log (by simp) hq
      exact ⟨hp, bytes, rfl, hb, rfl⟩
    | drain | write | retry =>
      have hmem := hq.sublist.subset (List.mem_append_right q (List.mem_singleton_self _))
      simp at hmem
  · have hmem := mem_reports (hq.sublist.subset (by simp)) hr
    rw [h.reports_eq] at hmem
    exact absurd hmem List.not_mem_nil

/-- A chunk is reported at once. -/
theorem Leaves.of_chunk {size : Nat} (h : Leaves c s t entries) (hm : c.mode = .chunk)
    (hq : [.read size bytes] <+: entries) (hb : bytes ≠ []) (hp : ∀ n, s.phase ≠ .draining n) :
    entries = [.read size bytes, .log (.chunk bytes)] ∧ ∃ s' t', Call c s t entries s' t' := by
  rcases h with ⟨s', t', h⟩ | ⟨o, t', h⟩
  · cases h with
    | read hphase hread hne =>
      have hcall := Call.read hphase hread hne
      rw [hm] at hq hcall ⊢
      obtain ⟨hsame, -⟩ := List.cons_prefix_cons.mp hq
      obtain ⟨rfl, rfl⟩ := Entry.read.inj hsame
      exact ⟨rfl, _, _, hcall⟩
    | drain hphase => exact absurd hphase (hp _)
    | write | retry => simp at hq
  · obtain ⟨rest, rfl⟩ := hq
    have hsilent := h.silent.1
    simp [Entry.received_read hb] at hsilent

/-- Chunk mode does not drain. -/
theorem Calls.not_draining (h : Calls c {} start trace s t) (hm : c.mode = .chunk) (n : Nat) :
    s.phase ≠ .draining n := by
  intro hp
  have hb := h.balanced
  simp only [Balanced, hp] at hb
  exact not_over_chunk _ (hm ▸ hb.terminated.mpr rfl)

theorem handle_reports (hm : c.mode = .chunk) :
    reports (handle c start).trace = (received (handle c start).trace).map reported := by
  obtain ⟨trace, s, t, hcs, ⟨entries, o, u, hl, hr⟩ | ⟨u, -, hr⟩⟩ := run_cases c {} start <;>
    simp only [handle, hr]
  · simp [hl.reports_eq, hl.silent, hcs.reports_eq hm]
  · exact hcs.reports_eq hm

/-- No read brings more than the buffer holds. -/
theorem Calls.length_le (h : Calls c s start trace s' t) :
    ∀ bytes ∈ received trace, bytes.length ≤ ReadMode.chunkSize := by
  induction h with
  | none => simp
  | more _ hc ih =>
    intro bytes hbytes
    rw [received_append, List.mem_append] at hbytes
    rcases hbytes with hbytes | hbytes
    · exact ih bytes hbytes
    · cases hc with
      | read hp hr hb =>
        have hle := Nat.le_trans (Stream.length_of_read hr) (ReadMode.size_le c.mode)
        simp_all [Entry.received_read hb]
      | drain hp hr hb =>
        have hle := Stream.length_of_read hr
        simp_all [Entry.received_read hb]
      | write | retry => simp [Entry.received] at hbytes

theorem handle_length_le (h : bytes ∈ received (handle c start).trace) :
    bytes.length ≤ ReadMode.chunkSize := by
  obtain ⟨trace, s, t, hcs, ⟨entries, o, u, hl, hr⟩ | ⟨u, -, hr⟩⟩ := run_cases c {} start <;>
    simp only [handle, hr] at h
  · rw [received_append, hl.silent.1, List.append_nil] at h
    exact hcs.length_le bytes h
  · exact hcs.length_le bytes h

theorem handle_placed_chunk {p : List Entry} {event : Event} (hm : c.mode = .chunk)
    (h : (handle c start).trace = p ++ .log event :: q) (hr : event.record.isReport) :
    ∃ before bytes, p = before ++ [.read ReadMode.chunkSize bytes] ∧ bytes ≠ [] ∧
      event.record = reported bytes ∧ Paid c before := by
  obtain ⟨before, s, t, q', entries, hcs, hl, rfl, hq⟩ := leaves_of_split h
  obtain ⟨hp, bytes, rfl, hb, hrecord⟩ := hl.of_report hm hq hr
  have hbooks := hcs.balanced
  simp only [Balanced, hp] at hbooks
  exact ⟨before, bytes, rfl, hb, hrecord, hbooks.isPaid⟩

theorem handle_complete_chunk {p : List Entry} {size : Nat} (hm : c.mode = .chunk)
    (h : (handle c start).trace = p ++ .read size bytes :: q) (hb : bytes ≠ []) :
    ∃ event q', q = .log event :: q' ∧ event.record = reported bytes := by
  obtain ⟨before, s, t, q', entries, hcs, hl, rfl, hq⟩ := leaves_of_split h
  obtain rfl := hl.eq_nil_of_call hq (by simp)
  rw [List.append_nil] at h
  obtain ⟨rfl, s', t', hc⟩ := hl.of_chunk hm hq hb (hcs.not_draining hm)
  rw [handle, (hcs.more hc).run_eq, Run.prepend, List.append_assoc] at h
  have htail := List.append_cancel_left h
  exact ⟨.chunk bytes, _, (List.cons.inj htail).2.symm, rfl⟩

/-- The front of the buffer is what has just been read, whatever there was in it before. -/
theorem handle_buffered {p : List Entry} {event : Event} (hm : c.mode = .chunk)
    (hbuffer : buffer.length = ReadMode.chunkSize)
    (h : (handle c start).trace = p ++ .log event :: q) (hr : event.record.isReport) :
    (bufferAfter buffer p).length = ReadMode.chunkSize ∧
      event.record = reported ((bufferAfter buffer p).take event.record.len) := by
  have hle : ∀ bytes ∈ received p, bytes.length ≤ buffer.length := by
    intro bytes hbytes
    have hmem : bytes ∈ received (handle c start).trace := by
      rw [h, received_append]
      exact List.mem_append_left _ hbytes
    rw [hbuffer]
    exact handle_length_le hmem
  refine ⟨(length_foldl_overwritten hle).trans hbuffer, ?_⟩
  obtain ⟨before, bytes, rfl, hb, hrecord, -⟩ := handle_placed_chunk hm h hr
  have hafter : bufferAfter buffer (before ++ [.read ReadMode.chunkSize bytes]) =
      overwritten (bufferAfter buffer before) bytes := by
    simp [bufferAfter, Entry.received_read hb]
  rw [hafter, hrecord, len_reported, take_overwritten]

/-- **The log of chunk mode reports each chunk, as it is.** -/
theorem handle_reports_chunks (ack : List UInt8) (idle : Option Duration) (stream : Stream) :
    ReportsChunks ⟨.chunk, ack, idle⟩ stream where
  inOrder := handle_reports rfl
  placed _ _ _ h hr := handle_placed_chunk rfl h hr
  complete _ _ _ _ h hb := handle_complete_chunk rfl h hb
  buffered _ _ _ _ hbuffer h hr := handle_buffered rfl hbuffer h hr
  faithful bytes _ := Utf8.faithful bytes
  summed summary h := by
    have hdue := due_of_not_over
      (not_over_chunk (received (handle ⟨.chunk, ack, idle⟩ stream).trace))
    rw [(summary_of_end h).2, handle_reports rfl, List.map_map, hdue, List.length_flatten]
    rfl
  whole summary h hw := by
    rw [← received_of_end h, handle_reports rfl, List.flatMap_map, List.flatten_eq_flatMap]
    refine List.flatMap_congr fun bytes hbytes => ?_
    exact (Utf8.faithful bytes).wellFormed (hw bytes hbytes)

/-- A character that comes in two chunks is text in neither. -/
example : (reported [0xE2, 0x82]).text = "\uFFFD" ∧ (reported [0xAC]).text = "\uFFFD" ∧
    (reported [0xE2, 0x82, 0xAC]).text = "€" := by
  decide +kernel

end Session

end SerialAck

/-
The log of byte mode is a transcript of what it acknowledges. As long as the session goes on it
logs nothing but the bytes that it has read, each before it is acknowledged (`Calls.logged_byte`),
and the last call adds no byte (`exists_lastState`). A record shows one byte alone, by its escape,
so the bytes can be read back from the log (`Shows.unique`).
-/
import Mathlib.Data.List.Forall2
import SerialAck.Proofs.Session.Bytes
import SerialAck.Proofs.Text.Escape

namespace SerialAck

/-- One of the records that show a character. -/
def Log.Record.showsCharacter (r : Log.Record) : Bool :=
  r.level = .info ∧ r.fields.any (·.1 = "ch")

namespace Session

/-- The records of a trace that show a character. -/
def transcript (trace : List Entry) : List Log.Record :=
  ((logged trace).map Event.record).filter Log.Record.showsCharacter

/-- The record logs the byte. -/
structure Shows (b : UInt8) (r : Log.Record) : Prop where
  level : r.level = .info
  source : r.source = .session
  message : r.message = if b = 36 then "Message received" else "Received"
  ch : ∃ text : String, r.fields = [("ch", .text text)] ∧ Escape.Escapes b text.toList

/-- In state `s` a session makes its last call, or the one that does not come back. -/
def LastState (c : Config) (stream : Stream) (s : State) : Prop :=
  ∃ trace t, Calls c {} stream trace s t ∧ ∀ entries s' t', ¬ Call c s t entries s' t'

/-- The session has failed or blocked while it was writing. -/
def EndsWriting (c : Config) (stream : Stream) : Prop :=
  (∃ f, (handle c stream).result = .ended (.failed (.write f))) ∨ BlockedWriting c stream

/-- What makes the log of a session a transcript of the bytes that it acknowledges. -/
structure Transcribes (c : Config) (stream : Stream) : Prop where
  inOrder : List.Forall₂ Shows (acknowledged (received (handle c stream).trace).flatten)
    (transcript (handle c stream).trace)
  /-- A byte is logged right after it is read, and before anything is written for it. -/
  placed : ∀ p event q, (handle c stream).trace = p ++ .log event :: q →
    event.record.showsCharacter → ∃ before b, p = before ++ [.read 1 [b]] ∧
      Shows b event.record ∧ ReadMode.terminator ∉ (received before).flatten ∧ Paid c before
  /-- And so is each that is read until the terminator has come. -/
  complete : ∀ p size bytes q, (handle c stream).trace = p ++ .read size bytes :: q →
    bytes ≠ [] → ReadMode.terminator ∉ (received p).flatten →
    ∃ b event q', bytes = [b] ∧ q = .log event :: q' ∧ Shows b event.record
  lastOfAll : ∀ p r q, transcript (handle c stream).trace = p ++ r :: q →
    r.message = "Message received" → q = []
  /-- Sessions with the same transcript have read the same. -/
  lossless : ∀ ack idle other,
    transcript (handle ⟨.byte, ack, idle⟩ other).trace = transcript (handle c stream).trace →
    acknowledged (received (handle ⟨.byte, ack, idle⟩ other).trace).flatten =
      acknowledged (received (handle c stream).trace).flatten
  /-- There is one record for each acknowledgment that is out, and one if the last one is not. -/
  counted : ∃ s part, LastState c stream s ∧
    written (handle c stream).trace = repeated s.acksSent c.ack ++ part ∧ part <+: c.ack ∧
    (EndsWriting c stream ∧ part ≠ c.ack ∧
        (transcript (handle c stream).trace).length = s.acksSent + 1 ∨
      ¬ EndsWriting c stream ∧ part = [] ∧
        (transcript (handle c stream).trace).length = s.acksSent)

/-! ## Records -/

/-- The one record that logs a byte. -/
def transcribed (b : UInt8) : Log.Record :=
  ⟨.info, .session, if b = 36 then "Message received" else "Received",
    [("ch", .text (.ofList (Escape.byte b)))]⟩

theorem shows_iff {b : UInt8} {r : Log.Record} : Shows b r ↔ transcribed b = r := by
  constructor
  · rintro ⟨hlevel, hsource, hmessage, text, hfields, hescape⟩
    have htext : text = .ofList (Escape.byte b) := by
      rw [← Escape.escapes_iff.mp hescape, String.ofList_toList]
    cases r
    simp_all [transcribed]
  · rintro rfl
    refine ⟨rfl, rfl, rfl, _, rfl, ?_⟩
    rw [Escape.escapes_iff, String.toList_ofList]

theorem Shows.unique {b b' : UInt8} {r : Log.Record} (h : Shows b r) (h' : Shows b' r) :
    b = b' := by
  obtain ⟨text, hf, he⟩ := h.ch
  obtain ⟨text', hf', he'⟩ := h'.ch
  obtain rfl : text = text' := by simpa [hf] using hf'
  exact he.unique he'

theorem forall₂_shows {bytes : List UInt8} {records : List Log.Record} :
    List.Forall₂ Shows bytes records ↔ bytes.map transcribed = records := by
  have hshows : Shows = fun b r => transcribed b = r := by
    funext b r
    exact propext shows_iff
  rw [hshows, ← List.forall₂_eq_eq_eq, List.forall₂_map_left_iff]

theorem showsCharacter_transcribed (b : UInt8) : (transcribed b).showsCharacter := rfl

theorem message_transcribed {b : UInt8} :
    (transcribed b).message = "Message received" ↔ b = ReadMode.terminator := by
  simp [transcribed, ReadMode.terminator]

theorem record_report (bytes : List UInt8) :
    (State.report .byte bytes).map Event.record = bytes.map transcribed := by
  rw [State.report, List.map_map]
  refine List.map_congr_left fun b _ => ?_
  by_cases hb : b = 36 <;> simp [hb, transcribed, Event.record, ReadMode.terminator]

theorem report_singleton (b : UInt8) :
    ∃ event, State.report .byte [b] = [event] ∧ Shows b event.record := by
  have hrecord := record_report [b]
  rw [List.map_singleton] at hrecord
  exact ⟨_, rfl, shows_iff.mpr (List.singleton_inj.mp hrecord).symm⟩

@[simp] theorem transcript_append (p q : List Entry) :
    transcript (p ++ q) = transcript p ++ transcript q := by
  simp [transcript]

theorem mem_transcript {trace : List Entry} {event : Event} (h : .log event ∈ trace)
    (hs : event.record.showsCharacter) : event.record ∈ transcript trace := by
  have hlogged : event ∈ logged trace := List.mem_flatMap.mpr ⟨_, h, List.mem_singleton_self _⟩
  exact List.mem_filter.mpr ⟨List.mem_map_of_mem hlogged, hs⟩

/-- Once the terminator is acknowledged, so is all that is. -/
theorem eq_nil_of_acknowledged {input p q : List UInt8}
    (h : acknowledged input = p ++ ReadMode.terminator :: q) : q = [] := by
  have hmem : ReadMode.terminator ∈ input.take (p.length + 1) := by
    obtain ⟨rest, hrest⟩ : acknowledged input <+: input := List.take_prefix _ _
    rw [← hrest, h]
    simp [List.take_append]
  have hindex : input.idxOf ReadMode.terminator < p.length + 1 :=
    (List.mem_take_iff_idxOf_lt (List.mem_of_mem_take hmem)).mp hmem
  have hlen := congrArg List.length h
  rw [length_acknowledged_of_mem (List.mem_of_mem_take hmem), List.length_append,
    List.length_cons] at hlen
  exact List.eq_nil_of_length_eq_zero (by omega)

variable {c : Config} {s s' : State} {start t t' : Stream} {trace entries q : List Entry}

/-! ## Calls -/

theorem Calls.transcript_eq (h : Calls c {} start trace s t) (hm : c.mode = .byte) :
    transcript trace = (acknowledged (received trace).flatten).map transcribed := by
  rw [transcript, h.logged_byte hm, record_report, List.filter_eq_self]
  intro r hr
  obtain ⟨b, -, rfl⟩ := List.mem_map.mp hr
  exact showsCharacter_transcribed b

/-- The last call shows no character. -/
theorem LastCall.transcript_eq {o : Outcome} (h : LastCall c s t entries o t') :
    transcript entries = [] := by
  cases h with
  | closed =>
    cases hm : c.mode <;>
      simp [transcript, State.closing, Entry.logged, Event.record, Log.Record.showsCharacter]
  | @drained n =>
    by_cases hn : n = 0 <;>
      simp [hn, transcript, Entry.logged, Event.record, Log.Record.showsCharacter]
  | _ => rfl

/-- A call that logs one event leaves that behind its own entry, and nothing else. -/
theorem of_prefix_log {first : Entry} {event last : Event} (hf : ∀ other, first ≠ .log other)
    (hq : q ++ [.log event] <+: [first, .log last]) : q = [first] ∧ event = last := by
  cases q with
  | nil => exact absurd (List.cons_prefix_cons.mp hq).1.symm (hf event)
  | cons a q =>
    obtain ⟨rfl, hq⟩ := List.cons_prefix_cons.mp hq
    have hlen := hq.length_le
    obtain rfl : q = [] := List.eq_nil_of_length_eq_zero (by simpa using hlen)
    exact ⟨rfl, by simpa using hq⟩

/-- What shows a character is the byte that has just been read. -/
theorem Leaves.of_log {event : Event} (h : Leaves c s t entries) (hm : c.mode = .byte)
    (hq : q ++ [.log event] <+: entries) (hs : event.record.showsCharacter) :
    s.phase = .listening ∧ ∃ b, q = [.read 1 [b]] ∧ Shows b event.record := by
  rcases h with ⟨s', t', h⟩ | ⟨o, t', h⟩
  · cases h with
    | read hp hr hb =>
      obtain ⟨b, rfl⟩ := Stream.exists_byte hm hr hb
      obtain ⟨last, hlast, hshows⟩ := report_singleton b
      rw [hm, hlast] at hq
      obtain ⟨rfl, rfl⟩ := of_prefix_log (by simp) hq
      exact ⟨hp, b, rfl, hshows⟩
    | drain | write | retry =>
      have hmem := hq.sublist.subset (List.mem_append_right q (List.mem_singleton_self _))
      simp at hmem
  · have hmem := mem_transcript (hq.sublist.subset (by simp)) hs
    rw [h.transcript_eq] at hmem
    exact absurd hmem List.not_mem_nil

/-- A byte that is read in byte mode is discarded, or logged at once. -/
theorem Leaves.of_bytes {size : Nat} {bytes : List UInt8} (h : Leaves c s t entries)
    (hm : c.mode = .byte) (hq : [.read size bytes] <+: entries) (hb : bytes ≠ []) :
    (∃ n, s.phase = .draining n) ∨ ∃ b event, bytes = [b] ∧ Shows b event.record ∧
      entries = [.read size bytes, .log event] ∧ ∃ s' t', Call c s t entries s' t' := by
  rcases h with ⟨s', t', h⟩ | ⟨o, t', h⟩
  · cases h with
    | read hp hr hne =>
      have hcall := Call.read hp hr hne
      obtain ⟨b, rfl⟩ := Stream.exists_byte hm hr hne
      obtain ⟨event, hevent, hshows⟩ := report_singleton b
      rw [hm, hevent] at hq hcall ⊢
      obtain ⟨hread, -⟩ := List.cons_prefix_cons.mp hq
      obtain ⟨rfl, rfl⟩ := Entry.read.inj hread
      exact .inr ⟨b, event, rfl, hshows, rfl, _, _, hcall⟩
    | drain hp => exact .inl ⟨_, hp⟩
    | write | retry => simp at hq
  · obtain ⟨rest, rfl⟩ := hq
    have hsilent := h.silent.1
    simp [Entry.received_read hb] at hsilent

/-! ## The end -/

theorem Owing.not_paid {rest : List UInt8} {last : Bool}
    (h : Owing c (written trace) (received trace) s rest last) (hne : rest ≠ []) :
    ¬ Paid c trace := by
  intro hpaid
  have hsum := h.sum
  rw [hpaid, ← h.acks] at hsum
  exact hne (by simpa using hsum)

/-- Of an acknowledgment that is not out in full, some part is. -/
theorem Owing.exists_part {rest : List UInt8} {last : Bool}
    (h : Owing c (written trace) (received trace) s rest last) :
    ∃ part, part ++ rest = c.ack ∧ written trace = repeated s.acksSent c.ack ++ part := by
  have hsum := h.sum
  rw [repeated_succ] at hsum
  have hwhole : rest <:+ repeated s.acksSent c.ack ++ c.ack := ⟨written trace, hsum⟩
  obtain ⟨part, hpart⟩ : rest <:+ c.ack :=
    List.suffix_of_suffix_length_le hwhole (List.suffix_append _ _) h.rest
  have hout : written trace ++ rest = repeated s.acksSent c.ack ++ part ++ rest := by
    rw [hsum, List.append_assoc, hpart]
  exact ⟨part, hpart, List.append_cancel_right hout⟩

theorem Calls.not_paid {rest : List UInt8} {last : Bool} (h : Calls c {} start trace s t)
    (hp : s.phase = .replying rest last) : ¬ Paid c trace := by
  have hb := h.balanced
  simp only [Balanced, hp] at hb
  exact hb.not_paid (h.rest_ne_nil hp)

theorem LastCall.replying {f : Fault} (h : LastCall c s t entries (.failed (.write f)) t') :
    ∃ rest last, s.phase = .replying rest last := by
  cases h with
  | writeZero hp | writeFailed hp => exact ⟨_, _, hp⟩

/-- A session that ends while it is writing is the same as one that owes something at the end. -/
theorem endsWriting_iff : EndsWriting c start ↔ ¬ Paid c (handle c start).trace := by
  constructor
  · intro h
    rcases h with ⟨f, hf⟩ | ⟨trace, s, t, u, rest, last, hcs, hp, hu⟩
    · obtain ⟨trace, s, t, hcs, ⟨entries, o, u, hl, hr⟩ | ⟨u, -, hr⟩⟩ := run_cases c {} start
      · rw [handle, hr] at hf ⊢
        obtain rfl := Result.ended.inj hf
        obtain ⟨rest, last, hp⟩ := hl.replying
        simpa [Paid, hl.silent] using hcs.not_paid hp
      · simp [handle, hr] at hf
    · rw [handle, hcs.run_eq, run_of_stuck hu, Run.prepend, List.append_nil]
      exact hcs.not_paid hp
  · intro h
    by_cases hw : ∃ f, (handle c start).result = .ended (.failed (.write f))
    · exact .inl hw
    · by_cases hb : BlockedWriting c start
      · exact .inr hb
      · exact absurd (paid_at_end (fun f hf => hw ⟨f, hf⟩) hb) h

/-- Up to the last call that shows anything. -/
theorem exists_lastState (c : Config) (start : Stream) :
    ∃ trace s t entries, Calls c {} start trace s t ∧ LastState c start s ∧
      (handle c start).trace = trace ++ entries ∧ received entries = [] ∧
      written entries = [] ∧ transcript entries = [] := by
  obtain ⟨trace, s, t, hcs, ⟨entries, o, u, hl, hr⟩ | ⟨u, hu, hr⟩⟩ := run_cases c {} start
  · refine ⟨trace, s, t, entries, hcs, ⟨trace, t, hcs, ?_⟩, by rw [handle, hr], hl.silent.1,
      hl.silent.2, hl.transcript_eq⟩
    intro more s' t' hc
    have hgoes := step_goes_iff.mpr hc
    simp [step_ends_iff.mpr hl] at hgoes
  · refine ⟨trace, s, t, [], hcs, ⟨trace, t, hcs, ?_⟩, by simp [handle, hr], rfl, rfl, rfl⟩
    intro more s' t' hc
    have hgoes := step_goes_iff.mpr hc
    simp [hu] at hgoes

theorem handle_inOrder (hm : c.mode = .byte) : transcript (handle c start).trace =
    (acknowledged (received (handle c start).trace).flatten).map transcribed := by
  obtain ⟨trace, s, t, entries, hcs, -, ht, hreceived, -, hnone⟩ := exists_lastState c start
  simp only [ht, transcript_append, hnone, received_append, hreceived, List.append_nil]
  exact hcs.transcript_eq hm

theorem handle_placed {p : List Entry} {event : Event} (hm : c.mode = .byte)
    (h : (handle c start).trace = p ++ .log event :: q) (hs : event.record.showsCharacter) :
    ∃ before b, p = before ++ [.read 1 [b]] ∧ Shows b event.record ∧
      ReadMode.terminator ∉ (received before).flatten ∧ Paid c before := by
  obtain ⟨before, s, t, q', entries, hcs, hl, rfl, hq⟩ := leaves_of_split h
  obtain ⟨hp, b, rfl, hshows⟩ := hl.of_log hm hq hs
  have hb := hcs.balanced
  simp only [Balanced, hp] at hb
  obtain ⟨-, -, -, hterminated⟩ := hcs.byte_counts hm hb
  exact ⟨before, b, rfl, hshows, by simp [hterminated], hb.isPaid⟩

theorem handle_complete {p : List Entry} {size : Nat} {bytes : List UInt8} (hm : c.mode = .byte)
    (h : (handle c start).trace = p ++ .read size bytes :: q) (hb : bytes ≠ [])
    (hn : ReadMode.terminator ∉ (received p).flatten) :
    ∃ b event q', bytes = [b] ∧ q = .log event :: q' ∧ Shows b event.record := by
  obtain ⟨before, s, t, q', entries, hcs, hl, rfl, hq⟩ := leaves_of_split h
  obtain rfl := hl.eq_nil_of_call hq (by simp)
  rw [List.append_nil] at h hn
  rcases hl.of_bytes hm hq hb with ⟨n, hp⟩ | ⟨b, event, rfl, hshows, rfl, s', t', hc⟩
  · have hbooks := hcs.balanced
    simp only [Balanced, hp] at hbooks
    obtain ⟨-, -, -, hterminated⟩ := hcs.byte_counts hm hbooks
    exact absurd (hterminated.mpr rfl) hn
  · rw [handle, (hcs.more hc).run_eq, Run.prepend, List.append_assoc] at h
    have htail := List.append_cancel_left h
    exact ⟨b, event, _, rfl, (List.cons.inj htail).2.symm, hshows⟩

theorem handle_counted (hm : c.mode = .byte) : ∃ s part, LastState c start s ∧
    written (handle c start).trace = repeated s.acksSent c.ack ++ part ∧ part <+: c.ack ∧
    (EndsWriting c start ∧ part ≠ c.ack ∧
        (transcript (handle c start).trace).length = s.acksSent + 1 ∨
      ¬ EndsWriting c start ∧ part = [] ∧
        (transcript (handle c start).trace).length = s.acksSent) := by
  obtain ⟨trace, s, t, entries, hcs, hs, ht, hreceived, hwritten, hnone⟩ :=
    exists_lastState c start
  have hlength : (transcript trace).length = (due c.mode (received trace)).length := by
    rw [hcs.transcript_eq hm, List.length_map, hcs.length_due hm]
  have hends : EndsWriting c start ↔ ¬ Paid c trace := by
    rw [endsWriting_iff, ht]
    simp [Paid, hreceived, hwritten]
  have hbooks := hcs.balanced
  simp only [ht, transcript_append, hnone, written_append, hwritten, List.append_nil, hlength,
    hends]
  cases hp : s.phase with
  | replying rest last =>
    simp only [Balanced, hp] at hbooks
    obtain ⟨part, hpart, hout⟩ := hbooks.exists_part
    refine ⟨s, part, hs, hout, ⟨rest, hpart⟩, .inl ⟨hcs.not_paid hp, ?_, hbooks.acks.symm⟩⟩
    intro hfull
    rw [hfull] at hpart
    exact hcs.rest_ne_nil hp (by simpa using hpart)
  | listening | draining =>
    simp only [Balanced, hp] at hbooks
    refine ⟨s, [], hs, ?_, List.nil_prefix, .inr ⟨not_not_intro hbooks.isPaid, rfl, ?_⟩⟩
    · rw [hbooks.paid, List.append_nil]
    · exact hbooks.acks.symm

/-- **The log of byte mode is a transcript.** It shows each byte that is acknowledged, at its time
and in a way that it can be told by, and no other. -/
theorem handle_transcribes (ack : List UInt8) (idle : Option Duration) (stream : Stream) :
    Transcribes ⟨.byte, ack, idle⟩ stream where
  inOrder := forall₂_shows.mpr (handle_inOrder rfl).symm
  placed _ _ _ h hs := handle_placed rfl h hs
  complete _ _ _ _ h hb hn := handle_complete rfl h hb hn
  lastOfAll p r q h hr := by
    rw [handle_inOrder rfl] at h
    obtain ⟨before, rest, hsplit, -, hrest⟩ := List.map_eq_append_iff.mp h
    obtain ⟨b, after, rfl, rfl, rfl⟩ := List.map_eq_cons_iff.mp hrest
    obtain rfl := message_transcribed.mp hr
    rw [eq_nil_of_acknowledged hsplit, List.map_nil]
  lossless _ _ _ h := by
    have hinjective : Function.Injective transcribed := fun b b' hb =>
      (shows_iff.mpr rfl).unique (shows_iff.mpr hb.symm)
    rw [handle_inOrder rfl, handle_inOrder rfl] at h
    exact hinjective.list_map h
  counted := handle_counted rfl

/-- A tab, a backslash and a quote, a byte that is no ASCII, and one behind the terminator. -/
def oddStream : Stream where
  reads := [.now (.data [9, 92, 39]), .wait 2, .now (.data [200, 36, 65])]

theorem handle_transcribes_odd : Transcribes ⟨.byte, [65], none⟩ oddStream ∧
    transcript (handle ⟨.byte, [65], none⟩ oddStream).trace =
      [⟨.info, .session, "Received", [("ch", .text "\\t")]⟩,
       ⟨.info, .session, "Received", [("ch", .text "\\\\")]⟩,
       ⟨.info, .session, "Received", [("ch", .text "\\'")]⟩,
       ⟨.info, .session, "Received", [("ch", .text "\\xc8")]⟩,
       ⟨.info, .session, "Message received", [("ch", .text "$")]⟩] := by
  have hlogged : logged (handle ⟨.byte, [65], none⟩ oddStream).trace =
      [.received 9, .received 92, .received 39, .received 200, .terminated 36, .discarded 1] := by
    cbv
  refine ⟨handle_transcribes _ _ _, ?_⟩
  rw [transcript, hlogged]
  decide +kernel

end Session

end SerialAck

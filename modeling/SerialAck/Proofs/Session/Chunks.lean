/-
Chunk mode on streams that do their part. Every event is read in pieces of full size, and then
what is left of it; each piece is acknowledged once, and the bytes themselves do not matter.
-/
import Mathlib.Algebra.GroupWithZero.Nat
import SerialAck.Proofs.Session.Blank
import SerialAck.Proofs.Session.Ending
import SerialAck.Proofs.Session.Feed
import SerialAck.Proofs.Session.Report

namespace SerialAck.Session

/-- The sizes of the reads that bring `n` bytes which come at once. -/
def readSizes (n : Nat) : List Nat :=
  List.replicate (n / ReadMode.chunkSize) ReadMode.chunkSize ++
    if n % ReadMode.chunkSize = 0 then [] else [n % ReadMode.chunkSize]

theorem readSizes_of_pos {n : Nat} (h : 0 < n) :
    readSizes n = min ReadMode.chunkSize n :: readSizes (n - ReadMode.chunkSize) := by
  unfold readSizes ReadMode.chunkSize
  by_cases hn : n < 1024
  · have hd : n / 1024 = 0 := Nat.div_eq_of_lt hn
    have hm : n % 1024 = n := Nat.mod_eq_of_lt hn
    have hs : n - 1024 = 0 := by omega
    rw [hd, hm, hs, if_neg (by omega), Nat.min_eq_right (by omega)]
    rfl
  · have hd : n / 1024 = (n - 1024) / 1024 + 1 := by omega
    have hm : (n - 1024) % 1024 = n % 1024 := by omega
    rw [hd, hm, List.replicate_succ, Nat.min_eq_left (by omega)]
    rfl

/-- As many as there are full sizes, rounded up. -/
theorem length_readSizes (n : Nat) :
    (readSizes n).length = (n + (ReadMode.chunkSize - 1)) / ReadMode.chunkSize := by
  unfold readSizes ReadMode.chunkSize
  split <;> simp <;> omega

/-- The sizes of the reads that bring all of `chunks`. -/
def allSizes (chunks : List (List UInt8)) : List Nat :=
  chunks.flatMap fun chunk => readSizes chunk.length

theorem allSizes_cons {chunk : List UInt8} (h : chunk ≠ []) (more : List (List UInt8)) :
    allSizes (chunk :: more) = (chunk.take ReadMode.chunkSize).length ::
      allSizes (behind ReadMode.chunkSize chunk more) := by
  have hn := readSizes_of_pos (List.length_pos_iff.mpr h)
  rw [allSizes, List.flatMap_cons, hn, List.length_take, behind]
  split
  · rename_i hd
    have : chunk.length - ReadMode.chunkSize = 0 := by
      have := List.drop_eq_nil_iff.mp hd
      omega
    rw [this]
    rfl
  · rw [allSizes, List.flatMap_cons, List.length_drop]
    rfl

theorem readSize_chunk (s : State) : s.readSize .chunk = ReadMode.chunkSize := by
  unfold State.readSize
  split <;> rfl

theorem not_over_chunk (reads : List (List UInt8)) : ¬ Over .chunk reads := by
  simp [Over, ReadMode.endsWith]

variable {c : Config} {s : State} {t : Stream} {stream : Stream} {trace : List Entry}
  {chunks : List (List UInt8)}

theorem Supplies.read_sizes (h : Supplies c stream chunks) (hm : c.mode = .chunk)
    (hc : Calls c {} stream trace s t) :
    ∃ more, Supplies c t more ∧ (received trace).map List.length ++ allSizes more =
      allSizes chunks := by
  induction hc with
  | none => exact ⟨chunks, h, rfl⟩
  | more _ hc ih =>
    obtain ⟨more, hs, hd⟩ := ih
    rcases hs.call hc with ⟨hr, hs⟩ | ⟨chunk, more, rfl, hne, hr, hs⟩
    · exact ⟨more, hs, by simpa [hr] using hd⟩
    · rw [hm, readSize_chunk] at hr hs
      refine ⟨_, hs, ?_⟩
      rw [allSizes_cons hne] at hd
      simpa [hr] using hd

/-- **Chunk mode acknowledges once for each read, and loses nothing.** -/
theorem Supplies.chunk_mode (h : Supplies c stream chunks) (hm : c.mode = .chunk)
    (hr : (handle c stream).result ≠ .stuck) :
    (handle c stream).result = .ended (.finished
        ⟨.peerClosed, chunks.flatten.length, (allSizes chunks).length⟩) ∧
      (received (handle c stream).trace).map List.length = allSizes chunks ∧
      (received (handle c stream).trace).flatten = chunks.flatten ∧
      written (handle c stream).trace = repeated (allSizes chunks).length c.ack := by
  obtain ⟨trace, s, t, entries, summary, u, hcs, hl, -, hd, he⟩ := h.exists_end hr
  obtain ⟨more, hmore, hsizes⟩ := h.read_sizes hm hcs
  obtain ⟨rfl, -⟩ := hmore.lastCall (fun _ _ => hcs.rest_ne_nil) hl
  have hb := hcs.balanced
  have hdue : due c.mode (received trace) = received trace :=
    due_of_not_over (hm ▸ not_over_chunk _)
  have hlen : (received trace).length = (allSizes chunks).length := by
    rw [← hsizes]
    simp [allSizes]
  simp only [he, received_append, written_append, hl.silent, List.append_nil]
  cases hl with
  | closed hp =>
    simp only [Balanced, hp] at hb
    have hbytes := hb.bytes
    have hacks := hb.acks
    rw [hdue] at hbytes hacks
    refine ⟨?_, ?_, hd, ?_⟩
    · rw [hbytes, hacks, hd, hlen]
    · simpa [allSizes] using hsizes
    · rw [hb.paid, hacks, hlen]
  | drained hp =>
    simp only [Balanced, hp] at hb
    exact absurd (hb.terminated.mpr rfl) (hm ▸ not_over_chunk _)

/-- **What chunk mode makes of an input that comes in time.** Each event is read in full sizes and
a rest, each read is acknowledged once, and nothing is lost. With other bytes in events of the
same lengths all is the same, but for the field `text` of the log. -/
theorem handle_chunk_mode {c : Config} {stream : Stream} {chunks : List (List UInt8)}
    (hm : c.mode = .chunk) (hf : Feeds c.limit 0 stream.reads chunks) (hy : Yields stream.writes)
    (hr : (handle c stream).result ≠ .stuck) :
    (∀ acks, acks = (chunks.map fun chunk =>
        (chunk.length + (ReadMode.chunkSize - 1)) / ReadMode.chunkSize).sum →
      (handle c stream).result =
        .ended (.finished ⟨.peerClosed, (chunks.map List.length).sum, acks⟩) ∧
      written (handle c stream).trace = repeated acks c.ack) ∧
    (received (handle c stream).trace).map List.length =
      (chunks.flatMap fun chunk =>
        List.replicate (chunk.length / ReadMode.chunkSize) ReadMode.chunkSize ++
          if chunk.length % ReadMode.chunkSize = 0 then []
          else [chunk.length % ReadMode.chunkSize]) ∧
    (received (handle c stream).trace).flatten = chunks.flatten ∧
    ∀ other : Stream, other.reads.blank = stream.reads.blank → other.writes = stream.writes →
      other.left = stream.left →
      (handle c other).result = (handle c stream).result ∧
        (handle c other).trace.map Entry.outline = (handle c stream).trace.map Entry.outline ∧
        (handle c other).stream.elapsed = (handle c stream).stream.elapsed ∧
        (handle c other).stream.reads.length = (handle c stream).stream.reads.length ∧
        (handle c other).stream.writes = (handle c stream).stream.writes := by
  obtain ⟨hres, hsizes, hdata, hwritten⟩ := Supplies.chunk_mode ⟨hf, hy⟩ hm hr
  have hacks : (allSizes chunks).length = (chunks.map fun chunk =>
      (chunk.length + (ReadMode.chunkSize - 1)) / ReadMode.chunkSize).sum := by
    simp only [allSizes, List.length_flatMap, length_readSizes]
  refine ⟨?_, hsizes, hdata, fun other hreads hwrites hleft => ?_⟩
  · rintro acks rfl
    rw [hres, hwritten, hacks, List.length_flatten]
    exact ⟨rfl, rfl⟩
  · have hb : other.blank = stream.blank := by
      rw [Stream.blank, Stream.blank, hreads, hwrites, hleft]
    obtain ⟨hres', htrace, hstream⟩ := handle_of_blank_eq hm hb
    exact ⟨hres', htrace, Stream.eq_of_blank_eq hstream⟩

/-- No limit. -/
def chunkConfig : Config :=
  ⟨.chunk, [79, 107], none⟩

/-- Two events, of which the first brings `bytes`. -/
def pairStream (bytes : List UInt8) : Stream where
  reads := [.now (.data bytes), .wait 3, .now (.data [104, 105]), .now (.data [])]
  writes := [.now (.take 1)]

theorem ample_pair (bytes : List UInt8) :
    Ample chunkConfig (pairStream bytes).reads (pairStream bytes).writes := by
  refine ⟨by simp [pairStream], .inl ⟨by simp [pairStream], ?_⟩⟩
  have hwaits : (pairStream bytes).reads.waits + (pairStream bytes).writes.waits = 3 := rfl
  rw [hwaits]
  decide

/-- The first event takes two reads. -/
theorem handle_chunk_mode_long :
    (Feeds chunkConfig.limit 0 (pairStream (.replicate 1500 36)).reads
        [.replicate 1500 36, [104, 105]] ∧
      Yields (pairStream (.replicate 1500 36)).writes ∧
      (handle chunkConfig (pairStream (.replicate 1500 36))).result ≠ .stuck) ∧
    (handle chunkConfig (pairStream (.replicate 1500 36))).result =
      .ended (.finished ⟨.peerClosed, 1502, 3⟩) ∧
    (received (handle chunkConfig (pairStream (.replicate 1500 36))).trace).map List.length =
      [1024, 476, 2] ∧
    written (handle chunkConfig (pairStream (.replicate 1500 36))).trace =
      [79, 107, 79, 107, 79, 107] ∧
    (handle chunkConfig (pairStream (.replicate 1500 97))).trace.map Entry.outline =
      (handle chunkConfig (pairStream (.replicate 1500 36))).trace.map Entry.outline := by
  obtain ⟨dollars, hd⟩ : ∃ bytes, bytes = List.replicate 1500 (36 : UInt8) := ⟨_, rfl⟩
  obtain ⟨letters, hl⟩ : ∃ bytes, bytes = List.replicate 1500 (97 : UInt8) := ⟨_, rfl⟩
  have hdollars : dollars.length = 1500 := by rw [hd, List.length_replicate]
  have hletters : letters.length = 1500 := by rw [hl, List.length_replicate]
  rw [← hd, ← hl]
  have hf : Feeds chunkConfig.limit 0 (pairStream dollars).reads [dollars, [104, 105]] :=
    .data (List.length_pos_iff.mp (by omega)) (.wait (by decide) (.data (by decide) .empty))
  have hy : Yields (pairStream dollars).writes := by simp [Yields, pairStream]
  have hr : (handle chunkConfig (pairStream dollars)).result ≠ .stuck := by
    obtain ⟨o, ho⟩ := handle_ended rfl (ample_pair dollars)
    simp [ho]
  have hbytes : blank letters = blank dollars := by
    rw [blank, blank, List.map_const', List.map_const', hletters, hdollars]
  have hblank : (pairStream letters).reads.blank = (pairStream dollars).reads.blank := by
    simp only [pairStream, Script.blank, List.map_cons, Step.map, Arrival.blank, hbytes]
  obtain ⟨hend, hsizes, -, hother⟩ := handle_chunk_mode rfl hf hy hr
  simp only [List.map_cons, List.map_nil, List.flatMap_cons, List.flatMap_nil, hdollars] at hend hsizes
  obtain ⟨hresult, hwritten⟩ := hend 3 (by decide)
  exact ⟨⟨hf, hy, hr⟩, hresult, hsizes, hwritten,
    (hother (pairStream letters) hblank rfl rfl).2.1⟩

end SerialAck.Session

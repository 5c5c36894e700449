/-
Bytes that come one at a time. On a stream whose events bring a byte each at most, and never the
terminator, a large buffer takes no more than a small one (`Singles.read`), and the modes have no
reason to differ: call by call they do the same (`step_alike`), to whatever end that leads.
-/
import SerialAck.Proofs.Session.Calls

namespace SerialAck.Session

/-- No event brings more than a byte, and none the terminator. -/
def Singles (script : Script Arrival) : Prop :=
  ∀ bytes, .now (.data bytes) ∈ script → bytes = [] ∨ ∃ b, b ≠ ReadMode.terminator ∧ bytes = [b]

/-- A call as it looks to someone who does not see the size of buffers. -/
inductive Exchange where
  | read (bytes : List UInt8)
  | readFailed
  | write (offered : Nat) (taken : List UInt8)
  | writeFailed (offered : Nat)
  deriving Repr, DecidableEq

def Entry.exchange? : Entry → Option Exchange
  | .read _ bytes => some (.read bytes)
  | .readFailed _ => some .readFailed
  | .write offered taken => some (.write offered taken)
  | .writeFailed offered => some (.writeFailed offered)
  | .log _ => none

/-- The calls of a trace, without the log. -/
def exchanges (trace : List Entry) : List Exchange :=
  trace.filterMap Entry.exchange?

/-! ## Reading -/

/-- The script from what is next on. -/
def Next.left {α : Type} : Next α → Script α
  | .due a rest _ => .now a :: rest
  | .nothing _ => []
  | .late rest => rest

theorem Next.left_after {α : Type} (ms : Nat) (x : Next α) : (x.after ms).left = x.left := by
  cases x <;> rfl

/-- To wait is to pass over the beginning of a script. -/
theorem Script.left_next_suffix {α : Type} (budget : Nat) (script : Script α) :
    (script.next budget).left <:+ script := by
  fun_induction Script.next budget script with
  | case1 | case2 | case3 | case5 => exact List.suffix_rfl
  | case4 budget ms rest hm ih =>
    rw [Next.left_after]
    exact ih.trans (List.suffix_cons _ _)

variable {c : Config} {s s' : State} {t t' : Stream} {entries : List Entry}

/-- A buffer for one byte is as good as any. -/
theorem Singles.read {size : Nat} (h : Singles t.reads) (hs : 0 < size) (limit : Option Nat) :
    t.read size limit = t.read 1 limit ∧ Singles (t.read size limit).2.reads ∧
      ∀ bytes, (t.read size limit).1 = .got bytes →
        bytes = [] ∨ ∃ b, b ≠ ReadMode.terminator ∧ bytes = [b] := by
  have hleft := Script.left_next_suffix (t.readBudget limit) t.reads
  have hnext : Singles (t.reads.next (t.readBudget limit)).left := fun bytes hb =>
    h bytes (hleft.subset hb)
  unfold Stream.read
  generalize t.reads.next (t.readBudget limit) = next at hnext
  cases next with
  | late rest =>
    refine ⟨rfl, hnext, fun bytes hb => ?_⟩
    dsimp only at hb
    split at hb <;> simp at hb
  | nothing spent => exact ⟨rfl, by simp [Singles], by simp⟩
  | due a rest spent =>
    have hrest : Singles rest := fun bytes hb => hnext bytes (List.mem_cons_of_mem _ hb)
    cases a with
    | failure f => exact ⟨rfl, hrest, by simp⟩
    | eof => exact ⟨rfl, hrest, by simp⟩
    | data bytes =>
      have hbytes := hnext bytes List.mem_cons_self
      have hshort : bytes.length ≤ 1 := by
        rcases hbytes with rfl | ⟨b, -, rfl⟩
        · exact Nat.zero_le 1
        · exact Nat.le_refl 1
      have hlong : bytes.length ≤ size := Nat.le_trans hshort hs
      simp only [List.drop_eq_nil_of_le hshort, List.drop_eq_nil_of_le hlong,
        List.take_of_length_le hshort, List.take_of_length_le hlong, if_true,
        true_and]
      exact ⟨hrest, fun _ hb => Reading.got.inj hb ▸ hbytes⟩

/-! ## In lockstep -/

/-- The terminator has not come. -/
def State.IsOpen (s : State) : Prop :=
  s.phase = .listening ∨ ∃ rest, s.phase = .replying rest false

theorem State.isOpen_reply (s : State) (rest : List UInt8) : (s.reply rest false).IsOpen := by
  unfold reply
  split
  · exact .inl rfl
  · exact .inr ⟨rest, rfl⟩

theorem Singles.call (h : Singles t.reads) (ho : s.IsOpen) (hc : Call c s t entries s' t') :
    s'.IsOpen ∧ Singles t'.reads := by
  cases hc with
  | @read bytes _ hp hr hb =>
    have hsize : 0 < c.mode.size := by cases c.mode <;> decide
    obtain ⟨-, hrest, hbytes⟩ := h.read hsize c.limit
    rw [hr] at hrest hbytes
    obtain ⟨b, hne, rfl⟩ := (hbytes bytes rfl).resolve_left hb
    have hlast : c.mode.endsWith [b] = false := by
      cases c.mode with
      | byte => simpa [ReadMode.endsWith] using hne.symm
      | chunk => rfl
    rw [hlast]
    exact ⟨State.isOpen_reply _ _, hrest⟩
  | drain hp => simp [State.IsOpen, hp] at ho
  | @write rest last taken _ hp hw ht =>
    obtain rfl : last = false := by simpa [State.IsOpen, hp] using ho
    exact ⟨State.isOpen_reply _ _, (Stream.length_writes_write hw).1 ▸ h⟩
  | retry hp hw hk => exact ⟨ho, (Stream.length_writes_write_failed hw).1 ▸ h⟩

/-- The second progress is the first, but for the log and the size of buffers. -/
def Progress.Alike : Progress → Progress → Prop
  | .goes entries s t, x =>
    ∃ entries', x = .goes entries' s t ∧ exchanges entries = exchanges entries'
  | .ends entries o t, x =>
    ∃ entries', x = .ends entries' o t ∧ exchanges entries = exchanges entries'
  | .stuck t, x => x = .stuck t

theorem Progress.Alike.refl (x : Progress) : x.Alike x := by
  cases x with
  | goes entries | ends entries => exact ⟨entries, rfl, rfl⟩
  | stuck => exact rfl

theorem Turn.progress_alike {entries entries' : List Entry}
    (h : exchanges entries = exchanges entries') (turn : Turn) :
    (turn.progress entries t).Alike (turn.progress entries' t) := by
  cases turn with
  | goes | ends => exact ⟨entries', rfl, h⟩

@[simp] theorem exchanges_append (p q : List Entry) :
    exchanges (p ++ q) = exchanges p ++ exchanges q :=
  List.filterMap_append

theorem exchanges_read (size : Nat) (bytes : List UInt8) (events : List Event) :
    exchanges (.read size bytes :: events.map .log) = [.read bytes] := by
  simp [exchanges, Entry.exchange?]

/-- What both modes make of no byte, or of one that is not the terminator. -/
theorem receive_alike {bytes : List UInt8} (ack : List UInt8) (idle : Option Duration)
    (hp : s.phase = .listening)
    (hb : bytes = [] ∨ ∃ b, b ≠ ReadMode.terminator ∧ bytes = [b]) :
    (s.receive ⟨.byte, ack, idle⟩ bytes).2 = (s.receive ⟨.chunk, ack, idle⟩ bytes).2 := by
  rcases hb with rfl | ⟨b, hne, rfl⟩
  · simp [State.receive, hp]
  · have hlast : ReadMode.byte.endsWith [b] = ReadMode.chunk.endsWith [b] := by
      simpa [ReadMode.endsWith] using hne.symm
    simp [State.receive, hp, hlast]

theorem step_alike (ack : List UInt8) (idle : Option Duration) (ho : s.IsOpen)
    (h : Singles t.reads) :
    (step ⟨.byte, ack, idle⟩ s t).Alike (step ⟨.chunk, ack, idle⟩ s t) := by
  rcases ho with hp | ⟨rest, hp⟩
  · have hreads : s.Reads := by simp [State.Reads, hp]
    have hlimit : Config.limit ⟨.byte, ack, idle⟩ = Config.limit ⟨.chunk, ack, idle⟩ := rfl
    have hchunk : 0 < ReadMode.chunk.size := by decide
    obtain ⟨hsame, -, hbytes⟩ := h.read hchunk (Config.limit ⟨.chunk, ack, idle⟩)
    rw [step_of_reads hreads, step_of_reads hreads, listen, listen]
    simp only [State.readSize, hp, hlimit]
    rw [ReadMode.size, ← hsame]
    obtain ⟨r, u, hr⟩ : ∃ r u,
      t.read ReadMode.chunk.size (Config.limit ⟨.chunk, ack, idle⟩) = (r, u) := ⟨_, _, rfl⟩
    rw [hr] at hbytes ⊢
    cases r with
    | got bytes =>
      dsimp only
      rw [receive_alike ack idle hp (hbytes bytes rfl)]
      refine Turn.progress_alike ?_ _
      rw [exchanges_read, exchanges_read]
    | failed f => exact ⟨_, rfl, rfl⟩
    | timedOut => exact ⟨_, rfl, rfl⟩
    | stuck => exact rfl
  · rw [step_of_replying hp, step_of_replying hp]
    exact .refl _

theorem run_alike (ack : List UInt8) (idle : Option Duration) (ho : s.IsOpen)
    (h : Singles t.reads) :
    (run ⟨.byte, ack, idle⟩ s t).result = (run ⟨.chunk, ack, idle⟩ s t).result ∧
      (run ⟨.byte, ack, idle⟩ s t).stream = (run ⟨.chunk, ack, idle⟩ s t).stream ∧
      exchanges (run ⟨.byte, ack, idle⟩ s t).trace =
        exchanges (run ⟨.chunk, ack, idle⟩ s t).trace := by
  fun_induction run (⟨.byte, ack, idle⟩ : Config) s t with
  | case1 s t entries s' t' hs ih =>
    have halike := step_alike ack idle ho h
    rw [hs] at halike
    obtain ⟨entries', hchunk, he⟩ := halike
    obtain ⟨ho', h'⟩ := h.call ho (step_goes_iff.mp hs)
    obtain ⟨hresult, hstream, htrace⟩ := ih ho' h'
    rw [run_of_call (step_goes_iff.mp hchunk)]
    refine ⟨hresult, hstream, ?_⟩
    simp only [Run.prepend, exchanges_append, he, htrace]
  | case2 s t entries o t' hs =>
    have halike := step_alike ack idle ho h
    rw [hs] at halike
    obtain ⟨entries', hchunk, he⟩ := halike
    rw [run_of_lastCall (step_ends_iff.mp hchunk)]
    exact ⟨rfl, rfl, he⟩
  | case3 s t t' hs =>
    have halike := step_alike ack idle ho h
    rw [hs] at halike
    rw [run_of_stuck halike]
    exact ⟨rfl, rfl, rfl⟩

/-- **The modes agree where they mean the same.** A peer that sends single bytes and no terminator
cannot tell from the result, the time, what is left unread or any of the calls which mode it is
served in. -/
theorem handle_alike_of_singles (ack : List UInt8) (idle : Option Duration) {stream : Stream}
    (h : Singles stream.reads) :
    (handle ⟨.byte, ack, idle⟩ stream).result = (handle ⟨.chunk, ack, idle⟩ stream).result ∧
      (handle ⟨.byte, ack, idle⟩ stream).stream = (handle ⟨.chunk, ack, idle⟩ stream).stream ∧
      exchanges (handle ⟨.byte, ack, idle⟩ stream).trace =
        exchanges (handle ⟨.chunk, ack, idle⟩ stream).trace :=
  run_alike ack idle (.inl rfl) h

/-- Two bytes and a pause in between, a write that fails halfway, and more that is not read. -/
def haltingStream : Stream where
  reads := [.now (.data [97]), .wait 3, .now (.data [98]), .hang, .now .eof]
  writes := [.wait 2, .now (.take 5), .now (.take 1), .now (.failure (.ofKind .brokenPipe))]

theorem handle_alike_halting :
    Singles haltingStream.reads ∧
    (handle ⟨.byte, [79, 107], none⟩ haltingStream).result =
      (handle ⟨.chunk, [79, 107], none⟩ haltingStream).result ∧
    (handle ⟨.byte, [79, 107], none⟩ haltingStream).stream =
      (handle ⟨.chunk, [79, 107], none⟩ haltingStream).stream ∧
    exchanges (handle ⟨.byte, [79, 107], none⟩ haltingStream).trace =
      exchanges (handle ⟨.chunk, [79, 107], none⟩ haltingStream).trace ∧
    (handle ⟨.byte, [79, 107], none⟩ haltingStream).result =
      .ended (.failed (.write (.ofKind .brokenPipe))) ∧
    (handle ⟨.byte, [79, 107], none⟩ haltingStream).stream.elapsed = 5 := by
  have h : Singles haltingStream.reads := by
    simp [Singles, haltingStream, ReadMode.terminator]
  obtain ⟨hresult, hstream, htrace⟩ := handle_alike_of_singles [79, 107] none h
  exact ⟨h, hresult, hstream, htrace, by cbv, by cbv⟩

end SerialAck.Session

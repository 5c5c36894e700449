/-
The session itself, as a machine that reads and writes one call at a time. A session listens until
bytes come, replies until its acknowledgment is out, and listens again; after the terminator it
only drains what still comes. `State.receive` and `State.sent` say what the answer to a call
leads to, `step` makes one call on a scripted stream, and `run` repeats it to the end.
-/
import SerialAck.Session.Basic
import SerialAck.Session.Stream

namespace SerialAck.Session

inductive Phase where
  /-- The next read is to be acknowledged. -/
  | listening
  /-- The peer is owed `rest`; `last` tells that nothing more will be acknowledged. -/
  | replying (rest : List UInt8) (last : Bool)
  /-- The terminator has been acknowledged, and `discarded` bytes have come since. -/
  | draining (discarded : Nat)
  deriving Repr, DecidableEq

structure State where
  phase : Phase := .listening
  bytesRead : Nat := 0
  acksSent : Nat := 0
  deriving Repr, DecidableEq

inductive Outcome where
  | finished (summary : Summary)
  | failed (error : Error)
  deriving Repr, DecidableEq

/-- What follows from the answer to a call. -/
inductive Turn where
  | goes (state : State)
  | ends (outcome : Outcome)
  deriving Repr, DecidableEq

namespace State

/-- An acknowledgment is out. -/
def acked (s : State) (last : Bool) : State :=
  { s with phase := if last then .draining 0 else .listening, acksSent := s.acksSent + 1 }

/-- Owes `rest`. Where that is nothing there is no call to make. -/
def reply (s : State) (rest : List UInt8) (last : Bool) : State :=
  if rest = [] then s.acked last else { s with phase := .replying rest last }

def finish (s : State) (ending : End) : Turn :=
  .ends (.finished ⟨ending, s.bytesRead, s.acksSent⟩)

/-- The size of the buffer for the next read. -/
def readSize (mode : ReadMode) (s : State) : Nat :=
  match s.phase with
  | .draining _ => ReadMode.chunkSize
  | _ => mode.size

/-- What is logged of bytes that are to be acknowledged. -/
def report (mode : ReadMode) (bytes : List UInt8) : List Event :=
  match mode with
  | .chunk => [.chunk bytes]
  | .byte => bytes.map fun b => if b = ReadMode.terminator then .terminated b else .received b

/-- What is logged when the input ends before a terminator. -/
def closing : ReadMode → Event
  | .byte => .nothingMore
  | .chunk => .closedByPeer

/-- A read has brought `bytes`, none of them if the input is over. -/
def receive (c : Config) (s : State) (bytes : List UInt8) : List Event × Turn :=
  match s.phase with
  | .draining n =>
    if bytes = [] then (if n = 0 then [] else [.discarded n], s.finish .terminator)
    else ([], .goes { s with phase := .draining (n + bytes.length) })
  | _ =>
    if bytes = [] then ([closing c.mode], s.finish .peerClosed)
    else
      (report c.mode bytes,
        .goes ({ s with bytesRead := s.bytesRead + bytes.length }.reply c.ack
          (c.mode.endsWith bytes)))

/-- Of `rest` the peer has taken `taken`. -/
def sent (s : State) (rest taken : List UInt8) (last : Bool) : Turn :=
  if taken = [] then .ends (.failed (.write (.ofKind .writeZero)))
  else .goes (s.reply (rest.drop taken.length) last)

end State

/-- What an observer sees: each call with its answer, and each event as it is logged. -/
inductive Entry where
  | read (size : Nat) (bytes : List UInt8)
  | readFailed (size : Nat)
  | write (offered : Nat) (taken : List UInt8)
  | writeFailed (offered : Nat)
  | log (event : Event)
  deriving Repr, DecidableEq

/-- What one call leads to. -/
inductive Progress where
  | goes (entries : List Entry) (state : State) (stream : Stream)
  | ends (entries : List Entry) (outcome : Outcome) (stream : Stream)
  | stuck (stream : Stream)
  deriving Repr, DecidableEq

def Turn.progress (entries : List Entry) (stream : Stream) : Turn → Progress
  | .goes state => .goes entries state stream
  | .ends outcome => .ends entries outcome stream

/-- The read call of a session that waits for input. -/
def listen (c : Config) (s : State) (stream : Stream) : Progress :=
  match stream.read (s.readSize c.mode) c.limit with
  | (.got bytes, stream) =>
    (s.receive c bytes).2.progress
      (.read (s.readSize c.mode) bytes :: (s.receive c bytes).1.map .log) stream
  | (.failed f, stream) => .ends [.readFailed (s.readSize c.mode)] (.failed (.read f)) stream
  | (.timedOut, stream) => .ends [] (.failed (.idle (c.idle.getD ⟨0⟩))) stream
  | (.stuck, stream) => .stuck stream

/-- The write call of a session that owes `rest`. An interrupted one is made once more. -/
def speak (s : State) (rest : List UInt8) (last : Bool) (stream : Stream) : Progress :=
  match stream.write rest with
  | (.took bytes, stream) =>
    (s.sent rest bytes last).progress [.write rest.length bytes] stream
  | (.failed f, stream) =>
    if f.kind = .interrupted then .goes [.writeFailed rest.length] s stream
    else .ends [.writeFailed rest.length] (.failed (.write f)) stream
  | (.stuck, stream) => .stuck stream

def step (c : Config) (s : State) (stream : Stream) : Progress :=
  match s.phase with
  | .replying rest last => speak s rest last stream
  | _ => listen c s stream

inductive Result where
  | ended (outcome : Outcome)
  /-- Still waiting when the patience ended. -/
  | stuck
  deriving Repr, DecidableEq

structure Run where
  trace : List Entry
  result : Result
  stream : Stream
  deriving Repr, DecidableEq

/-- Whether the session owes the peer something, as a number. -/
def State.owed (s : State) : Nat :=
  match s.phase with
  | .replying .. => 1
  | _ => 0

theorem State.owed_le_one (s : State) : s.owed ≤ 1 := by
  unfold owed
  split <;> simp

theorem State.owed_acked (s : State) (last : Bool) : (s.acked last).owed = 0 := by
  cases last <;> rfl

theorem Turn.progress_eq_goes {entries stream} {turn : Turn} {entries' s' stream'} :
    turn.progress entries stream = .goes entries' s' stream' ↔
      turn = .goes s' ∧ entries = entries' ∧ stream = stream' := by
  cases turn <;> simp [progress, and_comm, and_assoc]

theorem State.ne_nil_of_receive {c s bytes s'} (h : (State.receive c s bytes).2 = .goes s') :
    bytes ≠ [] := by
  rintro rfl
  unfold receive at h
  split at h <;> simp [finish] at h

/-- Each call that lets the session go on uses up input, or room for output. -/
theorem step_goes {c s stream entries s' stream'}
    (h : step c s stream = .goes entries s' stream') :
    stream'.dataLeft < stream.dataLeft ∨
      stream'.dataLeft = stream.dataLeft ∧
        stream'.writes.length + s'.owed < stream.writes.length + s.owed := by
  unfold step at h
  split at h
  · rename_i rest last hp
    have hs : s.owed = 1 := by simp [State.owed, hp]
    unfold speak at h
    split at h
    · rename_i taken stream₁ hw
      obtain ⟨hr, hl⟩ := Stream.length_writes_write hw
      rw [Turn.progress_eq_goes] at h
      obtain ⟨ht, -, rfl⟩ := h
      refine .inr ⟨by simp [Stream.dataLeft, hr], ?_⟩
      unfold State.sent at ht
      split at ht
      · simp at ht
      · simp only [Turn.goes.injEq] at ht
        subst ht
        rcases hl with hl | ⟨hl, rfl⟩
        · have := State.owed_le_one (s.reply (rest.drop taken.length) last)
          omega
        · have : (s.reply (taken.drop taken.length) last).owed = 0 := by
            simp [State.reply, State.owed_acked]
          omega
    · rename_i f stream₁ hw
      obtain ⟨hr, hl⟩ := Stream.length_writes_write_failed hw
      split at h
      · simp only [Progress.goes.injEq] at h
        obtain ⟨-, rfl, rfl⟩ := h
        exact .inr ⟨by simp [Stream.dataLeft, hr], by omega⟩
      · simp at h
    · simp at h
  · unfold listen at h
    split at h
    · rename_i bytes stream₁ hr
      have hd := Stream.dataLeft_read hr
      rw [Turn.progress_eq_goes] at h
      obtain ⟨ht, -, rfl⟩ := h
      have := List.length_pos_iff.mpr (State.ne_nil_of_receive ht)
      omega
    all_goals simp at h

def Run.prepend (entries : List Entry) (r : Run) : Run :=
  { r with trace := entries ++ r.trace }

/-- Calls until the session ends or the patience of the observer does. -/
def run (c : Config) (s : State) (stream : Stream) : Run :=
  match _h : step c s stream with
  | .goes entries s' stream' => (run c s' stream').prepend entries
  | .ends entries outcome stream' => ⟨entries, .ended outcome, stream'⟩
  | .stuck stream' => ⟨[], .stuck, stream'⟩
termination_by (stream.dataLeft, stream.writes.length + s.owed)
decreasing_by exact Prod.lex_def.mpr (step_goes _h)

/-- A whole session on a fresh stream. -/
def handle (c : Config) (stream : Stream) : Run :=
  run c {} stream

end SerialAck.Session

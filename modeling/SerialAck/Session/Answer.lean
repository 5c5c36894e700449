/-
Sessions whose input is not known beforehand. Such a session makes one call at a time, and once
that has been answered, it goes on like one on a stream that gives just this answer.
-/
import SerialAck.Session.Run

namespace SerialAck.Session

/-- The call that a session makes next. -/
inductive Wish where
  | input (size : Nat)
  | output (bytes : List UInt8)
  deriving Repr, DecidableEq

def State.wish (mode : ReadMode) (s : State) : Wish :=
  match s.phase with
  | .replying rest _ => .output rest
  | _ => .input (s.readSize mode)

/-- What became of a call. -/
inductive Answer where
  /-- No bytes stand for the end of the input. -/
  | input (bytes : List UInt8)
  | noInput (fault : Fault)
  | timeUp
  /-- So many bytes have been taken. -/
  | output (count : Nat)
  | noOutput (fault : Fault)
  deriving Repr, DecidableEq

namespace Answer

/-- Whether the next call can be answered like this. Time is up only where there is a limit. -/
def suits (c : Config) (s : State) (a : Answer) : Bool :=
  match s.wish c.mode, a with
  | .input size, .input bytes => bytes.length ≤ size
  | .input _, .noInput _ => true
  | .input _, .timeUp => c.limit.isSome
  | .output _, .output _ => true
  | .output _, .noOutput _ => true
  | _, _ => false

/-- A stream that gives the answer first, and goes on as `t`. -/
def before (t : Stream) : Answer → Stream
  | .input bytes => { t with reads := .now (.data bytes) :: t.reads }
  | .noInput f => { t with reads := .now (.failure f) :: t.reads }
  | .timeUp => { t with reads := .hang :: t.reads }
  | .output n => { t with writes := .now (.take n) :: t.writes }
  | .noOutput f => { t with writes := .now (.failure f) :: t.writes }

/-- A stream that gives the answer and has no more than the time for it. -/
def stream (c : Config) (a : Answer) : Stream :=
  a.before { left := c.limit.getD 0 }

end Answer

end SerialAck.Session

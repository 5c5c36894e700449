/-
What a session is told, what it logs, and the ways in which it ends.
-/
import SerialAck.Duration
import SerialAck.Fault
import SerialAck.Log.Record
import SerialAck.Session.Mode
import SerialAck.Text.Escape
import SerialAck.Text.Utf8

namespace SerialAck.Session

structure Config where
  mode : ReadMode
  /-- Sent after every read. -/
  ack : List UInt8
  /-- The longest that one read may wait; without it reads wait forever. -/
  idle : Option Duration := none
  deriving Repr, DecidableEq

namespace Config

/-- The mode's own acknowledgment and no limit. -/
def ofMode (mode : ReadMode) : Config :=
  { mode, ack := Utf8.ofString mode.defaultAck }

/-- The limit in ticks of the clock. -/
def limit (c : Config) : Option Nat :=
  c.idle.map Duration.milliseconds

end Config

inductive End where
  /-- The peer closed its side. -/
  | peerClosed
  /-- The terminator came, and the peer has closed since. -/
  | terminator
  deriving Repr, DecidableEq

def End.title : End → String
  | .peerClosed => "PeerClosed"
  | .terminator => "Terminator"

/-- A session that ended without a fault. Input after the terminator does not count as read. -/
structure Summary where
  ending : End
  bytesRead : Nat
  acksSent : Nat
  deriving Repr, DecidableEq

/-- The faults that end a session; none of them is one of the server. -/
inductive Error where
  | read (fault : Fault)
  | write (fault : Fault)
  | idle (limit : Duration)
  deriving Repr, DecidableEq

namespace Error

def message : Error → String
  | .read f => "read failed: " ++ f.text
  | .write f => "write failed: " ++ f.text
  | .idle d => "no data received for " ++ d.text ++ "s"

/-- The fault beneath, where there is one. -/
def cause? : Error → Option Fault
  | .read f | .write f => some f
  | .idle _ => none

end Error

inductive Event where
  /-- A byte that is not the terminator. -/
  | received (byte : UInt8)
  | terminated (byte : UInt8)
  | chunk (bytes : List UInt8)
  | nothingMore
  | closedByPeer
  /-- So many bytes came after the terminator. -/
  | discarded (count : Nat)
  deriving Repr, DecidableEq

open Log in
def Event.record : Event → Log.Record
  | .received b =>
    ⟨.info, .session, "Received", [("ch", .text (.ofList (Escape.byte b)))]⟩
  | .terminated b =>
    ⟨.info, .session, "Message received", [("ch", .text (.ofList (Escape.byte b)))]⟩
  | .chunk bytes =>
    ⟨.info, .session, "Message received",
      [("len", .number bytes.length), ("text", .text (Utf8.toString bytes))]⟩
  | .nothingMore => ⟨.info, .session, "Peer closed connection, nothing more to read", []⟩
  | .closedByPeer => ⟨.trace, .session, "Connection closed by client", []⟩
  | .discarded n =>
    ⟨.debug, .session, "Discarded input after terminator", [("discarded", .number n)]⟩

end SerialAck.Session

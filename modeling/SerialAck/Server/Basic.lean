/-
What the server logs, and what can keep it from starting.
-/
import SerialAck.Address.Basic
import SerialAck.Session.Basic

namespace SerialAck.Server

/-- The faults before the first connection is waited for; after that there are none. -/
inductive Error where
  | resolve (target : String) (fault : Fault)
  | noAddress (target : String)
  | bind (address : Address) (fault : Fault)
  deriving Repr, DecidableEq

namespace Error

def message : Error → String
  | .resolve target f => "Failed to resolve '" ++ target ++ "': " ++ f.text
  | .noAddress target => "No address found for '" ++ target ++ "'"
  | .bind address f => "Failed to bind " ++ address.toString ++ ": " ++ f.text

def cause? : Error → Option Fault
  | .resolve _ f | .bind _ f => some f
  | .noAddress _ => none

end Error

/-- Peers are told apart by how their addresses are written. -/
abbrev Peer := String

inductive Event where
  | waiting (address : String)
  | connected (peer : Peer)
  | notAccepted (fault : Fault)
  | session (event : Session.Event)
  | finished (peer : Peer) (summary : Session.Summary)
  | failed (peer : Peer) (error : Session.Error)
  | closed (peer : Peer)
  /-- Asked to stop, in the middle of a session if there is a peer. -/
  | stopping (peer : Option Peer)
  deriving Repr, DecidableEq

open Log in
def Event.record : Event → Log.Record
  | .waiting address => ⟨.info, .server, "Waiting for connection", [("address", .text address)]⟩
  | .connected peer => ⟨.info, .server, "Connected", [("peer", .text peer)]⟩
  | .notAccepted f => ⟨.warn, .server, "Failed to accept connection", [("error", .text f.text)]⟩
  | .session e => e.record
  | .finished peer s =>
    ⟨.debug, .server, "Session finished",
      [("peer", .text peer), ("end", .text s.ending.title), ("bytes_read", .number s.bytesRead),
       ("acks_sent", .number s.acksSent)]⟩
  | .failed peer e =>
    ⟨.warn, .server, "Session failed", [("peer", .text peer), ("error", .text e.message)]⟩
  | .closed peer => ⟨.info, .server, "Connection closed", [("peer", .text peer)]⟩
  | .stopping none => ⟨.info, .server, "Shutdown requested", []⟩
  | .stopping (some peer) =>
    ⟨.info, .server, "Shutdown requested, closing active connection", [("peer", .text peer)]⟩

end SerialAck.Server

/-
The server as a machine. It waits for a connection, serves it until its session is over, closes it
and waits again; only being asked to stop ends that. Each function here is one turn, and gives
what the server does in it and the state it is in afterwards. A server on sockets, which cannot
know what is to come, takes its turns by `State.see`.
-/
import SerialAck.Server.Basic
import SerialAck.Session.Answer

namespace SerialAck.Server

/-- Connections are numbered in the order in which they are accepted. -/
structure Connection where
  number : Nat
  peer : Peer
  deriving Repr, DecidableEq

inductive Act where
  /-- Begins to wait for a connection. -/
  | awaits
  /-- Looks whether it is asked to stop. -/
  | looks (asked : Bool)
  | accepts (c : Connection)
  | misses (fault : Fault)
  /-- Makes a call of the session, and logs what the session logs. -/
  | calls (c : Connection) (entries : List Session.Entry)
  | finishes (c : Connection) (outcome : Session.Outcome)
  /-- Closes a connection, `served` if its session has finished. -/
  | closes (c : Connection) (served : Bool)
  | leaves (during : Option Connection)
  | closesListener
  deriving Repr, DecidableEq

/-- What an act adds to the log of a server that listens on `address`. -/
def Act.events (address : String) : Act → List Event
  | .awaits => [.waiting address]
  | .accepts c => [.connected c.peer]
  | .misses f => [.notAccepted f]
  | .calls _ entries =>
    entries.filterMap fun
      | .log e => some (.session e)
      | _ => none
  | .finishes c (.finished summary) => [.finished c.peer summary]
  | .finishes c (.failed e) => [.failed c.peer e]
  | .closes c true => [.closed c.peer]
  | .leaves c => [.stopping (c.map Connection.peer)]
  | .looks _ | .closes _ false | .closesListener => []

/-- What a server that waits for something gets to see first. -/
inductive Seen where
  | asked
  | arrived (peer : Peer)
  | missed (fault : Fault)
  | answered (answer : Session.Answer)
  deriving Repr, DecidableEq

inductive Phase where
  | waiting
  | serving (c : Connection) (session : Session.State) (stream : Session.Stream)
  | stopped
  deriving Repr, DecidableEq

structure State where
  phase : Phase := .waiting
  /-- How many connections have been accepted. -/
  accepted : Nat := 0
  deriving Repr, DecidableEq

namespace State

/-- The first thing a server does. -/
def opening : List Act :=
  [.awaits]

/-- A connection has come. -/
def accept (s : State) (peer : Peer) (stream : Session.Stream) : List Act × State :=
  ([.accepts ⟨s.accepted, peer⟩], ⟨.serving ⟨s.accepted, peer⟩ {} stream, s.accepted + 1⟩)

/-- A connection could not be accepted, and the server waits for the next one. -/
def miss (s : State) (f : Fault) : List Act × State :=
  ([.misses f, .awaits], s)

/-- The next call of the session, if there is one that comes to an end. The outcome of the session
makes no difference to what follows. -/
def advance (config : Session.Config) (s : State) : Option (List Act × State) :=
  match s.phase with
  | .serving c session stream =>
    match Session.step config session stream with
    | .goes entries session stream =>
      some ([.calls c entries], { s with phase := .serving c session stream })
    | .ends entries outcome _ =>
      some ([.calls c entries, .finishes c outcome, .closes c true, .awaits],
        { s with phase := .waiting })
    | .stuck _ => none
  | _ => none

/-- The server sees that it is asked to stop, and leaves nothing open. -/
def stop (s : State) : List Act × State :=
  match s.phase with
  | .waiting => ([.looks true, .leaves none, .closesListener], { s with phase := .stopped })
  | .serving c .. =>
    ([.looks true, .leaves (some c), .closes c false, .closesListener],
      { s with phase := .stopped })
  | .stopped => ([], s)

/-- The turn that follows from what is seen, if it is something that the server waits for. -/
def see (config : Session.Config) (s : State) : Seen → Option (List Act × State)
  | .asked => some s.stop
  | .arrived peer =>
    match s.phase with
    | .waiting => some (s.accept peer {})
    | _ => none
  | .missed f =>
    match s.phase with
    | .waiting => some (s.miss f)
    | _ => none
  | .answered a =>
    match s.phase with
    | .serving c session _ =>
      if a.suits config session then
        { s with phase := .serving c session (a.stream config) }.advance config
      else none
    | _ => none

end State

end SerialAck.Server

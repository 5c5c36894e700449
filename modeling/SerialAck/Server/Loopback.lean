/-
Clients on the server's own machine, and what they see of it. After each thing that a client does
the server goes as far as it can; time passes only while a client waits to receive.
-/
import SerialAck.Server.Machine
import SerialAck.Server.Network

namespace SerialAck.Server.Loopback

inductive Action where
  | connect (name : Peer)
  | send (name : Peer) (bytes : List UInt8)
  /-- Ends the sending side. -/
  | halfClose (name : Peer)
  /-- Waits for so many bytes. -/
  | receive (name : Peer) (count : Nat)
  /-- Waits for the server to close. -/
  | receiveAll (name : Peer)
  | close (name : Peer)
  | reset (name : Peer)
  /-- Asks the server to stop, and waits until it has. -/
  | stop
  deriving Repr, DecidableEq

/-- Why nothing more was received. -/
inductive Halt where
  | eof
  | fault (fault : Fault)
  /-- The client ran out of patience. -/
  | nothing
  deriving Repr, DecidableEq

inductive Answer where
  | done
  | failed (fault : Fault)
  | received (bytes : List UInt8) (halt : Option Halt)
  | noClient (name : Peer)
  deriving Repr, DecidableEq

/-- How far the sending side of a client is. -/
inductive Side where
  | open | ended | torn
  deriving Repr, DecidableEq

structure Client where
  name : Peer
  /-- Sent, and not yet on its way to a session. -/
  unread : List UInt8 := []
  side : Side := .open
  /-- Come from the server, and not yet received. -/
  inbox : List UInt8 := []
  /-- The connection has been taken from the queue. -/
  accepted : Bool := false
  /-- How the server's side ended, once it has. -/
  halt : Option Halt := none
  deriving Repr, DecidableEq

structure Scene where
  server : State := {}
  /-- In the order in which they connected. -/
  clients : List Client := []
  acts : List Act := State.opening
  deriving Repr, DecidableEq

def connectionReset : Fault := .ofNumber 104
def connectionRefused : Fault := .ofNumber 111
def brokenPipe : Fault := .ofNumber 32

namespace Client

/-- What a session reads of what is there by now. -/
def script (c : Client) : Session.Script Session.Arrival :=
  (if c.unread = [] then [] else [.now (.data c.unread)]) ++
    match c.side with
    | .open => [.hang]
    | .ended => [.now .eof]
    | .torn => [.now (.failure connectionReset)]

/-- What becomes of a client by one act of the server. -/
def feel (act : Act) (c : Client) : Client :=
  match act with
  | .calls k entries =>
    if k.peer = c.name then
      { c with inbox := c.inbox ++ (entries.map fun
          | .write _ taken => taken
          | _ => []).flatten }
    else c
  | .closes k _ => if k.peer = c.name then { c with halt := some .eof } else c
  | .closesListener =>
    if c.accepted then c else { c with halt := some (.fault connectionReset) }
  | _ => c

end Client

namespace Scene

/-- The server has done `acts`. -/
def note (s : Scene) (acts : List Act) (server : State) : Scene :=
  { server, clients := s.clients.map fun c => acts.foldl (fun c act => c.feel act) c,
    acts := s.acts ++ acts }

def client? (s : Scene) (name : Peer) : Option Client :=
  s.clients.find? (·.name = name)

def update (s : Scene) (name : Peer) (f : Client → Client) : Scene :=
  { s with clients := s.clients.map fun c => if c.name = name then f c else c }

/-- A waiting server takes the first connection in its queue. -/
def takeNext (s : Scene) : Scene :=
  match s.server.phase with
  | .waiting =>
    match s.clients.find? fun c => !c.accepted && c.halt.isNone with
    | some c =>
      let (acts, server) := s.server.accept c.name { reads := c.script }
      (s.update c.name fun c => { c with accepted := true, unread := [] }).note acts server
    | none => s
  | _ => s

/-- What has come since is there for the session too. -/
def deliver (s : Scene) : Scene :=
  match s.server.phase with
  | .serving k session stream =>
    match s.client? k.peer with
    | some c =>
      let kept := (Session.Script.data stream.reads) ++ c.unread
      let reads := { c with unread := kept }.script
      { (s.update k.peer fun c => { c with unread := [] }) with
        server := { s.server with phase := .serving k session { stream with reads } } }
    | none => s
  | _ => s

/-- As many turns as can be taken, up to `turns`. -/
def settle (config : Session.Config) : Nat → Scene → Scene
  | 0, s => s
  | turns + 1, s =>
    let s := (s.takeNext).deliver
    match s.server.advance config with
    | some (acts, server) => settle config turns (s.note acts server)
    | none => s

/-- More turns than there can be: one for each byte that is still unread or unanswered. -/
def turns (config : Session.Config) (s : Scene) : Nat :=
  let queued := (s.clients.flatMap fun c => c.unread).length
  let held := match s.server.phase with
    | .serving _ _ stream => stream.dataLeft
    | _ => 0
  (queued + held + 2 * s.clients.length + 2) * (config.ack.length + 2)

/-- Goes on until the server waits for something. -/
def rest (config : Session.Config) (s : Scene) : Scene :=
  s.settle { config with idle := none } (s.turns config)

/-- How long a client waits, in milliseconds. -/
def clientPatience : Nat := 3000

/-- A client waits, and the server's limit passes meanwhile if it is the shorter one. -/
def wait (config : Session.Config) (s : Scene) : Scene :=
  let s := s.rest config
  match config.limit with
  | some limit =>
    if limit < clientPatience then
      match s.server.advance config with
      | some (acts, server) => (s.note acts server).rest config
      | none => s
    else s
  | none => s

/-- Waits until `enough`, over as many limits as there are sessions. -/
def waitUntil (config : Session.Config) (enough : Scene → Bool) : Nat → Scene → Scene
  | 0, s => s
  | sessions + 1, s => if enough s then s else waitUntil config enough sessions (s.wait config)

def hasCome (name : Peer) (count : Nat) (s : Scene) : Bool :=
  (s.client? name).any fun c => count ≤ c.inbox.length || c.halt.isSome

def hasClosed (name : Peer) (s : Scene) : Bool :=
  (s.client? name).any fun c => c.halt.isSome

def stop (s : Scene) : Scene :=
  s.note s.server.stop.1 s.server.stop.2

/-- For an action of a client that has to be there. -/
def withClient (s : Scene) (name : Peer) (f : Client → Answer × Scene) : Answer × Scene :=
  match s.client? name with
  | some c => f c
  | none => (.noClient name, s)

/-- Takes the client off the scene; the server finds out by what is left behind. -/
def depart (config : Session.Config) (s : Scene) (name : Peer) (side : Side) : Answer × Scene :=
  (.done, (s.update name fun c => { c with side }).rest config)

def act (net : Network) (config : Session.Config) (s : Scene) : Action → Answer × Scene
  | .connect name =>
    match net.unreachable, s.server.phase with
    | some f, _ => (.failed f, s)
    | none, .stopped => (.failed connectionRefused, s)
    | none, _ =>
      let others := s.clients.filter (·.name ≠ name)
      (.done, rest config { s with clients := others ++ [{ name }] })
  | .send name bytes =>
    s.withClient name fun c =>
      if c.halt.isSome then (.failed brokenPipe, s)
      else
        (.done, (s.update name fun c => { c with unread := c.unread ++ bytes }).rest config)
  | .halfClose name =>
    s.withClient name fun _ =>
      (.done, (s.update name fun c => { c with side := .ended }).rest config)
  | .receive name count =>
    s.withClient name fun _ =>
      let s := s.waitUntil config (hasCome name count) (s.clients.length + 1)
      s.withClient name fun c =>
        let halt := if count ≤ c.inbox.length then none else some (c.halt.getD .nothing)
        (.received (c.inbox.take count) halt,
          s.update name fun c => { c with inbox := c.inbox.drop count })
  | .receiveAll name =>
    s.withClient name fun _ =>
      let s := s.waitUntil config (hasClosed name) (s.clients.length + 1)
      s.withClient name fun c =>
        (.received c.inbox (some (c.halt.getD .nothing)),
          s.update name fun c => { c with inbox := [] })
  | .close name =>
    s.withClient name fun c => s.depart config name (if c.inbox = [] then .ended else .torn)
  | .reset name => s.withClient name fun _ => s.depart config name .torn
  | .stop => (.done, (s.rest config).stop)

/-- Actions one after the other, and what each of them led to. -/
def acting (net : Network) (config : Session.Config) (s : Scene) :
    List Action → List Answer × Scene
  | [] => ([], s)
  | a :: as =>
    let (answer, s) := s.act net config a
    let (answers, s) := s.acting net config as
    (answer :: answers, s)

end Scene

/-- A server from its start until it has stopped, with what clients do meanwhile. At the end it is
asked to stop if it was not. -/
def play (net : Network) (config : Session.Config) (actions : List Action) :
    List Answer × List Act :=
  let (answers, s) := Scene.acting net config {} actions
  (answers, s.stop.acts)

end SerialAck.Server.Loopback

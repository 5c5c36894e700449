/-
The command. It gives the program what is around it: arguments, variables, one file, sockets and
signals. What all of it means is decided elsewhere.
-/
import SerialAck.Program
import SerialAck.Server.Machine
import Std.Async.DNS
import Std.Async.Select
import Std.Async.Signal
import Std.Async.TCP
import Std.Async.Timer
import Std.Sync.CancellationToken

namespace SerialAck.Main

open Std.Async
open Std.Async.TCP (Socket.Client Socket.Server)
open Std.Net (IPAddr SocketAddress)

/-! ## Faults -/

/-- The number of a system error, where it has one. -/
def number? : IO.Error → Option UInt32
  | .alreadyExists _ n _ | .otherError n _ | .resourceBusy n _ | .resourceVanished n _
  | .unsupportedOperation n _ | .hardwareFault n _ | .unsatisfiedConstraints n _
  | .illegalOperation n _ | .protocolError n _ | .timeExpired n _ | .interrupted _ n _
  | .noFileOrDirectory _ n _ | .invalidArgument _ n _ | .permissionDenied _ n _
  | .resourceExhausted _ n _ | .inappropriateType _ n _ | .noSuchThing _ n _ => some n
  | .unexpectedEof | .userError _ => none

/-- Numbers of errors come with either sign. -/
def faultOf (e : IO.Error) : Fault :=
  match number? e with
  | some n => .ofNumber n.toInt32.toInt.natAbs
  | none => ⟨.other, toString e⟩

/-! ## Addresses -/

def toSocket : Address → SocketAddress
  | .short o port => .v4 ⟨⟨#v[o.a, o.b, o.c, o.d]⟩, port⟩
  | .long gs _ port => .v6 ⟨⟨.ofFn fun i => gs.1.getD i.val 0⟩, port⟩

def ofIp (ip : IPAddr) (port : UInt16) : Address :=
  match ip with
  | .v4 a => .short ⟨a.octets[0], a.octets[1], a.octets[2], a.octets[3]⟩ port
  | .v6 a => .long ⟨a.segments.toList, by simp⟩ 0 port

def ofSocket : SocketAddress → Address
  | .v4 a => ofIp (.v4 a.addr) a.port
  | .v6 a => ofIp (.v6 a.addr) a.port

/-! ## The log -/

/-- A record with the time before it. -/
def logRecord (filter : Log.Filter) (r : Log.Record) : IO Unit := do
  if filter.shows r then
    let time := Std.Time.DateTime.ofTimestampWithZone (← Std.Time.Timestamp.now) .UTC
    let stamp := time.format "uuuu-MM-dd'T'HH:mm:ss.SSSSSS'Z'"
    let indent := if r.level.name.length < 5 then "  " else " "
    IO.println (stamp ++ indent ++ r.line)
    (← IO.getStdout).flush

/-! ## Serving -/

/-- What a running server has at hand. -/
structure Context where
  config : Session.Config
  address : String
  filter : Log.Filter
  listener : Socket.Server
  /-- Cancelled once the program is asked to stop. -/
  asked : Std.CancellationToken

def Context.log (c : Context) (e : Server.Event) : IO Unit :=
  logRecord c.filter e.record

/-- Comes once `call` is done, well or not. Where something else comes first, `cancel` ends it. -/
def doneSelector {α : Type} (call : AsyncTask α) (cancel : IO Unit) :
    Selector (Except IO.Error α) where
  tryFn := do return if ← IO.hasFinished call then some call.get else none
  registerFn waiter := discard <| IO.mapTask (t := call) fun result =>
    waiter.race (pure ()) fun promise => promise.resolve (.ok result)
  unregisterFn := cancel

/-- What is seen first: that the program is asked to stop, or what one of the sources brings. -/
def first {α : Type} (c : Context) (asked : α) (sources : Array (Selectable α)) : Async α :=
  Selectable.one (sources.push (.case c.asked.selector fun _ => pure asked))

/-- Timers count no further than this. -/
def longestTimer : Nat := UInt64.size - 1

def hear (c : Context) (client : Socket.Client) (size : Nat) : Async Server.Seen := do
  let receiving ← async (client.recv? size.toUInt64)
  let input := .case (doneSelector receiving client.native.cancelRecv) fun
    | .ok data => pure (.answered (.input ((data.map ByteArray.toList).getD [])))
    | .error e => pure (.answered (.noInput (faultOf e)))
  let timer? ← c.config.limit.mapM fun ms => Selector.sleep (.ofNat (min ms longestTimer))
  let limit := timer?.toArray.map fun timer => .case timer fun _ => pure (.answered .timeUp)
  first c .asked (#[input] ++ limit)

/-- Output goes out whole or not at all. -/
def say (c : Context) (client : Socket.Client) (bytes : List UInt8) : Async Server.Seen := do
  let sending ← async (client.send ⟨bytes.toArray⟩)
  first c .asked #[.case (doneSelector sending (pure ())) fun
    | .ok _ => pure (.answered (.output bytes.length))
    | .error e => pure (.answered (.noOutput (faultOf e)))]

def watch (c : Context) : Async (Server.Seen × Option Socket.Client) := do
  let accepting ← async c.listener.accept
  let arrival := doneSelector accepting c.listener.native.cancelAccept
  try
    first c (.asked, none) #[.case arrival fun accepted => do
      let client ← MonadExcept.ofExcept accepted
      return (.arrived (ofSocket (← client.getPeerName)).toString, some client)]
  catch e => pure (.missed (faultOf e), none)

/-- Waits for what the server waits for, over `client` if there is one. -/
def look (c : Context) (client? : Option Socket.Client) (s : Server.State) :
    Async (Server.Seen × Option Socket.Client) := do
  match s.phase, client? with
  | .serving _ session _, some client =>
    match session.wish c.config.mode with
    | .input size => return (← hear c client size, client?)
    | .output bytes => return (← say c client bytes, client?)
  | _, _ => watch c

/-- Does what there is to do for an act, and logs it. The listener closes with the command. -/
def perform (c : Context) (client? : Option Socket.Client) (act : Server.Act) : Async Unit := do
  match act, client? with
  | .closes _ true, some client => try client.shutdown catch _ => pure ()
  -- Output that the peer does not take would hold this up.
  | .closes _ false, some client => discard <| async client.shutdown
  | _, _ => pure ()
  for e in act.events c.address do c.log e

/-- Turn after turn, until the server has stopped. -/
partial def serve (c : Context) (client? : Option Socket.Client) (s : Server.State) :
    Async Unit := do
  unless s.phase = .stopped do
    let (seen, client?) ← look c client? s
    match s.see c.config seen with
    | some (acts, s) =>
      for act in acts do perform c client? act
      serve c (client?.filter fun _ => s.phase ≠ .waiting) s
    -- Something was seen that nobody waits for, and `look` does not look for such things.
    | none => serve c client? s

/-! ## Starting -/

/-- The addresses that a name stands for. -/
def lookup (host : String) (port : UInt16) : IO (Except Fault (List Address)) := do
  try
    let ips ← (DNS.getAddrInfo host (toString port.toNat)).block
    return .ok (ips.toList.map fun ip => ofIp ip port)
  catch e => return .error (faultOf e)

/-- How many connections may wait to be accepted. -/
def backlog : UInt32 := 128

def listen (a : Address) : IO (Except Fault (Socket.Server × Address)) := do
  try
    let listener ← Socket.Server.mk
    listener.bind (toSocket a)
    listener.listen backlog
    return .ok (listener, ofSocket (← listener.getSockName))
  catch e => return .error (faultOf e)

/-- The network as it shows itself to a program that means to listen on one host. -/
def survey (host : String) (port : UInt16) : IO (Server.Network × Option Socket.Server) := do
  let known ← match Address.ofHost? host port with
    | some a => pure (.ok [a])
    | none => if host.toList.contains '\x00' then pure (.ok []) else lookup host port
  let net : Server.Network :=
    { lookup := fun _ _ => known, refuses := fun _ => none, freePort := 0 }
  match net.resolve host port with
  | .ok (a :: _) =>
    match ← listen a with
    | .ok (listener, bound) => return ({ net with freePort := bound.port }, some listener)
    | .error f => return ({ net with refuses := fun _ => some f }, none)
  | _ => return (net, none)

/-- A token that is cancelled by the first signal that asks the program to stop. -/
def signals : IO Std.CancellationToken := do
  let token ← Std.CancellationToken.new
  for signal in [Signal.sigterm, .sigquit, .sigint] do
    let waiter ← Signal.Waiter.mk signal true
    let arrival ← waiter.wait
    discard <| arrival.mapIO fun _ => token.cancel
  return token

def start (config : Settings.Config) (filter : Log.Filter) : IO (Option Program.Failure) := do
  let (net, listener?) ← survey config.host config.port
  let (events, bound) := Program.begin net config
  for e in events do logRecord filter e.record
  match bound, listener? with
  | .ok address, some listener =>
    let context : Context :=
      ⟨config.session, address.toString, filter, listener, ← signals⟩
    (do
      for act in Server.State.opening do perform context none act
      serve context none {}).block
    logRecord filter Program.Event.stopped.record
    return none
  | .error e, _ => return some (.server e)
  | .ok _, none => return none

def failureText : Program.Failure → String
  | .usage _ => "error: the command line cannot be understood\n\n" ++
      "For more information, try '--help'."
  | .unreadable path f => "Error: " ++ Settings.unreadableText path f
  | .unfit path d => "Error: " ++ Settings.unfitText path ++ d.message?.getD "no valid document"
  | .filter => "Error: the log filter breaks a character in two"
  | .server e => "Error: " ++ e.message

/-- The variables that give settings, as they are now. -/
def environment : IO (Settings.Setting → Option (List UInt8)) := do
  let values ← Settings.Setting.all.mapM fun s =>
    return (s, (← IO.getEnv s.variableName).map Utf8.ofString)
  return fun s => (values.lookup s).join

/-- The file that the settings name, if they name one. -/
def fileBody (words : List (List UInt8)) (env : Settings.Environment) :
    IO (Except Fault (List UInt8)) := do
  match (Settings.Choices.gather words env).toOption.bind (·.config) with
  | none => return .ok []
  | some path =>
    try return .ok (← IO.FS.readBinFile (Utf8.toString path)).toList
    catch e => return .error (faultOf e)

def run (args : List String) : IO UInt32 := do
  let words := args.map Utf8.ofString
  let env ← environment
  let body ← fileBody words env
  match Program.launch words env (← IO.getEnv Log.Filter.variableName) fun _ => body with
  | .answer text =>
    IO.print (if ← (← IO.getStdout).isTty then text else Terminal.plain text)
    return 0
  | .fail failure => report failure
  | .start config filter =>
    match ← start config filter with
    | none => return 0
    | some failure => report failure
where
  report (failure : Program.Failure) : IO UInt32 := do
    IO.eprintln (failureText failure)
    return failure.exitCode.toUInt32

end SerialAck.Main

def main (args : List String) : IO UInt32 :=
  SerialAck.Main.run args

/-
The program around the server: it loads its settings, begins its log, starts the server, and ends
with it. Nothing is logged before the settings are loaded, and a request is answered with nothing
but its text.
-/
import SerialAck.Log.Filter
import SerialAck.Server.Network
import SerialAck.Settings.Load

namespace SerialAck.Program

open Settings (Config Environment LoadError Mistake ReadFile Request)

inductive Event where
  | starting (config : Config)
  | notStarted (error : Server.Error)
  | listening (address : String)
  | stopped
  deriving Repr, DecidableEq

def idleText : Option Duration → String
  | none => "None"
  | some d => "Some(" ++ d.exactText ++ ")"

open Log in
def Event.record : Event → Log.Record
  | .starting c =>
    ⟨.info, .program, "Starting ack-server",
      [("host", .text c.host), ("port", .number c.port.toNat), ("mode", .text c.mode.title),
       ("ack", .text c.ack), ("idle_timeout", .text (idleText c.idle))]⟩
  | .notStarted e => ⟨.error, .program, "Failed to start server", [("error", .text e.message)]⟩
  | .listening address => ⟨.info, .program, "Listening", [("address", .text address)]⟩
  | .stopped => ⟨.info, .program, "Server stopped", []⟩

/-- Why the program ends without having served. -/
inductive Failure where
  | usage (mistake : Mistake)
  | unreadable (path : List UInt8) (fault : Fault)
  | unfit (path : List UInt8) (defect : Settings.Defect)
  /-- A log filter breaks a character in two. -/
  | filter
  | server (error : Server.Error)
  deriving Repr

/-- A wrong command line and a program that breaks off are told apart from all else. -/
def Failure.exitCode : Failure → Nat
  | .usage _ => 2
  | .filter => 101
  | _ => 1

/-- What the program does once it has looked at its surroundings. -/
inductive Launch where
  | answer (text : String)
  | fail (failure : Failure)
  | start (config : Config) (filter : Log.Filter)

def launch (words : List (List UInt8)) (env : Environment) (logFilter? : Option String)
    (read : ReadFile) : Launch :=
  match Config.load words env read with
  | .ok config =>
    match Log.Filter.choose? logFilter? config.level with
    | some filter => .start config filter
    | none => .fail .filter
  | .error (.stop (.request r)) => .answer (r.answer env)
  | .error (.stop (.mistake m)) => .fail (.usage m)
  | .error (.unreadable path f) => .fail (.unreadable path f)
  | .error (.unfit path d) => .fail (.unfit path d)

/-- The server's address, and what is logged until it is known. -/
def begin (net : Server.Network) (c : Config) : List Event × Except Server.Error Address :=
  match net.bind c.host c.port with
  | .ok a => ([.starting c, .listening a.toString], .ok a)
  | .error e => ([.starting c, .notStarted e], .error e)

/-- The lines of the records that a filter shows. -/
def lines (filter : Log.Filter) (records : List Log.Record) : List String :=
  (records.filter filter.shows).map Log.Record.line

end SerialAck.Program

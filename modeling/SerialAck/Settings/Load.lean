/-
How settings are put together. An argument counts before the environment, that before the file,
and the file before what is built in. The acknowledgment that nobody gave is the one of the mode
that was decided on.
-/
import SerialAck.Session.Basic
import SerialAck.Settings.File
import SerialAck.Settings.Help

namespace SerialAck.Settings

/-- Everything the server is run with. -/
structure Config where
  host : String
  port : UInt16
  mode : ReadMode
  ack : String
  /-- The longest that one read may wait. -/
  idle : Option Duration
  level : String
  deriving Repr, DecidableEq

namespace Config

/-- Zero seconds stand for no limit. -/
def limit (seconds : UInt64) : Option Duration :=
  if seconds = 0 then none else some (.ofSeconds seconds.toNat)

def merge (cs : Choices) (f : File) : Config :=
  let mode := cs.mode.getD f.session.mode
  { mode
    host := cs.host.getD f.server.host
    port := cs.port.getD f.server.port
    ack := (cs.ack.or f.session.ack).getD mode.defaultAck
    idle := limit (cs.idle.getD f.server.idle)
    level := cs.level.getD f.logging.level }

def default : Config :=
  merge {} {}

/-- What each session is told. -/
def session (c : Config) : Session.Config :=
  ⟨c.mode, Utf8.ofString c.ack, c.idle⟩

end Config

namespace Choices

/-- What a variable gives, unless an argument was there first. -/
def addVariable (env : Environment) (cs : Choices) (s : Setting) : Except Mistake Choices :=
  if cs.has s then .ok cs
  else
    match env s with
    | none => .ok cs
    | some value => cs.give s value

def addEnvironment (env : Environment) (cs : Choices) : Except Mistake Choices :=
  Setting.all.foldlM (addVariable env) cs

/-- What arguments and variables give together. -/
def gather (words : List (List UInt8)) (env : Environment) : Except Stop Choices := do
  Line.lift ((← ofWords words).addEnvironment env)

end Choices

inductive LoadError where
  | stop (stop : Stop)
  | unreadable (path : List UInt8) (fault : Fault)
  | unfit (path : List UInt8) (defect : Defect)
  deriving Repr

def unreadableText (path : List UInt8) (fault : Fault) : String :=
  "Failed to read config file '" ++ Utf8.toString path ++ "': " ++ fault.text

/-- What comes before the account of a defect. -/
def unfitText (path : List UInt8) : String :=
  "Failed to parse config file '" ++ Utf8.toString path ++ "': "

/-- How the bytes in files are told. -/
abbrev ReadFile := List UInt8 → Except Fault (List UInt8)

namespace File

def ofBytes (path body : List UInt8) : Except LoadError File :=
  match Utf8.toString? body with
  | none => .error (.unreadable path .notUtf8)
  | some text =>
    match parse text with
    | .ok f => .ok f
    | .error d => .error (.unfit path d)

/-- The file that a path leads to. Without a path everything is as built in. -/
def load (read : ReadFile) : Option (List UInt8) → Except LoadError File
  | none => .ok {}
  | some path =>
    match read path with
    | .ok body => ofBytes path body
    | .error fault => .error (.unreadable path fault)

end File

namespace Config

/-- Arguments and variables are all read before the file is. -/
def load (words : List (List UInt8)) (env : Environment) (read : ReadFile) :
    Except LoadError Config :=
  match Choices.gather words env with
  | .error stop => .error (.stop stop)
  | .ok cs => (File.load read cs.config).map (merge cs)

end Config

end SerialAck.Settings

/-
The settings that the command line and the environment can give, what they are called there, and
how a value is read for each. Values come as bytes, since neither place promises text.
-/
import SerialAck.Number.Numeral
import SerialAck.Session.Mode
import SerialAck.Text.Utf8

namespace SerialAck.Settings

inductive Setting where
  | config | host | port | mode | ack | idle | level
  deriving Repr, DecidableEq

namespace Setting

def all : List Setting :=
  [.config, .host, .port, .mode, .ack, .idle, .level]

def long : Setting → String
  | .config => "config"
  | .host => "host"
  | .port => "port"
  | .mode => "mode"
  | .ack => "ack"
  | .idle => "idle-timeout"
  | .level => "log-level"

def short? : Setting → Option Char
  | .config => some 'c'
  | .host => some 'H'
  | .port => some 'p'
  | .mode => some 'm'
  | .ack => some 'a'
  | .idle | .level => none

/-- What stands for the value in help texts. -/
def placeholder : Setting → String
  | .config => "CONFIG"
  | .host => "HOST"
  | .port => "PORT"
  | .mode => "MODE"
  | .ack => "ACK"
  | .idle => "IDLE_TIMEOUT"
  | .level => "LOG_LEVEL"

/-- The environment variable. -/
def variableName (s : Setting) : String :=
  "ACK_SERVER_" ++ s.placeholder

def title (s : Setting) : String :=
  "--" ++ s.long ++ " <" ++ s.placeholder ++ ">"

/-- The only values there are, if they can be listed. -/
def possible : Setting → List String
  | .mode => ReadMode.all.map ReadMode.name
  | _ => []

end Setting

/-- A setting with its value. -/
inductive Choice where
  | config (path : List UInt8)
  | host (name : String)
  | port (number : UInt16)
  | mode (mode : ReadMode)
  | ack (text : String)
  | idle (seconds : UInt64)
  | level (filter : String)
  deriving Repr, DecidableEq

/-- What is wrong with a number on the command line. -/
inductive NumberFault where
  | unreadable (fault : Numeral.Fault)
  | noPort (n : Int)
  deriving Repr, DecidableEq

def NumberFault.text : NumberFault → String
  | .unreadable f => f.text
  | .noPort n => Numeral.intText n ++ " is not in 0..=65535"

inductive ValueFault where
  /-- Empty where it may not be, or none of the possible values. -/
  | invalid (value : String)
  | number (value : String) (fault : NumberFault)
  /-- Bytes that are no text. -/
  | notText
  deriving Repr, DecidableEq

namespace Choice

def setting : Choice → Setting
  | .config _ => .config
  | .host _ => .host
  | .port _ => .port
  | .mode _ => .mode
  | .ack _ => .ack
  | .idle _ => .idle
  | .level _ => .level

abbrev Reading (α : Type) := Except ValueFault α

def readPath : List UInt8 → Reading (List UInt8)
  | [] => .error (.invalid "")
  | path => .ok path

def readText (value : List UInt8) : Reading String :=
  match Utf8.toString? value with
  | some s => .ok s
  | none => .error .notText

def portOfInt (n : Int) : Except NumberFault UInt16 :=
  if 0 ≤ n ∧ n ≤ 65535 then .ok (.ofNat n.toNat) else .error (.noPort n)

/-- A number of 64 bits with a sign, and only then one of a port. -/
def parsePort (s : String) : Except NumberFault UInt16 :=
  match Numeral.readSigned s.toList with
  | .ok n => portOfInt n
  | .error f => .error (.unreadable f)

def parseSeconds (s : String) : Except NumberFault UInt64 :=
  match Numeral.readUnsigned s.toList with
  | .ok n => .ok (.ofNat n)
  | .error f => .error (.unreadable f)

def readNumber {α : Type} (parse : String → Except NumberFault α) (value : List UInt8) :
    Reading α := do
  let s ← readText value
  match parse s with
  | .ok n => .ok n
  | .error f => .error (.number s f)

/-- Bytes that are no text name no mode. -/
def readMode (value : List UInt8) : Reading ReadMode :=
  match (Utf8.toString? value).bind ReadMode.ofName? with
  | some m => .ok m
  | none => .error (.invalid (Utf8.toString value))

def read (s : Setting) (value : List UInt8) : Reading Choice :=
  match s with
  | .config => (readPath value).map .config
  | .host => (readText value).map .host
  | .port => (readNumber parsePort value).map .port
  | .mode => (readMode value).map .mode
  | .ack => (readText value).map .ack
  | .idle => (readNumber parseSeconds value).map .idle
  | .level => (readText value).map .level

end Choice

/-- The settings that were given, each at most once. -/
structure Choices where
  config : Option (List UInt8) := none
  host : Option String := none
  port : Option UInt16 := none
  mode : Option ReadMode := none
  ack : Option String := none
  idle : Option UInt64 := none
  level : Option String := none
  deriving Repr, DecidableEq

namespace Choices

def has (cs : Choices) : Setting → Bool
  | .config => cs.config.isSome
  | .host => cs.host.isSome
  | .port => cs.port.isSome
  | .mode => cs.mode.isSome
  | .ack => cs.ack.isSome
  | .idle => cs.idle.isSome
  | .level => cs.level.isSome

def add (cs : Choices) : Choice → Choices
  | .config path => { cs with config := some path }
  | .host name => { cs with host := some name }
  | .port number => { cs with port := some number }
  | .mode mode => { cs with mode := some mode }
  | .ack text => { cs with ack := some text }
  | .idle seconds => { cs with idle := some seconds }
  | .level filter => { cs with level := some filter }

end Choices

end SerialAck.Settings

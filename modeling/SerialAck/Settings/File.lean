/-
Settings from a configuration file. Each section has its defaults, and its entries change them one
by one in the order in which they stand, up to the first that does not fit. Names that are no
settings are passed over, whatever their values.
-/
import SerialAck.Document.Statement
import SerialAck.Session.Mode
import SerialAck.Settings.Defect

namespace SerialAck.Settings

open Document (Value)

structure ServerSection where
  host : String := "127.0.0.1"
  port : UInt16 := 65432
  /-- Seconds; 0 stands for no limit. -/
  idle : UInt64 := 0
  deriving Repr, DecidableEq

structure SessionSection where
  mode : ReadMode := .default
  ack : Option String := none
  deriving Repr, DecidableEq

structure LoggingSection where
  level : String := "info"
  deriving Repr, DecidableEq

structure File where
  server : ServerSection := {}
  session : SessionSection := {}
  logging : LoggingSection := {}
  deriving Repr, DecidableEq

abbrev Fits (α : Type) := Except Defect α

def string : Value → Fits String
  | .string s => .ok s
  | v => .error (.wrongType v .string)

/-- A whole number from 0 to `limit`. -/
def natural (limit : Nat) (wanted : Wanted) : Value → Fits Nat
  | .integer n => if 0 ≤ n ∧ n ≤ limit then .ok n.toNat else .error (.outOfRange n wanted)
  | v => .error (.wrongType v wanted)

def port (v : Value) : Fits UInt16 :=
  (natural 65535 .port v).map UInt16.ofNat

def seconds (v : Value) : Fits UInt64 :=
  (natural (UInt64.size - 1) .seconds v).map UInt64.ofNat

def namedMode (name : String) : Fits ReadMode :=
  match ReadMode.ofName? name with
  | some mode => .ok mode
  | none => .error (.unknownMode name)

def isEmpty : Value → Bool
  | .table _ es => es.isEmpty
  | .array vs => vs.isEmpty
  | .tables ts => ts.isEmpty
  | _ => false

/-- The name of a mode, or a table with that name for its only key and nothing beneath it. -/
def mode : Value → Fits ReadMode
  | .string s => namedMode s
  | .table _ [(name, v)] => do
    let mode ← namedMode name
    if isEmpty v then .ok mode else .error .noMode
  | _ => .error .noMode

namespace ServerSection

def put (s : ServerSection) (entry : String × Value) : Fits ServerSection :=
  if entry.1 = "host" then (string entry.2).map fun host => { s with host }
  else if entry.1 = "port" then (Settings.port entry.2).map fun port => { s with port }
  else if entry.1 = "idle_timeout" then (seconds entry.2).map fun idle => { s with idle }
  else .ok s

def names : List String := ["host", "port", "idle_timeout"]

end ServerSection

namespace SessionSection

def put (s : SessionSection) (entry : String × Value) : Fits SessionSection :=
  if entry.1 = "mode" then (Settings.mode entry.2).map fun mode => { s with mode }
  else if entry.1 = "ack" then (string entry.2).map fun ack => { s with ack := some ack }
  else .ok s

def names : List String := ["mode", "ack"]

end SessionSection

namespace LoggingSection

def put (s : LoggingSection) (entry : String × Value) : Fits LoggingSection :=
  if entry.1 = "level" then (string entry.2).map fun level => { s with level }
  else .ok s

def names : List String := ["level"]

end LoggingSection

/-- A section with all of its entries, by the names of its settings or in their order. No setting
is in a moment, though it counts as a table. -/
def fill {α : Type} (put : α → String × Value → Fits α) (names : List String) (wanted : Wanted)
    (defaults : α) : Value → Fits α
  | .table _ es => es.foldlM put defaults
  | .array vs => (names.zip vs).foldlM put defaults
  | .tables ts => (names.zip (ts.map (.table .header))).foldlM put defaults
  | .moment => .ok defaults
  | v => .error (.wrongType v wanted)

/-- How many elements a section has that is written as a sequence. -/
def sequenceLength? : Value → Option Nat
  | .array vs => some vs.length
  | .tables ts => some ts.length
  | _ => none

def server : Value → Fits ServerSection :=
  fill ServerSection.put ServerSection.names .server {}

/-- A sequence has to go on up to the acknowledgment. -/
def session (v : Value) : Fits SessionSection := do
  let s ← fill SessionSection.put SessionSection.names .session {} v
  if (sequenceLength? v).any (· < 2) then .error .noAck else .ok s

def logging : Value → Fits LoggingSection :=
  fill LoggingSection.put LoggingSection.names .logging {}

namespace File

def put (f : File) (entry : String × Value) : Fits File :=
  if entry.1 = "server" then (Settings.server entry.2).map fun server => { f with server }
  else if entry.1 = "session" then (Settings.session entry.2).map fun session => { f with session }
  else if entry.1 = "logging" then (Settings.logging entry.2).map fun logging => { f with logging }
  else .ok f

def ofEntries (es : Document.Entries) : Fits File :=
  es.foldlM put {}

/-- Defects of the document come before those of its values. -/
def parse (text : String) : Fits File :=
  match Document.parse? text with
  | some es => ofEntries es
  | none => .error .malformed

end File

end SerialAck.Settings

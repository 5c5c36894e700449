/-
Log records: how severe, from which part of the program, what happened, and the fields that say
more, in the order in which they are written.
-/
import SerialAck.Number.Numeral

namespace SerialAck.Log

inductive Level where
  | error | warn | info | debug | trace
  deriving Repr, DecidableEq

namespace Level

def name : Level → String
  | .error => "ERROR"
  | .warn => "WARN"
  | .info => "INFO"
  | .debug => "DEBUG"
  | .trace => "TRACE"

/-- How much there is to read of a log that goes down to this level. -/
def verbosity : Level → Nat
  | .error => 1
  | .warn => 2
  | .info => 3
  | .debug => 4
  | .trace => 5

end Level

inductive Field where
  | number (n : Nat)
  | text (s : String)
  deriving Repr, DecidableEq

def Field.show : Field → String
  | .number n => Numeral.text n
  | .text s => s

/-- The parts of the program that log, by the paths that filters name them by. -/
inductive Source where
  | program | server | session
  deriving Repr, DecidableEq

def Source.path : Source → String
  | .program => "ack_server"
  | .server => "ack_server::server"
  | .session => "ack_server::session::handler"

structure Record where
  level : Level
  source : Source
  message : String
  fields : List (String × Field) := []
  deriving Repr, DecidableEq

/-- The record as a line of the log, without the time. -/
def Record.line (r : Record) : String :=
  r.level.name ++ " " ++ r.message ++
    .join (r.fields.map fun f => " " ++ f.1 ++ "=" ++ f.2.show)

end SerialAck.Log

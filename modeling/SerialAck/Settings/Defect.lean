/-
What can be wrong with a configuration file once it is read: it is no document, or a value in it
does not fit the setting it is for.
-/
import SerialAck.Document.Basic
import SerialAck.Number.Decimal
import SerialAck.Text.Quoted

namespace SerialAck.Settings

open Document (Value RealNumber)

/-- What a place in the file is for. -/
inductive Wanted where
  | port | seconds | string | server | session | logging
  deriving Repr, DecidableEq

def Wanted.text : Wanted → String
  | .port => "u16"
  | .seconds => "u64"
  | .string => "a string"
  | .server => "struct ServerConfig"
  | .session => "struct SessionSection"
  | .logging => "struct LoggingConfig"

inductive Defect where
  | malformed
  | wrongType (found : Value) (wanted : Wanted)
  | outOfRange (found : Int) (wanted : Wanted)
  | unknownMode (name : String)
  /-- A table for a mode has other than one entry, or its entry has content. -/
  | noMode
  /-- A session section written as a sequence ends before the acknowledgment. -/
  | noAck
  deriving Repr

def tick (s : String) : String :=
  "\x60" ++ s ++ "\x60"

/-- A real number always has a point. -/
def realText : RealNumber → String
  | .nan => "NaN"
  | .infinite negative => if negative then "-inf" else "inf"
  | .finite negative x =>
    (if negative then "-" else "") ++ Decimal.text x ++
      (if (Decimal.shortest x).isWhole then ".0" else "")

/-- How messages name a value. -/
def found : Value → String
  | .string s => "string " ++ Quoted.text s
  | .integer n => "integer " ++ tick (Numeral.intText n)
  | .real x => "floating point " ++ tick (realText x)
  | .boolean b => "boolean " ++ tick (if b then "true" else "false")
  | .array _ | .tables _ => "sequence"
  | .table .. | .moment => "map"

/-- Defects of values have a message; it depends on nothing else in the file. -/
def Defect.message? : Defect → Option String
  | .malformed | .noMode => none
  | .wrongType v wanted => some ("invalid type: " ++ found v ++ ", expected " ++ wanted.text)
  | .outOfRange n wanted =>
    some ("invalid value: integer " ++ tick (Numeral.intText n) ++ ", expected " ++ wanted.text)
  | .unknownMode name =>
    some ("unknown variant " ++ tick name ++ ", expected " ++ tick "byte" ++ " or " ++ tick "chunk")
  | .noAck => some ("invalid length 1, expected " ++ Wanted.session.text ++ " with 2 elements")

end SerialAck.Settings

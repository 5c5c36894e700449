/-
Configuration documents as trees of tables. A table remembers how it came to be written, since
that decides what may still be added to it: a table in braces is complete, one that a header
opened takes no second header, and one that only dotted keys made takes no header at all.
-/
namespace SerialAck.Document

inductive RealNumber where
  | finite (negative : Bool) (magnitude : Rat)
  | infinite (negative : Bool)
  | nan
  deriving Repr, DecidableEq

inductive Form where
  /-- In braces. -/
  | inline
  /-- By a header of its own. -/
  | header
  /-- By the header of a table within it. -/
  | implied
  /-- By dotted keys. -/
  | dotted
  deriving Repr, DecidableEq

inductive Value where
  | string (s : String)
  | integer (n : Int)
  | real (x : RealNumber)
  | boolean (b : Bool)
  /-- A date, a time, or both. -/
  | moment
  | array (elements : List Value)
  | table (form : Form) (entries : List (String × Value))
  /-- Tables that stand under one repeated header. -/
  | tables (elements : List (List (String × Value)))
  deriving Repr, Inhabited

/-- The content of a table, in the order in which it was written. -/
abbrev Entries := List (String × Value)

namespace Entries

def get? (es : Entries) (key : String) : Option Value :=
  List.lookup key es

/-- Puts a new value in the place of the old one. -/
def replace (es : Entries) (key : String) (value : Value) : Entries :=
  es.map fun e => if e.1 == key then (key, value) else e

def erase (es : Entries) (key : String) : Entries :=
  es.filter fun e => !(e.1 == key)

def add (es : Entries) (key : String) (value : Value) : Entries :=
  es ++ [(key, value)]

/-- Gives a value to a dotted key. Tables on the way come into being; those that are there must
not have a header, nor the last of them be implied by one. -/
def assign (value : Value) : List String → Entries → Option Entries
  | [], _ => none
  | [key], es => if (es.get? key).isSome then none else some (es.add key value)
  | key :: next :: path, es =>
    match es.get? key with
    | none => (assign value (next :: path) []).map fun t => es.add key (.table .dotted t)
    | some (.table form t) =>
      if form = .dotted ∨ form = .implied ∧ path ≠ [] then
        (assign value (next :: path) t).map fun t => es.replace key (.table form t)
      else none
    | some (.tables ts) =>
      if path ≠ [] then
        ts.getLast?.bind fun t =>
          (assign value (next :: path) t).map fun t => es.replace key (.tables (ts.dropLast ++ [t]))
      else none
    | some _ => none

/-- Changes the table that the path of a header leads to. Tables on the way come into being, and
of repeated tables the last one counts. -/
def descend (change : Entries → Option Entries) : List String → Entries → Option Entries
  | [], es => change es
  | key :: path, es =>
    match es.get? key with
    | none => (descend change path []).map fun t => es.add key (.table .implied t)
    | some (.table form t) =>
      if form = .inline then none
      else (descend change path t).map fun t => es.replace key (.table form t)
    | some (.tables ts) =>
      ts.getLast?.bind fun t =>
        (descend change path t).map fun t => es.replace key (.tables (ts.dropLast ++ [t]))
    | some _ => none

/-- A header for `key`. A table that was only implied so far moves to the end. -/
def «open» (key : String) (es : Entries) : Option Entries :=
  match es.get? key with
  | none => some (es.add key (.table .header []))
  | some (.table .implied t) => some ((es.erase key).add key (.table .header t))
  | some _ => none

/-- A repeated header for `key`. -/
def openNext (key : String) (es : Entries) : Option Entries :=
  match es.get? key with
  | none => some (es.add key (.tables [[]]))
  | some (.tables ts) => some (es.replace key (.tables (ts ++ [[]])))
  | some _ => none

/-- The content of a table in braces. -/
def ofPairs (pairs : List (List String × Value)) : Option Entries :=
  pairs.foldlM (fun es pair => assign pair.2 pair.1 es) []

end Entries

inductive Statement where
  | header (path : List String)
  | nextHeader (path : List String)
  | assign (path : List String) (value : Value)
  deriving Repr, Inhabited

/-- A document up to some statement, and the table that the next keys belong to. -/
structure Draft where
  root : Entries := []
  current : List String := []

namespace Draft

def openAt (change : String → Entries → Option Entries) (path : List String) (d : Draft) :
    Option Draft :=
  path.getLast?.bind fun key =>
    (d.root.descend (change key) path.dropLast).map fun root => ⟨root, path⟩

def add (d : Draft) : Statement → Option Draft
  | .header path => d.openAt Entries.open path
  | .nextHeader path => d.openAt Entries.openNext path
  | .assign path value =>
    (d.root.descend (Entries.assign value path) d.current).map fun root => { d with root }

end Draft

/-- The tree that statements describe, if no two of them contradict each other. -/
def ofStatements? (statements : List Statement) : Option Entries :=
  (statements.foldlM Draft.add {}).map (·.root)

end SerialAck.Document

/-
The files within reach of a working directory, and the way along a path. What lies outside the
working directory is a directory in which nothing is found.
-/
import SerialAck.Fault

namespace SerialAck.Settings

/-- Files with their content, and directories that need not hold any. A path to either is a list
of names; the directories on the way are there too. -/
abbrev Files := List (List (List UInt8) × Option (List UInt8))

namespace Files

inductive Node where
  | file (body : List UInt8)
  | directory
  deriving Repr, DecidableEq

def node? (fs : Files) (path : List (List UInt8)) : Option Node :=
  match fs.lookup path with
  | some (some body) => some (.file body)
  | some none => some .directory
  | none =>
    if path = [] ∨ fs.any (fun f => path.isPrefixOf f.1) then some .directory else none

/-- A place on the way, if it is not outside the working directory. -/
abbrev Place := Option (List (List UInt8))

def isDirectory (fs : Files) : Place → Bool
  | none => true
  | some path => fs.node? path == some .directory

def notFound : Fault := .ofNumber 2
def notDirectory : Fault := .ofNumber 20
def isADirectory : Fault := .ofNumber 21
def nameTooLong : Fault := .ofNumber 36

/-- From a place to the one that a single name leads to. -/
def enter (fs : Files) (place : Place) (name : List UInt8) : Except Fault Place :=
  if !fs.isDirectory place then .error notDirectory
  else if name = [] ∨ name = [46] then .ok place
  else
    match place with
    | none =>
      if name = [46, 46] then .ok none
      else if 255 < name.length then .error nameTooLong
      else .error notFound
    | some path =>
      if name = [46, 46] then .ok (if path = [] then none else some path.dropLast)
      else if 255 < name.length then .error nameTooLong
      else if (fs.node? (path ++ [name])).isSome then .ok (some (path ++ [name]))
      else .error notFound

/-- The names on a path, with an empty one beside every needless slash. -/
def names : List UInt8 → List (List UInt8)
  | [] => [[]]
  | b :: r =>
    if b = 47 then [] :: names r
    else
      match names r with
      | [] => [[b]]
      | n :: ns => (b :: n) :: ns

/-- What is in the file that a path leads to. -/
def read (fs : Files) (path : List UInt8) : Except Fault (List UInt8) := do
  if path.contains 0 then .error .nulInName
  if 4096 ≤ path.length then .error nameTooLong
  if path = [] then .error notFound
  let start : Place := if path.head? = some 47 then none else some []
  let place ← (names path).foldlM fs.enter start
  match place.bind fs.node? with
  | some (.file body) => return body
  | _ => .error isADirectory

end Files

end SerialAck.Settings

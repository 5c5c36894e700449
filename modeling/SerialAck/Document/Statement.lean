/-
The text of documents: headers and keys with values, each on a line of its own. `parse?` puts
together the tree that they describe. Loops count down from the length of what is left to read,
and every turn takes something off it.
-/
import SerialAck.Document.Scalar

namespace SerialAck.Document

def isBare (c : Char) : Bool :=
  c.isAlphanum || c == '_' || c == '-'

/-- One part of a key, bare or in quotes. -/
def keyPart : Reader String := fun cs =>
  match cs.takeWhile isBare with
  | [] => (Quoted.line cs).map fun (s, r) => (.ofList s, r)
  | bare => some (.ofList bare, cs.dropWhile isBare)

/-- Parts with points between them and blanks around them. -/
def keyParts : Nat → Reader (List String)
  | 0, _ => none
  | fuel + 1, cs =>
    match keyPart (skipBlanks cs) with
    | none => none
    | some (part, r) =>
      match skipBlanks r with
      | '.' :: r => (keyParts fuel r).map fun (parts, r) => (part :: parts, r)
      | r => some ([part], r)

/-- How deep brackets and keys may go. -/
def depthLimit : Nat := 79

def key : Reader (List String) := fun cs =>
  (keyParts cs.length cs).filter fun (parts, _) => parts.length ≤ depthLimit

/-- A key and its value, which `item` reads. -/
def pair (item : Reader Value) : Reader (List String × Value) := fun cs =>
  match key cs with
  | some (path, '=' :: r) => (item (skipBlanks r)).map fun (v, r) => ((path, v), r)
  | _ => none

/-- Behind the bracket that opens an array, or behind a comma in it. -/
def elements (item : Reader Value) : Nat → Reader (List Value)
  | 0, _ => none
  | fuel + 1, cs =>
    match gap false cs with
    | none => none
    | some (']' :: r) => some ([], r)
    | some cs =>
      match item cs with
      | none => none
      | some (v, r) =>
        match gap false r with
        | some (',' :: r) => (elements item fuel r).map fun (vs, r) => (v :: vs, r)
        | some (']' :: r) => some ([v], r)
        | _ => none

/-- Pairs with commas between them, up to a brace. -/
def members (item : Reader Value) : Nat → Reader (List (List String × Value))
  | 0, _ => none
  | fuel + 1, cs =>
    match pair item cs with
    | none => none
    | some (p, r) =>
      match skipBlanks r with
      | ',' :: r => (members item fuel r).map fun (ps, r) => (p :: ps, r)
      | '\x7d' :: r => some ([p], r)
      | _ => none

/-- Behind the brace that opens a table. -/
def braces (item : Reader Value) : Reader Value := fun cs =>
  match skipBlanks cs with
  | '\x7d' :: r => some (.table .inline [], r)
  | r =>
    match members item r.length r with
    | none => none
    | some (pairs, r) => (Entries.ofPairs pairs).map fun es => (.table .inline es, r)

/-- A value with at most so many brackets around its parts. -/
def value : Nat → Reader Value
  | _, [] => none
  | depth, c :: r =>
    if c = '"' ∨ c = Quoted.singleQuote then
      (Quoted.string (c :: r)).map fun (s, r) => (.string (.ofList s), r)
    else if c = '[' then
      match depth with
      | 0 => none
      | depth + 1 => (elements (value depth) (r.length + 1) r).map fun (vs, r) => (.array vs, r)
    else if c = '\x7b' then
      match depth with
      | 0 => none
      | depth + 1 => braces (value depth) r
    else Scalar.scalar (c :: r)

def statement : Reader Statement
  | '[' :: '[' :: r =>
    match key r with
    | some (path, ']' :: ']' :: r) => some (.nextHeader path, r)
    | _ => none
  | '[' :: r =>
    match key r with
    | some (path, ']' :: r) => some (.header path, r)
    | _ => none
  | cs => (pair (value depthLimit) cs).map fun ((path, v), r) => (.assign path v, r)

/-- Statements, blank lines and comments up to the end of the text. -/
def statements : Nat → List Char → Option (List Statement)
  | 0, _ => none
  | fuel + 1, cs =>
    match skipBlanks cs with
    | [] => some []
    | cs =>
      match lineEnd? cs with
      | some r => statements fuel r
      | none =>
        match statement cs with
        | none => none
        | some (s, r) =>
          match lineEnd? r with
          | none => none
          | some r => (statements fuel r).map (s :: ·)

/-- A mark of the byte order may stand before the text. -/
def skipMark : List Char → List Char
  | '\uFEFF' :: r => r
  | r => r

def parse? (text : String) : Option Entries :=
  let cs := skipMark text.toList
  (statements (cs.length + 1) cs).bind ofStatements?

end SerialAck.Document

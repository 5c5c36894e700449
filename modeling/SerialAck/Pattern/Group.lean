/-
Groups: alternatives of parts in a row, in parentheses. A group may have a name, which no other has,
or flags of its own. Whole patterns are groups without the parentheses.
-/
import SerialAck.Pattern.Bracket
import SerialAck.Text.Alphanumeric

namespace SerialAck.Pattern

/-- What an opening parenthesis begins. -/
inductive Opening where
  /-- No group: flags for what follows. -/
  | flags (flags : Flags)
  | group (flags : Flags) (name : Option (List Char))
  deriving Repr, DecidableEq

def isName : List Char → Bool
  | [] => false
  | c :: cs =>
    (c = '_' || Alphanumeric.isLetter c) &&
      cs.all fun c => c ∈ ['_', '.', '[', ']'] || Alphanumeric.mem c

def named (f : Flags) : Reader Opening := fun cs =>
  match cs.dropWhile (· ≠ '>') with
  | [] => none
  | _ :: r =>
    let name := cs.takeWhile (· ≠ '>')
    if isName name then some (.group f name, r) else none

/-- Flags each once, with at most one minus sign and that not at the end. -/
def isFlagWord (cs : List Char) : Bool :=
  cs.all (· ∈ ['i', 'm', 's', 'U', 'u', 'R', 'x', '-']) && decide cs.Nodup &&
    cs.getLast? != some '-'

def flagged (f : Flags) : Reader Opening := fun cs =>
  let isEnd (c : Char) : Bool := c = ':' || c = ')'
  let word := cs.takeWhile (!isEnd ·)
  if isFlagWord word then
    match cs.dropWhile (!isEnd ·) with
    | ':' :: r => some (.group (f.set word) none, r)
    | ')' :: r => if word = [] then none else some (.flags (f.set word), r)
    | _ => none
  else none

def opening (f : Flags) : Reader Opening := fun cs =>
  match f.skip cs with
  | '?' :: 'P' :: '<' :: r | '?' :: '<' :: r => named f r
  | '?' :: r => flagged f r
  | r => some (.group f none, r)

/-- A group as far as it is read. -/
structure Group where
  /-- How deep the parts of the last alternative nest, the last part first. -/
  parts : List Nat := []
  /-- How deep the alternatives before it nest. -/
  alternatives : List Nat := []
  /-- Whether what was read last may be repeated. -/
  isRepeatable : Bool := false
  /-- The names of the groups in it. -/
  names : List (List Char) := []
  deriving Repr, DecidableEq

namespace Group

def nesting (g : Group) : Nat :=
  joined (joined g.parts :: g.alternatives)

/-- With one more part. -/
def push (g : Group) (n : Nat) : Group :=
  { g with parts := n :: g.parts, isRepeatable := true }

/-- Setting flags counts as a part, but there is nothing to repeat. -/
def pushFlags (g : Group) : Group :=
  { g.push 0 with isRepeatable := false }

def pushGroup (g inner : Group) (name : Option (List Char)) : Group :=
  { g.push (inner.nesting + 1) with names := name.toList ++ inner.names ++ g.names }

def alternative (g : Group) : Group :=
  { g with alternatives := joined g.parts :: g.alternatives, parts := [], isRepeatable := false }

/-- Repeats the last part. -/
def repeated? (g : Group) : Option Group :=
  match g.parts with
  | [] => none
  | n :: ns => if g.isRepeatable then some { g with parts := (n + 1) :: ns } else none

end Group

/-- A question mark right behind a sign of repetition belongs to it. -/
def dropQuestion : List Char → List Char
  | '?' :: r => r
  | r => r

/-- The rest of a group, up to its closing parenthesis or the end of the text. Numbers of
repetitions cannot be given. -/
def body : Nat → Flags → Group → Reader Group
  | 0, _, _, _ => none
  | fuel + 1, f, g, cs =>
    match f.skip cs with
    | [] => some (g, [])
    | ')' :: r => some (g, ')' :: r)
    | '|' :: r => body fuel f g.alternative r
    | '(' :: r => do
      match ← opening f r with
      | (.flags f, r) => body fuel f g.pushFlags r
      | (.group inner name, r) =>
        match ← body fuel inner {} r with
        | (h, ')' :: r) => body fuel f (g.pushGroup h name) r
        | _ => none
    | '[' :: r => do
      let (n, r) ← bracket f r
      body fuel f (g.push n) r
    | '?' :: r | '*' :: r | '+' :: r => do
      let g ← g.repeated?
      body fuel f g (dropQuestion r)
    | '\x7b' :: _ => none
    | c :: r => do
      let (_, r) ← single f (c :: r)
      body fuel f (g.push 0) r

/-- Whether a text is a pattern. -/
def isPattern (s : String) : Bool :=
  match body (s.length + 1) {} {} s.toList with
  | some (g, []) => decide (g.nesting ≤ limit) && decide g.names.Nodup
  | _ => false

end SerialAck.Pattern

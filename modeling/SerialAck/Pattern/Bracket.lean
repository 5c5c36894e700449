/-
Sets of characters in brackets: single characters, ranges, named classes and other sets, all that
stand side by side taken together, and pairs of signs between sets that combine them. Sets may be
empty where they are combined.
-/
import SerialAck.Pattern.Element

namespace SerialAck.Pattern

def classNames : List String :=
  ["alnum", "alpha", "ascii", "blank", "cntrl", "digit", "graph", "lower", "print", "punct",
   "space", "upper", "word", "xdigit"]

/-- A class by its name between colons, behind an opening bracket: whether its complement is
meant. -/
def classNamed : Reader Bool
  | ':' :: r =>
    let isComplement := r.head? = some '^'
    let r := if isComplement then r.tail else r
    match r.dropWhile (· ≠ ':') with
    | ':' :: ']' :: rest =>
      if .ofList (r.takeWhile (· ≠ ':')) ∈ classNames then some (isComplement, rest) else none
    | _ => none
  | _ => none

/-- A single one in brackets. Places are not in sets. -/
def member (f : Flags) : Reader (Option Char) := fun cs =>
  match element f cs with
  | some (.char c _, r) => if f.permits c true then some (some c, r) else none
  | some (.kind, r) => some (none, r)
  | _ => none

/-- A single one, or a range with its ends in order. A minus sign is one itself before a closing
bracket or another minus sign. -/
def range (f : Flags) : Reader Unit := fun cs => do
  let (first, r) ← member f cs
  match f.skip r with
  | '-' :: r =>
    if f.peek r = some ']' ∨ f.peek r = some '-' then some ((), '-' :: r)
    else
      match first, ← member f (f.skip r) with
      | some a, (some b, r) => if a ≤ b then some ((), r) else none
      | _, _ => none
  | r => some ((), r)

/-- Minus signs at the front, each one itself. -/
def minuses (f : Flags) : Nat → List Char → Nat × List Char
  | 0, cs => (0, cs)
  | fuel + 1, cs =>
    match cs with
    | '-' :: r =>
      let (n, r) := minuses f fuel (f.skip r)
      (n + 1, r)
    | r => (0, r)

/-- How many characters a set begins with that would mean something else further on: minus signs,
or a closing bracket. -/
def leading (f : Flags) (cs : List Char) : Nat × List Char :=
  match minuses f cs.length cs with
  | (0, ']' :: r) => (1, r)
  | found => found

/-- The beginning of a set behind the opening bracket. The complement of a set is in wide
characters. -/
def opened (f : Flags) : Reader Nat := fun cs =>
  let (isComplement, r) := match f.skip cs with
    | '^' :: r => (true, f.skip r)
    | r => (false, r)
  let (count, r) := leading f r
  if (isComplement ∧ !f.wide) ∨ (count ≠ 0 ∧ !f.permits '-' true) then none else some (count, r)

/-- How deep a set nests with what stands before it, if it is combined with that. -/
def combined (before : Option Nat) (parts : List Nat) : Nat :=
  match before with
  | none => joined parts
  | some n => max n (joined parts) + 1

/-- The rest of a set: how deep it nests. `before` is what it is combined with. -/
def set (f : Flags) : Nat → Option Nat → List Nat → Reader Nat
  | 0, _, _, _ => none
  | fuel + 1, before, parts, cs =>
    match f.skip cs with
    | [] => none
    | ']' :: r => some (combined before parts, r)
    | '[' :: r =>
      match classNamed r with
      | some (isComplement, r) =>
        if f.permits 'a' true ∧ (isComplement → f.wide) then set f fuel before (0 :: parts) r
        else none
      | none => do
        let (count, r) ← opened f r
        let (n, r) ← set f fuel none (.replicate count 0) r
        set f fuel before ((n + 1) :: parts) r
    | c :: r =>
      if c ∈ ['&', '-', '~'] ∧ r.head? = some c then
        set f fuel (some (combined before parts)) [] r.tail
      else do
        let (_, r) ← range f (c :: r)
        set f fuel before (0 :: parts) r

/-- A set behind its opening bracket. -/
def bracket (f : Flags) : Reader Nat := fun cs => do
  let (count, r) ← opened f cs
  let (n, r) ← set f (cs.length + 1) none (.replicate count 0) r
  return (n + 1, r)

end SerialAck.Pattern

/-
Patterns for texts: their flags, and how deep they nest. Flags hold from where they are set to the
end of the group around them. No tables of scripts are at hand, so characters of all scripts can be
told apart but neither compared without regard to case nor counted as letters or digits; and what
a pattern matches is whole characters, so where only bytes are looked at it is in ASCII.
-/
import SerialAck.Text.Blank

namespace SerialAck.Pattern

structure Flags where
  /-- Case makes no difference. -/
  caseless : Bool := false
  /-- Characters are looked at, of whatever script, and not bytes. -/
  wide : Bool := true
  /-- Blanks and comments may stand between the parts. -/
  loose : Bool := false
  deriving Repr, DecidableEq

/-- Without blanks and comments at the front. A comment goes to the end of its line. -/
def dropBlanks (inComment : Bool) : List Char → List Char
  | [] => []
  | c :: r =>
    if inComment then dropBlanks (c ≠ '\n') r
    else if c = '#' then dropBlanks true r
    else if Blank.mem c then dropBlanks false r
    else c :: r

namespace Flags

/-- Goes on to the next part. -/
def skip (f : Flags) (cs : List Char) : List Char :=
  if f.loose then dropBlanks false cs else cs

/-- The next character that counts. A sharp sign is passed over, and nothing else of a comment. -/
def peek (f : Flags) (cs : List Char) : Option Char :=
  if f.loose then
    match cs.dropWhile Blank.mem with
    | '#' :: r => (r.dropWhile Blank.mem).head?
    | r => r.head?
  else cs.head?

/-- Sets the flags before the minus sign and clears those behind it. -/
def set (f : Flags) (word : List Char) : Flags :=
  let value (c : Char) (old : Bool) : Bool :=
    if c ∈ word.takeWhile (· ≠ '-') then true else if c ∈ word then false else old
  { caseless := value 'i' f.caseless
    wide := value 'u' f.wide
    loose := value 'x' f.loose }

end Flags

/-- How deep a whole nests whose parts nest as deep as given. A single part is not put together. -/
def joined : List Nat → Nat
  | [] => 0
  | [n] => n
  | ns => ns.foldl max 0 + 1

/-- No pattern may nest deeper. -/
def limit : Nat := 250

end SerialAck.Pattern

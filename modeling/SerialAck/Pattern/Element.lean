/-
The elements of patterns: characters, some of them written with a backslash, kinds of characters,
and places between characters.
-/
import SerialAck.Number.Hex
import SerialAck.Pattern.Basic
import SerialAck.Text.Reader

namespace SerialAck.Pattern

inductive Element where
  /-- A character. Two hexadecimal digits may stand for a byte. -/
  | char (c : Char) (isByte : Bool)
  /-- Any digit, blank or letter. -/
  | kind
  /-- An end of the text, or of a word in it. -/
  | place
  deriving Repr, DecidableEq

/-- Whether a character may be named by itself, or in brackets. -/
def Flags.permits (f : Flags) (c : Char) (isBytewise : Bool) : Bool :=
  if f.wide then !f.caseless else c.toNat < 128 || !isBytewise

/-- So many hexadecimal digits. -/
def hexDigits (f : Flags) : Nat → Reader (List Char)
  | 0, cs => some ([], cs)
  | n + 1, cs =>
    match f.skip cs with
    | [] => none
    | c :: r =>
      if Hex.isDigitOf 16 c then (hexDigits f n r).map fun (ds, r) => (c :: ds, r) else none

/-- A character by its number. -/
def numbered (f : Flags) (count : Nat) : Reader Element := fun cs => do
  let (ds, r) ← hexDigits f count cs
  let n := Hex.number 16 ds
  if n.isValidChar then some (.char (.ofNat n) (count == 2), r) else none

/-- What a backslash makes of the characters behind it. It takes nothing away from a character that
is neither a letter nor a digit. -/
def escaped (f : Flags) : Reader Element
  | [] => none
  | c :: r =>
    let char (c : Char) := some (Element.char c false, r)
    match c with
    | 'x' => numbered f 2 r
    | 'u' => numbered f 4 r
    | 'U' => numbered f 8 r
    | 'd' | 's' | 'w' => if f.wide then none else some (.kind, r)
    | 'b' | 'B' | '<' | '>' => if f.wide then none else some (.place, r)
    | 'A' | 'z' => some (.place, r)
    | 'a' => char '\x07'
    | 't' => char '\t'
    | 'n' => char '\n'
    | 'v' => char '\x0b'
    | 'f' => char '\x0c'
    | 'r' => char '\r'
    | _ => if c.isAlphanum ∨ 128 ≤ c.toNat then none else char c

def element (f : Flags) : Reader Element
  | [] => none
  | '\\' :: r => escaped f r
  | c :: r => some (.char c false, r)

/-- An element by itself. The point is for any character, and the signs for the ends of lines are
places. -/
def single (f : Flags) : Reader Unit
  | [] => none
  | '.' :: r => if f.wide then some ((), r) else none
  | '^' :: r | '$' :: r => some ((), r)
  | cs =>
    match element f cs with
    | none => none
    | some (.char c isByte, r) => if f.permits c isByte then some ((), r) else none
    | some (_, r) => some ((), r)

end SerialAck.Pattern

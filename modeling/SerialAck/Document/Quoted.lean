/-
Strings in documents. Double quotes admit escapes, single quotes do not, and either may be
tripled for strings of several lines. `quote` writes a string that `basic` reads back.
-/
import SerialAck.Document.Reader
import SerialAck.Number.Hex

namespace SerialAck.Document.Quoted

/-- A code point of exactly `count` digits. -/
def codePoint (count : Nat) : Reader Char := fun cs =>
  let ds := cs.take count
  if ds.length = count ∧ ds.all (Hex.isDigitOf 16) ∧ (Hex.number 16 ds).isValidChar then
    some (.ofNat (Hex.number 16 ds), cs.drop count)
  else none

/-- The escapes of one letter. -/
def short? : Char → Option Char
  | 'b' => some '\x08'
  | 't' => some '\t'
  | 'n' => some '\n'
  | 'f' => some '\x0c'
  | 'r' => some '\r'
  | '"' => some '"'
  | '\\' => some '\\'
  | _ => none

/-- What stands behind a backslash. -/
def escape : Reader Char
  | [] => none
  | c :: r =>
    if c = 'u' then codePoint 4 r
    else if c = 'U' then codePoint 8 r
    else (short? c).map fun x => (x, r)

theorem length_codePoint {count : Nat} {cs r : List Char} {x : Char}
    (h : codePoint count cs = some (x, r)) : r.length ≤ cs.length := by
  simp only [codePoint] at h
  split at h
  · simp only [Option.some.injEq, Prod.mk.injEq] at h
    obtain ⟨-, rfl⟩ := h
    simp
  · simp at h

theorem length_escape {cs r : List Char} {x : Char} (h : escape cs = some (x, r)) :
    r.length < cs.length := by
  cases cs with
  | nil => simp [escape] at h
  | cons c cs =>
    rw [escape] at h
    split at h
    · exact Nat.lt_succ_of_le (length_codePoint h)
    · split at h
      · exact Nat.lt_succ_of_le (length_codePoint h)
      · simp only [Option.map_eq_some_iff, Prod.mk.injEq] at h
        obtain ⟨_, _, _, rfl⟩ := h
        simp

def push (c : Char) : Option (List Char × List Char) → Option (List Char × List Char)
  | some (cs, r) => some (c :: cs, r)
  | none => none

/-- Behind a double quote, up to the next one. -/
def basic (cs : List Char) : Option (List Char × List Char) :=
  match cs with
  | [] => none
  | c :: r =>
    if c = '"' then some ([], r)
    else if c = '\\' then
      match _h : escape r with
      | some (x, r') => push x (basic r')
      | none => none
    else if isText c then push c (basic r)
    else none
termination_by cs.length
decreasing_by
  · have := length_escape _h
    simp only [List.length_cons]
    omega
  · simp only [List.length_cons]
    omega

def singleQuote : Char := .ofNat 39

/-- Behind a single quote, up to the next one. -/
def literal : Reader (List Char)
  | [] => none
  | c :: r =>
    if c = singleQuote then some ([], r)
    else if isText c then push c (literal r)
    else none

/-- Behind the first three of the quotes that close a string: up to two more belong to it. -/
def close (mark : Char) (cs : List Char) : List Char × List Char :=
  ((cs.take 2).takeWhile (· = mark), cs.drop ((cs.take 2).takeWhile (· = mark)).length)

/-- Nothing more than blanks up to a line end. -/
def endsLine (cs : List Char) : Bool :=
  match skipBlanks cs with
  | '\n' :: _ => true
  | '\r' :: '\n' :: _ => true
  | _ => false

/-- Past blanks and line ends. -/
def skipLines : List Char → List Char
  | [] => []
  | '\r' :: '\n' :: r => skipLines r
  | c :: r => if isBlank c || c == '\n' then skipLines r else c :: r

theorem length_skipLines (cs : List Char) : (skipLines cs).length ≤ cs.length := by
  fun_induction skipLines cs <;> simp <;> omega

/-- Behind three double quotes, up to the next three. A backslash at the end of a line hides all
blanks and line ends up to the next text. -/
def basicLines (cs : List Char) : Option (List Char × List Char) :=
  match cs with
  | [] => none
  | '"' :: '"' :: '"' :: r => some (close '"' r)
  | '\r' :: '\n' :: r => push '\n' (basicLines r)
  | c :: r =>
    if c = '\\' then
      if endsLine r then basicLines (skipLines r)
      else
        match _h : escape r with
        | some (x, r') => push x (basicLines r')
        | none => none
    else if c = '\n' ∨ isText c then push c (basicLines r)
    else none
termination_by cs.length
decreasing_by
  · simp only [List.length_cons]
    omega
  · have := length_skipLines r
    simp only [List.length_cons]
    omega
  · have := length_escape _h
    simp only [List.length_cons]
    omega
  · simp only [List.length_cons]
    omega

/-- Behind three single quotes, up to the next three. -/
def literalLines : Reader (List Char)
  | [] => none
  | '\r' :: '\n' :: r => push '\n' (literalLines r)
  | c :: r =>
    if c = singleQuote ∧ r.take 2 = [singleQuote, singleQuote] then
      some (close singleQuote (r.drop 2))
    else if c = '\n' ∨ isText c then push c (literalLines r)
    else none

/-- The line end right behind three opening quotes is not part of the string. -/
def dropNewline : List Char → List Char
  | '\n' :: r => r
  | '\r' :: '\n' :: r => r
  | r => r

/-- A string on one line, of either kind. -/
def line : Reader (List Char)
  | [] => none
  | c :: r => if c = '"' then basic r else if c = singleQuote then literal r else none

/-- A string of any kind. -/
def string (cs : List Char) : Option (List Char × List Char) :=
  if cs.take 3 = ['"', '"', '"'] then basicLines (dropNewline (cs.drop 3))
  else if cs.take 3 = [singleQuote, singleQuote, singleQuote] then
    literalLines (dropNewline (cs.drop 3))
  else line cs

/-- How a character is written between double quotes. -/
def quoteChar (c : Char) : List Char :=
  if c = '"' ∨ c = '\\' then ['\\', c]
  else if isText c then [c]
  else ['\\', 'u', '0', '0', Hex.digit (c.toNat / 16), Hex.digit (c.toNat % 16)]

/-- A string in double quotes on one line. -/
def quote (s : String) : List Char :=
  '"' :: (s.toList.flatMap quoteChar ++ ['"'])

end SerialAck.Document.Quoted

/-
What lies between the values of a document: blanks, comments and line ends.
-/
import SerialAck.Text.Reader

namespace SerialAck.Document

def isBlank (c : Char) : Bool :=
  c == ' ' || c == '\t'

/-- What comments and strings may hold: no control characters but the tab. -/
def isText (c : Char) : Bool :=
  c == '\t' || (' ' ≤ c && c != '\x7f')

def skipBlanks (cs : List Char) : List Char :=
  cs.dropWhile isBlank

/-- Past a line end, for which the end of the text counts too. -/
def newline? : List Char → Option (List Char)
  | [] => some []
  | '\n' :: r => some r
  | '\r' :: '\n' :: r => some r
  | _ => none

/-- Past the rest of a line that holds nothing more than blanks and a comment. -/
def lineEnd? (cs : List Char) : Option (List Char) :=
  match skipBlanks cs with
  | '#' :: r => newline? (r.dropWhile isText)
  | r => newline? r

/-- Past blanks, line ends and comments, each comment with the line end that closes it. -/
def gap (inComment : Bool) : List Char → Option (List Char)
  | [] => if inComment then none else some []
  | '\r' :: '\n' :: r => gap false r
  | c :: r =>
    if c == '\n' then gap false r
    else if inComment then (if isText c then gap true r else none)
    else if isBlank c then gap false r
    else if c == '#' then gap true r
    else if c == '\r' then none
    else some (c :: r)

end SerialAck.Document

/-
Text for terminals. Control sequences say how what follows them is to look; where no terminal reads
them they are taken out, and with them all other controls but blanks and line ends. Each sequence
begins with an escape character; which one it is decides where it ends.
-/
namespace SerialAck.Terminal

/-- What a character is part of. -/
inductive State where
  | text
  /-- Behind the escape character, whose next character tells the kind of sequence. -/
  | escape
  /-- Between the escape character and the one that ends a sequence without parameters. -/
  | selection
  /-- A sequence with parameters, up to its letter. -/
  | control
  /-- A title, up to a bell. -/
  | title
  /-- A message to the device, up to the next sequence. -/
  | message
  deriving Repr, DecidableEq

def isControl (c : Char) : Bool :=
  c < ' '

/-- The controls that move on within a text. -/
def isSpacing (c : Char) : Bool :=
  c ∈ ['\t', '\n', '\x0c', '\r']

def isBetween (a b c : Char) : Bool :=
  a ≤ c && c ≤ b

/-- The state behind the character that tells the kind of a sequence. -/
def begin (c : Char) : State :=
  if isBetween ' ' '/' c then .selection
  else if c = '[' then .control
  else if c = ']' then .title
  else if c ∈ ['P', 'X', '^', '_'] then .message
  else if isBetween '0' '~' c then .text
  else .escape

/-- Whether the character is shown, and the state behind it. A blank control within a short
sequence breaks it off. -/
def step (s : State) (c : Char) : Bool × State :=
  if c = '\x1b' then (false, .escape)
  else if c = '\x18' ∨ c = '\x1a' then (false, .text)
  else
    match s with
    | .text => (isSpacing c || !(isControl c || c = '\x7f'), .text)
    | .title => (false, if c = '\x07' then .text else .title)
    | .message => (false, .message)
    | .escape => if isSpacing c then (true, .text) else (false, begin c)
    | .selection =>
      if isSpacing c then (true, .text)
      else (false, if isBetween '0' '~' c then .text else .selection)
    | .control =>
      if isSpacing c then (true, .text)
      else (false, if isBetween '@' '~' c then .text else .control)

def strip (s : State) : List Char → List Char
  | [] => []
  | c :: cs =>
    let (isShown, s) := step s c
    if isShown then c :: strip s cs else strip s cs

/-- The text without its control sequences. -/
def plain (s : String) : String :=
  .ofList (strip .text s.toList)

def sequence (parameters : String) : String :=
  "\x1b[" ++ parameters ++ "m"

def reset : String := sequence "0"

def bold (s : String) : String :=
  sequence "1" ++ s ++ reset

def underlined (s : String) : String :=
  sequence "1" ++ sequence "4" ++ s ++ reset

end SerialAck.Terminal

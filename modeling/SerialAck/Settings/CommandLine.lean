/-
Command lines. Words are read from left to right, and the first one at fault, or the first that
asks for help or the version, ends the reading. A setting whose value is a word of its own is
settled only when the next setting begins or the words are over; until then a word that nobody
knows is the greater fault.
-/
import SerialAck.Settings.Setting

namespace SerialAck.Settings

/-- Options that ask for a text and take no value. -/
inductive Request where
  /-- The summary, or with every detail. -/
  | help (detailed : Bool)
  | version
  deriving Repr, DecidableEq

inductive Mistake where
  | unknown (word : String)
  /-- A value for an option that takes none. -/
  | needless (option value : String)
  | repeated (setting : Setting)
  | missing (setting : Setting)
  | value (setting : Setting) (fault : ValueFault)
  deriving Repr, DecidableEq

/-- Why a command line gives no settings. -/
inductive Stop where
  | mistake (mistake : Mistake)
  | request (request : Request)
  deriving Repr, DecidableEq

/-- The forms that a word can have. -/
inductive Word where
  /-- Two dashes and nothing else. -/
  | separator
  /-- Two dashes, a name, and a value where there is an equals sign. -/
  | long (name : List UInt8) (value : Option (List UInt8))
  /-- One dash and what stands behind it. -/
  | short (letters : List UInt8)
  | plain (bytes : List UInt8)
  deriving Repr, DecidableEq

def dash : UInt8 := 45
def equals : UInt8 := 61

def Word.ofBytes (w : List UInt8) : Word :=
  match w with
  | a :: b :: r =>
    if a ≠ dash then .plain w
    else if b ≠ dash then .short (b :: r)
    else if r = [] then .separator
    else .long (r.takeWhile (· ≠ equals)) ((r.dropWhile (· ≠ equals)).tail?)
  | _ => .plain w

def Setting.ofLong? (name : List UInt8) : Option Setting :=
  Setting.all.find? fun s => Utf8.ofString s.long = name

def Setting.ofShort? (letter : UInt8) : Option Setting :=
  Setting.all.find? fun s => s.short?.map (UInt8.ofNat ·.toNat) = some letter

def Request.ofLong? (name : List UInt8) : Option Request :=
  if name = Utf8.ofString "help" then some (.help true)
  else if name = Utf8.ofString "version" then some .version
  else none

def Request.ofShort? (letter : UInt8) : Option Request :=
  if letter = 104 then some (.help false) else if letter = 86 then some .version else none

/-- How messages name an unknown short option: by its first letter, if that is one. -/
def shortTitle (letters : List UInt8) : String :=
  match Utf8.scan letters with
  | some c :: _ => "-" ++ .singleton c
  | _ => "-" ++ Utf8.toString letters

/-- The setting whose value is still open. -/
inductive Pending where
  | nothing
  | waiting (setting : Setting)
  | given (setting : Setting) (value : List UInt8)
  deriving Repr, DecidableEq

structure Line where
  choices : Choices := {}
  pending : Pending := .nothing
  deriving Repr, DecidableEq

namespace Choices

/-- A second value for a setting is refused without a look at it. -/
def give (cs : Choices) (s : Setting) (value : List UInt8) : Except Mistake Choices :=
  if cs.has s then .error (.repeated s)
  else
    match Choice.read s value with
    | .ok choice => .ok (cs.add choice)
    | .error fault => .error (.value s fault)

end Choices

namespace Line

/-- The settings so far, the open one included. -/
def settle (l : Line) : Except Mistake Choices :=
  match l.pending with
  | .nothing => .ok l.choices
  | .waiting s => .error (.missing s)
  | .given s value => l.choices.give s value

/-- A setting with its value in the same word, or with one that may follow. -/
def setting (l : Line) (s : Setting) (value : Option (List UInt8)) : Except Mistake Line := do
  let choices ← l.settle
  match value with
  | some value => return { choices := ← choices.give s value }
  | none => return { choices, pending := .waiting s }

/-- A request is heard only if all before it is well. -/
def request (l : Line) (r : Request) : Stop :=
  match l.settle with
  | .ok _ => .request r
  | .error m => .mistake m

/-- What is attached to a letter: an equals sign before it counts for nothing. -/
def attached : List UInt8 → Option (List UInt8)
  | [] => none
  | b :: r => some (if b = equals then r else b :: r)

def lift {α : Type} : Except Mistake α → Except Stop α
  | .ok a => .ok a
  | .error m => .error (.mistake m)

/-- A word before any separator. -/
def word (l : Line) (w : Word) : Except Stop Line :=
  match w with
  | .separator => .ok l
  | .long name value =>
    match Setting.ofLong? name with
    | some s => lift (l.setting s value)
    | none =>
      match Request.ofLong? name, value with
      | some r, none => .error (l.request r)
      | some _, some value =>
        .error (.mistake (.needless ("--" ++ Utf8.toString name) (Utf8.toString value)))
      | none, _ => .error (.mistake (.unknown ("--" ++ Utf8.toString name)))
  | .short [] => .error (.mistake (.unknown "-"))
  | .short (letter :: r) =>
    match Setting.ofShort? letter with
    | some s => lift (l.setting s (attached r))
    | none =>
      match Request.ofShort? letter with
      | some q => .error (l.request q)
      | none => .error (.mistake (.unknown (shortTitle (letter :: r))))
  | .plain bytes =>
    match l.pending with
    | .waiting s => .ok { l with pending := .given s bytes }
    | _ => .error (.mistake (.unknown (Utf8.toString bytes)))

/-- Behind a separator no word has a meaning. -/
def words (l : Line) : List (List UInt8) → Except Stop Choices
  | [] => lift l.settle
  | w :: ws =>
    match Word.ofBytes w with
    | .separator =>
      match ws with
      | [] => lift l.settle
      | v :: _ => .error (.mistake (.unknown (Utf8.toString v)))
    | form =>
      match l.word form with
      | .ok l => l.words ws
      | .error stop => .error stop

end Line

namespace Choices

/-- The settings that a command line gives. -/
def ofWords (ws : List (List UInt8)) : Except Stop Choices :=
  Line.words {} ws

end Choices

end SerialAck.Settings

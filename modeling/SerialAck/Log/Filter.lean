/-
Log filters: directives with commas between them. Each says how far down the log goes, for all
records or for those from one part of the program, and the most specific directive that applies to
a record decides about it.
-/
import SerialAck.Log.Record
import SerialAck.Number.Decimal
import SerialAck.Pattern.Group
import SerialAck.Text.Utf8

namespace SerialAck.Log

/-- How far down a log goes: not at all at 0, and to the last record at 5. -/
abbrev Depth := Nat

structure Directive where
  depth : Depth := 5
  target : Option String := none
  /-- It is about a span, or about the value of a field in one. The program opens no spans. -/
  inSpan : Bool := false
  /-- Names of fields that a record must have. -/
  fields : List String := []
  deriving Repr, DecidableEq

namespace Directive

/-- A depth by its number or its name, in letters of either case. -/
def depth? (s : String) : Option Depth :=
  match Numeral.readUnsigned s.toList with
  | .ok n => if n ≤ 5 then some n else none
  | .error _ =>
    if s = "" then some 1
    else ["off", "error", "warn", "info", "debug", "trace"].findIdx? (· == s.toLower)

/-- What an unfinished directive is in the middle of, and at which byte that began. -/
inductive Part where
  | start
  | word (since : Nat)
  | span (since : Nat)
  | field (since : Nat)
  | fields
  | target
  | depth (since : Nat)
  deriving Repr, DecidableEq

/-- Why a directive cannot be read. -/
inductive Flaw where
  | malformed
  /-- A part of it would begin or end inside a character. -/
  | split
  deriving Repr, DecidableEq

def isFirst (c : Char) : Bool :=
  c ∈ ['-', ':', '_'] || Alphanumeric.mem c

/-- The text from byte `a` to byte `b`. -/
def cut (text : List Char) (a b : Nat) : Except Flaw String :=
  match (Utf8.splitAt? a text).bind fun (_, r) => Utf8.splitAt? (b - a) r with
  | some (part, _) => .ok (.ofList part)
  | none => .error .split

/-- A value is a pattern, or a number with a plus sign. No pattern begins with one. -/
def isValue (s : String) : Bool :=
  Pattern.isPattern s ||
    match s.toList with
    | '+' :: r => Decimal.isNumber r
    | _ => false

/-- A field by its name, or by its name and value. Behind a second equals sign there is nothing. -/
def addField (d : Directive) (s : String) : Except Flaw Directive :=
  match s.splitOn "=" with
  | [name] => if name = "" then .error .malformed else .ok { d with fields := d.fields ++ [name] }
  | _ :: value :: _ => if isValue value then .ok { d with inSpan := true } else .error .malformed
  | [] => .error .malformed

/-- Takes in the character `c`, which is at byte `i`. -/
def step (text : List Char) (d : Directive) (part : Part) (i : Nat) (c : Char) :
    Except Flaw (Directive × Part) :=
  match part with
  | .start =>
    if c = '[' then .ok (d, .span (i + 1))
    else if isFirst c then .ok (d, .word i)
    else .error .malformed
  | .word a =>
    if c = '=' then (cut text a i).map fun word => ({ d with target := some word }, .depth (i + 1))
    else if c = '[' then
      (cut text a i).map fun word => ({ d with target := some word }, .span (i + 1))
    else .ok (d, .word a)
  | .span a =>
    if c = ']' then (cut text a i).map fun _ => ({ d with inSpan := true }, .target)
    else if c = '\x7b' then
      (cut text a i).map fun span => ({ d with inSpan := decide (span ≠ "") }, .field (i + 1))
    else .ok (d, .span a)
  | .field a =>
    if c = '\x7d' then do
      return (← d.addField (← cut text a i), .fields)
    else .ok (d, .field a)
  | .fields => if c = ']' then .ok (d, .target) else .error .malformed
  | .target => if c = '=' then .ok (d, .depth (i + 1)) else .error .malformed
  | .depth a => .ok (d, .depth a)

def steps (text : List Char) (d : Directive) (part : Part) (i : Nat) :
    List Char → Except Flaw (Directive × Part)
  | [] => .ok (d, part)
  | c :: cs =>
    match d.step text part i c with
    | .ok (d, part) => steps text d part (i + c.utf8Size) cs
    | .error e => .error e

/-- A word alone is a depth if it can be, and otherwise a part of the program to show in full. An
equals sign without a depth shows in full too. -/
def finish (text : List Char) (d : Directive) : Part → Except Flaw Directive
  | .word a =>
    (rest a).map fun word =>
      match depth? word with
      | some depth => { d with depth, target := none }
      | none => { d with depth := 5, target := some word }
  | .depth a => do
    let word ← rest a
    if word = "" then return { d with depth := 5 }
    match depth? word with
    | some depth => return { d with depth }
    | none => .error .malformed
  | .target => .ok d
  | _ => .error .malformed
where
  rest (a : Nat) : Except Flaw String :=
    cut text a (Utf8.size text)

/-- Blanks at the ends are not read, though parts are cut out of the text as if they were. -/
def parse (s : String) : Except Flaw Directive := do
  let (d, part) ← steps s.toList {} .start 0 (Blank.trim s.toList)
  d.finish s.toList part

/-- Where a record that is not in a span comes from, and which fields it has. -/
def applies (d : Directive) (r : Record) : Bool :=
  !d.inSpan && d.target.all (·.toList.isPrefixOf r.source.path.toList) &&
    d.fields.all fun f => f == "message" || (r.fields.lookup f).isSome

/-- The order of directives that apply to one record: by the length of the target, the number of
fields, and their names. -/
def specificity (d : Directive) : List Nat :=
  [(d.target.map (·.length + 1)).getD 0, d.fields.length]

def isBelow (d e : Directive) : Bool :=
  d.specificity < e.specificity || d.specificity == e.specificity && !decide (e.fields < d.fields)

end Directive

abbrev Filter := List Directive

namespace Filter

def words (s : String) : List String :=
  (s.splitOn ",").filter (· ≠ "")

/-- With no directive at all only errors are shown. -/
def ofDirectives (ds : List Directive) : Filter :=
  if ds = [] then [{ depth := 1 }] else ds

/-- A filter whose directives are all well written. -/
def parse (s : String) : Except Directive.Flaw Filter :=
  ((words s).mapM Directive.parse).map ofDirectives

/-- The directives that are well written, whatever the others are, unless one is split. -/
def gather? (s : String) : Option Filter :=
  let directive? (word : String) : Option (Option Directive) :=
    match Directive.parse word with
    | .ok d => some (some d)
    | .error .malformed => some none
    | .error .split => none
  ((words s).mapM directive?).map fun ds => ofDirectives (ds.filterMap id)

/-- The most specific directive for a record, the last one of equals. -/
def decisive? (f : Filter) (r : Record) : Option Directive :=
  (f.filter (·.applies r)).foldl (fun best d =>
    match best with
    | none => some d
    | some b => if b.isBelow d then some d else some b) none

def shows (f : Filter) (r : Record) : Bool :=
  (f.decisive? r).any fun d => r.level.verbosity ≤ d.depth

/-- The environment variable that counts before the configuration. -/
def variableName : String := "RUST_LOG"

/-- The filter that the environment gives, if it gives a good one, and else the configured one. There
is none if a directive on the way is split. -/
def choose? (given? : Option String) (configured : String) : Option Filter :=
  match given?.map parse with
  | some (.ok f) => some f
  | some (.error .split) => none
  | some (.error .malformed) | none => gather? configured

end Filter

end SerialAck.Log

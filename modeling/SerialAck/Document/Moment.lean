/-
Dates and times in documents. No setting is one, so all that matters is which texts are; the
calendar is checked to the day of the month.
-/
import SerialAck.Document.Reader
import SerialAck.Number.Numeral

namespace SerialAck.Document.Moment

/-- A number of exactly `count` digits, from `low` to `high`. -/
def number (count low high : Nat) : Reader Nat := fun cs =>
  match (cs.take count).mapM Numeral.digitValue? with
  | some ds =>
    let n := ds.foldl (fun n d => n * 10 + d) 0
    if ds.length = count ∧ low ≤ n ∧ n ≤ high then some (n, cs.drop count) else none
  | none => none

def skip? (mark : Char) : List Char → Option (List Char)
  | [] => none
  | c :: r => if c = mark then some r else none

def isLeap (year : Nat) : Bool :=
  year % 4 = 0 ∧ (year % 100 ≠ 0 ∨ year % 400 = 0)

def daysIn (year month : Nat) : Nat :=
  if month = 2 then (if isLeap year then 29 else 28)
  else if month ∈ [4, 6, 9, 11] then 30
  else 31

/-- Past a date. -/
def date? (cs : List Char) : Option (List Char) := do
  let (year, cs) ← number 4 0 9999 cs
  let (month, cs) ← number 2 1 12 (← skip? '-' cs)
  let (_, cs) ← number 2 1 (daysIn year month) (← skip? '-' cs)
  return cs

/-- Past an hour and a minute. -/
def clock? (cs : List Char) : Option (List Char) := do
  let (_, cs) ← number 2 0 23 cs
  let (_, cs) ← number 2 0 59 (← skip? ':' cs)
  return cs

/-- Past what a second may have behind the point. -/
def fraction? : List Char → Option (List Char)
  | '.' :: r => if (r.takeWhile Char.isDigit).isEmpty then none else some (r.dropWhile Char.isDigit)
  | r => some r

/-- Past a time of the day. Leap seconds are times. -/
def time? (cs : List Char) : Option (List Char) := do
  let cs ← clock? cs
  let (_, cs) ← number 2 0 60 (← skip? ':' cs)
  fraction? cs

/-- Past the distance from universal time, where one is given. -/
def zone? : List Char → Option (List Char)
  | [] => some []
  | c :: r =>
    if c = 'Z' ∨ c = 'z' then some r
    else if c = '+' ∨ c = '-' then clock? r
    else none

def isDate (cs : List Char) : Bool :=
  date? cs = some []

/-- A date, a time, or a date and a time that may have a zone. -/
def isMoment (cs : List Char) : Bool :=
  match date? cs with
  | none => time? cs = some []
  | some [] => true
  | some (c :: r) => c ∈ ['T', 't', ' '] && (time? r).bind zone? = some []

end SerialAck.Document.Moment

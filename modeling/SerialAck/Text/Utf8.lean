/-
Text as bytes. `scan` splits bytes into characters and ill-formed parts, each part as long as it
can be while it still begins some character; everything else here reads its answer off `scan`:
`decode?` wants no ill-formed part, `decodeLossy` shows each as U+FFFD.
-/
namespace SerialAck.Utf8

def encode (cs : List Char) : List UInt8 :=
  cs.flatMap String.utf8EncodeChar

/-- The bytes of a string. -/
def ofString (s : String) : List UInt8 :=
  encode s.toList

/-- How many bytes the characters have. -/
def size (cs : List Char) : Nat :=
  cs.foldr (fun c n => c.utf8Size + n) 0

/-- What is before byte `n` and what is from there on, unless that byte is inside a character. -/
def splitAt? : Nat → List Char → Option (List Char × List Char)
  | 0, cs => some ([], cs)
  | _ + 1, [] => none
  | n + 1, c :: cs =>
    if c.utf8Size ≤ n + 1 then
      (splitAt? (n + 1 - c.utf8Size) cs).map fun (before, rest) => (c :: before, rest)
    else none

/-- How many bytes a character has whose first one is `lead`, if a character starts with it. -/
def width? (lead : UInt8) : Option Nat :=
  if lead < 0x80 then some 1
  else if lead < 0xC2 then none
  else if lead < 0xE0 then some 2
  else if lead < 0xF0 then some 3
  else if lead < 0xF5 then some 4
  else none

/-- The second bytes that leave out overlong forms, surrogates and all beyond U+10FFFF. -/
def isSecond (lead b : UInt8) : Bool :=
  let lo := if lead = 0xE0 then 0xA0 else if lead = 0xF0 then 0x90 else 0x80
  let hi := if lead = 0xED then 0x9F else if lead = 0xF4 then 0x8F else 0xBF
  lo ≤ b && b ≤ hi

def isTail (b : UInt8) : Bool :=
  0x80 ≤ b && b ≤ 0xBF

def char2 (a b : UInt8) : Char :=
  .ofNat (a.toNat % 32 * 64 + b.toNat % 64)

def char3 (a b c : UInt8) : Char :=
  .ofNat (a.toNat % 16 * 4096 + b.toNat % 64 * 64 + c.toNat % 64)

def char4 (a b c d : UInt8) : Char :=
  .ofNat (a.toNat % 8 * 262144 + b.toNat % 64 * 4096 + c.toNat % 64 * 64 + d.toNat % 64)

/-- The characters of `bytes` in order, with `none` for each ill-formed part. -/
def scan : List UInt8 → List (Option Char)
  | [] => []
  | a :: s =>
    match width? a with
    | none => none :: scan s
    | some 1 => some (.ofNat a.toNat) :: scan s
    | some w =>
      match s with
      | [] => [none]
      | b :: s =>
        if !isSecond a b then none :: scan (b :: s)
        else if w = 2 then some (char2 a b) :: scan s
        else
          match s with
          | [] => [none]
          | c :: s =>
            if !isTail c then none :: scan (c :: s)
            else if w = 3 then some (char3 a b c) :: scan s
            else
              match s with
              | [] => [none]
              | d :: s =>
                if !isTail d then none :: scan (d :: s)
                else some (char4 a b c d) :: scan s

def WellFormed (bytes : List UInt8) : Prop :=
  ∃ cs, bytes = encode cs

/-- U+FFFD, which stands for what is not text. -/
def replacement : Char :=
  '\uFFFD'

def decodeLossy (bytes : List UInt8) : List Char :=
  (scan bytes).map (·.getD replacement)

def decode? (bytes : List UInt8) : Option (List Char) :=
  (scan bytes).mapM id

/-- The text of bytes, as far as they are text. -/
def toString (bytes : List UInt8) : String :=
  .ofList (decodeLossy bytes)

def toString? (bytes : List UInt8) : Option String :=
  (decode? bytes).map .ofList

end SerialAck.Utf8

/-
The two ways to read: byte by byte until the terminator, or in chunks until the peer closes.
-/
namespace SerialAck

inductive ReadMode where
  /-- One byte per read, with terminator handling. -/
  | byte
  /-- As many bytes per read as a chunk holds. -/
  | chunk
  deriving Repr, DecidableEq

namespace ReadMode

/-- The byte after which byte mode acknowledges nothing more: the dollar sign. -/
def terminator : UInt8 := 36

def chunkSize : Nat := 1024

/-- The most bytes that one acknowledged read returns. -/
def size : ReadMode → Nat
  | .byte => 1
  | .chunk => chunkSize

/-- The acknowledgment where none is given. -/
def defaultAck : ReadMode → String
  | .byte => "aloha"
  | .chunk => "Ok!"

def all : List ReadMode :=
  [.byte, .chunk]

/-- The mode where none is given. -/
def default : ReadMode := .byte

def name : ReadMode → String
  | .byte => "byte"
  | .chunk => "chunk"

/-- The name as log lines show it. -/
def title : ReadMode → String
  | .byte => "Byte"
  | .chunk => "Chunk"

/-- Modes are named in lower case only. -/
def ofName? (s : String) : Option ReadMode :=
  all.find? (·.name == s)

/-- What is read along with `bytes` is the last to be acknowledged. -/
def endsWith (mode : ReadMode) (bytes : List UInt8) : Bool :=
  match mode with
  | .byte => bytes.contains terminator
  | .chunk => false

end ReadMode

end SerialAck

/-
What there is to see in a trace: the bytes written, the reads that brought something, and the
events logged. Each is read off entry by entry, so what two traces show together is what they
show one after the other.
-/
import SerialAck.Session.Run

namespace SerialAck.Session

namespace Entry

def written : Entry → List UInt8
  | .write _ taken => taken
  | _ => []

/-- What a read has brought, if that is anything. -/
def received : Entry → List (List UInt8)
  | .read _ (b :: bytes) => [b :: bytes]
  | _ => []

def logged : Entry → List Event
  | .log event => [event]
  | _ => []

/-- A read, whether it came to bytes, to the end of the input, or to a fault. -/
def isRead : Entry → Bool
  | .read .. | .readFailed .. => true
  | _ => false

def isWrite : Entry → Bool
  | .write .. | .writeFailed .. => true
  | _ => false

end Entry

theorem Entry.ne_log_of_isRead {e : Entry} (h : e.isRead) (event : Event) : e ≠ .log event := by
  intro he
  simp [he, isRead] at h

theorem Entry.ne_log_of_isWrite {e : Entry} (h : e.isWrite) (event : Event) : e ≠ .log event := by
  intro he
  simp [he, isWrite] at h

/-- All bytes that the peer has taken. -/
def written (trace : List Entry) : List UInt8 :=
  trace.flatMap Entry.written

/-- What came with each read that brought something. -/
def received (trace : List Entry) : List (List UInt8) :=
  trace.flatMap Entry.received

def logged (trace : List Entry) : List Event :=
  trace.flatMap Entry.logged

/-- So many acknowledgments in a row. -/
def repeated (n : Nat) (ack : List UInt8) : List UInt8 :=
  (List.replicate n ack).flatten

section

variable (e : Entry) (p q : List Entry)

@[simp] theorem written_nil : written [] = [] := rfl
@[simp] theorem received_nil : received [] = [] := rfl
@[simp] theorem logged_nil : logged [] = [] := rfl

@[simp] theorem written_cons : written (e :: p) = e.written ++ written p := rfl
@[simp] theorem received_cons : received (e :: p) = e.received ++ received p := rfl
@[simp] theorem logged_cons : logged (e :: p) = e.logged ++ logged p := rfl

@[simp] theorem written_append : written (p ++ q) = written p ++ written q :=
  List.flatMap_append

@[simp] theorem received_append : received (p ++ q) = received p ++ received q :=
  List.flatMap_append

@[simp] theorem logged_append : logged (p ++ q) = logged p ++ logged q :=
  List.flatMap_append

end

theorem Entry.received_read {size bytes} (h : bytes ≠ []) :
    (Entry.read size bytes).received = [bytes] := by
  cases bytes with
  | nil => exact absurd rfl h
  | cons b bytes => rfl

@[simp] theorem written_map_log (events : List Event) : written (events.map .log) = [] := by
  induction events with
  | nil => rfl
  | cons event events ih => simpa [Entry.written] using ih

@[simp] theorem received_map_log (events : List Event) : received (events.map .log) = [] := by
  induction events with
  | nil => rfl
  | cons event events ih => simpa [Entry.received] using ih

@[simp] theorem logged_map_log (events : List Event) : logged (events.map .log) = events := by
  induction events with
  | nil => rfl
  | cons event events ih => simpa [Entry.logged] using ih

@[simp] theorem repeated_zero (ack : List UInt8) : repeated 0 ack = [] := rfl

theorem repeated_succ (n : Nat) (ack : List UInt8) :
    repeated (n + 1) ack = repeated n ack ++ ack := by
  simp [repeated, List.replicate_succ']

theorem length_repeated (n : Nat) (ack : List UInt8) :
    (repeated n ack).length = n * ack.length := by
  simp [repeated]

end SerialAck.Session

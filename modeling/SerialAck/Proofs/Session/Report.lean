/-
What a session logs as it goes, and what it counts after the terminator. Up to the call that ends
it, the log is the report of the reads that are owed an acknowledgment, one after the other, and
nothing else.
-/
import SerialAck.Proofs.Session.Account

namespace SerialAck.Session

variable {c : Config} {s : State} {t t' : Stream} {trace : List Entry}

theorem Calls.logged_eq (h : Calls c {} t trace s t') :
    logged trace = (due c.mode (received trace)).flatMap (State.report c.mode) := by
  induction h with
  | none => rfl
  | more hcs hc ih =>
    cases hc with
    | read hp _ hb =>
      simp [ih, Entry.logged, Entry.received_read hb, hcs.balanced.due_listening hp]
    | drain hp _ hb => simp [ih, Entry.logged, hcs.balanced.due_draining hp]
    | write | retry => simp [ih, Entry.logged, Entry.received]

/-- What has come after the terminator. -/
def State.discarded (s : State) : Nat :=
  match s.phase with
  | .draining n => n
  | _ => 0

theorem State.discarded_reply (s : State) (rest : List UInt8) (last : Bool) :
    (s.reply rest last).discarded = 0 := by
  unfold reply
  split
  · cases last <;> rfl
  · rfl

/-- All that comes is either owed an acknowledgment or discarded. -/
theorem Calls.length_received (h : Calls c {} t trace s t') :
    (received trace).flatten.length =
      (due c.mode (received trace)).flatten.length + s.discarded := by
  induction h with
  | none => rfl
  | more hcs hc ih =>
    cases hc with
    | read hp _ hb =>
      simp only [State.discarded, hp] at ih
      simp [Entry.received_read hb, hcs.balanced.due_listening hp, State.discarded_reply, ih]
    | drain hp _ hb =>
      simp only [State.discarded, hp] at ih ⊢
      simp [Entry.received_read hb, hcs.balanced.due_draining hp, ih, Nat.add_assoc]
    | write hp =>
      simp only [State.discarded, hp] at ih
      simp [Entry.received, State.discarded_reply, ih]
    | retry => simpa [Entry.received] using ih

/-- A read of byte mode brings one byte, if it brings anything. -/
theorem Stream.exists_byte {limit : Option Nat} {bytes : List UInt8} (hm : c.mode = .byte)
    (hr : t.read c.mode.size limit = (.got bytes, t')) (hb : bytes ≠ []) : ∃ b, bytes = [b] := by
  have hle := length_of_read hr
  have hpos := List.length_pos_iff.mpr hb
  simp only [hm, ReadMode.size] at hle
  exact List.length_eq_one_iff.mp (by omega)

/-- Byte mode acknowledges every byte on its own. -/
theorem Calls.length_of_mem_due (h : Calls c {} t trace s t') (hm : c.mode = .byte) :
    ∀ bytes ∈ due c.mode (received trace), bytes.length = 1 := by
  induction h with
  | none => simp [due]
  | more hcs hc ih =>
    cases hc with
    | @read got _ hp hr hb =>
      obtain ⟨b, rfl⟩ := Stream.exists_byte hm hr hb
      intro bytes hbytes
      simp only [received_append, received_cons, Entry.received_read hb, received_map_log,
        List.append_nil, hcs.balanced.due_listening hp, List.mem_append,
        List.mem_singleton] at hbytes
      rcases hbytes with hbytes | rfl
      · exact ih bytes hbytes
      · rfl
    | drain hp _ hb => simpa [hcs.balanced.due_draining hp] using ih
    | write | retry => simpa [Entry.received] using ih

end SerialAck.Session

/-
What reads and writes of a scripted stream can give.
-/
import SerialAck.Session.Stream

namespace SerialAck.Session.Stream

variable {s t : Stream}

theorem prefix_of_write {bytes taken : List UInt8} (h : s.write bytes = (.took taken, t)) :
    taken <+: bytes := by
  unfold write at h
  split at h <;> simp only [Prod.mk.injEq, Writing.took.injEq, reduceCtorEq, false_and] at h
  · exact h.1 ▸ List.prefix_rfl
  · exact h.1 ▸ List.take_prefix _ bytes

theorem length_of_read {size : Nat} {limit : Option Nat} {bytes : List UInt8}
    (h : s.read size limit = (.got bytes, t)) : bytes.length ≤ size := by
  unfold read at h
  split at h
  · split at h <;> simp at h
  all_goals simp only [Prod.mk.injEq, Reading.got.injEq, reduceCtorEq, false_and] at h
  · simp [← h.1]
  · exact h.1 ▸ List.length_take_le _ _
  · simp [← h.1]

end SerialAck.Session.Stream

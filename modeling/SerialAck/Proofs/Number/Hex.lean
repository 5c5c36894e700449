/-
Hexadecimal numbers, there and back: `digits` writes nothing but digits, and they make the number that
was written.
-/
import Mathlib.Algebra.GroupWithZero.Nat
import SerialAck.Number.Hex

namespace SerialAck.Hex

variable {n d : Nat} {c : Char}

theorem value?_digit (h : d < 16) : value? (digit d) = some d := by
  revert d
  decide

theorem isDigitOf_digit (h : d < 16) : isDigitOf 16 (digit d) = true := by
  rw [isDigitOf, value?_digit h]
  exact decide_eq_true h

theorem isDigitOf_of_mem (h : c ∈ digits n) : isDigitOf 16 c = true := by
  fun_induction digits n with
  | case1 n hn =>
    obtain rfl : c = digit n := by simpa using h
    exact isDigitOf_digit hn
  | case2 n hn ih =>
    rcases List.mem_append.mp h with h | h
    · exact ih h
    · obtain rfl : c = digit (n % 16) := by simpa using h
      exact isDigitOf_digit (Nat.mod_lt n (by decide))

theorem digits_ne_nil (n : Nat) : digits n ≠ [] := by
  unfold digits
  split <;> simp

theorem number_digits (n : Nat) : number 16 (digits n) = n := by
  fun_induction digits n with
  | case1 n hn => simp [number, value?_digit hn]
  | case2 n hn ih =>
    have hm : n / 16 * 16 + n % 16 = n := Nat.div_add_mod' n 16
    rw [number, List.foldl_append]
    show number 16 (digits (n / 16)) * 16 + _ = n
    rw [ih, value?_digit (Nat.mod_lt n (by decide))]
    exact hm

theorem length_digits_le {k : Nat} (h : n < 16 ^ (k + 1)) : (digits n).length ≤ k + 1 := by
  induction k generalizing n with
  | zero =>
    rw [digits, if_pos (by omega)]
    exact Nat.le_refl 1
  | succ k ih =>
    rw [digits]
    split
    · exact Nat.succ_le_succ (Nat.zero_le _)
    · have hlt : n / 16 < 16 ^ (k + 1) := by
        rw [Nat.div_lt_iff_lt_mul (by decide), ← Nat.pow_succ]
        exact h
      rw [List.length_append]
      exact Nat.succ_le_succ (ih hlt)

end SerialAck.Hex

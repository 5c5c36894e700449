/-
Decimal numbers, there and back. `digits` writes nothing but digits, the first of them no zero unless
it is the only one, and they denote the number that was written (`denotes_digits`). `Unsigned` and
`Signed` say which texts are numbers at all, and the readers take each of these that is in their
range, and no other text (`readUnsigned_eq_ok`, `readSigned_eq_ok`).
-/
import Mathlib.Algebra.GroupWithZero.Nat
import SerialAck.Number.Hex
import SerialAck.Number.Numeral

namespace SerialAck.Numeral

variable {n m limit : Nat} {z : Int} {beyond : Fault} {c : Char} {cs : List Char}

/-! ## What is written -/

/-- A decimal digit. -/
def IsDigit (c : Char) : Prop :=
  ∃ d < 10, c = digit d

/-- What holds of each of the ten digits. -/
theorem IsDigit.all {P : Char → Prop} (h : IsDigit c) (hp : ∀ d < 10, P (digit d)) : P c := by
  obtain ⟨d, hd, rfl⟩ := h
  exact hp d hd

theorem isDigit_of_mem (h : c ∈ digits n) : IsDigit c := by
  fun_induction digits n with
  | case1 n hn =>
    obtain rfl : c = digit n := by simpa using h
    exact ⟨n, hn, rfl⟩
  | case2 n hn ih =>
    rcases List.mem_append.mp h with h | h
    · exact ih h
    · obtain rfl : c = digit (n % 10) := by simpa using h
      exact ⟨n % 10, Nat.mod_lt n (by decide), rfl⟩

theorem digits_ne_nil (n : Nat) : digits n ≠ [] := by
  unfold digits
  split <;> simp

/-- No needless zero. -/
theorem head?_digits (h : 0 < n) : (digits n).head? ≠ some '0' := by
  fun_induction digits n with
  | case1 n hn =>
    have hd : ∀ d < 10, 0 < d → [digit d].head? ≠ some '0' := by decide
    exact hd n hn h
  | case2 n hn ih =>
    obtain ⟨c, cs, hd⟩ := List.exists_cons_of_ne_nil (digits_ne_nil (n / 10))
    have hc := ih (by omega)
    rw [hd] at hc ⊢
    exact hc

theorem length_digits (h : n < 10) : (digits n).length = 1 := by
  rw [digits, if_pos h]
  rfl

theorem length_digits_le {k : Nat} (h : n < 10 ^ (k + 1)) : (digits n).length ≤ k + 1 := by
  induction k generalizing n with
  | zero => exact Nat.le_of_eq (length_digits h)
  | succ k ih =>
    rw [digits]
    split
    · exact Nat.succ_le_succ (Nat.zero_le _)
    · have hlt : n / 10 < 10 ^ (k + 1) := by
        rw [Nat.div_lt_iff_lt_mul (by decide), ← Nat.pow_succ]
        exact h
      rw [List.length_append]
      exact Nat.succ_le_succ (ih hlt)

/-- A number that is written without a sign begins with none. -/
theorem digits_ne_cons (h : ¬ IsDigit c) : digits n ≠ c :: cs := by
  intro hd
  exact h (isDigit_of_mem (hd ▸ List.mem_cons_self))

theorem not_isDigit {c : Char} (h : ∀ d < 10, digit d ≠ c) : ¬ IsDigit c := by
  rintro ⟨d, hd, rfl⟩
  exact h d hd rfl

theorem hexNumber_digits (n : Nat) : Hex.number 10 (digits n) = n := by
  have hv : ∀ d < 10, Hex.value? (digit d) = some d := by decide
  fun_induction digits n with
  | case1 n hn => simp [Hex.number, hv n hn]
  | case2 n hn ih =>
    have hm : n / 10 * 10 + n % 10 = n := Nat.div_add_mod' n 10
    rw [Hex.number, List.foldl_append]
    show (Hex.number 10 (digits (n / 10))) * 10 + _ = n
    rw [ih, hv _ (Nat.mod_lt n (by decide))]
    exact hm

/-! ## What texts denote -/

/-- One or more digits, with the number that they make. -/
structure Denotes (ds : List Char) (n : Nat) : Prop where
  ne_nil : ds ≠ []
  digits : ∀ c ∈ ds, c.isDigit = true
  value : Nat.ofDigitChars 10 ds 0 = n

/-- A number with an optional plus sign. -/
inductive Unsigned : List Char → Nat → Prop where
  | plain {ds : List Char} {n : Nat} (h : Denotes ds n) : Unsigned ds n
  | plus {ds : List Char} {n : Nat} (h : Denotes ds n) : Unsigned ('+' :: ds) n

/-- A number with an optional sign. -/
inductive Signed : List Char → Int → Prop where
  | unsigned {cs : List Char} {n : Nat} (h : Unsigned cs n) : Signed cs n
  | minus {ds : List Char} {n : Nat} (h : Denotes ds n) : Signed ('-' :: ds) (-n)

theorem denotes_digits (n : Nat) : Denotes (digits n) n where
  ne_nil := digits_ne_nil n
  digits _ hc := (isDigit_of_mem hc).all (P := fun c => c.isDigit = true) (by decide)
  value := by
    have hv : ∀ d < 10, Nat.ofDigitChars 10 [digit d] 0 = d := by decide
    fun_induction digits n with
    | case1 n hn => exact hv n hn
    | case2 n hn ih =>
      have hm : 10 * (n / 10) + n % 10 = n := Nat.div_add_mod n 10
      rw [Nat.ofDigitChars_append, ih, Nat.ofDigitChars_eq_ofDigitChars_zero,
        hv _ (Nat.mod_lt n (by decide))]
      simpa using hm

/-! ## What is read -/

theorem digitValue?_eq (c : Char) :
    digitValue? c = if c.isDigit then some (c.toNat - '0'.toNat) else none := by
  simp [digitValue?, Char.isDigit, Char.le_def]

/-- More digits make no smaller number. -/
theorem le_ofDigitChars (cs : List Char) (n : Nat) : n ≤ Nat.ofDigitChars 10 cs n := by
  rw [Nat.ofDigitChars_eq_ofDigitChars_zero]
  exact Nat.le_trans (Nat.le_mul_of_pos_left n (Nat.pow_pos (by decide))) (Nat.le_add_right _ _)

/-- Digits are taken to the end unless their number is beyond the limit. If it is anywhere before,
it is in the end. -/
theorem extend_eq_ok (hn : n ≤ limit) : extend limit beyond n cs = .ok m ↔
    (∀ c ∈ cs, c.isDigit = true) ∧ Nat.ofDigitChars 10 cs n = m ∧ m ≤ limit := by
  induction cs generalizing n with
  | nil =>
    simp only [extend, Except.ok.injEq, List.not_mem_nil, false_implies, implies_true, true_and,
      Nat.ofDigitChars_nil]
    constructor
    · rintro rfl
      exact ⟨rfl, hn⟩
    · exact And.left
  | cons c cs ih =>
    rw [extend, digitValue?_eq, Nat.ofDigitChars_cons, Nat.mul_comm 10 n]
    by_cases hc : c.isDigit = true
    · by_cases hl : n * 10 + (c.toNat - '0'.toNat) ≤ limit
      · rw [if_pos hc]
        simp only [if_pos hl, ih hl, List.forall_mem_cons, hc, true_and]
      · have hle := le_ofDigitChars cs (n * 10 + (c.toNat - '0'.toNat))
        simp only [if_pos hc, if_neg hl, reduceCtorEq, false_iff]
        rintro ⟨-, rfl, hm⟩
        exact hl (Nat.le_trans hle hm)
    · simp [hc]

theorem magnitude_eq_ok : magnitude limit beyond cs = .ok m ↔ Denotes cs m ∧ m ≤ limit := by
  cases cs with
  | nil =>
    simp only [magnitude, reduceCtorEq, false_iff]
    exact fun h => h.1.ne_nil rfl
  | cons c cs =>
    rw [magnitude, extend_eq_ok (Nat.zero_le limit)]
    · exact ⟨fun ⟨hd, hv, hl⟩ => ⟨⟨List.cons_ne_nil c cs, hd, hv⟩, hl⟩,
        fun ⟨⟨_, hd, hv⟩, hl⟩ => ⟨hd, hv, hl⟩⟩
    · exact List.cons_ne_nil c cs

/-- No sign is a digit. -/
theorem not_denotes_cons (h : c.isDigit = false) : ¬ Denotes (c :: cs) n := by
  intro hd
  have hc := hd.digits c List.mem_cons_self
  rw [h] at hc
  cases hc

theorem readUnsigned_eq_ok : readUnsigned cs = .ok n ↔ Unsigned cs n ∧ n < UInt64.size := by
  have hlt : n ≤ UInt64.size - 1 ↔ n < UInt64.size := Nat.le_sub_one_iff_lt (by decide)
  unfold readUnsigned
  split
  · simp only [reduceCtorEq, false_iff]
    rintro ⟨⟨hd⟩, -⟩
    exact hd.ne_nil rfl
  · rename_i ds
    rw [magnitude_eq_ok, hlt]
    constructor
    · exact fun ⟨hd, hn⟩ => ⟨.plus hd, hn⟩
    · rintro ⟨hd | hd, hn⟩
      · exact absurd hd (not_denotes_cons rfl)
      · exact ⟨hd, hn⟩
  · rename_i hplus
    rw [magnitude_eq_ok, hlt]
    constructor
    · exact fun ⟨hd, hn⟩ => ⟨.plain hd, hn⟩
    · rintro ⟨hd | hd, hn⟩
      · exact ⟨hd, hn⟩
      · exact absurd rfl (hplus _)

theorem map_magnitude_eq_ok {f : Nat → Int} : (magnitude limit beyond cs).map f = .ok z ↔
    ∃ n, Denotes cs n ∧ n ≤ limit ∧ f n = z := by
  have hm (n : Nat) : Denotes cs n ∧ n ≤ limit ↔ magnitude limit beyond cs = .ok n :=
    magnitude_eq_ok.symm
  simp only [← and_assoc, hm]
  cases magnitude limit beyond cs <;> simp [Except.map]

theorem readSigned_eq_ok : readSigned cs = .ok z ↔
    Signed cs z ∧ -0x8000000000000000 ≤ z ∧ z ≤ 0x7FFFFFFFFFFFFFFF := by
  unfold readSigned
  split
  · simp only [reduceCtorEq, false_iff]
    rintro ⟨⟨⟨hd⟩⟩, -⟩
    exact hd.ne_nil rfl
  · rename_i ds
    rw [map_magnitude_eq_ok]
    constructor
    · rintro ⟨n, hd, hn, rfl⟩
      exact ⟨.unsigned (.plus hd), by simp only [Int.ofNat_eq_natCast]; omega⟩
    · rintro ⟨⟨hd | hd⟩, hl, hu⟩
      · exact absurd hd (not_denotes_cons rfl)
      · exact ⟨_, hd, by omega, rfl⟩
  · rename_i ds
    rw [map_magnitude_eq_ok]
    constructor
    · rintro ⟨n, hd, hn, rfl⟩
      exact ⟨.minus hd, by simp only [Int.ofNat_eq_natCast]; omega⟩
    · rintro ⟨⟨hd | hd⟩ | hd, hl, hu⟩
      · exact absurd hd (not_denotes_cons rfl)
      · exact ⟨_, hd, by omega, rfl⟩
  · rename_i hplus hminus
    rw [map_magnitude_eq_ok]
    constructor
    · rintro ⟨n, hd, hn, rfl⟩
      exact ⟨.unsigned (.plain hd), by simp only [Int.ofNat_eq_natCast]; omega⟩
    · rintro ⟨⟨hd | hd⟩ | hd, hl, hu⟩
      · exact ⟨_, hd, by omega, rfl⟩
      · exact absurd rfl (hplus _)
      · exact absurd rfl (hminus _)

end SerialAck.Numeral

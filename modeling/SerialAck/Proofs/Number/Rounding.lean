/-
What `nearest` makes of whole numbers. `Rounds` says which number of 53 bits a whole number rounds to,
by its distance to all of them, and `nearest` finds it (`nearest_eq_iff`). Around `n` the numbers of
53 bits are the multiples of `unit n`, and no other one lies between two of these (`Fits.beside`).
-/
import Mathlib.Data.Nat.Dist
import Mathlib.Data.Rat.Floor
import Mathlib.Tactic.FieldSimp
import SerialAck.Number.Binary64

namespace SerialAck.Binary64

/-- A whole number with a significand of at most 53 bits. -/
def Fits (m : Nat) : Prop :=
  ∃ k e, k < 2 ^ 53 ∧ m = k * 2 ^ e

/-- Its significand of 53 bits is even. -/
def IsEven (m : Nat) : Prop :=
  ∃ k e, 2 ^ 52 ≤ k ∧ k < 2 ^ 53 ∧ k % 2 = 0 ∧ m = k * 2 ^ e

/-- Of the numbers of 53 bits `m` is the closest to `n`, and the even one of two that are equally
close. -/
structure Rounds (n m : Nat) : Prop where
  fits : Fits m
  closest : ∀ k, Fits k → n.dist m ≤ n.dist k
  even : ∀ k, Fits k → k ≠ m → n.dist k = n.dist m → IsEven m

/-- The distance between neighbours around `n`, as far as they are whole. -/
def unit (n : Nat) : Nat :=
  2 ^ (n.log2 - 52)

/-- How many times `u` comes closest to `n`, the even number of times where two are equally close. -/
def times (n u : Nat) : Nat :=
  if 2 * (n % u) < u then n / u else if u < 2 * (n % u) then n / u + 1 else n / u + n / u % 2

variable {n m k u : Nat}

/-! ## Around a number -/

theorem unit_pos (n : Nat) : 0 < unit n :=
  Nat.two_pow_pos _

theorem div_unit_lt (n : Nat) : n / unit n < 2 ^ 53 := by
  rw [Nat.div_lt_iff_lt_mul (unit_pos n), unit, ← Nat.pow_add]
  have hn : n < 2 ^ (n.log2 + 1) := Nat.lt_log2_self
  exact Nat.lt_of_lt_of_le hn (Nat.pow_le_pow_right (by decide) (by omega))

/-- Where neighbours are more than 1 apart, their significands need all the 53 bits. -/
theorem le_div_unit (h : 1 < unit n) : 2 ^ 52 ≤ n / unit n := by
  have hlog : 52 < n.log2 := by
    by_contra hle
    rw [unit, Nat.sub_eq_zero_of_le (by omega)] at h
    exact absurd h (by decide)
  have hn : n ≠ 0 := by
    rintro rfl
    exact absurd hlog (by decide)
  rw [Nat.le_div_iff_mul_le (unit_pos n), unit, ← Nat.pow_add,
    Nat.add_sub_cancel' (Nat.le_of_lt hlog)]
  exact Nat.log2_self_le hn

theorem fits_mul (h : k ≤ 2 ^ 53) (e : Nat) : Fits (k * 2 ^ e) := by
  by_cases hk : k = 2 ^ 53
  · subst hk
    exact ⟨1, 53 + e, by decide, by rw [Nat.pow_add, Nat.one_mul]⟩
  · exact ⟨k, e, by omega, rfl⟩

theorem fits_of_le (h : n ≤ 2 ^ 53) : Fits n := by
  have hf := fits_mul h 0
  rwa [Nat.pow_zero, Nat.mul_one] at hf

/-- Between two neighbours there is no number of 53 bits. -/
theorem Fits.beside (h : Fits k) (n : Nat) :
    k ≤ n / unit n * unit n ∨ n / unit n * unit n + unit n ≤ k := by
  obtain ⟨j, e, hj, rfl⟩ := h
  by_cases he : n.log2 - 52 ≤ e
  · have hm : j * 2 ^ e = j * 2 ^ (e - (n.log2 - 52)) * unit n := by
      rw [unit, Nat.mul_assoc, ← Nat.pow_add, Nat.sub_add_cancel he]
    rw [hm, ← Nat.succ_mul]
    rcases Nat.lt_or_ge (n / unit n) (j * 2 ^ (e - (n.log2 - 52))) with hlt | hge
    · exact .inr (Nat.mul_le_mul_right _ hlt)
    · exact .inl (Nat.mul_le_mul_right _ hge)
  · -- A finer grid belongs to smaller numbers.
    have hu : 1 < unit n := Nat.one_lt_two_pow (by omega)
    refine .inl (Nat.le_of_lt ?_)
    calc j * 2 ^ e
      _ < 2 ^ 53 * 2 ^ e := Nat.mul_lt_mul_of_pos_right hj (Nat.two_pow_pos e)
      _ ≤ 2 ^ 52 * unit n := by
        rw [unit, ← Nat.pow_add, ← Nat.pow_add]
        exact Nat.pow_le_pow_right (by decide) (by omega)
      _ ≤ n / unit n * unit n := Nat.mul_le_mul_right _ (le_div_unit hu)

theorem fits_below (n : Nat) : Fits (n / unit n * unit n) :=
  fits_mul (Nat.le_of_lt (div_unit_lt n)) _

theorem fits_above (n : Nat) : Fits ((n / unit n + 1) * unit n) :=
  fits_mul (div_unit_lt n) _

theorem dist_below (n : Nat) : n.dist (n / unit n * unit n) = n % unit n := by
  have hn := Nat.div_add_mod' n (unit n)
  rw [Nat.dist_comm, Nat.dist_eq_sub_of_le (by omega)]
  omega

theorem dist_above (n : Nat) : n.dist ((n / unit n + 1) * unit n) = unit n - n % unit n := by
  have hn := Nat.div_add_mod' n (unit n)
  have hr := Nat.mod_lt n (unit_pos n)
  rw [Nat.succ_mul, Nat.dist_eq_sub_of_le (by omega)]
  omega

/-- The way to a number of 53 bits leads over the neighbour on its side. -/
theorem Fits.beside_dist (h : Fits k) (n : Nat) :
    (∃ j, n / unit n * unit n = k + j ∧ n.dist k = n % unit n + j) ∨
      ∃ j, k = (n / unit n + 1) * unit n + j ∧ n.dist k = unit n - n % unit n + j := by
  have hn := Nat.div_add_mod' n (unit n)
  have hr := Nat.mod_lt n (unit_pos n)
  rcases h.beside n with hle | hge
  · refine .inl ⟨n / unit n * unit n - k, by omega, ?_⟩
    rw [Nat.dist_comm, Nat.dist_eq_sub_of_le (by omega)]
    omega
  · refine .inr ⟨k - (n / unit n + 1) * unit n, ?_, ?_⟩
    · rw [Nat.succ_mul]
      omega
    · rw [Nat.succ_mul, Nat.dist_eq_sub_of_le (by omega)]
      omega

theorem isEven_mul (hl : 2 ^ 52 ≤ k) (hk : k ≤ 2 ^ 53) (h : k % 2 = 0) (e : Nat) :
    IsEven (k * 2 ^ e) := by
  by_cases htop : k = 2 ^ 53
  · subst htop
    refine ⟨2 ^ 52, e + 1, by decide, by decide, by decide, ?_⟩
    rw [← Nat.pow_add, ← Nat.pow_add, Nat.add_left_comm 52 e 1, Nat.add_comm e]
  · exact ⟨k, e, hl, by omega, h, rfl⟩

theorem IsEven.of_mul {e : Nat} (h : IsEven (k * 2 ^ e)) (hl : 2 ^ 52 ≤ k) : k % 2 = 0 := by
  obtain ⟨j, i, -, hj, heven, hm⟩ := h
  by_cases he : e ≤ i
  · have hk : k = j * 2 ^ (i - e) := by
      rw [← Nat.sub_add_cancel he, Nat.pow_add, ← Nat.mul_assoc] at hm
      exact Nat.eq_of_mul_eq_mul_right (Nat.two_pow_pos e) hm
    rw [hk, Nat.mul_mod, heven, Nat.zero_mul, Nat.zero_mod]
  · have hlt : k * 2 ^ e < k * 2 ^ e := calc
      k * 2 ^ e
      _ = j * 2 ^ i := hm
      _ < 2 ^ 53 * 2 ^ i := Nat.mul_lt_mul_of_pos_right hj (Nat.two_pow_pos i)
      _ ≤ 2 ^ 52 * 2 ^ e := by
        rw [← Nat.pow_add, ← Nat.pow_add]
        exact Nat.pow_le_pow_right (by decide) (by omega)
      _ ≤ k * 2 ^ e := Nat.mul_le_mul_right _ hl
    exact absurd hlt (Nat.lt_irrefl _)

/-! ## Rounding -/

theorem times_cases (n u : Nat) :
    2 * (n % u) < u ∧ times n u = n / u ∨ u < 2 * (n % u) ∧ times n u = n / u + 1 ∨
      2 * (n % u) = u ∧ times n u = n / u + n / u % 2 := by
  unfold times
  split
  · exact .inl ⟨‹_›, rfl⟩
  · split
    · exact .inr (.inl ⟨‹_›, rfl⟩)
    · exact .inr (.inr ⟨by omega, rfl⟩)

/-- What is rounded to is a neighbour, and no farther away than the other one. -/
theorem Rounds.neighbour (h : Rounds n m) :
    m = n / unit n * unit n ∧ 2 * (n % unit n) ≤ unit n ∨
      m = (n / unit n + 1) * unit n ∧ unit n ≤ 2 * (n % unit n) := by
  have hr := Nat.mod_lt n (unit_pos n)
  have hb := h.closest _ (fits_below n)
  have ha := h.closest _ (fits_above n)
  rw [dist_below] at hb
  rw [dist_above] at ha
  rcases h.fits.beside_dist n with ⟨j, hj, hd⟩ | ⟨j, hj, hd⟩
  · exact .inl (by omega)
  · exact .inr (by omega)

/-- Of two neighbours that are equally close the even one is rounded to. -/
theorem Rounds.eq_of_tie (h : Rounds n m) (hc : 2 * (n % unit n) = unit n) :
    m = (n / unit n + n / unit n % 2) * unit n := by
  have hr := Nat.mod_lt n (unit_pos n)
  have hl := le_div_unit (n := n) (by omega)
  have htie : n.dist ((n / unit n + 1) * unit n) = n.dist (n / unit n * unit n) := by
    rw [dist_above, dist_below]
    omega
  have hne : (n / unit n + 1) * unit n ≠ n / unit n * unit n := by
    rw [Nat.succ_mul]
    omega
  rcases h.neighbour with ⟨rfl, -⟩ | ⟨rfl, -⟩
  · have heven : n / unit n % 2 = 0 := (h.even _ (fits_above n) hne htie).of_mul hl
    rw [heven, Nat.add_zero]
  · have heven : (n / unit n + 1) % 2 = 0 :=
      (h.even _ (fits_below n) hne.symm htie.symm).of_mul (by omega)
    have hodd : n / unit n % 2 = 1 := by omega
    rw [hodd]

theorem Rounds.eq_times (h : Rounds n m) : m = times n (unit n) * unit n := by
  rcases times_cases n (unit n) with ⟨hc, ht⟩ | ⟨hc, ht⟩ | ⟨hc, ht⟩ <;> rw [ht]
  · rcases h.neighbour with ⟨hm, -⟩ | ⟨-, hge⟩
    · exact hm
    · omega
  · rcases h.neighbour with ⟨-, hle⟩ | ⟨hm, -⟩
    · omega
    · exact hm
  · exact h.eq_of_tie hc

theorem dist_times (n : Nat) :
    n.dist (times n (unit n) * unit n) = min (n % unit n) (unit n - n % unit n) := by
  rcases times_cases n (unit n) with ⟨hc, ht⟩ | ⟨hc, ht⟩ | ⟨hc, ht⟩ <;> rw [ht]
  · rw [dist_below]
    omega
  · rw [dist_above]
    omega
  · rcases Nat.mod_two_eq_zero_or_one (n / unit n) with h2 | h2 <;> rw [h2]
    · rw [Nat.add_zero, dist_below]
      omega
    · rw [dist_above]
      omega

theorem rounds_times (n : Nat) : Rounds n (times n (unit n) * unit n) := by
  have hr := Nat.mod_lt n (unit_pos n)
  have hlt := div_unit_lt n
  have hle : times n (unit n) ≤ 2 ^ 53 := by
    rcases times_cases n (unit n) with ⟨-, ht⟩ | ⟨-, ht⟩ | ⟨-, ht⟩ <;> omega
  refine ⟨fits_mul hle _, ?_, ?_⟩
  · intro k hk
    rw [dist_times]
    rcases hk.beside_dist n with ⟨j, -, hd⟩ | ⟨j, -, hd⟩ <;> omega
  · intro k hk hne hd
    rw [dist_times] at hd
    rcases times_cases n (unit n) with ⟨hc, ht⟩ | ⟨hc, ht⟩ | ⟨hc, ht⟩
    · rw [ht] at hne
      rcases hk.beside_dist n with ⟨j, hj, hd'⟩ | ⟨j, hj, hd'⟩ <;> omega
    · rw [ht] at hne
      rcases hk.beside_dist n with ⟨j, hj, hd'⟩ | ⟨j, hj, hd'⟩ <;> omega
    · have hl := le_div_unit (n := n) (by omega)
      exact isEven_mul (by omega) hle (by omega) _

theorem rounds_iff : Rounds n m ↔ m = times n (unit n) * unit n :=
  ⟨Rounds.eq_times, fun h => h ▸ rounds_times n⟩

/-- What fits rounds to itself. -/
theorem Fits.rounds (h : Fits n) : Rounds n n where
  fits := h
  closest k _ := by
    rw [Nat.dist_self]
    exact Nat.zero_le _
  even k _ hne hd := by
    rw [Nat.dist_self] at hd
    exact absurd (Nat.eq_of_dist_eq_zero hd).symm hne

/-! ## The nearest number -/

@[simp] theorem power_natCast (base k : Nat) : power base k = ((base ^ k : Nat) : Rat) := rfl

theorem power_neg (k : Nat) : power 2 (-(k : Int)) = ((2 ^ k : Nat) : Rat)⁻¹ := by
  cases k with
  | zero => simp [power]
  | succ k =>
    show mkRat 1 (2 ^ (k + 1)) = _
    rw [Rat.mkRat_eq_div, Int.cast_one, one_div]

theorem exponent_natCast (h : n ≠ 0) : exponent n = n.log2 := by
  have hle : power 2 (n.log2 : Int) ≤ n := by
    rw [power_natCast]
    exact_mod_cast Nat.log2_self_le h
  have hone : Nat.log2 1 = 0 := by decide
  simp only [exponent, Rat.num_natCast, Rat.den_natCast, Int.natAbs_natCast, hone, Int.natCast_zero,
    Int.sub_zero, if_pos hle]

theorem floor_div (n u : Nat) : ((n : Rat) / u).floor = (n / u : Nat) :=
  Rat.floor_natCast_div_natCast n u

theorem roundEven_div (n : Nat) (hu : 0 < u) : roundEven ((n : Rat) / u) = (times n u : Nat) := by
  have hfrac : (n : Rat) / u - (n / u : Nat) = (n % u : Nat) / u := by
    rw [sub_eq_iff_eq_add]
    field_simp
    exact_mod_cast (Nat.mod_add_div n u).symm
  have hlow : (n : Rat) / u - (n / u : Nat) < 1 / 2 ↔ 2 * (n % u) < u := by
    rw [hfrac, div_lt_div_iff₀ (by exact_mod_cast hu) (by decide)]
    norm_cast
    omega
  have hhigh : 1 / 2 < (n : Rat) / u - (n / u : Nat) ↔ u < 2 * (n % u) := by
    rw [hfrac, div_lt_div_iff₀ (by decide) (by exact_mod_cast hu)]
    norm_cast
    omega
  unfold roundEven times
  simp only [floor_div, Int.cast_natCast, hlow, hhigh]
  split
  · rfl
  · split <;> rfl

theorem times_one (n : Nat) : times n 1 = n := by
  simp [times, Nat.mod_one]

/-- The distance between neighbours is a whole number, or one of the distances below 1. -/
theorem spacing_natCast (h : n ≠ 0) :
    spacing n = unit n ∨ unit n = 1 ∧ ∃ k : Nat, spacing n = ((2 ^ k : Nat) : Rat)⁻¹ := by
  rw [spacing, exponent_natCast h]
  by_cases hl : 52 ≤ n.log2
  · have hmax : max ((n.log2 : Int) - 52) (-1074) = ((n.log2 - 52 : Nat) : Int) := by omega
    rw [hmax, power_natCast]
    exact .inl rfl
  · have hmax : max ((n.log2 : Int) - 52) (-1074) = -((52 - n.log2 : Nat) : Int) := by omega
    rw [hmax, power_neg]
    exact .inr ⟨by rw [unit, Nat.sub_eq_zero_of_le (by omega), Nat.pow_zero], _, rfl⟩

/-- A whole number has a whole number closest to it. -/
theorem nearest_natCast (n : Nat) : nearest n = (times n (unit n) * unit n : Nat) := by
  by_cases h : n = 0
  · subst h
    rfl
  · have hn : (n : Rat) ≠ 0 := by exact_mod_cast h
    rw [nearest, if_neg hn]
    rcases spacing_natCast h with hs | ⟨hu, k, hs⟩ <;> rw [hs]
    · rw [roundEven_div n (unit_pos n), mul_comm]
      norm_cast
    · have hk : (n : Rat) / ((2 ^ k : Nat) : Rat)⁻¹ = (n * 2 ^ k : Nat) / (1 : Nat) := by
        push_cast
        field_simp
      rw [hk, roundEven_div _ Nat.one_pos, times_one, hu, times_one]
      push_cast
      field_simp

/-- **`nearest` rounds.** On whole numbers it gives the one that is rounded to. -/
theorem nearest_eq_iff : nearest n = m ↔ Rounds n m := by
  rw [nearest_natCast, rounds_iff, Nat.cast_inj]
  exact eq_comm

theorem nearest_of_fits (h : Fits n) : nearest n = n :=
  nearest_eq_iff.mpr h.rounds

end SerialAck.Binary64

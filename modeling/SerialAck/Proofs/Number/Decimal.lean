/-
The decimal text of whole numbers. The search for the fewest digits comes to the grid of the whole
numbers at the latest, and there it finds the number itself (`search_natCast`). So what it finds is a
whole number that rounds to the same one, and its text has these digits alone (`text_nearest`).
-/
import SerialAck.Number.Decimal
import SerialAck.Proofs.Number.Numeral
import SerialAck.Proofs.Number.Rounding

namespace SerialAck

namespace Numeral

theorem digits_eq_toDigits (n : Nat) : digits n = Nat.toDigits 10 n := by
  have hd : ∀ d < 10, digit d = d.digitChar := by decide
  fun_induction digits n with
  | case1 n hn => rw [Nat.toDigits_of_lt_base hn, hd n hn]
  | case2 n hn ih =>
    rw [Nat.toDigits_eq_if (by decide), if_neg hn, ih, hd _ (Nat.mod_lt n (by decide))]

theorem text_eq_toString (n : Nat) : text n = toString n := by
  rw [text, digits_eq_toDigits, ← Nat.repr_eq_ofList_toDigits, Nat.toString_eq_repr]

theorem text_inj {n m : Nat} : text n = text m ↔ n = m := by
  refine ⟨fun h => ?_, fun h => h ▸ rfl⟩
  have hd : digits n = digits m := String.ofList_inj.mp h
  rw [← (denotes_digits n).value, hd, (denotes_digits m).value]

theorem digits_mul_pow {k : Nat} (h : k ≠ 0) (e : Nat) :
    digits (k * 10 ^ e) = digits k ++ List.replicate e '0' := by
  induction e with
  | zero => rw [Nat.pow_zero, Nat.mul_one, List.replicate_zero, List.append_nil]
  | succ e ih =>
    have hpos : 0 < k * 10 ^ e := Nat.mul_pos (by omega) (Nat.pow_pos (by decide))
    have hten : k * 10 ^ (e + 1) = k * 10 ^ e * 10 := by rw [Nat.pow_succ, Nat.mul_assoc]
    rw [hten, digits, if_neg (by omega), Nat.mul_div_cancel _ (by decide), Nat.mul_mod_left, ih,
      List.append_assoc, List.replicate_succ']
    rfl

end Numeral

namespace Decimal

open Binary64

variable {n m v : Nat}

theorem value_natCast (k e : Nat) : (⟨k, e⟩ : Decimal).value = (k * 10 ^ e : Nat) := by
  rw [value, power_natCast]
  norm_cast

theorem positional_natCast (k e : Nat) :
    (⟨k, e⟩ : Decimal).positional = Numeral.digits (k * 10 ^ e) := by
  show (if k = 0 then ['0'] else Numeral.digits k ++ List.replicate e '0') = _
  by_cases hk : k = 0
  · rw [if_pos hk, hk, Nat.zero_mul, Numeral.digits, if_pos (by decide)]
    rfl
  · rw [if_neg hk, Numeral.digits_mul_pow hk]

theorem neighbours_exponent (x : Rat) (e : Int) :
    (neighbours x e).1.exponent = e ∧ (neighbours x e).2.exponent = e := by
  unfold neighbours
  dsimp only
  split <;> exact ⟨rfl, rfl⟩

/-- On the grid of the whole numbers nothing is closer to one of them than itself. -/
theorem neighbours_natCast (m : Nat) : (neighbours m 0).1 = ⟨m, 0⟩ := by
  have hunit : power 10 0 = 1 := rfl
  have hfloor : ((m : Rat) / 1).floor.toNat = m := by
    rw [div_one, ← Int.cast_natCast, Rat.floor_intCast, Int.toNat_natCast]
  have hbelow : (⟨m, 0⟩ : Decimal).value = m := by
    simpa using value_natCast m 0
  have habove : (⟨m + 1, 0⟩ : Decimal).value = m + 1 := by
    simpa using value_natCast (m + 1) 0
  simp only [neighbours, hunit, hfloor, hbelow, habove, sub_self, add_sub_cancel_left, zero_lt_one,
    if_true]

/-- The search ends on a grid of whole numbers. -/
theorem search_natCast (h : Fits m) (tries e : Nat) : ∃ k i : Nat,
    search m (tries + e + 1) e = ⟨k, i⟩ ∧ nearest (k * 10 ^ i : Nat) = m ∧ (i = 0 → k = m) := by
  have found : ∀ d : Decimal, readsBack m d = true → ∀ i : Nat, d.exponent = i →
      d = ⟨d.digits, i⟩ ∧ nearest (d.digits * 10 ^ i : Nat) = m := by
    intro d hd i hi
    have he : d = ⟨d.digits, i⟩ := by rw [← hi]
    rw [readsBack, he, value_natCast] at hd
    exact ⟨he, of_decide_eq_true hd⟩
  induction e with
  | zero =>
    have hback : readsBack m ⟨m, 0⟩ = true := by
      have hv : (⟨m, 0⟩ : Decimal).value = m := by simpa using value_natCast m 0
      rw [readsBack, hv, nearest_of_fits h]
      exact decide_eq_true rfl
    refine ⟨m, 0, ?_, ?_, fun _ => rfl⟩
    · simp only [search, Int.natCast_zero, neighbours_natCast, hback, if_true]
    · rw [Nat.pow_zero, Nat.mul_one, nearest_of_fits h]
  | succ e ih =>
    obtain ⟨hfirst, hsecond⟩ := neighbours_exponent m (e + 1 : Nat)
    rw [← Nat.add_assoc, search]
    dsimp only
    split
    · rename_i hback
      obtain ⟨hd, hn⟩ := found _ hback (e + 1) hfirst
      exact ⟨_, e + 1, hd, hn, nofun⟩
    · split
      · rename_i hback
        obtain ⟨hd, hn⟩ := found _ hback (e + 1) hsecond
        exact ⟨_, e + 1, hd, hn, nofun⟩
      · have he : ((e + 1 : Nat) : Int) - 1 = e := by omega
        rw [he]
        exact ih

theorem shortest_natCast (h : Fits m) : ∃ k i : Nat,
    shortest m = ⟨k, i⟩ ∧ nearest (k * 10 ^ i : Nat) = m ∧ (i = 0 → k = m) := by
  unfold shortest
  split
  · rename_i h0
    have hm : m = 0 := by exact_mod_cast h0
    subst hm
    exact ⟨0, 0, rfl, nearest_of_fits h, fun _ => rfl⟩
  · dsimp only
    generalize (Numeral.digits (m : Rat).floor.toNat).length = places
    have htries : places + 1100 = 1099 + places + 1 := by omega
    rw [htries]
    exact search_natCast h 1099 places

/-- Beside a number up to 2 ^ 53 no multiple of 10 rounds to it. -/
theorem eq_of_nearest_eq (hn : n ≤ 2 ^ 53) (h : nearest v = n) (h10 : 10 ∣ v) : v = n := by
  by_cases hv : v ≤ 2 ^ 53
  · have hself := (nearest_of_fits (fits_of_le hv)).symm.trans h
    exact_mod_cast hself
  · -- All that rounds to 2 ^ 53 from above is 2 ^ 53 + 1.
    have hbeyond : Fits ((2 ^ 52 + 1) * 2 ^ 1) := fits_mul (by decide) 1
    have hc := (nearest_eq_iff.mp h).closest _ hbeyond
    unfold Nat.dist at hc
    omega

/-- **The text of a whole number.** It is that of a whole number which rounds to the same one, and of
the number itself as long as all of them fit. -/
theorem text_nearest (n : Nat) : ∃ v : Nat, text (nearest n) = Numeral.text v ∧
    nearest v = nearest n ∧ (n ≤ 2 ^ 53 → v = n) := by
  obtain ⟨m, hm⟩ : ∃ m : Nat, nearest n = m := ⟨_, nearest_natCast n⟩
  obtain ⟨k, i, hs, hn, hk⟩ := shortest_natCast (nearest_eq_iff.mp hm).fits
  refine ⟨k * 10 ^ i, ?_, hn.trans hm.symm, ?_⟩
  · rw [hm, text, hs, positional_natCast, Numeral.text]
  · intro hle
    have hself : m = n := by
      have he := hm.symm.trans (nearest_of_fits (fits_of_le hle))
      exact_mod_cast he
    subst hself
    by_cases hi : i = 0
    · rw [hi, hk hi, Nat.pow_zero, Nat.mul_one]
    · exact eq_of_nearest_eq hle hn (Dvd.dvd.mul_left (dvd_pow_self 10 hi) k)

end Decimal

end SerialAck

/-
What escapes are, said without the function that writes them (`escapes_iff`), and that they can be
read back: `value` tells which byte an escape stands for, and so no two bytes have the same one
(`Escapes.unique`).
-/
import SerialAck.Proofs.Number.Hex
import SerialAck.Proofs.Text.Utf8
import SerialAck.Text.Escape

namespace SerialAck.Escape

/-- The letters that stand behind a backslash, for the tab, the line feed, the carriage return, the
two quotes and the backslash itself. -/
def letters : List (UInt8 × Char) :=
  [(9, 't'), (10, 'n'), (13, 'r'), (34, '"'), (39, '\x27'), (92, '\\')]

/-- From the blank to the tilde. -/
def Printable (b : UInt8) : Prop :=
  32 ≤ b.toNat ∧ b.toNat ≤ 126

/-- The ways in which a byte is escaped. -/
inductive Escapes (b : UInt8) : List Char → Prop where
  | letter {c : Char} (h : (b, c) ∈ letters) : Escapes b ['\\', c]
  | plain {c : Char} (hl : ∀ c, (b, c) ∉ letters) (hp : Printable b) (hc : c.toNat = b.toNat) :
      Escapes b [c]
  | digits {high low : Char} (hl : ∀ c, (b, c) ∉ letters) (hp : ¬ Printable b)
      (hh : "0123456789abcdef".toList[b.toNat / 16]? = some high)
      (hw : "0123456789abcdef".toList[b.toNat % 16]? = some low) :
      Escapes b ['\\', 'x', high, low]

variable {a b : UInt8} {c : Char} {cs : List Char}

/-! ## What `byte` writes -/

theorem getElem?_digit {d : Nat} (h : d < 16) :
    "0123456789abcdef".toList[d]? = some (Hex.digit d) := by
  revert d
  decide

theorem byte_of_letter (h : (b, c) ∈ letters) : byte b = ['\\', c] := by
  have hall : ∀ x ∈ letters, byte x.1 = ['\\', x.2] := by decide
  exact hall (b, c) h

theorem ne_of_no_letter (h : ∀ c, (b, c) ∉ letters) :
    b.toNat ≠ 9 ∧ b.toNat ≠ 10 ∧ b.toNat ≠ 13 ∧ ¬ (b.toNat = 34 ∨ b.toNat = 39 ∨ b.toNat = 92) := by
  have hne : ∀ n c, (n, c) ∈ letters → b.toNat ≠ n.toNat := by
    intro n c hm he
    exact h c (UInt8.toNat_inj.mp he ▸ hm)
  have hd := hne 34 '"' (by decide)
  have hs := hne 39 '\x27' (by decide)
  have hb := hne 92 '\\' (by decide)
  refine ⟨hne 9 't' (by decide), hne 10 'n' (by decide), hne 13 'r' (by decide), ?_⟩
  rintro (he | he | he)
  · exact hd he
  · exact hs he
  · exact hb he

/-- A byte without a letter of its own is escaped by its number. -/
theorem byte_of_no_letter (h : ∀ c, (b, c) ∉ letters) :
    (Printable b → byte b = [.ofNat b.toNat]) ∧
      (¬ Printable b → byte b = ['\\', 'x', Hex.digit (b.toNat / 16), Hex.digit (b.toNat % 16)]) := by
  obtain ⟨ht, hn, hr, hq⟩ := ne_of_no_letter h
  unfold byte
  dsimp only
  rw [if_neg ht, if_neg hn, if_neg hr, if_neg hq]
  constructor
  · intro hp
    exact if_pos ⟨hp.1, Nat.lt_succ_of_le hp.2⟩
  · intro hp
    exact if_neg fun hp' => hp ⟨hp'.1, Nat.le_of_lt_succ hp'.2⟩

theorem Escapes.eq_byte (h : Escapes b cs) : cs = byte b := by
  have hlt : b.toNat < 256 := b.toNat_lt
  cases h with
  | letter h => exact (byte_of_letter h).symm
  | plain hl hp hc => rw [(byte_of_no_letter hl).1 hp, ← hc, Char.ofNat_toNat]
  | digits hl hp hh hw =>
    rw [getElem?_digit (by omega)] at hh hw
    obtain rfl := Option.some.inj hh
    obtain rfl := Option.some.inj hw
    exact ((byte_of_no_letter hl).2 hp).symm

/-- Every byte has a letter, or is printable, or is neither. -/
theorem escapes_byte (b : UInt8) : Escapes b (byte b) := by
  have hlt : b.toNat < 256 := b.toNat_lt
  by_cases hl : ∃ c, (b, c) ∈ letters
  · obtain ⟨c, hl⟩ := hl
    rw [byte_of_letter hl]
    exact .letter hl
  · have hl : ∀ c, (b, c) ∉ letters := not_exists.mp hl
    by_cases hp : Printable b
    · rw [(byte_of_no_letter hl).1 hp]
      exact .plain hl hp (Utf8.toNat_val_ofNat (.inl (by omega)))
    · rw [(byte_of_no_letter hl).2 hp]
      exact .digits hl hp (getElem?_digit (by omega)) (getElem?_digit (by omega))

/-- **`byte` writes the escape** of a byte, which has but one. -/
theorem escapes_iff : Escapes b cs ↔ cs = byte b := by
  constructor
  · exact Escapes.eq_byte
  · rintro rfl
    exact escapes_byte b

/-! ## Reading back -/

/-- The number of the byte that is escaped like this. -/
def value : List Char → Nat
  | [c] => c.toNat
  | ['\\', 't'] => 9
  | ['\\', 'n'] => 10
  | ['\\', 'r'] => 13
  | ['\\', c] => c.toNat
  | _ :: _ :: digits => Hex.number 16 digits
  | [] => 0

theorem Escapes.value (h : Escapes b cs) : value cs = b.toNat := by
  have hlt : b.toNat < 256 := b.toNat_lt
  cases h with
  | letter h =>
    have hall : ∀ x ∈ letters, Escape.value ['\\', x.2] = x.1.toNat := by decide
    exact hall (b, _) h
  | plain _ _ hc => exact hc
  | digits _ _ hh hw =>
    have hhigh : b.toNat / 16 < 16 := by omega
    have hlow : b.toNat % 16 < 16 := Nat.mod_lt _ (by decide)
    rw [getElem?_digit hhigh] at hh
    rw [getElem?_digit hlow] at hw
    obtain rfl := Option.some.inj hh
    obtain rfl := Option.some.inj hw
    show Hex.number 16 [Hex.digit (b.toNat / 16), Hex.digit (b.toNat % 16)] = b.toNat
    simp only [Hex.number, List.foldl_cons, List.foldl_nil, Hex.value?_digit hhigh,
      Hex.value?_digit hlow, Option.getD_some]
    omega

theorem Escapes.unique (ha : Escapes a cs) (hb : Escapes b cs) : a = b := by
  rw [← UInt8.toNat_inj, ← ha.value, hb.value]

end SerialAck.Escape

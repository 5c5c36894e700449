/-
Text as bytes, there and back. `scan` takes a character off the front exactly where its bytes
stand (`scan_encodeChar`), and what it takes for a character is the bytes of that character
(`encode_of_scan`); so bytes are text if and only if they are the bytes of a text.
-/
import SerialAck.Text.Utf8

namespace SerialAck.Utf8

variable {a b c d : UInt8}

/-! ## What the tests on bytes say of their numbers -/

theorem width?_eq (a : UInt8) : width? a =
    if a.toNat < 128 then some 1 else if a.toNat < 194 then none else if a.toNat < 224 then some 2
    else if a.toNat < 240 then some 3 else if a.toNat < 245 then some 4 else none := by
  simp [width?, UInt8.lt_iff_toNat_lt]

theorem width?_cases {w : Nat} (h : width? a = some w) :
    (w = 1 ∧ a.toNat < 128) ∨ (w = 2 ∧ 194 ≤ a.toNat ∧ a.toNat < 224) ∨
      (w = 3 ∧ 224 ≤ a.toNat ∧ a.toNat < 240) ∨ (w = 4 ∧ 240 ≤ a.toNat ∧ a.toNat < 245) := by
  rw [width?_eq] at h
  grind

theorem isTail_iff : isTail b = true ↔ 128 ≤ b.toNat ∧ b.toNat < 192 := by
  simp only [isTail, Bool.and_eq_true, decide_eq_true_eq, UInt8.le_iff_toNat_le]
  show 128 ≤ b.toNat ∧ b.toNat ≤ 191 ↔ _
  omega

theorem isSecond_iff : isSecond a b = true ↔ 128 ≤ b.toNat ∧ b.toNat < 192 ∧
    (a.toNat = 224 → 160 ≤ b.toNat) ∧ (a.toNat = 240 → 144 ≤ b.toNat) ∧
    (a.toNat = 237 → b.toNat < 160) ∧ (a.toNat = 244 → b.toNat < 144) := by
  have eq_iff : ∀ n : UInt8, a = n ↔ a.toNat = n.toNat := fun n => UInt8.toNat_inj.symm
  simp only [isSecond, Bool.and_eq_true, decide_eq_true_eq, UInt8.le_iff_toNat_le, eq_iff]
  have e0 : (0xE0 : UInt8).toNat = 224 := rfl
  have ed : (0xED : UInt8).toNat = 237 := rfl
  have f0 : (0xF0 : UInt8).toNat = 240 := rfl
  have f4 : (0xF4 : UInt8).toNat = 244 := rfl
  simp only [e0, ed, f0, f4]
  by_cases h224 : a.toNat = 224
  · simp [h224]; omega
  · by_cases h240 : a.toNat = 240
    · simp [h240]; omega
    · by_cases h237 : a.toNat = 237
      · simp [h237]; omega
      · by_cases h244 : a.toNat = 244
        · simp [h244]; omega
        · simp [h224, h240, h237, h244]; omega

/-! ## One character off the front -/

theorem scan_one (ha : width? a = some 1) (s : List UInt8) :
    scan (a :: s) = some (.ofNat a.toNat) :: scan s := by
  rw [scan, ha]
  rfl

theorem scan_two (ha : width? a = some 2) (hb : isSecond a b = true) (s : List UInt8) :
    scan (a :: b :: s) = some (char2 a b) :: scan s := by
  rw [scan, ha]
  simp [hb]

theorem scan_three (ha : width? a = some 3) (hb : isSecond a b = true) (hc : isTail c = true)
    (s : List UInt8) : scan (a :: b :: c :: s) = some (char3 a b c) :: scan s := by
  rw [scan, ha]
  simp [hb, hc]

theorem scan_four (ha : width? a = some 4) (hb : isSecond a b = true) (hc : isTail c = true)
    (hd : isTail d = true) (s : List UInt8) :
    scan (a :: b :: c :: d :: s) = some (char4 a b c d) :: scan s := by
  rw [scan, ha]
  simp [hb, hc, hd]

/-! ## From characters to bytes

With the bytes given by what they are as numbers, the tests and the character that `scan` computes
are questions of arithmetic. -/

section

variable {x : Char} (s : List UInt8)

theorem scan_char_one (hl : x.toNat < 128) (ha : a.toNat = x.toNat) :
    scan (a :: s) = some x :: scan s := by
  have hw : width? a = some 1 := by
    rw [width?_eq, ha, if_pos hl]
  rw [scan_one hw, ha, Char.ofNat_toNat]

theorem scan_char_two (hl : 128 ≤ x.toNat) (hu : x.toNat < 2048)
    (ha : a.toNat = x.toNat / 64 % 32 + 192) (hb : b.toNat = x.toNat % 64 + 128) :
    scan (a :: b :: s) = some x :: scan s := by
  have hw : width? a = some 2 := by
    rw [width?_eq]
    grind
  have hs : isSecond a b = true := isSecond_iff.mpr (by omega)
  have hn : a.toNat % 32 * 64 + b.toNat % 64 = x.toNat := by omega
  rw [scan_two hw hs, char2, hn, Char.ofNat_toNat]

theorem scan_char_three (hl : 2048 ≤ x.toNat) (hu : x.toNat < 65536)
    (ha : a.toNat = x.toNat / 4096 % 16 + 224) (hb : b.toNat = x.toNat / 64 % 64 + 128)
    (hc : c.toNat = x.toNat % 64 + 128) : scan (a :: b :: c :: s) = some x :: scan s := by
  have hv : x.toNat < 0xD800 ∨ 0xDFFF < x.toNat ∧ x.toNat < 0x110000 := x.valid
  have hw : width? a = some 3 := by
    rw [width?_eq]
    grind
  have hs : isSecond a b = true := isSecond_iff.mpr (by omega)
  have ht : isTail c = true := isTail_iff.mpr (by omega)
  have hn : a.toNat % 16 * 4096 + b.toNat % 64 * 64 + c.toNat % 64 = x.toNat := by omega
  rw [scan_three hw hs ht, char3, hn, Char.ofNat_toNat]

theorem scan_char_four (hl : 65536 ≤ x.toNat) (ha : a.toNat = x.toNat / 262144 % 8 + 240)
    (hb : b.toNat = x.toNat / 4096 % 64 + 128) (hc : c.toNat = x.toNat / 64 % 64 + 128)
    (hd : d.toNat = x.toNat % 64 + 128) :
    scan (a :: b :: c :: d :: s) = some x :: scan s := by
  have hv : x.toNat < 0xD800 ∨ 0xDFFF < x.toNat ∧ x.toNat < 0x110000 := x.valid
  have hw : width? a = some 4 := by
    rw [width?_eq]
    grind
  have hs : isSecond a b = true := isSecond_iff.mpr (by omega)
  have ht : isTail c = true := isTail_iff.mpr (by omega)
  have hu : isTail d = true := isTail_iff.mpr (by omega)
  have hn : a.toNat % 8 * 262144 + b.toNat % 64 * 4096 + c.toNat % 64 * 64 + d.toNat % 64 =
      x.toNat := by
    omega
  rw [scan_four hw hs ht hu, char4, hn, Char.ofNat_toNat]

end

theorem scan_encodeChar (x : Char) (s : List UInt8) :
    scan (String.utf8EncodeChar x ++ s) = some x :: scan s := by
  have hbyte : ∀ n, n < 256 → (UInt8.ofNat n).toNat = n := fun n hn => by simpa using hn
  rw [String.utf8EncodeChar]
  simp only [show x.val.toNat = x.toNat from rfl]
  split
  · exact scan_char_one s (by omega) (hbyte _ (by omega))
  · split
    · exact scan_char_two s (by omega) (by omega) (hbyte _ (by omega)) (hbyte _ (by omega))
    · split
      · exact scan_char_three s (by omega) (by omega) (hbyte _ (by omega)) (hbyte _ (by omega))
          (hbyte _ (by omega))
      · exact scan_char_four s (by omega) (hbyte _ (by omega)) (hbyte _ (by omega))
          (hbyte _ (by omega)) (hbyte _ (by omega))

theorem scan_encode (cs : List Char) : scan (encode cs) = cs.map some := by
  induction cs with
  | nil => rfl
  | cons x cs ih =>
    rw [encode, List.flatMap_cons, scan_encodeChar]
    exact congrArg _ ih

/-! ## From bytes to characters -/

theorem toNat_val_ofNat {n : Nat} (h : n < 0xD800 ∨ 0xDFFF < n ∧ n < 0x110000) :
    (Char.ofNat n).val.toNat = n := by
  rw [Char.ofNat, dif_pos h]
  rfl

theorem ofNat_eq (a : UInt8) {n : Nat} (h : n = a.toNat) : UInt8.ofNat n = a := by
  rw [h, UInt8.ofNat_toNat]

theorem encodeChar_one (ha : width? a = some 1) :
    String.utf8EncodeChar (.ofNat a.toNat) = [a] := by
  have := width?_cases ha
  rw [String.utf8EncodeChar, toNat_val_ofNat (by omega), if_pos (by omega), ofNat_eq a rfl]

theorem encodeChar_two (ha : width? a = some 2) (hb : isSecond a b = true) :
    String.utf8EncodeChar (char2 a b) = [a, b] := by
  have := width?_cases ha
  have := isSecond_iff.mp hb
  rw [String.utf8EncodeChar, char2, toNat_val_ofNat (by omega), if_neg (by omega),
    if_pos (by omega), ofNat_eq a (by omega), ofNat_eq b (by omega)]

theorem encodeChar_three (ha : width? a = some 3) (hb : isSecond a b = true)
    (hc : isTail c = true) : String.utf8EncodeChar (char3 a b c) = [a, b, c] := by
  have := width?_cases ha
  have := isSecond_iff.mp hb
  have := isTail_iff.mp hc
  rw [String.utf8EncodeChar, char3, toNat_val_ofNat (by omega), if_neg (by omega),
    if_neg (by omega), if_pos (by omega), ofNat_eq a (by omega), ofNat_eq b (by omega),
    ofNat_eq c (by omega)]

theorem encodeChar_four (ha : width? a = some 4) (hb : isSecond a b = true)
    (hc : isTail c = true) (hd : isTail d = true) :
    String.utf8EncodeChar (char4 a b c d) = [a, b, c, d] := by
  have := width?_cases ha
  have := isSecond_iff.mp hb
  have := isTail_iff.mp hc
  have := isTail_iff.mp hd
  rw [String.utf8EncodeChar, char4, toNat_val_ofNat (by omega), if_neg (by omega),
    if_neg (by omega), if_neg (by omega), ofNat_eq a (by omega), ofNat_eq b (by omega),
    ofNat_eq c (by omega), ofNat_eq d (by omega)]

/-- Bytes without an ill-formed part are those of the characters that they are taken for. -/
theorem encode_of_scan {bytes : List UInt8} {cs : List Char} (h : scan bytes = cs.map some) :
    encode cs = bytes := by
  -- one character that is taken off, with its bytes before those of the rest
  have step : ∀ {x : Char} {front rest : List UInt8} {cs : List Char},
      String.utf8EncodeChar x = front → some x :: scan rest = cs.map some →
      (∀ {cs : List Char}, scan rest = cs.map some → encode cs = rest) →
      encode cs = front ++ rest := by
    intro x front rest cs hx h ih
    cases cs with
    | nil => simp at h
    | cons y cs =>
      simp only [List.map_cons, List.cons.injEq, Option.some.injEq] at h
      obtain ⟨rfl, h⟩ := h
      rw [encode, List.flatMap_cons, hx]
      exact congrArg _ (ih h)
  have stop : ∀ {l : List (Option Char)} {cs : List Char}, none :: l ≠ cs.map some := by
    intro l cs h
    cases cs <;> simp at h
  fun_induction scan bytes generalizing cs with
  | case1 =>
    obtain rfl := List.map_eq_nil_iff.mp h.symm
    rfl
  | case3 a s ha ih => exact step (encodeChar_one ha) h ih
  | case6 a b s hb _ ha ih => exact step (encodeChar_two ha (by simpa using hb)) h ih
  | case9 a b hb c s hc _ ha _ ih =>
    exact step (encodeChar_three ha (by simpa using hb) (by simpa using hc)) h ih
  | case12 a w h1 ha b hb h2 c hc h3 d s hd ih =>
    -- a character is never longer than four bytes
    have := width?_cases ha
    have : w ≠ 1 := h1
    obtain rfl : w = 4 := by omega
    exact step (encodeChar_four ha (by simpa using hb) (by simpa using hc) (by simpa using hd)) h ih
  | _ => exact absurd h stop

/-! ## Bytes that are text -/

theorem mapM_id_eq_some {l : List (Option Char)} {cs : List Char} :
    l.mapM id = some cs ↔ l = cs.map some := by
  induction l generalizing cs with
  | nil => cases cs <;> simp
  | cons x l ih =>
    rw [List.mapM_cons, Option.bind_eq_bind, Option.bind_eq_some_iff]
    constructor
    · rintro ⟨y, hx, h⟩
      obtain rfl : x = some y := hx
      obtain ⟨ys, hl, hcs⟩ := Option.bind_eq_some_iff.mp h
      obtain rfl : y :: ys = cs := by simpa using hcs
      rw [ih.mp hl, List.map_cons]
    · intro h
      cases cs with
      | nil => simp at h
      | cons y ys =>
        simp only [List.map_cons, List.cons.injEq] at h
        obtain ⟨rfl, hl⟩ := h
        refine ⟨y, rfl, ?_⟩
        rw [ih.mpr hl]
        rfl

theorem toString?_eq_some_iff {bytes : List UInt8} {s : String} :
    toString? bytes = some s ↔ bytes = ofString s := by
  rw [toString?, Option.map_eq_some_iff]
  constructor
  · rintro ⟨cs, hd, rfl⟩
    rw [ofString, String.toList_ofList]
    exact (encode_of_scan (mapM_id_eq_some.mp hd)).symm
  · rintro rfl
    exact ⟨s.toList, mapM_id_eq_some.mpr (scan_encode _), String.ofList_toList⟩

@[simp] theorem toString?_ofString (s : String) : toString? (ofString s) = some s :=
  toString?_eq_some_iff.mpr rfl

theorem ofString_append (s t : String) : ofString (s ++ t) = ofString s ++ ofString t := by
  rw [ofString, String.toList_append, encode, List.flatMap_append]
  rfl

theorem ofString_inj {s t : String} : ofString s = ofString t ↔ s = t := by
  constructor
  · intro h
    have hs := toString?_ofString s
    rw [h, toString?_ofString] at hs
    exact (Option.some.inj hs).symm
  · rintro rfl
    rfl

/-- The bytes are those that the string itself is kept as. -/
theorem ofString_eq (s : String) : ofString s = s.toUTF8.data.toList := by
  obtain ⟨l, rfl⟩ : ∃ l, s = String.ofList l := ⟨s.toList, String.ofList_toList.symm⟩
  rw [ofString, String.toList_ofList, encode]
  show _ = (List.utf8Encode l).data.toList
  rw [List.utf8Encode, List.data_toByteArray]

theorem toString?_eq_none_iff {bytes : List UInt8} :
    toString? bytes = none ↔ ¬ WellFormed bytes := by
  constructor
  · rintro h ⟨cs, rfl⟩
    have hs : toString? (encode cs) = some (.ofList cs) := by
      rw [toString?_eq_some_iff, ofString, String.toList_ofList]
    simp [h] at hs
  · intro h
    cases hs : toString? bytes with
    | none => rfl
    | some s => exact absurd ⟨s.toList, toString?_eq_some_iff.mp hs⟩ h

end SerialAck.Utf8

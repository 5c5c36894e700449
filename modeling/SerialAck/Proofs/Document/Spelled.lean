/-
Strings in double quotes read back, however their characters are spelled: as they stand, as the
escape of one letter, or by their code point in four or eight digits. `quote` is one way to spell
a string, and there is always that one (`spelled_flatMap_quoteChar`).
-/
import SerialAck.Document.Quoted

namespace SerialAck.Document.Quoted

/-- The ways to write a character between double quotes. -/
inductive Spells : Char → List Char → Prop where
  | plain {c : Char} (ht : isText c = true) (hq : c ≠ '"') (hb : c ≠ '\\') : Spells c [c]
  | letter {c x : Char} (h : short? x = some c) : Spells c ['\\', x]
  | short {c : Char} {ds : List Char} (hl : ds.length = 4) (hd : ds.all (Hex.isDigitOf 16) = true)
      (hn : Hex.number 16 ds = c.toNat) : Spells c ('\\' :: 'u' :: ds)
  | long {c : Char} {ds : List Char} (hl : ds.length = 8) (hd : ds.all (Hex.isDigitOf 16) = true)
      (hn : Hex.number 16 ds = c.toNat) : Spells c ('\\' :: 'U' :: ds)

/-- Text whose characters are spelled one after the other. -/
inductive Spelled : List Char → List Char → Prop where
  | nil : Spelled [] []
  | cons {c : Char} {cs w ws : List Char} (h : Spells c w) (hs : Spelled cs ws) :
      Spelled (c :: cs) (w ++ ws)

variable {c x : Char} {cs ds r r' w : List Char}

theorem codePoint_of_number {count : Nat} (hl : ds.length = count)
    (hd : ds.all (Hex.isDigitOf 16) = true) (hn : Hex.number 16 ds = c.toNat) :
    codePoint count (ds ++ r) = some (c, r) := by
  have ht : (ds ++ r).take count = ds := by rw [← hl, List.take_left]
  have hr : (ds ++ r).drop count = r := by rw [← hl, List.drop_left]
  have hv : (Hex.number 16 ds).isValidChar := hn ▸ c.valid
  simp only [codePoint, ht, hr]
  rw [if_pos ⟨hl, hd, hv⟩, hn, Char.ofNat_toNat]

/-! ## One step of the reader -/

theorem basic_text (ht : isText c = true) (hq : c ≠ '"') (hb : c ≠ '\\') (r : List Char) :
    basic (c :: r) = push c (basic r) := by
  rw [basic, if_neg hq, if_neg hb, if_pos ht]

theorem basic_escape (h : escape r = some (x, r')) : basic ('\\' :: r) = push x (basic r') := by
  rw [basic, if_neg (by decide), if_pos rfl]
  split
  · rename_i h'
    rw [h] at h'
    cases h'
    rfl
  · rename_i h'
    rw [h] at h'
    cases h'

theorem basic_spells (h : Spells c w) (r : List Char) : basic (w ++ r) = push c (basic r) := by
  cases h with
  | plain ht hq hb => exact basic_text ht hq hb r
  | letter h =>
    rename_i x
    have hu : x ≠ 'u' := by
      rintro rfl
      cases h
    have hU : x ≠ 'U' := by
      rintro rfl
      cases h
    have he : escape (x :: r) = some (c, r) := by
      rw [escape, if_neg hu, if_neg hU, h]
      rfl
    exact basic_escape he
  | short hl hd hn =>
    rename_i ds
    have he : escape ('u' :: (ds ++ r)) = some (c, r) := by
      rw [escape, if_pos rfl, codePoint_of_number hl hd hn]
    exact basic_escape he
  | long hl hd hn =>
    rename_i ds
    have he : escape ('U' :: (ds ++ r)) = some (c, r) := by
      rw [escape, if_neg (by decide), if_pos rfl, codePoint_of_number hl hd hn]
    exact basic_escape he

/-- **A spelled string reads back.** -/
theorem basic_spelled (h : Spelled cs w) (r : List Char) :
    basic (w ++ '"' :: r) = some (cs, r) := by
  induction h with
  | nil =>
    rw [List.nil_append, basic, if_pos rfl]
  | cons h _ ih =>
    rw [List.append_assoc, basic_spells h, ih]
    rfl

/-! ## Three quotes -/

theorem Spells.head (h : Spells c w) : ∃ a v, w = a :: v ∧ a ≠ '"' := by
  cases h with
  | plain ht hq hb => exact ⟨_, _, rfl, hq⟩
  | _ => exact ⟨'\\', _, rfl, by decide⟩

/-- A spelled string does not look like one of several lines. -/
theorem string_spelled (h : Spelled cs w) (hr : r.head? ≠ some '"') :
    string ('"' :: (w ++ '"' :: r)) = some (cs, r) := by
  have hthree : ('"' :: (w ++ '"' :: r)).take 3 ≠ ['"', '"', '"'] := by
    cases h with
    | nil =>
      cases r with
      | nil => decide
      | cons a r => simpa using hr
    | cons h _ =>
      obtain ⟨a, v, rfl, ha⟩ := h.head
      simp [ha]
  have hsingle : ('"' :: (w ++ '"' :: r)).take 3 ≠ [singleQuote, singleQuote, singleQuote] := by
    simp only [List.take_succ_cons, ne_eq, List.cons.injEq, not_and]
    intro hq
    exact absurd hq (by decide)
  rw [string, if_neg hthree, if_neg hsingle, line, if_pos rfl, basic_spelled h]

/-! ## The spelling of `quote` -/

theorem isText_iff : isText c = true ↔ c = '\t' ∨ 32 ≤ c.toNat ∧ c.toNat ≠ 127 := by
  have hle : ' ' ≤ c ↔ 32 ≤ c.toNat := by
    rw [Char.le_def, UInt32.le_iff_toNat_le]
    rfl
  have hne : c = '\x7f' ↔ c.toNat = 127 := by
    rw [← Char.toNat_inj]
    rfl
  simp [isText, hle, hne]

theorem spells_quoteChar (c : Char) : Spells c (quoteChar c) := by
  unfold quoteChar
  split
  · rename_i h
    rcases h with rfl | rfl <;> exact .letter rfl
  · rename_i h
    obtain ⟨hq, hb⟩ := not_or.mp h
    split
    · rename_i ht
      exact .plain ht hq hb
    · rename_i ht
      have hlt : c.toNat < 128 := by
        rw [isText_iff] at ht
        omega
      have hd : ∀ n < 128, ['0', '0', Hex.digit (n / 16), Hex.digit (n % 16)].all
          (Hex.isDigitOf 16) = true := by decide
      have hn : ∀ n < 128, Hex.number 16 ['0', '0', Hex.digit (n / 16), Hex.digit (n % 16)] = n := by
        decide
      exact .short rfl (hd _ hlt) (hn _ hlt)

theorem spelled_flatMap_quoteChar (cs : List Char) : Spelled cs (cs.flatMap quoteChar) := by
  induction cs with
  | nil => exact .nil
  | cons c cs ih =>
    rw [List.flatMap_cons]
    exact .cons (spells_quoteChar c) ih

end SerialAck.Document.Quoted

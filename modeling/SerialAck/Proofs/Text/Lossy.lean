/-
Bytes shown as text, whatever they are. `Splits` takes bytes apart into characters and ill-formed
parts, each part as long as it can be and still begin a character. There is only one such split,
and `scan` finds it (`splits_iff`). What is shown is therefore the text itself where bytes are text,
and where they are not it tells so (`faithful`).
-/
import SerialAck.Proofs.Text.Utf8

namespace SerialAck.Utf8

/-- Some character begins with these bytes. -/
def Begins (bytes : List UInt8) : Prop :=
  ∃ x : Char, bytes <+: String.utf8EncodeChar x

/-- No character stands here. The part that is given up is as long as a character could be begun,
but a byte at least. -/
structure IllFormed (part rest : List UInt8) : Prop where
  none : ∀ x : Char, ¬ String.utf8EncodeChar x <+: part ++ rest
  ne_nil : part ≠ []
  begun : Begins part ∨ part.length = 1
  ended : ∀ b, rest.head? = some b → ¬ Begins (part ++ [b])

/-- The bytes are these characters, with `none` for each ill-formed part. -/
inductive Splits : List UInt8 → List (Option Char) → Prop where
  | nil : Splits [] []
  | char (x : Char) {rest : List UInt8} {l : List (Option Char)} (h : Splits rest l) :
      Splits (String.utf8EncodeChar x ++ rest) (some x :: l)
  | illFormed {part rest : List UInt8} {l : List (Option Char)} (hp : IllFormed part rest)
      (h : Splits rest l) : Splits (part ++ rest) (none :: l)

/-- What the text that is shown for bytes tells of them. -/
structure Faithful (bytes : List UInt8) : Prop where
  /-- It is the one split of the bytes. -/
  lossy : ∃ l, (∀ l', Splits bytes l' ↔ l' = l) ∧
    (toString bytes).toList = l.map (·.getD replacement)
  wellFormed : WellFormed bytes → ofString (toString bytes) = bytes
  illFormed : ¬ WellFormed bytes → replacement ∈ (toString bytes).toList
  plain : replacement ∉ (toString bytes).toList → ofString (toString bytes) = bytes

variable {a b c d : UInt8} {s part rest bytes : List UInt8} {x : Char} {w : Nat}
  {l : List (Option Char)}

theorem Begins.shorten (h : Begins bytes) (hp : part <+: bytes) : Begins part := by
  obtain ⟨x, hx⟩ := h
  exact ⟨x, hp.trans hx⟩

theorem begins_char (x : Char) : Begins (String.utf8EncodeChar x) :=
  ⟨x, List.prefix_rfl⟩

/-! ## Where a character is begun -/

theorem width_of_ne_one (ha : width? a = some w) (hw : w ≠ 1) : w = 2 ∨ w = 3 ∨ w = 4 := by
  have := width?_cases ha
  omega

theorem exists_isTail : ∃ b, isTail b = true :=
  ⟨0x80, by decide⟩

theorem begins_three (ha : width? a = some 4) (hb : isSecond a b = true) (hc : isTail c = true) :
    Begins [a, b, c] := by
  obtain ⟨d, hd⟩ := exists_isTail
  refine (begins_char (char4 a b c d)).shorten ?_
  rw [encodeChar_four ha hb hc hd]
  exact ⟨[d], rfl⟩

theorem begins_two (ha : width? a = some w) (hw : w = 3 ∨ w = 4) (hb : isSecond a b = true) :
    Begins [a, b] := by
  obtain ⟨c, hc⟩ := exists_isTail
  rcases hw with rfl | rfl
  · refine (begins_char (char3 a b c)).shorten ?_
    rw [encodeChar_three ha hb hc]
    exact ⟨[c], rfl⟩
  · exact (begins_three ha hb hc).shorten ⟨[c], rfl⟩

/-! ## Where none is gone on with -/

theorem scan_none (ha : width? a = none) (s : List UInt8) : scan (a :: s) = none :: scan s := by
  rw [scan, ha]

theorem scan_one_of_two (ha : width? a = some w) (hw : w ≠ 1) (hb : isSecond a b = false)
    (s : List UInt8) : scan (a :: b :: s) = none :: scan (b :: s) := by
  rw [scan, ha]
  simp [hb]

theorem scan_two_of_three (ha : width? a = some w) (hw : w = 3 ∨ w = 4)
    (hb : isSecond a b = true) (hc : isTail c = false) (s : List UInt8) :
    scan (a :: b :: c :: s) = none :: scan (c :: s) := by
  rw [scan, ha]
  rcases hw with rfl | rfl <;> simp [hb, hc]

theorem scan_three_of_four (ha : width? a = some 4) (hb : isSecond a b = true)
    (hc : isTail c = true) (hd : isTail d = false) (s : List UInt8) :
    scan (a :: b :: c :: d :: s) = none :: scan (d :: s) := by
  rw [scan, ha]
  simp [hb, hc, hd]

/-- What `scan` gives up is no character. -/
theorem not_prefix_of_scan (h : scan bytes = none :: l) (x : Char) :
    ¬ String.utf8EncodeChar x <+: bytes := by
  intro hx
  obtain ⟨rest, rfl⟩ := hx
  rw [scan_encodeChar] at h
  cases h

/-- What it gives up whatever follows is not even the start of one. -/
theorem not_begins_of_scan (h : ∀ t, ∃ l, scan (bytes ++ t) = none :: l) : ¬ Begins bytes := by
  intro hb
  obtain ⟨x, t, hx⟩ := hb
  obtain ⟨l, hl⟩ := h t
  have hscan := scan_encodeChar x []
  rw [List.append_nil, ← hx, hl] at hscan
  cases hscan

/-! ## The split -/

/-- What `scan` takes off the front. -/
inductive Front (bytes : List UInt8) : Prop where
  | nil (h : bytes = [])
  | char (x : Char) (rest : List UInt8) (h : bytes = String.utf8EncodeChar x ++ rest)
  | illFormed (part rest : List UInt8) (h : bytes = part ++ rest) (hp : IllFormed part rest)
      (hscan : scan bytes = none :: scan rest)

/-- A part that is given up before a byte. -/
theorem Front.before (hn : part ≠ []) (hp : Begins part ∨ part.length = 1)
    (hscan : ∀ t, scan (part ++ b :: t) = none :: scan (b :: t)) : Front (part ++ b :: rest) := by
  refine .illFormed part (b :: rest) rfl ⟨not_prefix_of_scan (hscan rest), hn, hp, ?_⟩ (hscan rest)
  intro b' hb'
  obtain rfl : b = b' := Option.some.inj hb'
  refine not_begins_of_scan fun t => ⟨scan (b :: t), ?_⟩
  rw [List.append_assoc]
  exact hscan t

/-- A part that is given up where the bytes are over. -/
theorem Front.last (hn : part ≠ []) (hp : Begins part ∨ part.length = 1)
    (hscan : scan part = [none]) : Front part := by
  refine .illFormed part [] (List.append_nil part).symm ⟨?_, hn, hp, nofun⟩ hscan
  rw [List.append_nil]
  exact not_prefix_of_scan hscan

theorem front (bytes : List UInt8) : Front bytes := by
  fun_cases scan bytes with
  | case1 => exact .nil rfl
  | case2 a s ha =>
    cases s with
    | nil => exact .last (List.cons_ne_nil a []) (.inr rfl) (scan_none ha [])
    | cons b s => exact Front.before (List.cons_ne_nil a []) (.inr rfl) fun t => scan_none ha _
  | case3 a s ha => exact .char _ s (by rw [encodeChar_one ha]; rfl)
  | case4 a w hw ha =>
    refine .last (List.cons_ne_nil a []) (.inr rfl) ?_
    rw [scan, ha]
    split <;> simp_all
  | case5 a w hw ha b s hb =>
    exact Front.before (List.cons_ne_nil a []) (.inr rfl) (scan_one_of_two ha hw (by simpa using hb))
  | case6 a b s hb _ ha =>
    exact .char (char2 a b) s (by rw [encodeChar_two ha (by simpa using hb)]; rfl)
  | case7 a w hw ha b hb h2 =>
    have hw := (width_of_ne_one ha hw).resolve_left h2
    have hb : isSecond a b = true := by simpa using hb
    refine .last (List.cons_ne_nil a [b]) (.inl (begins_two ha hw hb)) ?_
    rw [scan, ha]
    rcases hw with rfl | rfl <;> simp [hb]
  | case8 a w hw ha b hb h2 c s hc =>
    have hw := (width_of_ne_one ha hw).resolve_left h2
    have hb : isSecond a b = true := by simpa using hb
    exact Front.before (List.cons_ne_nil a [b]) (.inl (begins_two ha hw hb))
      (scan_two_of_three ha hw hb (by simpa using hc))
  | case9 a b hb c s hc _ ha =>
    exact .char (char3 a b c) s
      (by rw [encodeChar_three ha (by simpa using hb) (by simpa using hc)]; rfl)
  | case10 a w hw ha b hb h2 c hc h3 =>
    obtain rfl := ((width_of_ne_one ha hw).resolve_left h2).resolve_left h3
    have hb : isSecond a b = true := by simpa using hb
    have hc : isTail c = true := by simpa using hc
    refine .last (List.cons_ne_nil a [b, c]) (.inl (begins_three ha hb hc)) ?_
    rw [scan, ha]
    simp [hb, hc]
  | case11 a w hw ha b hb h2 c hc h3 d s hd =>
    obtain rfl := ((width_of_ne_one ha hw).resolve_left h2).resolve_left h3
    have hb : isSecond a b = true := by simpa using hb
    have hc : isTail c = true := by simpa using hc
    exact Front.before (List.cons_ne_nil a [b, c]) (.inl (begins_three ha hb hc))
      (scan_three_of_four ha hb hc (by simpa using hd))
  | case12 a w hw ha b hb h2 c hc h3 d s hd =>
    obtain rfl := ((width_of_ne_one ha hw).resolve_left h2).resolve_left h3
    refine .char (char4 a b c d) s ?_
    rw [encodeChar_four ha (by simpa using hb) (by simpa using hc) (by simpa using hd)]
    rfl

theorem encodeChar_ne_nil (x : Char) : String.utf8EncodeChar x ≠ [] := by
  intro h
  have hscan := scan_encodeChar x []
  rw [h] at hscan
  cases hscan

theorem splits_scan (bytes : List UInt8) : Splits bytes (scan bytes) := by
  cases front bytes with
  | nil h =>
    subst h
    exact .nil
  | char x rest h =>
    subst h
    rw [scan_encodeChar]
    exact .char x (splits_scan rest)
  | illFormed part rest h hp hscan =>
    rw [hscan]
    subst h
    exact .illFormed hp (splits_scan rest)
termination_by bytes.length
decreasing_by
  · have := List.length_pos_iff.mpr (encodeChar_ne_nil x)
    simp_all
  · have := List.length_pos_iff.mpr hp.ne_nil
    simp_all

/-- A part that is given up is not the beginning of a longer one. -/
theorem IllFormed.eq_nil_of_append {more : List UInt8} (h : IllFormed part (more ++ rest))
    (h' : IllFormed (part ++ more) rest) : more = [] := by
  cases more with
  | nil => rfl
  | cons b more =>
    have hlen := List.length_pos_iff.mpr h.ne_nil
    have hbegins : Begins (part ++ b :: more) := by
      refine h'.begun.resolve_right fun h1 => ?_
      rw [List.length_append, List.length_cons] at h1
      omega
    refine absurd (hbegins.shorten ⟨more, ?_⟩) (h.ended b rfl)
    rw [List.append_assoc, List.singleton_append]

theorem IllFormed.unique {part' rest' : List UInt8} (h : IllFormed part rest)
    (h' : IllFormed part' rest') (he : part ++ rest = part' ++ rest') :
    part = part' ∧ rest = rest' := by
  rcases List.append_eq_append_iff.mp he with ⟨more, rfl, rfl⟩ | ⟨more, rfl, rfl⟩
  · obtain rfl := h.eq_nil_of_append h'
    simp
  · obtain rfl := h'.eq_nil_of_append h
    simp

/-- **There is just one way to take bytes apart**, and `scan` goes it. -/
theorem splits_iff : Splits bytes l ↔ l = scan bytes := by
  constructor
  · intro h
    induction h with
    | nil => rfl
    | char x _ ih => rw [scan_encodeChar, ih]
    | @illFormed part rest l hp _ ih =>
      cases front (part ++ rest) with
      | nil h => exact absurd (List.append_eq_nil_iff.mp h).1 hp.ne_nil
      | char x rest' h => exact absurd ⟨rest', h.symm⟩ (hp.none x)
      | illFormed part' rest' h hp' hscan =>
        rw [hscan, ih, (hp.unique hp' h).2]
  · intro h
    exact h ▸ splits_scan bytes

/-! ## What is shown -/

theorem decodeLossy_encode (cs : List Char) : decodeLossy (encode cs) = cs := by
  simp [decodeLossy, scan_encode, Function.comp_def]

/-- Bytes without an ill-formed part are text. -/
theorem wellFormed_of_scan (h : none ∉ scan bytes) : WellFormed bytes := by
  have hall : ∀ y ∈ scan bytes, some (y.getD replacement) = y := by
    intro y hy
    cases y with
    | none => exact absurd hy h
    | some x => rfl
  refine ⟨decodeLossy bytes, (encode_of_scan ?_).symm⟩
  rw [decodeLossy, List.map_map]
  exact ((List.map_congr_left hall).trans (List.map_id _)).symm

/-- **Bytes that are text are shown as they are, and others are told apart.** -/
theorem faithful (bytes : List UInt8) : Faithful bytes := by
  have htext : (toString bytes).toList = decodeLossy bytes := String.toList_ofList
  have hwell : WellFormed bytes → ofString (toString bytes) = bytes := by
    intro h
    obtain ⟨cs, rfl⟩ := h
    rw [ofString, htext, decodeLossy_encode]
  have hill : ¬ WellFormed bytes → replacement ∈ (toString bytes).toList := by
    intro h
    have hnone : none ∈ scan bytes := Classical.byContradiction fun hn => h (wellFormed_of_scan hn)
    rw [htext]
    exact List.mem_map_of_mem (f := (·.getD replacement)) hnone
  refine ⟨⟨scan bytes, fun _ => splits_iff, htext⟩, hwell, hill, fun hn => hwell ?_⟩
  exact Classical.byContradiction fun h => hn (hill h)

end SerialAck.Utf8

/-
Documents that are written out plainly read back. A plain document is sections with a header each,
and in a section a line for each key, with a string in double quotes or a number in decimal. Every
line reads as one statement and leaves the rest alone (`Reads`), and the statements of sections
with different names make the tree that was meant (`parse?_text`).
-/
import SerialAck.Proofs.Document.Distinct
import SerialAck.Proofs.Document.Spelled
import SerialAck.Proofs.Number.Numeral

namespace SerialAck.Document

/-- The ways to write a value. -/
inductive Writes : Value → List Char → Prop where
  | string {s : String} {w : List Char} (h : Quoted.Spelled s.toList w) :
      Writes (.string s) ('"' :: (w ++ ['"']))
  | integer {n : Nat} (h : n ≤ 0x7FFFFFFFFFFFFFFF) : Writes (.integer n) (Numeral.digits n)

/-- A name that needs no quotes. -/
structure BareName (s : String) : Prop where
  ne_nil : s.toList ≠ []
  all : s.toList.all isBare = true

instance (s : String) : Decidable (BareName s) :=
  decidable_of_iff (s.toList ≠ [] ∧ s.toList.all isBare = true)
    ⟨fun h => ⟨h.1, h.2⟩, fun h => ⟨h.ne_nil, h.all⟩⟩

/-- A key with its value, and how that is written. -/
structure Assignment where
  key : String
  value : Value
  text : List Char
  bare : BareName key
  writes : Writes value text

namespace Assignment

def line (a : Assignment) : List Char :=
  a.key.toList ++ ' ' :: '=' :: ' ' :: a.text

def entry (a : Assignment) : String × Value :=
  (a.key, a.value)

/-- A string as `quote` spells it. -/
def ofString (key : String) (bare : BareName key) (s : String) : Assignment where
  key := key
  value := .string s
  text := Quoted.quote s
  bare := bare
  writes := .string (Quoted.spelled_flatMap_quoteChar s.toList)

def ofNat (key : String) (bare : BareName key) (n : Nat) (h : n ≤ 0x7FFFFFFFFFFFFFFF) :
    Assignment where
  key := key
  value := .integer n
  text := Numeral.digits n
  bare := bare
  writes := .integer h

end Assignment

/-- A header and the keys under it. -/
structure Section where
  name : String
  assignments : List Assignment
  bare : BareName name
  nodup : (assignments.map Assignment.key).Nodup

namespace Section

def header (s : Section) : List Char :=
  '[' :: (s.name.toList ++ [']'])

/-- The lines with the statements that they are. -/
def lines (s : Section) : List (List Char × Statement) :=
  (s.header, .header [s.name]) ::
    s.assignments.map fun a => (a.line, .assign [a.key] a.value)

def entry (s : Section) : String × Value :=
  (s.name, .table .header (s.assignments.map Assignment.entry))

end Section

/-- A plain document. -/
structure Layout where
  sections : List Section
  nodup : (sections.map Section.name).Nodup

namespace Layout

def lines (d : Layout) : List (List Char × Statement) :=
  d.sections.flatMap Section.lines

def text (d : Layout) : String :=
  .ofList (d.lines.flatMap fun l => l.1 ++ ['\n'])

def entries (d : Layout) : Entries :=
  d.sections.map Section.entry

end Layout

/-! ## Numbers -/

namespace Scalar

variable {n : Nat} {r : List Char}

theorem ungroup?_of_digits {ds : List Char} (hne : ds ≠ []) (h : ∀ c ∈ ds, Numeral.IsDigit c) :
    ungroup? (Hex.isDigitOf 10) ds = some ds := by
  have hd {c : Char} (hc : c ∈ ds) : Hex.isDigitOf 10 c = true :=
    (h c hc).all (P := fun c => Hex.isDigitOf 10 c = true) (by decide)
  fun_induction ungroup? (Hex.isDigitOf 10) ds with
  | case1 => exact absurd rfl hne
  | case2 c hc => rfl
  | case3 c hc => exact absurd (hd (by simp)) hc
  | case4 c r hc ih =>
    exact absurd (h '_' (by simp)) (Numeral.not_isDigit (by decide))
  | case5 c r hc => exact absurd (hd (by simp)) hc
  | case6 c r h1 h2 hc ih =>
    rw [ih h1 (fun d hm => h d (List.mem_cons_of_mem c hm)) fun hm => hd (List.mem_cons_of_mem c hm)]
    rfl
  | case7 c r h1 h2 hc => exact absurd (hd (by simp)) hc

theorem integer?_digits (n : Nat) : integer? (Numeral.digits n) = some (n : Int) := by
  have hno {c d : Char} {r : List Char} (hc : ∀ d < 10, Numeral.digit d ≠ c) :
      Numeral.digits n ≠ d :: c :: r := by
    intro h
    have hm : c ∈ Numeral.digits n := by simp [h]
    exact Numeral.not_isDigit hc (Numeral.isDigit_of_mem hm)
  have hsign : sign (Numeral.digits n) = (false, Numeral.digits n) := by
    unfold sign
    split
    · rename_i hd
      exact absurd hd (Numeral.digits_ne_cons (Numeral.not_isDigit (by decide)))
    · rename_i hd
      exact absurd hd (Numeral.digits_ne_cons (Numeral.not_isDigit (by decide)))
    · rfl
  have hwhole : whole? (Numeral.digits n) = some (Numeral.digits n) := by
    rw [whole?, ungroup?_of_digits (Numeral.digits_ne_nil n) fun _ => Numeral.isDigit_of_mem]
    have hzero : (Numeral.digits n).length = 1 ∨ (Numeral.digits n).head? ≠ some '0' := by
      by_cases hn : n < 10
      · exact .inl (Numeral.length_digits hn)
      · exact .inr (Numeral.head?_digits (by omega))
    exact Option.filter_some_pos (decide_eq_true hzero)
  unfold integer?
  split
  · rename_i hd
    exact absurd hd (hno (by decide))
  · rename_i hd
    exact absurd hd (hno (by decide))
  · rename_i hd
    exact absurd hd (hno (by decide))
  · rw [hsign, hwhole, Option.map_some, Numeral.hexNumber_digits]
    rfl

theorem value?_digits (h : n ≤ 0x7FFFFFFFFFFFFFFF) :
    value? (Numeral.digits n) = some (.integer n) := by
  have hno {c : Char} {r : List Char} (hc : ∀ d < 10, Numeral.digit d ≠ c) :
      Numeral.digits n ≠ c :: r := Numeral.digits_ne_cons (Numeral.not_isDigit hc)
  have hr : inRange n = true := by
    rw [inRange, decide_eq_true_iff]
    omega
  rw [value?, if_neg (hno (by decide)), if_neg (hno (by decide)), integer?_digits]
  simp only
  rw [if_pos hr]

/-- A number ends with its line. -/
theorem scalar_digits (h : n ≤ 0x7FFFFFFFFFFFFFFF) (r : List Char) :
    scalar (Numeral.digits n ++ '\n' :: r) = some (.integer n, '\n' :: r) := by
  have hp : ∀ c ∈ Numeral.digits n, isPart c = true := fun c hc =>
    (Numeral.isDigit_of_mem hc).all (P := fun c => isPart c = true) (by decide)
  have hw : word (Numeral.digits n ++ '\n' :: r) = (Numeral.digits n, '\n' :: r) := by
    have ht : (Numeral.digits n ++ '\n' :: r).takeWhile isPart = Numeral.digits n := by
      rw [List.takeWhile_append_of_pos hp, List.takeWhile_cons_of_neg (by decide), List.append_nil]
    have hd : (Numeral.digits n ++ '\n' :: r).dropWhile isPart = '\n' :: r := by
      rw [List.dropWhile_append_of_pos hp, List.dropWhile_cons_of_neg (by decide)]
    rw [word, ht, hd]
    rfl
  rw [scalar, hw, value?_digits h]
  rfl

end Scalar

/-! ## Values and keys -/

variable {r : List Char} {v : Value} {w : List Char} {c : Char} {name : String}

theorem value_quote (depth : Nat) (r : List Char) : value depth ('"' :: r) =
    (Quoted.string ('"' :: r)).map fun (s, r) => (.string (.ofList s), r) := by
  rw [value.eq_def]
  rfl

theorem value_scalar {depth : Nat} (hq : c ≠ '"') (hs : c ≠ Quoted.singleQuote) (ha : c ≠ '[')
    (hb : c ≠ '\x7b') (r : List Char) : value depth (c :: r) = Scalar.scalar (c :: r) := by
  rw [value.eq_def]
  simp only
  rw [if_neg (not_or.mpr ⟨hq, hs⟩), if_neg ha, if_neg hb]

theorem value_written (h : Writes v w) (depth : Nat) (r : List Char) :
    value depth (w ++ '\n' :: r) = some (v, '\n' :: r) := by
  cases h with
  | string h =>
    rename_i s w
    have hq : Quoted.string ('"' :: (w ++ '"' :: '\n' :: r)) = some (s.toList, '\n' :: r) :=
      Quoted.string_spelled h (by simp)
    have ha : '"' :: (w ++ ['"']) ++ '\n' :: r = '"' :: (w ++ '"' :: '\n' :: r) := by simp
    rw [ha, value_quote, hq]
    simp only [Option.map_some, String.ofList_toList]
  | integer h =>
    rename_i n
    obtain ⟨c, cs, hd⟩ := List.exists_cons_of_ne_nil (Numeral.digits_ne_nil n)
    have hs := Scalar.scalar_digits h r
    have hne {x : Char} (hx : ∀ d < 10, Numeral.digit d ≠ x) : c ≠ x := by
      rintro rfl
      exact Numeral.digits_ne_cons (Numeral.not_isDigit hx) hd
    rw [hd, List.cons_append] at hs ⊢
    rw [value_scalar (hne (by decide)) (hne (by decide)) (hne (by decide)) (hne (by decide)), hs]

theorem BareName.mem (h : BareName name) (hc : c ∈ name.toList) : isBare c = true :=
  List.all_eq_true.mp h.all c hc

theorem BareName.head (h : BareName name) : ∃ c cs, name.toList = c :: cs ∧ isBare c = true := by
  obtain ⟨c, cs, hn⟩ := List.exists_cons_of_ne_nil h.ne_nil
  exact ⟨c, cs, hn, h.mem (by simp [hn])⟩

theorem ne_of_isBare {x : Char} (h : isBare c = true) (hx : isBare x = false) : c ≠ x := by
  rintro rfl
  simp [h] at hx

theorem skipBlanks_cons (h : isBlank c = false) (r : List Char) :
    skipBlanks (c :: r) = c :: r :=
  List.dropWhile_cons_of_neg (by simp [h])

theorem isBlank_of_isBare (h : isBare c = true) : isBlank c = false := by
  have hs : c ≠ ' ' := ne_of_isBare h (by decide)
  have ht : c ≠ '\t' := ne_of_isBare h (by decide)
  simp [isBlank, hs, ht]

/-- A bare name is a key, and what follows it is left but for blanks. -/
theorem key_bare (h : BareName name) {x y : Char} {r r' : List Char} (hx : isBare x = false)
    (hs : skipBlanks (x :: r) = y :: r') (hy : y ≠ '.') :
    key (name.toList ++ x :: r) = some ([name], y :: r') := by
  obtain ⟨c, cs, hn, hc⟩ := h.head
  have hp : keyPart (name.toList ++ x :: r) = some (name, x :: r) := by
    have ht : (name.toList ++ x :: r).takeWhile isBare = name.toList := by
      rw [List.takeWhile_append_of_pos fun _ => h.mem, List.takeWhile_cons_of_neg (by simp [hx]),
        List.append_nil]
    have hd : (name.toList ++ x :: r).dropWhile isBare = x :: r := by
      rw [List.dropWhile_append_of_pos fun _ => h.mem, List.dropWhile_cons_of_neg (by simp [hx])]
    unfold keyPart
    rw [ht, hd]
    split
    · rename_i hnil
      exact absurd hnil h.ne_nil
    · rw [String.ofList_toList]
  have hb : skipBlanks (name.toList ++ x :: r) = name.toList ++ x :: r := by
    rw [hn]
    exact skipBlanks_cons (isBlank_of_isBare hc) _
  have hk : keyParts (name.toList ++ x :: r).length (name.toList ++ x :: r) =
      some ([name], y :: r') := by
    obtain ⟨n, hl⟩ : ∃ n, (name.toList ++ x :: r).length = n + 1 := ⟨_, by simp [hn]; rfl⟩
    rw [hl, keyParts, hb, hp]
    simp only [hs]
    split
    · rename_i heq
      exact absurd (List.cons.inj heq).1 hy
    · rfl
  rw [key, hk]
  rfl

/-! ## Lines -/

/-- The line is a statement, whatever follows it, and neither empty nor a comment. -/
structure Reads (line : List Char) (s : Statement) : Prop where
  opens : ∃ c cs, line = c :: cs ∧ (c = '[' ∨ isBare c = true)
  reads : ∀ r, statement (line ++ '\n' :: r) = some (s, '\n' :: r)

theorem Section.reads_header (s : Section) : Reads s.header (.header [s.name]) := by
  refine ⟨⟨'[', _, rfl, .inl rfl⟩, fun r => ?_⟩
  obtain ⟨c, cs, hn, hc⟩ := s.bare.head
  have hk : key (s.name.toList ++ ']' :: '\n' :: r) = some ([s.name], ']' :: '\n' :: r) :=
    key_bare s.bare (by decide) rfl (by decide)
  have hb : c ≠ '[' := ne_of_isBare hc (by decide)
  have ha : s.header ++ '\n' :: r = '[' :: (s.name.toList ++ ']' :: '\n' :: r) := by
    simp [Section.header]
  rw [ha]
  unfold statement
  split
  · rename_i heq
    simp [hn, hb] at heq
  · rename_i r' hne heq
    obtain rfl : s.name.toList ++ ']' :: '\n' :: r = r' := by simpa using heq
    rw [hk]
    rfl
  · rename_i hne
    exact absurd rfl (hne _)

theorem Writes.head (h : Writes v w) : ∃ c cs, w = c :: cs ∧ isBlank c = false := by
  cases h with
  | string h => exact ⟨'"', _, rfl, by decide⟩
  | integer h =>
    rename_i n
    obtain ⟨c, cs, hd⟩ := List.exists_cons_of_ne_nil (Numeral.digits_ne_nil n)
    have hc : Numeral.IsDigit c := Numeral.isDigit_of_mem (by rw [hd]; exact List.mem_cons_self)
    exact ⟨c, cs, hd, hc.all (P := fun c => isBlank c = false) (by decide)⟩

theorem Assignment.reads_line (a : Assignment) : Reads a.line (.assign [a.key] a.value) := by
  obtain ⟨c, cs, hn, hc⟩ := a.bare.head
  refine ⟨⟨c, cs ++ ' ' :: '=' :: ' ' :: a.text, by simp [line, hn], .inr hc⟩, fun r => ?_⟩
  have hk : Document.key (a.line ++ '\n' :: r) =
      some ([a.key], '=' :: ' ' :: (a.text ++ '\n' :: r)) := by
    rw [line, List.append_assoc]
    exact key_bare a.bare (by decide) rfl (by decide)
  have hv : Document.value depthLimit (skipBlanks (' ' :: (a.text ++ '\n' :: r))) =
      some (a.value, '\n' :: r) := by
    obtain ⟨x, xs, hx, hb⟩ := a.writes.head
    have hs : skipBlanks (' ' :: (a.text ++ '\n' :: r)) = a.text ++ '\n' :: r := by
      rw [hx]
      exact skipBlanks_cons hb _
    rw [hs, value_written a.writes]
  have hb : c ≠ '[' := ne_of_isBare hc (by decide)
  unfold statement
  split
  · rename_i heq
    simp [line, hn, hb] at heq
  · rename_i heq
    simp [line, hn, hb] at heq
  · rw [pair, hk]
    simp only
    rw [hv]
    rfl

/-! ## The text -/

theorem Section.reads (s : Section) : ∀ l ∈ s.lines, Reads l.1 l.2 := by
  intro l hl
  rcases List.mem_cons.mp hl with rfl | hl
  · exact s.reads_header
  · obtain ⟨a, -, rfl⟩ := List.mem_map.mp hl
    exact a.reads_line

theorem Layout.reads (d : Layout) : ∀ l ∈ d.lines, Reads l.1 l.2 := by
  intro l hl
  obtain ⟨s, -, hl⟩ := List.mem_flatMap.mp hl
  exact s.reads l hl

theorem lineEnd?_newline (r : List Char) : lineEnd? ('\n' :: r) = some r := by
  rw [lineEnd?, skipBlanks_cons (by decide)]
  rfl

variable {line : List Char} {s : Statement} {fuel : Nat}

/-- A line takes one turn. -/
theorem statements_line (h : Reads line s) (fuel : Nat) (r : List Char) :
    statements (fuel + 1) (line ++ '\n' :: r) = (statements fuel r).map (s :: ·) := by
  obtain ⟨c, cs, rfl, hc⟩ := h.opens
  have hb : isBlank c = false := by
    rcases hc with rfl | hc
    · decide
    · exact isBlank_of_isBare hc
  have hs : skipBlanks (c :: cs ++ '\n' :: r) = c :: (cs ++ '\n' :: r) := skipBlanks_cons hb _
  have hne {x : Char} (h1 : x ≠ '[') (h2 : isBare x = false) : c ≠ x := by
    rcases hc with rfl | hc
    · exact h1.symm
    · exact ne_of_isBare hc h2
  have he : lineEnd? (c :: (cs ++ '\n' :: r)) = none := by
    rw [lineEnd?, skipBlanks_cons hb]
    split
    · rename_i heq
      exact absurd (List.cons.inj heq).1 (hne (by decide) (by decide))
    · unfold newline?
      split
      · rename_i heq
        cases heq
      · rename_i heq
        exact absurd (List.cons.inj heq).1 (hne (by decide) (by decide))
      · rename_i heq
        exact absurd (List.cons.inj heq).1 (hne (by decide) (by decide))
      · rfl
  have hr : statement (c :: (cs ++ '\n' :: r)) = some (s, '\n' :: r) := h.reads r
  rw [statements, hs]
  simp only
  rw [he, hr]
  simp only
  rw [lineEnd?_newline]

theorem statements_lines {ls : List (List Char × Statement)} (h : ∀ l ∈ ls, Reads l.1 l.2)
    (hf : ls.length < fuel) :
    statements fuel (ls.flatMap fun l => l.1 ++ ['\n']) = some (ls.map Prod.snd) := by
  induction ls generalizing fuel with
  | nil =>
    obtain ⟨n, rfl⟩ : ∃ n, fuel = n + 1 := ⟨fuel - 1, by simp at hf; omega⟩
    rfl
  | cons l ls ih =>
    obtain ⟨n, rfl⟩ : ∃ n, fuel = n + 1 := ⟨fuel - 1, by simp at hf; omega⟩
    have hrest := ih (fun l hl => h l (List.mem_cons_of_mem _ hl)) (by simpa using hf)
    rw [List.flatMap_cons, List.append_assoc, List.singleton_append,
      statements_line (h l List.mem_cons_self), hrest]
    rfl

/-! ## The tree -/

namespace Entries

variable {es : Entries} {key : String} {v : Value}

theorem get?_add_self (h : es.get? key = none) (v : Value) : (es.add key v).get? key = some v := by
  rw [get?] at h
  rw [get?, add, List.lookup_append, h]
  simp

theorem replace_add_self (h : es.get? key = none) (v w : Value) :
    (es.add key v).replace key w = es.add key w := by
  have hkeep : es.map (fun e => if e.1 == key then (key, w) else e) = es := by
    refine (List.map_congr_left fun e he => ?_).trans es.map_id
    have hne : e.1 ≠ key := fun hk => get?_eq_none_iff.mp h (hk ▸ List.mem_map_of_mem he)
    simp [hne]
  rw [replace, add, List.map_append, hkeep]
  simp [add]

end Entries

variable {es t : Entries}

/-- A key in the section that is being written. -/
theorem add_assign {key : String} (hn : es.get? name = none) (hk : t.get? key = none) :
    Draft.add ⟨es.add name (.table .header t), [name]⟩ (.assign [key] v) =
      some ⟨es.add name (.table .header (t.add key v)), [name]⟩ := by
  have ha : Entries.assign v [key] t = some (t.add key v) := by simp [Entries.assign, hk]
  rw [Draft.add, Entries.descend, Entries.get?_add_self hn]
  simp only
  rw [if_neg (by decide), Entries.descend, ha]
  simp only [Option.map_some, Entries.replace_add_self hn]

theorem foldlM_assign {as : List Assignment} (hn : es.get? name = none)
    (hk : (t.map Prod.fst ++ as.map Assignment.key).Nodup) :
    (as.map fun a => Statement.assign [a.key] a.value).foldlM Draft.add
        ⟨es.add name (.table .header t), [name]⟩ =
      some ⟨es.add name (.table .header (t ++ as.map Assignment.entry)), [name]⟩ := by
  induction as generalizing t with
  | nil => simp
  | cons a as ih =>
    have hnone : t.get? a.key = none := by
      refine Entries.get?_eq_none_iff.mpr fun hm => ?_
      exact (List.nodup_append.mp hk).2.2 _ hm _ List.mem_cons_self rfl
    have hnodup : ((t.add a.key a.value).map Prod.fst ++ as.map Assignment.key).Nodup := by
      simpa [Entries.add] using hk
    rw [List.map_cons, List.foldlM_cons, add_assign hn hnone]
    show List.foldlM _ _ _ = _
    rw [ih hnodup]
    simp [Entries.add, Assignment.entry]

theorem foldlM_section {d : Draft} (s : Section) (hn : d.root.get? s.name = none) :
    (s.lines.map Prod.snd).foldlM Draft.add d = some ⟨d.root ++ [s.entry], [s.name]⟩ := by
  have ho : d.add (.header [s.name]) =
      some ⟨d.root.add s.name (.table .header []), [s.name]⟩ := by
    simp [Draft.add, Draft.openAt, Entries.descend, Entries.open, hn]
  have hs : s.lines.map Prod.snd =
      .header [s.name] :: s.assignments.map fun a => Statement.assign [a.key] a.value := by
    simp [Section.lines]
  rw [hs, List.foldlM_cons, ho]
  show List.foldlM _ _ _ = _
  rw [foldlM_assign hn (by simpa using s.nodup)]
  rfl

theorem foldlM_sections {ss : List Section} {d : Draft}
    (hk : (d.root.map Prod.fst ++ ss.map Section.name).Nodup) :
    ∃ current, ((ss.flatMap Section.lines).map Prod.snd).foldlM Draft.add d =
      some ⟨d.root ++ ss.map Section.entry, current⟩ := by
  induction ss generalizing d with
  | nil => exact ⟨d.current, by simp⟩
  | cons s ss ih =>
    have hnone : d.root.get? s.name = none := by
      refine Entries.get?_eq_none_iff.mpr fun hm => ?_
      exact (List.nodup_append.mp hk).2.2 _ hm _ List.mem_cons_self rfl
    have hnodup : ((d.root ++ [s.entry]).map Prod.fst ++ ss.map Section.name).Nodup := by
      simpa [Section.entry] using hk
    obtain ⟨current, hrest⟩ := ih (d := ⟨d.root ++ [s.entry], [s.name]⟩) hnodup
    refine ⟨current, ?_⟩
    rw [List.flatMap_cons, List.map_append, List.foldlM_append, foldlM_section s hnone]
    show List.foldlM _ _ _ = _
    rw [hrest]
    simp

theorem skipMark_of_head {cs : List Char} (h : cs.head? ≠ some '\uFEFF') : skipMark cs = cs := by
  unfold skipMark
  split
  · simp at h
  · rfl

/-- There are at least as many characters as lines. -/
theorem length_le_flatMap (ls : List (List Char × Statement)) :
    ls.length ≤ (ls.flatMap fun l => l.1 ++ ['\n']).length := by
  induction ls with
  | nil => simp
  | cons l ls ih =>
    rw [List.flatMap_cons, List.length_append, List.length_append, List.length_cons,
      List.length_singleton]
    omega

/-- **A plain document reads back.** -/
theorem parse?_text (d : Layout) : parse? d.text = some d.entries := by
  have hmark : skipMark d.text.toList = d.lines.flatMap fun l => l.1 ++ ['\n'] := by
    rw [Layout.text, String.toList_ofList]
    refine skipMark_of_head ?_
    cases hl : d.lines with
    | nil => simp
    | cons l ls =>
      obtain ⟨c, cs, hc, ho⟩ := (d.reads l (by simp [hl])).opens
      have hne : c ≠ '\uFEFF' := by
        rcases ho with rfl | ho
        · decide
        · exact ne_of_isBare ho (by decide)
      simp [hc, hne]
  have hlength : d.lines.length < (d.lines.flatMap fun l => l.1 ++ ['\n']).length + 1 :=
    Nat.lt_succ_of_le (length_le_flatMap d.lines)
  have hn : ((({} : Draft).root.map Prod.fst) ++ d.sections.map Section.name).Nodup := d.nodup
  obtain ⟨current, hd⟩ := foldlM_sections hn
  have hs := statements_lines d.reads hlength
  rw [← hmark] at hs
  rw [parse?, hs, Option.bind_some, ofStatements?, Layout.lines, hd]
  simp [Layout.entries]

end SerialAck.Document

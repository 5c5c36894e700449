/-
Addresses in front of other text. What follows an address and begins with no digit and no point makes
no difference to how it is read (`read_append`): numbers end there, and a long address has come to
its closing bracket by then.
-/
import SerialAck.Address.Parser

namespace SerialAck.Address

/-- Does not go on with a digit of any base. -/
def NoDigit (r : List Char) : Prop :=
  ∀ c ∈ r.head?, Hex.value? c = none

/-- Goes on with neither a digit nor a point. -/
structure Closes (r : List Char) : Prop where
  noDigit : NoDigit r
  noPoint : r.head? ≠ some '.'

/-- What no further group begins with, neither a first one nor one behind a colon. -/
structure Ends (r : List Char) : Prop where
  closes : Closes r
  noGroup : ∀ r', mark ':' r = some r' → NoDigit r'

/-- A reader that stops before all that closes what it reads. -/
def Local {α : Type} (read : Reader α) : Prop :=
  ∀ cs w, Closes w → read (cs ++ w) = (read cs).map fun x => (x.1, x.2 ++ w)

variable {α β : Type} {c : Char} {cs r w : List Char} {room : Nat} {a : Address}

theorem noDigit_cons (h : Hex.value? c = none) : NoDigit (c :: r) := by
  rintro d ⟨⟩
  exact h

theorem closes_nil : Closes [] :=
  ⟨nofun, nofun⟩

theorem closes_cons (h : Hex.value? c = none) (hp : c ≠ '.') : Closes (c :: r) :=
  ⟨noDigit_cons h, fun he => hp (Option.some.inj he)⟩

/-! ## Numbers and octets -/

theorem NoDigit.takeWhile (h : NoDigit w) (base : Nat) : w.takeWhile (Hex.isDigitOf base) = [] ∧
    w.dropWhile (Hex.isDigitOf base) = w := by
  cases w with
  | nil => exact ⟨rfl, rfl⟩
  | cons c w =>
    have hc : Hex.isDigitOf base c = false := by
      rw [Hex.isDigitOf, h c rfl]
      rfl
    exact ⟨List.takeWhile_cons_of_neg (by simp [hc]), List.dropWhile_cons_of_neg (by simp [hc])⟩

theorem NoDigit.takeWhile_append (h : NoDigit w) (base : Nat) (cs : List Char) :
    (cs ++ w).takeWhile (Hex.isDigitOf base) = cs.takeWhile (Hex.isDigitOf base) ∧
      (cs ++ w).dropWhile (Hex.isDigitOf base) = cs.dropWhile (Hex.isDigitOf base) ++ w := by
  induction cs with
  | nil => exact h.takeWhile base
  | cons c cs ih =>
    simp only [List.cons_append, List.takeWhile_cons, List.dropWhile_cons]
    split
    · exact ⟨congrArg (c :: ·) ih.1, ih.2⟩
    · exact ⟨rfl, rfl⟩

theorem local_digits (base : Nat) : Local (digits base) := by
  intro cs w hw
  obtain ⟨ht, hd⟩ := hw.noDigit.takeWhile_append base cs
  unfold digits
  rw [ht, hd]
  split <;> rfl

/-- Digits that are taken for a value under a condition. -/
theorem local_value (base : Nat) (p : List Char → Prop) [DecidablePred p] (f : List Char → α) :
    Local fun cs =>
      match digits base cs with
      | some (ds, r) => if p ds then some (f ds, r) else none
      | none => none := by
  intro cs w hw
  dsimp only
  rw [local_digits base cs w hw]
  cases digits base cs with
  | none => rfl
  | some x =>
    dsimp only [Option.map_some]
    split <;> rfl

theorem local_number (limit : Nat) : Local (number limit) :=
  local_value 10 (fun ds => Hex.number 10 ds ≤ limit) _

theorem local_octet : Local octet :=
  local_value 10 (fun ds => ds.length ≤ 3 ∧ (ds.length = 1 ∨ ds.head? ≠ some '0') ∧
    Hex.number 10 ds ≤ 255) _

theorem local_group : Local group :=
  local_value 16 (fun ds => ds.length ≤ 4) _

theorem Local.bind {read : Reader α} {f : α → Reader β} (h : Local read) (hf : ∀ x, Local (f x)) :
    Local fun cs => (read cs).bind fun x => f x.1 x.2 := by
  intro cs w hw
  dsimp only
  rw [h cs w hw]
  cases read cs with
  | none => rfl
  | some x => exact hf x.1 x.2 w hw

theorem Local.mark {read : Reader α} (h : Local read) :
    Local fun cs => (mark '.' cs).bind read := by
  intro cs w hw
  cases cs with
  | nil =>
    cases w with
    | nil => rfl
    | cons c w =>
      have hc : c ≠ '.' := fun he => hw.noPoint (congrArg some he)
      simp [Address.mark, hc]
  | cons c cs =>
    dsimp only [List.cons_append, Address.mark]
    split
    · exact h cs w hw
    · rfl

theorem Local.pure (x : α) : Local fun cs => some (x, cs) :=
  fun _ _ _ => rfl

theorem local_octets : Local octets :=
  .bind local_octet fun a => .mark <| .bind local_octet fun b => .mark <|
    .bind local_octet fun c => .mark <| .bind local_octet fun d => .pure (⟨a, b, c, d⟩ : Octets)

/-! ## Groups -/

theorem mark_append {cs' : List Char} (h : mark c cs = some cs') (w : List Char) :
    mark c (cs ++ w) = some (cs' ++ w) := by
  cases cs with
  | nil => cases h
  | cons d cs =>
    simp only [mark, List.cons_append] at h ⊢
    split at h
    · cases h
      rw [if_pos ‹_›]
    · cases h

theorem next_append {read : Reader α} (h : Local read) (hw : Closes w) (first : Bool) (hne : cs ≠ []) :
    next first read (cs ++ w) = (next first read cs).map fun x => (x.1, x.2 ++ w) := by
  obtain ⟨c, cs, rfl⟩ := List.exists_cons_of_ne_nil hne
  cases first with
  | true => exact h (c :: cs) w hw
  | false =>
    by_cases hc : c = ':'
    · simpa [next, mark, hc] using h cs w hw
    · simp [next, mark, hc]

theorem ends_nil : Ends [] :=
  ⟨closes_nil, nofun⟩

theorem digits_eq_none (hr : NoDigit r) (base : Nat) : digits base r = none := by
  unfold digits
  rw [(hr.takeWhile base).1]

theorem octets_noDigit (hr : NoDigit r) : octets r = none := by
  simp [octets, octet, digits_eq_none hr]

theorem group_noDigit (hr : NoDigit r) : group r = none := by
  simp [group, digits_eq_none hr]

theorem Ends.next (hr : Ends r) (first : Bool) :
    next first octets r = none ∧ next first group r = none := by
  cases first with
  | true => exact ⟨octets_noDigit hr.closes.noDigit, group_noDigit hr.closes.noDigit⟩
  | false =>
    cases hm : mark ':' r with
    | none => simp [Address.next, hm]
    | some r' =>
      simp [Address.next, hm, octets_noDigit (hr.noGroup r' hm), group_noDigit (hr.noGroup r' hm)]

theorem Ends.groups (hr : Ends r) (first : Bool) (room : Nat) :
    groups first room r = ([], false, r) := by
  cases room with
  | zero => rfl
  | succ room =>
    unfold Address.groups
    rw [(hr.next first).1, (hr.next first).2, ite_self]

/-- Groups that something is left behind are the same when more follows. -/
theorem groups_append (hw : Closes w) {first : Bool} (h : (groups first room cs).2.2 ≠ []) :
    groups first room (cs ++ w) =
      ((groups first room cs).1, (groups first room cs).2.1, (groups first room cs).2.2 ++ w) := by
  induction room generalizing first cs with
  | zero => rfl
  | succ room ih =>
    by_cases hne : cs = []
    · subst hne
      rw [ends_nil.groups] at h
      exact absurd rfl h
    · have ho : (if room = 0 then none else next first octets (cs ++ w)) =
          (if room = 0 then none else next first octets cs).map fun x => (x.1, x.2 ++ w) := by
        split
        · rfl
        · exact next_append local_octets hw first hne
      unfold groups at h ⊢
      rw [ho, next_append local_group hw first hne]
      cases hx : if room = 0 then none else next first octets cs with
      | some x => rfl
      | none =>
        cases hy : next first group cs with
        | none => rfl
        | some y =>
          simp only [hx, hy] at h
          simp only [Option.map_none, Option.map_some, ih h]

theorem allGroups_append (hw : Closes w) {gs : Groups} (h : allGroups cs = some (gs, r))
    (hr : r ≠ []) : allGroups (cs ++ w) = some (gs, r ++ w) := by
  obtain ⟨head, dotted, left, hg⟩ : ∃ head dotted left, groups true 8 cs = (head, dotted, left) :=
    ⟨_, _, _, rfl⟩
  have hlocal (hl : left ≠ []) : groups true 8 (cs ++ w) = (head, dotted, left ++ w) := by
    rw [groups_append hw (by rwa [hg]), hg]
  unfold allGroups at h ⊢
  rw [hg] at h
  dsimp only at h
  split at h
  · rename_i h8
    obtain ⟨gs', hgs, he⟩ := Option.map_eq_some_iff.mp h
    cases he
    rw [hlocal hr]
    simp only [if_pos h8, hgs, Option.map_some]
  · rename_i h8
    split at h
    · cases h
    · rename_i hdot
      split at h
      · rename_i tail
        obtain ⟨gs', hgs, he⟩ := Option.map_eq_some_iff.mp h
        cases he
        rw [hlocal (List.cons_ne_nil _ _)]
        simp only [if_neg h8, if_neg hdot, List.cons_append, groups_append hw hr, hgs,
          Option.map_some]
      · cases h

/-! ## Addresses -/

theorem portNumber_append (hw : Closes w) {port : UInt16} (h : portNumber cs = some (port, r)) :
    portNumber (cs ++ w) = some (port, r ++ w) := by
  unfold portNumber at h ⊢
  obtain ⟨cs', hm, h⟩ := Option.bind_eq_some_iff.mp h
  obtain ⟨⟨n, r'⟩, hn, h⟩ := Option.bind_eq_some_iff.mp h
  cases h
  rw [mark_append hm]
  simp [local_number 65535 cs' w hw, hn]

theorem scope_append (hw : Closes w) {s : UInt32} (h : scope cs = (s, r)) (hr : r ≠ []) :
    scope (cs ++ w) = (s, r ++ w) := by
  have hlocal : (mark '%' (cs ++ w)).bind (number (UInt32.size - 1)) =
      ((mark '%' cs).bind (number (UInt32.size - 1))).map fun x => (x.1, x.2 ++ w) := by
    cases cs with
    | nil =>
      have hnil : scope [] = (0, []) := rfl
      rw [hnil] at h
      cases h
      exact absurd rfl hr
    | cons c cs =>
      dsimp only [List.cons_append, mark]
      split
      · exact local_number _ cs w hw
      · rfl
  unfold scope at h ⊢
  rw [hlocal]
  cases hx : (mark '%' cs).bind (number (UInt32.size - 1)) with
  | none =>
    rw [hx] at h
    cases h
    rfl
  | some x =>
    rw [hx] at h
    cases h
    rfl

theorem readShort_eq_some : readShort cs = some (a, r) ↔
    ∃ o behind port, octets cs = some (o, behind) ∧ portNumber behind = some (port, r) ∧
      a = .short o port := by
  unfold readShort
  constructor
  · intro h
    obtain ⟨⟨o, behind⟩, ho, h⟩ := Option.bind_eq_some_iff.mp h
    obtain ⟨⟨port, r'⟩, hp, h⟩ := Option.bind_eq_some_iff.mp h
    cases h
    exact ⟨o, behind, port, ho, hp, rfl⟩
  · rintro ⟨o, behind, port, ho, hp, rfl⟩
    simp [ho, hp]

theorem readLong_eq_some : readLong cs = some (a, r) ↔
    ∃ inner gs behind s close rest port, mark '[' cs = some inner ∧
      allGroups inner = some (gs, behind) ∧ scope behind = (s, close) ∧
      mark ']' close = some rest ∧ portNumber rest = some (port, r) ∧ a = .long gs s port := by
  unfold readLong
  constructor
  · intro h
    obtain ⟨inner, hopen, h⟩ := Option.bind_eq_some_iff.mp h
    obtain ⟨⟨gs, behind⟩, hg, h⟩ := Option.bind_eq_some_iff.mp h
    obtain ⟨s, close, hs⟩ : ∃ s close, scope behind = (s, close) := ⟨_, _, rfl⟩
    simp only [hs] at h
    obtain ⟨rest, hclose, h⟩ := Option.bind_eq_some_iff.mp h
    obtain ⟨⟨port, r'⟩, hp, h⟩ := Option.bind_eq_some_iff.mp h
    cases h
    exact ⟨inner, gs, behind, s, close, rest, port, hopen, hg, hs, hclose, hp, rfl⟩
  · rintro ⟨inner, gs, behind, s, close, rest, port, hopen, hg, hs, hclose, hp, rfl⟩
    simp [hopen, hg, hs, hclose, hp]

theorem readShort_append (hw : Closes w) (h : readShort cs = some (a, r)) :
    readShort (cs ++ w) = some (a, r ++ w) := by
  obtain ⟨o, behind, port, ho, hp, rfl⟩ := readShort_eq_some.mp h
  refine readShort_eq_some.mpr ⟨o, behind ++ w, port, ?_, portNumber_append hw hp, rfl⟩
  rw [local_octets cs w hw, ho]
  rfl

theorem readLong_append (hw : Closes w) (h : readLong cs = some (a, r)) :
    readLong (cs ++ w) = some (a, r ++ w) := by
  obtain ⟨inner, gs, behind, s, close, rest, port, hopen, hg, hs, hclose, hp, rfl⟩ :=
    readLong_eq_some.mp h
  -- The bracket is still to come, so there is something behind the groups and the scope.
  have hc : close ≠ [] := by
    rintro rfl
    cases hclose
  have hb : behind ≠ [] := by
    rintro rfl
    cases hs
    exact hc rfl
  exact readLong_eq_some.mpr ⟨inner ++ w, gs, behind ++ w, s, close ++ w, rest ++ w, port,
    mark_append hopen w, allGroups_append hw hg hb, scope_append hw hs hc, mark_append hclose w,
    portNumber_append hw hp, rfl⟩

/-- Reads an address of either kind. -/
def read : Reader Address := fun cs =>
  (readShort cs).or (readLong cs)

theorem parse?_eq_some {s : String} : parse? s = some a ↔ read s.toList = some (a, []) := by
  unfold parse? read
  split
  · rename_i b h
    rw [h]
    simp
  · rename_i h
    constructor
    · nofun
    · intro h'
      exact absurd h' (h a)

/-- Where a long address begins there is no short one. -/
theorem readShort_of_readLong (h : readLong cs = some (a, r)) (w : List Char) :
    readShort (cs ++ w) = none := by
  obtain ⟨inner, _, _, _, _, _, _, hopen, -⟩ := readLong_eq_some.mp h
  cases cs with
  | nil => cases hopen
  | cons c cs =>
    simp only [mark] at hopen
    split at hopen
    · rename_i hc
      rw [hc]
      rfl
    · cases hopen

/-- What closes an address does not become a part of it. -/
theorem read_append (hw : Closes w) (h : read cs = some (a, r)) :
    read (cs ++ w) = some (a, r ++ w) := by
  unfold read at h ⊢
  rcases Option.or_eq_some_iff.mp h with hs | ⟨-, hl⟩
  · rw [readShort_append hw hs, Option.some_or]
  · rw [readShort_of_readLong hl, readLong_append hw hl, Option.none_or]

end SerialAck.Address

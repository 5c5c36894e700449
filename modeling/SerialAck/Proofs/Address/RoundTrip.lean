/-
Addresses read back from how they are written (`parse?_toString`). Each part is read up to where the
next one begins: a group of a long address is no octet because no point comes behind it, and the run
of zeros that is left out is what is missing of eight groups (`longestZeros_spec`).
-/
import SerialAck.Proofs.Address.Extension
import SerialAck.Proofs.Number.Hex
import SerialAck.Proofs.Number.Numeral

namespace SerialAck.Address

variable {base limit n room : Nat} {c : Char} {cs ds r : List Char} {gs : List UInt16} {g : UInt16}

/-! ## Numbers -/

theorem digits_append (hne : ds ≠ []) (h : ∀ c ∈ ds, Hex.isDigitOf base c = true) (hr : NoDigit r) :
    digits base (ds ++ r) = some (ds, r) := by
  unfold digits
  rw [List.takeWhile_append_of_pos h, List.dropWhile_append_of_pos h, (hr.takeWhile base).1,
    (hr.takeWhile base).2, List.append_nil]
  split
  · exact absurd rfl hne
  · rfl

theorem digits_decimal (n : Nat) (hr : NoDigit r) :
    digits 10 (Numeral.digits n ++ r) = some (Numeral.digits n, r) :=
  digits_append (Numeral.digits_ne_nil n)
    (fun _ hc => (Numeral.isDigit_of_mem hc).all (P := fun c => Hex.isDigitOf 10 c = true)
      (by decide)) hr

theorem number_decimal (h : n ≤ limit) (hr : NoDigit r) :
    number limit (Numeral.digits n ++ r) = some (n, r) := by
  unfold number
  rw [digits_decimal n hr]
  simp only [Numeral.hexNumber_digits, if_pos h]

/-- An octet has at most three digits, and no needless zeros before them. -/
theorem octet_decimal (n : UInt8) (hr : NoDigit r) :
    octet (Numeral.digits n.toNat ++ r) = some (n, r) := by
  have hlt : n.toNat < 256 := n.toNat_lt
  have hlength : (Numeral.digits n.toNat).length ≤ 3 := Numeral.length_digits_le (by omega)
  have hhead : (Numeral.digits n.toNat).length = 1 ∨ (Numeral.digits n.toNat).head? ≠ some '0' := by
    by_cases h0 : n.toNat = 0
    · exact .inl (Numeral.length_digits (by omega))
    · exact .inr (Numeral.head?_digits (by omega))
  unfold octet
  rw [digits_decimal _ hr]
  simp only [Numeral.hexNumber_digits]
  rw [if_pos ⟨hlength, hhead, by omega⟩, UInt8.ofNat_toNat]

theorem group_hex (g : UInt16) (hr : NoDigit r) :
    group (Hex.digits g.toNat ++ r) = some (g, r) := by
  have hlength : (Hex.digits g.toNat).length ≤ 4 := Hex.length_digits_le g.toNat_lt
  unfold group
  rw [digits_append (Hex.digits_ne_nil _) (fun _ => Hex.isDigitOf_of_mem) hr]
  simp only [Hex.number_digits, if_pos hlength, UInt16.ofNat_toNat]

/-! ## Octets -/

theorem octets_text (o : Octets) (hr : NoDigit r) : octets (o.text ++ r) = some (o, r) := by
  have htext : o.text ++ r = Numeral.digits o.a.toNat ++ '.' :: (Numeral.digits o.b.toNat ++
      '.' :: (Numeral.digits o.c.toNat ++ '.' :: (Numeral.digits o.d.toNat ++ r))) := by
    simp [Octets.text, Octets.toList, List.intercalate]
  have hoctet (n : UInt8) (r : List Char) :
      octet (Numeral.digits n.toNat ++ '.' :: r) = some (n, '.' :: r) :=
    octet_decimal n (noDigit_cons rfl)
  simp [htext, octets, hoctet, octet_decimal o.d hr, mark]

theorem mark_eq_none (h : c ∉ cs) : mark c cs = none := by
  cases cs with
  | nil => rfl
  | cons d cs =>
    refine if_neg fun he => h ?_
    rw [he]
    exact List.mem_cons_self

theorem octet_rest {n : UInt8} (h : octet cs = some (n, r)) :
    r = cs.dropWhile (Hex.isDigitOf 10) := by
  unfold octet digits at h
  split at h
  · rename_i ds r' hd
    split at hd
    · cases hd
    · cases hd
      split at h
      · cases h
        rfl
      · cases h
  · cases h

/-- Without a point there are no octets. -/
theorem octets_eq_none (h : '.' ∉ cs) : octets cs = none := by
  unfold octets
  cases ho : octet cs with
  | none => rfl
  | some x =>
    obtain ⟨a, r⟩ := x
    have hr : '.' ∉ r := by
      rw [octet_rest ho]
      exact fun hm => h ((List.dropWhile_sublist _).subset hm)
    simp [mark_eq_none hr]

/-! ## Groups -/

/-- Groups with a colon before each of them. -/
def trail (gs : List UInt16) : List Char :=
  gs.flatMap fun g => ':' :: Hex.digits g.toNat

theorem colons_cons (g : UInt16) (gs : List UInt16) :
    Groups.colons (g :: gs) = Hex.digits g.toNat ++ trail gs := by
  induction gs generalizing g with
  | nil => simp [Groups.colons, trail, List.intercalate]
  | cons h gs ih =>
    have hc : Groups.colons (g :: h :: gs) = Hex.digits g.toNat ++ ':' :: Groups.colons (h :: gs) := by
      simp [Groups.colons, List.intercalate]
    rw [hc, ih]
    rfl

theorem ends_cons (h : Hex.value? c = none) (hp : c ≠ '.') (hc : c ≠ ':') : Ends (c :: r) where
  closes := closes_cons h hp
  noGroup r' hm := by
    rw [mark, if_neg hc] at hm
    cases hm

theorem ends_double (r : List Char) : Ends (':' :: ':' :: r) where
  closes := closes_cons rfl (by decide)
  noGroup r' hm := by
    cases hm
    exact noDigit_cons rfl

theorem closes_trail (gs : List UInt16) (hr : Closes r) : Closes (trail gs ++ r) := by
  cases gs with
  | nil => exact hr
  | cons g gs => exact closes_cons rfl (by decide)

theorem octets_hex (g : UInt16) (hr : Closes r) : octets (Hex.digits g.toNat ++ r) = none := by
  have hdot : '.' ∉ Hex.digits g.toNat := by
    intro hm
    have hd := Hex.isDigitOf_of_mem hm
    revert hd
    decide
  rw [local_octets _ r hr, octets_eq_none hdot]
  rfl

/-- One group that more may follow. -/
theorem groups_hex {first : Bool} (hr : Closes r)
    (h : ∀ {α : Type} (read : Reader α), next first read cs = read (Hex.digits g.toNat ++ r)) :
    groups first (room + 1) cs = (g :: (groups false room r).1, (groups false room r).2) := by
  rw [groups, h octets, octets_hex g hr, ite_self, h group, group_hex g hr.noDigit]

theorem groups_trail (h : gs.length ≤ room) (hr : Ends r) :
    groups false room (trail gs ++ r) = (gs, false, r) := by
  induction gs generalizing room with
  | nil => exact hr.groups false room
  | cons g gs ih =>
    obtain ⟨room, rfl⟩ : ∃ k, room = k + 1 := ⟨room - 1, by simp at h; omega⟩
    have htext : trail (g :: gs) ++ r = ':' :: (Hex.digits g.toNat ++ (trail gs ++ r)) := by
      simp [trail]
    rw [htext, groups_hex (closes_trail gs hr.closes) fun _ => rfl, ih (Nat.le_of_succ_le_succ h)]

/-- All groups are read when there is room for them. -/
theorem groups_colons (h : gs.length ≤ room) (hr : Ends r) :
    groups true room (Groups.colons gs ++ r) = (gs, false, r) := by
  cases gs with
  | nil => exact hr.groups true room
  | cons g gs =>
    obtain ⟨room, rfl⟩ : ∃ k, room = k + 1 := ⟨room - 1, by simp at h; omega⟩
    rw [colons_cons, List.append_assoc, groups_hex (closes_trail gs hr.closes) fun _ => rfl,
      groups_trail (Nat.le_of_succ_le_succ h) hr]

/-! ## The run of zeros -/

theorem replicate_zeros (gs : List UInt16) :
    List.replicate (Groups.zeros gs) 0 ++ gs.drop (Groups.zeros gs) = gs := by
  induction gs with
  | nil => rfl
  | cons g gs ih =>
    by_cases hg : g = 0
    · have hz : Groups.zeros (g :: gs) = Groups.zeros gs + 1 := by simp [Groups.zeros, hg]
      rw [hz, hg, List.replicate_succ, List.cons_append, List.drop_succ_cons, ih]
    · have hz : Groups.zeros (g :: gs) = 0 := by simp [Groups.zeros, hg]
      rw [hz]
      rfl

/-- What is left out are zeros, and all of it is in the list. -/
theorem longestZeros_spec (gs : List UInt16) :
    (Groups.longestZeros gs).1 + (Groups.longestZeros gs).2 ≤ gs.length ∧
      gs.take (Groups.longestZeros gs).1 ++ List.replicate (Groups.longestZeros gs).2 0 ++
        gs.drop ((Groups.longestZeros gs).1 + (Groups.longestZeros gs).2) = gs := by
  induction gs with
  | nil => exact ⟨Nat.le_refl 0, rfl⟩
  | cons g gs ih =>
    unfold Groups.longestZeros
    dsimp only
    split
    · have hle : Groups.zeros (g :: gs) ≤ (g :: gs).length := (List.takeWhile_sublist _).length_le
      rw [Nat.zero_add]
      exact ⟨hle, replicate_zeros (g :: gs)⟩
    · generalize (Groups.longestZeros gs).1 = start at *
      generalize (Groups.longestZeros gs).2 = length at *
      have he : start + 1 + length = start + length + 1 := by omega
      rw [he]
      exact ⟨Nat.succ_le_succ ih.1, congrArg (g :: ·) ih.2⟩

/-- The zeros that are missing of eight groups are those that were left out. -/
theorem fill_longestZeros (gs : Groups) :
    fill (gs.1.take (Groups.longestZeros gs.1).1)
      (gs.1.drop ((Groups.longestZeros gs.1).1 + (Groups.longestZeros gs.1).2)) = gs.1 := by
  obtain ⟨hle, heq⟩ := longestZeros_spec gs.1
  have h8 := gs.2
  have hmissing : 8 - (gs.1.take (Groups.longestZeros gs.1).1).length -
      (gs.1.drop ((Groups.longestZeros gs.1).1 + (Groups.longestZeros gs.1).2)).length =
        (Groups.longestZeros gs.1).2 := by
    rw [List.length_take, List.length_drop]
    omega
  rw [fill, hmissing]
  exact heq

/-! ## Addresses -/

theorem ofList?_eq (gs : Groups) : ofList? gs.1 = some gs :=
  dif_pos gs.2

theorem groups_ofGroups (g h : UInt16) : (Octets.ofGroups g h).groups = [g, h] := by
  have hpair (g : UInt16) :
      Octets.pair (.ofNat (g.toNat / 256)) (.ofNat (g.toNat % 256)) = g := by
    have hhigh : g.toNat / 256 < UInt8.size := Nat.div_lt_of_lt_mul g.toNat_lt
    have hlow : g.toNat % 256 < UInt8.size := Nat.mod_lt _ (by decide)
    rw [Octets.pair, UInt8.toNat_ofNat_of_lt' hhigh, UInt8.toNat_ofNat_of_lt' hlow,
      Nat.div_add_mod', UInt16.ofNat_toNat]
  rw [Octets.groups, Octets.ofGroups, hpair, hpair]

/-- The last two of eight groups, written as octets. -/
theorem allGroups_octets (o : Octets) (hr : NoDigit r) :
    allGroups ("::ffff:".toList ++ o.text ++ r) =
      (ofList? ([0, 0, 0, 0, 0, 0xFFFF] ++ o.groups)).map fun gs => (gs, r) := by
  have htext : "::ffff:".toList ++ o.text ++ r =
      ':' :: ':' :: (Hex.digits (0xFFFF : UInt16).toNat ++ (':' :: (o.text ++ r))) := by
    have hf : "::ffff:".toList = ':' :: ':' :: (Hex.digits (0xFFFF : UInt16).toNat ++ [':']) := by
      decide +kernel
    simp [hf]
  have hclose : Closes (':' :: (o.text ++ r)) := closes_cons rfl (by decide)
  have hlast : groups false 6 (':' :: (o.text ++ r)) = (o.groups, true, r) := by
    have ho : next false octets (':' :: (o.text ++ r)) = some (o, r) := octets_text o hr
    rw [groups, if_neg (by decide), ho]
  have htail : groups true 7 (Hex.digits (0xFFFF : UInt16).toNat ++ (':' :: (o.text ++ r))) =
      (0xFFFF :: o.groups, true, r) := by
    rw [groups_hex hclose fun _ => rfl, hlast]
  rw [htext, allGroups, (ends_double _).groups]
  dsimp only
  rw [if_neg (by decide), if_neg (by decide), List.length_nil, Nat.sub_zero]
  simp only [htail]
  rfl

theorem allGroups_text (gs : Groups) (hr : Ends r) :
    allGroups (Groups.text gs.1 ++ r) = some (gs, r) := by
  have h8 := gs.2
  unfold Groups.text
  split
  · rename_i g h hgs
    rw [allGroups_octets _ hr.closes.noDigit, groups_ofGroups]
    have he : [0, 0, 0, 0, 0, 0xFFFF] ++ [g, h] = gs.1 := hgs.symm
    rw [he, ofList?_eq]
    rfl
  · dsimp only
    obtain ⟨hle, -⟩ := longestZeros_spec gs.1
    have hfill := fill_longestZeros gs
    generalize (Groups.longestZeros gs.1).1 = start at *
    generalize (Groups.longestZeros gs.1).2 = length at *
    by_cases hl : length < 2
    · rw [if_pos hl, allGroups, groups_colons (Nat.le_of_eq h8) hr]
      simp only [if_pos h8, ofList?_eq, Option.map_some]
    · have hhead : (gs.1.take start).length < 8 := by
        rw [List.length_take]
        omega
      have htail : (gs.1.drop (start + length)).length ≤ 7 - (gs.1.take start).length := by
        rw [List.length_take, List.length_drop]
        omega
      rw [if_neg hl, List.append_assoc, List.cons_append, List.cons_append, allGroups,
        groups_colons (Nat.le_of_lt hhead) (ends_double _)]
      simp only [if_neg (Nat.ne_of_lt hhead), groups_colons htail hr, hfill, ofList?_eq,
        Option.map_some]
      rfl

theorem portNumber_decimal (port : UInt16) (hr : NoDigit r) :
    portNumber (':' :: (Numeral.digits port.toNat ++ r)) = some (port, r) := by
  have hle : port.toNat ≤ 65535 := Nat.le_of_lt_succ port.toNat_lt
  simp [portNumber, mark, number_decimal hle hr]

theorem scope_text (s : UInt32) (r : List Char) :
    scope (scopeText s ++ ']' :: r) = (s, ']' :: r) := by
  unfold scopeText
  split
  · rename_i h0
    rw [h0]
    rfl
  · have hle : s.toNat ≤ UInt32.size - 1 := Nat.le_of_lt_succ s.toNat_lt
    have hn : (mark '%' ('%' :: (Numeral.digits s.toNat ++ ']' :: r))).bind
        (number (UInt32.size - 1)) = some (s.toNat, ']' :: r) :=
      number_decimal hle (noDigit_cons rfl)
    rw [scope, List.cons_append, hn]
    simp only [UInt32.ofNat_toNat]

theorem ends_scope (s : UInt32) (r : List Char) : Ends (scopeText s ++ ']' :: r) := by
  unfold scopeText
  split
  · exact ends_cons rfl (by decide) (by decide)
  · exact ends_cons rfl (by decide) (by decide)

theorem readShort_text (o : Octets) (port : UInt16) :
    readShort (Address.short o port).text = some (.short o port, []) := by
  have hp := portNumber_decimal port closes_nil.noDigit
  rw [List.append_nil] at hp
  exact readShort_eq_some.mpr
    ⟨o, ':' :: Numeral.digits port.toNat, port, octets_text o (noDigit_cons rfl), hp, rfl⟩

theorem readLong_text (gs : Groups) (s : UInt32) (port : UInt16) :
    readLong (Address.long gs s port).text = some (.long gs s port, []) := by
  have htext : (Address.long gs s port).text =
      '[' :: (Groups.text gs.1 ++ (scopeText s ++ ']' :: ':' :: Numeral.digits port.toNat)) := by
    simp [text]
  have hp := portNumber_decimal port closes_nil.noDigit
  rw [List.append_nil] at hp
  rw [htext]
  exact readLong_eq_some.mpr ⟨_, gs, _, s, _, _, port, rfl, allGroups_text gs (ends_scope s _),
    scope_text s _, rfl, hp, rfl⟩

theorem read_text (a : Address) : read a.text = some (a, []) := by
  cases a with
  | short o port => rw [read, readShort_text, Option.some_or]
  | long gs s port =>
    have hl := readLong_text gs s port
    have hs := readShort_of_readLong hl []
    rw [List.append_nil] at hs
    rw [read, hs, hl, Option.none_or]

/-- **Addresses read back** as they are written. -/
theorem parse?_toString (a : Address) : parse? a.toString = some a := by
  rw [parse?_eq_some, toString, String.toList_ofList]
  exact read_text a

/-- Of runs of one length the first is left out. -/
example : (Address.long ⟨[0, 0, 1, 0, 0, 2, 0, 0], rfl⟩ 7 80).toString = "[::1:0:0:2:0:0%7]:80" := by
  decide +kernel

end SerialAck.Address

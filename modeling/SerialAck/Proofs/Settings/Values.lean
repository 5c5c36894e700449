/-
The values of settings. `Choice.IsValue` says of bytes for which choice they are a value, and what is
read of bytes is just that choice (`read_eq_ok`); there are no other values.
-/
import SerialAck.Proofs.Number.Numeral
import SerialAck.Proofs.Settings.Choices
import SerialAck.Proofs.Text.Utf8

namespace SerialAck.Settings.Choice

/-- The bytes are a value for the choice, as a word or a variable may have it. -/
def IsValue : Choice → List UInt8 → Prop
  | .config path, v => path ≠ [] ∧ v = path
  | .host text, v | .ack text, v | .level text, v => v = Utf8.ofString text
  | .port n, v => ∃ cs, v = Utf8.encode cs ∧ Numeral.Signed cs n.toNat
  | .mode m, v => v = Utf8.ofString m.name
  | .idle n, v => ∃ cs, v = Utf8.encode cs ∧ Numeral.Unsigned cs n.toNat

variable {v : List UInt8} {c : Choice} {s : Setting} {text : String} {m : ReadMode}

theorem readPath_eq_ok {path : List UInt8} : readPath v = .ok path ↔ path ≠ [] ∧ v = path := by
  cases v with
  | nil =>
    simp only [readPath, reduceCtorEq, false_iff, not_and]
    exact fun hne he => hne he.symm
  | cons b v =>
    simp only [readPath, Except.ok.injEq]
    constructor
    · intro he
      exact ⟨he ▸ List.cons_ne_nil b v, he⟩
    · exact And.right

theorem readText_eq_ok : readText v = .ok text ↔ v = Utf8.ofString text := by
  rw [← Utf8.toString?_eq_some_iff, readText]
  cases Utf8.toString? v <;> simp

theorem readNumber_eq_ok {α : Type} {parse : String → Except NumberFault α} {a : α} :
    readNumber parse v = .ok a ↔ ∃ cs, v = Utf8.encode cs ∧ parse (.ofList cs) = .ok a := by
  rw [readNumber, bind_eq_ok]
  constructor
  · intro h
    obtain ⟨text, ht, hp⟩ := h
    refine ⟨text.toList, readText_eq_ok.mp ht, ?_⟩
    rw [String.ofList_toList]
    cases hr : parse text with
    | ok n =>
      rw [hr] at hp
      cases hp
      rfl
    | error f =>
      rw [hr] at hp
      cases hp
  · intro h
    obtain ⟨cs, hv, hp⟩ := h
    refine ⟨.ofList cs, readText_eq_ok.mpr ?_, ?_⟩
    · rw [hv, Utf8.ofString, String.toList_ofList]
    · rw [hp]

theorem parsePort_eq_ok {n : UInt16} :
    parsePort text = .ok n ↔ Numeral.Signed text.toList n.toNat := by
  have hlt : n.toNat < 65536 := n.toNat_lt
  unfold parsePort
  constructor
  · intro h
    cases hr : Numeral.readSigned text.toList with
    | error f => simp [hr] at h
    | ok z =>
      simp only [hr, portOfInt] at h
      split at h
      · rename_i hz
        cases h
        have hn : ((UInt16.ofNat z.toNat).toNat : Int) = z := by
          rw [UInt16.toNat_ofNat_of_lt' (show z.toNat < 65536 by omega), Int.toNat_of_nonneg hz.1]
        rw [hn]
        exact (Numeral.readSigned_eq_ok.mp hr).1
      · cases h
  · intro h
    have hr : Numeral.readSigned text.toList = .ok (n.toNat : Int) :=
      Numeral.readSigned_eq_ok.mpr ⟨h, by omega, by omega⟩
    simp only [hr, portOfInt]
    rw [if_pos (by omega), Int.toNat_natCast, UInt16.ofNat_toNat]

theorem parseSeconds_eq_ok {n : UInt64} :
    parseSeconds text = .ok n ↔ Numeral.Unsigned text.toList n.toNat := by
  unfold parseSeconds
  constructor
  · intro h
    cases hr : Numeral.readUnsigned text.toList with
    | error f => simp [hr] at h
    | ok m =>
      simp only [hr] at h
      cases h
      obtain ⟨hu, hm⟩ := Numeral.readUnsigned_eq_ok.mp hr
      rwa [UInt64.toNat_ofNat_of_lt' hm]
  · intro h
    have hr : Numeral.readUnsigned text.toList = .ok n.toNat :=
      Numeral.readUnsigned_eq_ok.mpr ⟨h, n.toNat_lt⟩
    simp only [hr, UInt64.ofNat_toNat]

theorem readPort_eq_ok {n : UInt16} :
    readNumber parsePort v = .ok n ↔ ∃ cs, v = Utf8.encode cs ∧ Numeral.Signed cs n.toNat := by
  simp only [readNumber_eq_ok, parsePort_eq_ok, String.toList_ofList]

theorem readSeconds_eq_ok {n : UInt64} :
    readNumber parseSeconds v = .ok n ↔ ∃ cs, v = Utf8.encode cs ∧ Numeral.Unsigned cs n.toNat := by
  simp only [readNumber_eq_ok, parseSeconds_eq_ok, String.toList_ofList]

theorem readMode_eq_name : readMode v = .ok m ↔ v = Utf8.ofString m.name := by
  rw [← Utf8.toString?_eq_some_iff, readMode]
  cases Utf8.toString? v with
  | none => simp
  | some text =>
    rw [Option.bind_some, Option.some.injEq, ← ofName?_eq_some]
    cases ReadMode.ofName? text <;> simp

/-- **A value is read as the choice that it is for**, and nothing but values is read. -/
theorem read_eq_ok : Choice.read s v = .ok c ↔ c.setting = s ∧ c.IsValue v := by
  constructor
  · intro h
    refine ⟨setting_of_read h, ?_⟩
    cases s <;> obtain ⟨a, ha, rfl⟩ := map_eq_ok.mp h
    case config => exact readPath_eq_ok.mp ha
    case host | ack | level => exact readText_eq_ok.mp ha
    case port => exact readPort_eq_ok.mp ha
    case mode => exact readMode_eq_name.mp ha
    case idle => exact readSeconds_eq_ok.mp ha
  · intro h
    obtain ⟨rfl, hv⟩ := h
    cases c with
    | config path => exact map_eq_ok.mpr ⟨path, readPath_eq_ok.mpr hv, rfl⟩
    | host text | ack text | level text => exact map_eq_ok.mpr ⟨text, readText_eq_ok.mpr hv, rfl⟩
    | port n => exact map_eq_ok.mpr ⟨n, readPort_eq_ok.mpr hv, rfl⟩
    | mode m => exact map_eq_ok.mpr ⟨m, readMode_eq_name.mpr hv, rfl⟩
    | idle n => exact map_eq_ok.mpr ⟨n, readSeconds_eq_ok.mpr hv, rfl⟩

end SerialAck.Settings.Choice

/-
Which documents are configuration files. Every value is looked at by itself, so that a document
loads if each of its values fits the setting it is for, whatever becomes of the setting afterwards
(`exists_ofEntries_iff`).
-/
import SerialAck.Proofs.Settings.FileLayer

namespace SerialAck.Settings

open Document (Value Entries)

variable {v : Value}

/-! ## One value -/

theorem string_eq_ok {s : String} : string v = .ok s ↔ v = .string s := by
  cases v <;> simp [string]

theorem natural_eq_ok {limit n : Nat} {wanted : Wanted} :
    natural limit wanted v = .ok n ↔ v = .integer n ∧ n ≤ limit := by
  cases v with
  | integer i =>
    simp only [natural, Value.integer.injEq]
    split
    · simp only [Except.ok.injEq]
      omega
    · simp only [reduceCtorEq, false_iff]
      omega
  | _ => simp [natural]

theorem port_eq_ok {n : UInt16} : port v = .ok n ↔ v = .integer n.toNat := by
  rw [port, map_eq_ok]
  constructor
  · rintro ⟨m, hm, rfl⟩
    obtain ⟨rfl, hle⟩ := natural_eq_ok.mp hm
    rw [UInt16.toNat_ofNat_of_lt' (Nat.lt_succ_of_le hle)]
  · rintro rfl
    exact ⟨n.toNat, natural_eq_ok.mpr ⟨rfl, Nat.le_of_lt_succ n.toNat_lt⟩, UInt16.ofNat_toNat⟩

theorem seconds_eq_ok {n : UInt64} : seconds v = .ok n ↔ v = .integer n.toNat := by
  rw [seconds, map_eq_ok]
  constructor
  · rintro ⟨m, hm, rfl⟩
    obtain ⟨rfl, hle⟩ := natural_eq_ok.mp hm
    rw [UInt64.toNat_ofNat_of_lt' (Nat.lt_of_le_pred (by decide) hle)]
  · rintro rfl
    exact ⟨n.toNat, natural_eq_ok.mpr ⟨rfl, Nat.le_pred_of_lt n.toNat_lt⟩, UInt64.ofNat_toNat⟩

theorem namedMode_eq_ok {s : String} {m : ReadMode} : namedMode s = .ok m ↔ s = m.name := by
  rw [← ofName?_eq_some, namedMode]
  cases ReadMode.ofName? s <;> simp

theorem mode_eq_ok {m : ReadMode} : mode v = .ok m ↔ v = .string m.name ∨
    ∃ form inner, v = .table form [(m.name, inner)] ∧ isEmpty inner = true := by
  unfold mode
  split
  · simp [namedMode_eq_ok]
  · rename_i form name inner
    rw [bind_eq_ok]
    constructor
    · rintro ⟨m', hm, h⟩
      split at h
      · rename_i he
        cases h
        exact .inr ⟨form, inner, by rw [namedMode_eq_ok.mp hm], he⟩
      · cases h
    · rintro (h | ⟨form', inner', h, he⟩)
      · cases h
      · cases h
        exact ⟨m, namedMode_eq_ok.mpr rfl, if_pos he⟩
  · rename_i hs ht
    simp only [reduceCtorEq, false_iff]
    rintro (rfl | ⟨form, inner, rfl, -⟩)
    · exact hs _ rfl
    · exact ht _ _ _ rfl

/-- The values that a document may hold for a setting. -/
def Setting.Admits : Setting → Value → Prop
  | .config, _ => False
  | .host, v | .ack, v | .level, v => ∃ s, v = .string s
  | .port, v => ∃ n : UInt16, v = .integer n.toNat
  | .idle, v => ∃ n : UInt64, v = .integer n.toNat
  | .mode, v => ∃ m : ReadMode, v = .string m.name ∨
      ∃ form inner, v = .table form [(m.name, inner)] ∧ isEmpty inner = true

theorem Setting.admits_port {n : Int} : Setting.port.Admits (.integer n) ↔ 0 ≤ n ∧ n ≤ 65535 := by
  constructor
  · intro h
    obtain ⟨m, hm⟩ := h
    obtain rfl := Value.integer.inj hm
    have hlt : m.toNat < 65536 := m.toNat_lt
    omega
  · intro h
    refine ⟨.ofNat n.toNat, congrArg Value.integer ?_⟩
    rw [UInt16.toNat_ofNat_of_lt' (show n.toNat < 65536 by omega), Int.toNat_of_nonneg h.1]

/-- No number of a document is too large for seconds. -/
theorem Setting.admits_idle {n : Int} (hr : Document.Scalar.inRange n = true) :
    Setting.idle.Admits (.integer n) ↔ 0 ≤ n := by
  constructor
  · intro h
    obtain ⟨m, hm⟩ := h
    obtain rfl := Value.integer.inj hm
    exact Int.natCast_nonneg _
  · intro h
    have hle : n ≤ 0x7FFFFFFFFFFFFFFF := (of_decide_eq_true hr).2
    refine ⟨.ofNat n.toNat, congrArg Value.integer ?_⟩
    rw [UInt64.toNat_ofNat_of_lt' (show n.toNat < 18446744073709551616 by omega),
      Int.toNat_of_nonneg h]

/-- The values that can be a section. -/
def IsSection : Value → Prop
  | .table .. | .array _ | .tables _ | .moment => True
  | .string _ | .integer _ | .real _ | .boolean _ => False

/-- What a document has to be like to be a configuration file. -/
structure File.Fit (es : Entries) : Prop where
  sections : ∀ name ∈ ["server", "session", "logging"], ∀ v, es.get? name = some v → IsSection v
  /-- A session section that is a sequence does not end before the acknowledgment. -/
  complete : ∀ v n, es.get? "session" = some v → sequenceLength? v = some n → 2 ≤ n
  values : ∀ (s : Setting) (v : Value), File.value? es s = some v → s.Admits v

/-! ## Entries put one after the other -/

section

variable {α : Type} {put : α → String × Value → Fits α} {names : List String} {wanted : Wanted}
  {P : String → Value → Prop} {es : Entries} {a : α}

/-- Whether an entry can be put is a matter of the entry alone. -/
def PutsAll (put : α → String × Value → Fits α) (P : String → Value → Prop) : Prop :=
  ∀ a k v, (∃ a', put a (k, v) = .ok a') ↔ P k v

theorem PutsAll.foldlM (hp : PutsAll put P) :
    (∃ a', es.foldlM put a = .ok a') ↔ ∀ e ∈ es, P e.1 e.2 := by
  induction es generalizing a with
  | nil => simp [pure, Except.pure]
  | cons e es ih =>
    rw [List.forall_mem_cons, ← hp a e.1 e.2]
    constructor
    · rintro ⟨a', h⟩
      obtain ⟨b, hb, h⟩ := bind_eq_ok.mp h
      exact ⟨⟨b, hb⟩, ih.mp ⟨a', h⟩⟩
    · rintro ⟨⟨b, hb⟩, h⟩
      obtain ⟨a', h⟩ := ih (a := b) |>.mpr h
      exact ⟨a', bind_eq_ok.mpr ⟨b, hb, h⟩⟩

theorem PutsAll.fill (hp : PutsAll put P) :
    (∃ a', fill put names wanted a v = .ok a') ↔
      IsSection v ∧ ∀ e ∈ sectionEntries names v, P e.1 e.2 := by
  cases v with
  | table form es => simp only [Settings.fill, IsSection, true_and, hp.foldlM, sectionEntries]
  | array vs => simp only [Settings.fill, IsSection, true_and, hp.foldlM, sectionEntries]
  | tables ts => simp only [Settings.fill, IsSection, true_and, hp.foldlM, sectionEntries]
  | moment => simp [Settings.fill, IsSection, sectionEntries]
  | _ => simp [Settings.fill, IsSection]

end

variable {es : Entries}

/-! ## Sections and their settings -/

theorem ServerSection.putsAll : PutsAll put fun k v => (k = "host" → Setting.host.Admits v) ∧
    (k = "port" → Setting.port.Admits v) ∧ (k = "idle_timeout" → Setting.idle.Admits v) := by
  intro s k v
  simp only [put_eq_ok, string_eq_ok, port_eq_ok, seconds_eq_ok, Setting.Admits, names]
  grind

theorem SessionSection.putsAll : PutsAll put fun k v =>
    (k = "mode" → Setting.mode.Admits v) ∧ (k = "ack" → Setting.ack.Admits v) := by
  intro s k v
  simp only [put_eq_ok, string_eq_ok, mode_eq_ok, Setting.Admits, names]
  grind

theorem LoggingSection.putsAll : PutsAll put fun k v => k = "level" → Setting.level.Admits v := by
  intro s k v
  simp only [put_eq_ok, string_eq_ok, Setting.Admits, names]
  grind

theorem File.putsAll : PutsAll put fun k v =>
    (k = "server" → ∃ s, Settings.server v = .ok s) ∧
      (k = "session" → ∃ s, Settings.session v = .ok s) ∧
      (k = "logging" → ∃ s, Settings.logging v = .ok s) := by
  intro f k v
  simp only [put_eq_ok]
  grind

theorem exists_session : (∃ s, session v = .ok s) ↔
    (∃ s, fill SessionSection.put SessionSection.names .session {} v = .ok s) ∧
      ∀ n, sequenceLength? v = some n → 2 ≤ n := by
  have hany : (sequenceLength? v).any (· < 2) = false ↔
      ∀ n, sequenceLength? v = some n → 2 ≤ n := by
    cases sequenceLength? v with
    | none => simp
    | some n => simp only [Option.any_some, decide_eq_false_iff_not, Nat.not_lt, Option.some.injEq,
        forall_eq']
  rw [← hany]
  unfold session
  constructor
  · rintro ⟨s, h⟩
    obtain ⟨s', hf, h⟩ := bind_eq_ok.mp h
    split at h
    · cases h
    · rename_i hs
      exact ⟨⟨s', hf⟩, by simpa using hs⟩
  · rintro ⟨⟨s, hf⟩, hs⟩
    exact ⟨s, bind_eq_ok.mpr ⟨s, hf, by rw [hs]; rfl⟩⟩

/-! ## Whole documents -/

namespace File

theorem valueIn?_of_mem {names : List String} {name key : String} {e : String × Value}
    (ho : es.Orderly) (hn : names.Nodup) (hv : es.get? name = some v)
    (he : e ∈ sectionEntries names v) (hk : e.1 = key) :
    valueIn? es name names key = some e.2 := by
  obtain ⟨_, w⟩ := e
  obtain rfl := hk
  rw [valueIn?, hv]
  exact Entries.get?_of_mem (nodup_sectionEntries hn (ho.value hv)) he

theorem mem_of_valueIn? {names : List String} {name key : String}
    (h : valueIn? es name names key = some v) :
    ∃ w, es.get? name = some w ∧ (key, v) ∈ sectionEntries names w := by
  obtain ⟨w, hw, hv⟩ := Option.bind_eq_some_iff.mp h
  exact ⟨w, hw, Entries.mem_of_get? hv⟩

/-- What a document holds for a setting is one of its values. -/
theorem orderly_value? {s : Setting} (ho : es.Orderly) (h : value? es s = some v) :
    Document.Orderly v := by
  have held {names : List String} {name key : String}
      (h : valueIn? es name names key = some v) : Document.Orderly v := by
    obtain ⟨w, hw, hm⟩ := mem_of_valueIn? h
    cases ho.value hw with
    | table _ hes => exact hes _ hm
    | array hvs => exact hvs _ (List.of_mem_zip hm).2
    | tables hn hts =>
      obtain ⟨t, ht, he⟩ := List.mem_map.mp (List.of_mem_zip hm).2
      exact he ▸ .table (hn t ht) (hts t ht)
    | _ => cases hm
  cases s with
  | config => cases h
  | _ => exact held h

theorem fit_of_ofEntries (h : ∃ f, ofEntries es = .ok f) : Fit es := by
  have h := putsAll.foldlM.mp h
  have server {v : Value} (hv : es.get? "server" = some v) :=
    ServerSection.putsAll.fill.mp ((h _ (Entries.mem_of_get? hv)).1 rfl)
  have session {v : Value} (hv : es.get? "session" = some v) :=
    exists_session.mp ((h _ (Entries.mem_of_get? hv)).2.1 rfl)
  have filled {v : Value} (hv : es.get? "session" = some v) :=
    SessionSection.putsAll.fill.mp (session hv).1
  have logging {v : Value} (hv : es.get? "logging" = some v) :=
    LoggingSection.putsAll.fill.mp ((h _ (Entries.mem_of_get? hv)).2.2 rfl)
  refine ⟨fun name hm v hv => ?_, fun v n hv hn => (session hv).2 n hn, fun s v hv => ?_⟩
  · have hm : name = "server" ∨ name = "session" ∨ name = "logging" := by simpa using hm
    rcases hm with rfl | rfl | rfl
    · exact (server hv).1
    · exact (filled hv).1
    · exact (logging hv).1
  · cases s with
    | config => cases hv
    | host =>
      obtain ⟨w, hw, hv⟩ := mem_of_valueIn? hv
      exact ((server hw).2 _ hv).1 rfl
    | port =>
      obtain ⟨w, hw, hv⟩ := mem_of_valueIn? hv
      exact ((server hw).2 _ hv).2.1 rfl
    | idle =>
      obtain ⟨w, hw, hv⟩ := mem_of_valueIn? hv
      exact ((server hw).2 _ hv).2.2 rfl
    | mode =>
      obtain ⟨w, hw, hv⟩ := mem_of_valueIn? hv
      exact ((filled hw).2 _ hv).1 rfl
    | ack =>
      obtain ⟨w, hw, hv⟩ := mem_of_valueIn? hv
      exact ((filled hw).2 _ hv).2 rfl
    | level =>
      obtain ⟨w, hw, hv⟩ := mem_of_valueIn? hv
      exact (logging hw).2 _ hv rfl

theorem Fit.exists_ofEntries (ho : es.Orderly) (h : Fit es) : ∃ f, ofEntries es = .ok f := by
  refine putsAll.foldlM.mpr ?_
  rintro ⟨name, v⟩ he
  have hv := Entries.get?_of_mem ho.nodup he
  have section_ : name ∈ ["server", "session", "logging"] → IsSection v := fun hm =>
    h.sections name hm v hv
  refine ⟨?_, ?_, ?_⟩
  · rintro rfl
    have hn : ServerSection.names.Nodup := by decide
    refine ServerSection.putsAll.fill.mpr ⟨section_ (by simp), fun e he => ⟨?_, ?_, ?_⟩⟩
    · exact fun hk => h.values .host _ (valueIn?_of_mem ho hn hv he hk)
    · exact fun hk => h.values .port _ (valueIn?_of_mem ho hn hv he hk)
    · exact fun hk => h.values .idle _ (valueIn?_of_mem ho hn hv he hk)
  · rintro rfl
    have hn : SessionSection.names.Nodup := by decide
    refine exists_session.mpr ⟨?_, fun n hl => h.complete v n hv hl⟩
    refine SessionSection.putsAll.fill.mpr ⟨section_ (by simp), fun e he => ⟨?_, ?_⟩⟩
    · exact fun hk => h.values .mode _ (valueIn?_of_mem ho hn hv he hk)
    · exact fun hk => h.values .ack _ (valueIn?_of_mem ho hn hv he hk)
  · rintro rfl
    have hn : LoggingSection.names.Nodup := by decide
    refine LoggingSection.putsAll.fill.mpr ⟨section_ (by simp), fun e he hk => ?_⟩
    exact h.values .level _ (valueIn?_of_mem ho hn hv he hk)

/-- **A document loads if and only if each of its values fits**, whatever else it holds. -/
theorem exists_ofEntries_iff (ho : es.Orderly) : (∃ f, ofEntries es = .ok f) ↔ Fit es :=
  ⟨fit_of_ofEntries, Fit.exists_ofEntries ho⟩

end File

end SerialAck.Settings

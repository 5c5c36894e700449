/-
A layer as a document. Each setting but the path has a place in a document, a section and a key,
and a plain document that holds the choices of a layer at these places, and nothing else there,
loads as the layer (`parse_of_holds`). There is such a document for every layer whose seconds are
within the numbers of a document (`holds_layout`).
-/
import SerialAck.Proofs.Document.Written
import SerialAck.Proofs.Settings.Fit
import SerialAck.Proofs.Settings.Precedence

namespace SerialAck.Settings

open Document (Value Entries Layout Section Assignment BareName)

/-- The section and the key of a setting. -/
def Setting.place? : Setting → Option (String × String)
  | .config => none
  | .host => some ("server", "host")
  | .port => some ("server", "port")
  | .idle => some ("server", "idle_timeout")
  | .mode => some ("session", "mode")
  | .ack => some ("session", "ack")
  | .level => some ("logging", "level")

/-- The value that stands for a choice in a document. -/
def Choice.value? : Choice → Option Value
  | .config _ => none
  | .host text | .ack text | .level text => some (.string text)
  | .port number => some (.integer number.toNat)
  | .mode m => some (.string m.name)
  | .idle seconds => some (.integer seconds.toNat)

/-- The document has the value under the key in the section. -/
def Says (d : Layout) (name key : String) (v : Value) : Prop :=
  ∃ s ∈ d.sections, s.name = name ∧ ∃ a ∈ s.assignments, a.key = key ∧ a.value = v

/-- At the place of each setting the document has what the layer chooses, and else nothing. -/
def Holds (d : Layout) (cs : Choices) : Prop :=
  ∀ s name key, s.place? = some (name, key) →
    ∀ v, Says d name key v ↔ (cs.get? s).bind Choice.value? = some v

variable {d : Layout} {cs : Choices} {c : Choice} {s : Setting} {v : Value} {name key : String}

/-! ## What the document says -/

theorem get?_entries : d.entries.get? name = some v ↔ ∃ s ∈ d.sections, s.entry = (name, v) := by
  have hn : (d.entries.map Prod.fst).Nodup := by
    have he : d.entries.map Prod.fst = d.sections.map Section.name := by
      simp [Layout.entries, Section.entry, Function.comp_def]
    rw [he]
    exact d.nodup
  rw [Entries.get?_eq_some_iff hn, Layout.entries, List.mem_map]

theorem valueIn?_entries (names : List String) :
    File.valueIn? d.entries name names key = some v ↔ Says d name key v := by
  have hn (s : Section) : ((s.assignments.map Assignment.entry).map Prod.fst).Nodup := by
    have he : (s.assignments.map Assignment.entry).map Prod.fst =
        s.assignments.map Assignment.key := by
      simp [Assignment.entry, Function.comp_def]
    rw [he]
    exact s.nodup
  have hk (s : Section) : Entries.get? (s.assignments.map Assignment.entry) key = some v ↔
      ∃ a ∈ s.assignments, a.key = key ∧ a.value = v := by
    rw [Entries.get?_eq_some_iff (hn s), List.mem_map]
    simp [Assignment.entry]
  rw [File.valueIn?, Option.bind_eq_some_iff]
  constructor
  · rintro ⟨w, hw, hv⟩
    obtain ⟨s, hs, he⟩ := get?_entries.mp hw
    obtain ⟨rfl, rfl⟩ := Prod.mk.inj he
    exact ⟨s, hs, rfl, (hk s).mp hv⟩
  · rintro ⟨s, hs, rfl, ha⟩
    exact ⟨_, get?_entries.mpr ⟨s, hs, rfl⟩, (hk s).mpr ha⟩

theorem value?_of_holds (h : Holds d cs) (hc : cs.config = none) (s : Setting) :
    File.value? d.entries s = (cs.get? s).bind Choice.value? := by
  refine Option.ext fun v => ?_
  cases s with
  | config => simp [File.value?, Choices.get?, hc]
  | host => exact (valueIn?_entries _).trans (h .host _ _ rfl v)
  | port => exact (valueIn?_entries _).trans (h .port _ _ rfl v)
  | idle => exact (valueIn?_entries _).trans (h .idle _ _ rfl v)
  | mode => exact (valueIn?_entries _).trans (h .mode _ _ rfl v)
  | ack => exact (valueIn?_entries _).trans (h .ack _ _ rfl v)
  | level => exact (valueIn?_entries _).trans (h .level _ _ rfl v)

/-! ## What is read of it -/

/-- A value of a document as a choice for a setting. -/
def Setting.choiceOf? : Setting → Value → Option Choice
  | .config, _ => none
  | .host, v => (string v).toOption.map .host
  | .port, v => (Settings.port v).toOption.map .port
  | .mode, v => (Settings.mode v).toOption.map .mode
  | .ack, v => (string v).toOption.map .ack
  | .idle, v => (seconds v).toOption.map .idle
  | .level, v => (string v).toOption.map .level

theorem get?_choices (es : Entries) (s : Setting) :
    (File.choices es).get? s = (File.value? es s).bind s.choiceOf? := by
  cases s <;> simp only [Choices.get?, File.choices, Option.map_bind] <;> rfl

theorem choiceOf?_value (h : c.value? = some v) : c.setting.choiceOf? v = some c := by
  cases c with
  | config path => cases h
  | host text | ack text | level text =>
    cases h
    rfl
  | port n =>
    cases h
    have hp : port (.integer n.toNat) = .ok n := port_eq_ok.mpr rfl
    simp only [Choice.setting, Setting.choiceOf?, hp]
    rfl
  | mode m =>
    cases h
    have hm : mode (.string m.name) = .ok m := mode_eq_ok.mpr (.inl rfl)
    simp only [Choice.setting, Setting.choiceOf?, hm]
    rfl
  | idle n =>
    cases h
    have hs : seconds (.integer n.toNat) = .ok n := seconds_eq_ok.mpr rfl
    simp only [Choice.setting, Setting.choiceOf?, hs]
    rfl

theorem admits_value (h : c.value? = some v) : c.setting.Admits v := by
  cases c with
  | config path => cases h
  | host text | ack text | level text => exact ⟨text, (Option.some.inj h).symm⟩
  | port n | idle n => exact ⟨n, (Option.some.inj h).symm⟩
  | mode m => exact ⟨m, .inl (Option.some.inj h).symm⟩

theorem value?_isSome (h : c.setting ≠ .config) : ∃ v, c.value? = some v := by
  cases c with
  | config path => exact absurd rfl h
  | _ => exact ⟨_, rfl⟩

theorem choices_of_holds (h : Holds d cs) (hc : cs.config = none) :
    File.choices d.entries = cs := by
  refine Choices.eq_iff_get?.mpr fun s => ?_
  rw [get?_choices, value?_of_holds h hc]
  cases hg : cs.get? s with
  | none => rfl
  | some c =>
    obtain rfl := Choices.setting_of_get? hg
    obtain ⟨v, hv⟩ : ∃ v, c.value? = some v := by
      refine value?_isSome fun hs => ?_
      have hnone : cs.get? .config = none := by simp [Choices.get?, hc]
      rw [hs, hnone] at hg
      cases hg
    show (c.value?.bind c.setting.choiceOf?) = some c
    rw [hv]
    exact choiceOf?_value hv

theorem fit_of_holds (h : Holds d cs) (hc : cs.config = none) : File.Fit d.entries := by
  refine ⟨fun name _ v hv => ?_, fun v n hv hn => ?_, fun s v hv => ?_⟩
  · obtain ⟨s, -, he⟩ := get?_entries.mp hv
    obtain ⟨-, rfl⟩ := Prod.mk.inj he
    trivial
  · obtain ⟨s, -, he⟩ := get?_entries.mp hv
    obtain ⟨-, rfl⟩ := Prod.mk.inj he
    cases hn
  · rw [value?_of_holds h hc] at hv
    obtain ⟨c, hg, hw⟩ := Option.bind_eq_some_iff.mp hv
    obtain rfl := Choices.setting_of_get? hg
    exact admits_value hw

/-- **A document that holds a layer loads as the layer.** -/
theorem parse_of_holds (h : Holds d cs) (hc : cs.config = none) :
    File.parse d.text = .ok cs.file := by
  have hp := Document.parse?_text d
  have ho := Document.orderly_of_parse hp
  obtain ⟨f, hf⟩ := (fit_of_holds h hc).exists_ofEntries ho
  have he := File.eq_file_of_ofEntries ho hf
  rw [choices_of_holds h hc] at he
  exact File.parse_eq_ok.mpr ⟨d.entries, hp, he ▸ hf⟩

/-! ## A document for every layer -/

/-- No section, and no setting in one, has a name that needs quotes. -/
structure BareNames : Prop where
  server : BareName "server"
  session : BareName "session"
  logging : BareName "logging"
  host : BareName "host"
  port : BareName "port"
  idle : BareName "idle_timeout"
  mode : BareName "mode"
  ack : BareName "ack"
  level : BareName "level"

theorem bareNames : BareNames := by
  constructor <;> decide

/-- A choice as a line of its own. Documents have no numbers beyond 2^63 - 1. -/
def Choice.assignment? : Choice → Option Assignment
  | .config _ => none
  | .host text => some (.ofString "host" bareNames.host text)
  | .port n => some (.ofNat "port" bareNames.port n.toNat
      (Nat.le_of_lt (Nat.lt_trans n.toNat_lt (by decide))))
  | .mode m => some (.ofString "mode" bareNames.mode m.name)
  | .ack text => some (.ofString "ack" bareNames.ack text)
  | .idle n =>
    if h : n.toNat ≤ 0x7FFFFFFFFFFFFFFF then
      some (.ofNat "idle_timeout" bareNames.idle n.toNat h)
    else none
  | .level text => some (.ofString "level" bareNames.level text)

variable {a : Assignment}

theorem assignment?_eq_some (h : c.assignment? = some a) :
    (∃ name, c.setting.place? = some (name, a.key)) ∧ c.value? = some a.value := by
  cases c with
  | config path => cases h
  | idle n =>
    simp only [Choice.assignment?] at h
    split at h
    · cases h
      exact ⟨⟨_, rfl⟩, rfl⟩
    · cases h
  | _ =>
    cases h
    exact ⟨⟨_, rfl⟩, rfl⟩

theorem exists_assignment? (h : c.value? = some v)
    (hn : ∀ n, c = .idle n → n.toNat ≤ 0x7FFFFFFFFFFFFFFF) : ∃ a, c.assignment? = some a := by
  cases c with
  | config path => cases h
  | idle n => exact ⟨_, dif_pos (hn n rfl)⟩
  | _ => exact ⟨_, rfl⟩

/-- The line for a setting, if its place is in the section and the layer has a choice for it. -/
def lineIn? (cs : Choices) (name : String) (s : Setting) : Option Assignment :=
  if s.place?.map Prod.fst = some name then (cs.get? s).bind Choice.assignment? else none

theorem lineIn?_eq_some (h : lineIn? cs name s = some a) :
    s.place? = some (name, a.key) ∧ (cs.get? s).bind Choice.value? = some a.value := by
  unfold lineIn? at h
  split at h
  · rename_i hp
    obtain ⟨c, hc, ha⟩ := Option.bind_eq_some_iff.mp h
    obtain ⟨⟨name', hk⟩, hv⟩ := assignment?_eq_some ha
    rw [Choices.setting_of_get? hc] at hk
    rw [hk] at hp ⊢
    obtain rfl : name' = name := Option.some.inj hp
    exact ⟨rfl, by rw [hc]; exact hv⟩
  · cases h

theorem exists_lineIn? (hn : ∀ n, cs.idle = some n → n.toNat ≤ 0x7FFFFFFFFFFFFFFF)
    (hp : s.place? = some (name, key)) (hv : (cs.get? s).bind Choice.value? = some v) :
    ∃ a, lineIn? cs name s = some a ∧ a.key = key ∧ a.value = v := by
  obtain ⟨c, hc, hv'⟩ := Option.bind_eq_some_iff.mp hv
  have hidle : ∀ n, c = .idle n → n.toNat ≤ 0x7FFFFFFFFFFFFFFF := by
    rintro n rfl
    obtain rfl : .idle = s := Choices.setting_of_get? hc
    obtain ⟨m, hm, he⟩ := Option.map_eq_some_iff.mp hc
    cases he
    exact hn n hm
  obtain ⟨a, ha⟩ := exists_assignment? hv' hidle
  have hl : lineIn? cs name s = some a := by
    rw [lineIn?, if_pos (by rw [hp]; rfl), hc]
    exact ha
  obtain ⟨hp', ha'⟩ := lineIn?_eq_some hl
  refine ⟨a, hl, ?_, ?_⟩
  · rw [hp] at hp'
    exact (Prod.mk.inj (Option.some.inj hp')).2.symm
  · rw [hv] at ha'
    exact (Option.some.inj ha').symm

theorem place?_inj {t : Setting} {place : String × String} (hs : s.place? = some place)
    (ht : t.place? = some place) : s = t := by
  have he : s.place? = t.place? := hs.trans ht.symm
  cases s with
  | config => cases hs
  | _ => cases t <;> first | rfl | exact absurd he (by decide)

theorem section_of_place? (h : s.place? = some (name, key)) :
    name = "server" ∨ name = "session" ∨ name = "logging" := by
  cases s <;> cases h <;> simp

/-- All lines of a section. -/
def sectionOf (cs : Choices) (name : String) (bare : BareName name) : Section where
  name := name
  assignments := Setting.all.filterMap (lineIn? cs name)
  bare := bare
  nodup := by
    rw [List.Nodup, List.pairwise_map, List.pairwise_filterMap]
    have hn : Setting.all.Pairwise (· ≠ ·) := by decide
    refine hn.imp fun hne a ha b hb hk => hne ?_
    have hp := (lineIn?_eq_some ha).1
    rw [hk] at hp
    exact place?_inj hp (lineIn?_eq_some hb).1

def Choices.layout (cs : Choices) : Layout where
  sections :=
    [sectionOf cs "server" bareNames.server, sectionOf cs "session" bareNames.session,
      sectionOf cs "logging" bareNames.logging]
  nodup := by
    show ["server", "session", "logging"].Nodup
    decide

theorem holds_layout (hn : ∀ n, cs.idle = some n → n.toNat ≤ 0x7FFFFFFFFFFFFFFF) :
    Holds cs.layout cs := by
  intro s name key hp v
  constructor
  · rintro ⟨sec, hs, rfl, a, ha, rfl, rfl⟩
    obtain ⟨name', hb, rfl⟩ : ∃ name' hb, sec = sectionOf cs name' hb := by
      simp only [Choices.layout, List.mem_cons, List.not_mem_nil, or_false] at hs
      rcases hs with rfl | rfl | rfl <;> exact ⟨_, _, rfl⟩
    obtain ⟨t, -, ht⟩ := List.mem_filterMap.mp ha
    obtain ⟨hp', hv⟩ := lineIn?_eq_some ht
    obtain rfl := place?_inj hp hp'
    exact hv
  · intro hv
    obtain ⟨a, ha, rfl, rfl⟩ := exists_lineIn? hn hp hv
    have hm (hb : BareName name) : a ∈ (sectionOf cs name hb).assignments :=
      List.mem_filterMap.mpr ⟨s, Choices.mem_all s, ha⟩
    rcases section_of_place? hp with rfl | rfl | rfl
    · exact ⟨_, List.mem_cons_self, rfl, a, hm _, rfl, rfl⟩
    · exact ⟨_, List.mem_cons_of_mem _ List.mem_cons_self, rfl, a, hm _, rfl, rfl⟩
    · exact ⟨_, List.mem_cons_of_mem _ (List.mem_cons_of_mem _ List.mem_cons_self), rfl, a, hm _,
        rfl, rfl⟩

example : (Choices.layout { host := some "a\\b", mode := some .chunk }).text =
    "[server]\nhost = \"a\\\\b\"\n[session]\nmode = \"chunk\"\n[logging]\n" := by decide +kernel

end SerialAck.Settings

/-
Numbers among the settings. A port and a number of seconds are taken as they are written, digit by
digit, or not at all; this goes for arguments and variables (`Exact`), for the numbers of a document
(`ExactInFile`), and for the limit that the seconds become.
-/
import SerialAck.Proofs.Settings.Failure
import SerialAck.Proofs.Settings.ModeNames
import SerialAck.Proofs.Settings.Revision
import SerialAck.Proofs.Settings.Values

namespace SerialAck.Settings

open Document (Value Entries)

/-- The bytes are a port: decimal digits behind an optional sign. -/
def IsPort (v : List UInt8) (n : UInt16) : Prop :=
  ∃ cs, v = Utf8.encode cs ∧ Numeral.Signed cs n.toNat

/-- The bytes are a number of seconds: decimal digits behind an optional plus sign. -/
def IsSeconds (v : List UInt8) (n : UInt64) : Prop :=
  ∃ cs, v = Utf8.encode cs ∧ Numeral.Unsigned cs n.toNat

/-- Arguments and variables give the setting the one number that there is, and where there is none
it is this setting that they fail for. -/
structure Takes {α : Type} (outcome : Except Stop Choices) (s : Setting)
    (field : Choices → Option α) (IsNumber : α → Prop) : Prop where
  accepted : ∀ n, (∃ cs, outcome = .ok cs ∧ field cs = some n) ↔ IsNumber n
  refused : (¬ ∃ n, IsNumber n) ↔ ∃ fault, outcome = .error (.mistake (.value s fault))

/-- Wherever arguments or variables give the setting, they give it just the number that is there. -/
structure Exact {α : Type} (s : Setting) (field : Choices → Option α)
    (IsNumber : List UInt8 → α → Prop) : Prop where
  alone : ∀ (env : Environment) v, (∀ t, t ≠ s → env.Valid t) →
    Takes (Choices.gather [s.argument v] env) s field (IsNumber v)
  /-- In the place of any argument for the setting that is accepted. -/
  argument : ∀ before given after env cs v,
    Choices.gather (before ++ s.argument given :: after) env = .ok cs →
    Takes (Choices.gather (before ++ s.argument v :: after) env) s field (IsNumber v)
  /-- As a variable, where no argument gives the setting and all else is well. -/
  environment : ∀ words args (env : Environment) v, Choices.ofWords words = .ok args →
    args.has s = false → (∀ t, t ≠ s → args.has t = false → env.Valid t) →
    Takes (Choices.gather words (env.set s v)) s field (IsNumber v)

/-- Nothing in the document is at fault, unless it is what it holds for the setting. -/
structure File.FitBut (s : Setting) (es : Entries) : Prop where
  sections : ∀ name ∈ ["server", "session", "logging"], ∀ v, es.get? name = some v → IsSection v
  complete : ∀ v n, es.get? "session" = some v → sequenceLength? v = some n → 2 ≤ n
  values : ∀ t v, t ≠ s → value? es t = some v → t.Admits v

/-- Whatever document holds a whole number for the setting: it is taken if it is in range, and kept
as it is, and otherwise the document does not load. -/
structure ExactInFile (s : Setting) (field : File → Int) (InRange : Int → Prop) : Prop where
  kept : ∀ text es n f, Document.parse? text = some es → File.value? es s = some (.integer n) →
    File.parse text = .ok f → InRange n ∧ field f = n
  accepted : ∀ text es n, Document.parse? text = some es → File.value? es s = some (.integer n) →
    File.FitBut s es → ((∃ f, File.parse text = .ok f) ↔ InRange n)
  refused : ∀ text es n words env read cs path, Document.parse? text = some es →
    File.value? es s = some (.integer n) → ¬ InRange n →
    Choices.gather words env = .ok cs → cs.config = some path →
    read path = .ok (Utf8.ofString text) →
    ∃ d, Config.load words env read = .error (.unfit path d)

/-- No number among the settings becomes another one. -/
structure ExactNumbers : Prop where
  port : Exact .port Choices.port IsPort
  seconds : Exact .idle Choices.idle IsSeconds
  portInFile : ExactInFile .port (fun f => f.server.port.toNat) fun n => 0 ≤ n ∧ n ≤ 65535
  secondsInFile : ExactInFile .idle (fun f => f.server.idle.toNat) fun n => 0 ≤ n
  /-- The seconds that count become a limit of so many seconds. -/
  limit : ∀ words env read c, Config.load words env read = .ok c →
    ∃ cs f, Choices.gather words env = .ok cs ∧ File.load read cs.config = .ok f ∧
      ∀ n, cs.idle.getD f.server.idle = n → 1 ≤ n →
        c.idle = some ⟨n.toNat * 1000000000⟩

variable {α : Type} {s : Setting} {field : Choices → Option α} {wrap : α → Choice}
  {IsNumber : List UInt8 → α → Prop} {es : Entries} {text : String} {n : Int} {f : File}

/-! ## Arguments and variables -/

/-- How the choices for a setting go with the numbers that they are for. -/
structure Wraps (s : Setting) (field : Choices → Option α) (wrap : α → Choice)
    (IsNumber : List UInt8 → α → Prop) : Prop where
  exists_wrap : ∀ c : Choice, c.setting = s → ∃ n, c = wrap n
  setting : ∀ n, (wrap n).setting = s
  isValue : ∀ n v, (wrap n).IsValue v ↔ IsNumber v n
  field_add : ∀ (cs : Choices) n, field (cs.add (wrap n)) = some n

theorem wraps_port : Wraps .port Choices.port .port IsPort where
  exists_wrap c hc := by
    cases c <;> cases hc
    exact ⟨_, rfl⟩
  setting _ := rfl
  isValue _ _ := Iff.rfl
  field_add _ _ := rfl

theorem wraps_seconds : Wraps .idle Choices.idle .idle IsSeconds where
  exists_wrap c hc := by
    cases c <;> cases hc
    exact ⟨_, rfl⟩
  setting _ := rfl
  isValue _ _ := Iff.rfl
  field_add _ _ := rfl

namespace Wraps

theorem read_eq_ok (h : Wraps s field wrap IsNumber) {v : List UInt8} {n : α} :
    Choice.read s v = .ok (wrap n) ↔ IsNumber v n := by
  rw [Choice.read_eq_ok, h.isValue, and_iff_right (h.setting n)]

theorem takes_revised (h : Wraps s field wrap IsNumber) (cs : Choices) (v : List UInt8) :
    Takes (cs.revised s v) s field (IsNumber v) := by
  unfold Choices.revised
  cases hr : Choice.read s v with
  | error fault =>
    have hno (n : α) : ¬ IsNumber v n := by
      intro hn
      rw [h.read_eq_ok.mpr hn] at hr
      cases hr
    exact ⟨fun n => by simp [hno], by simp [hno]⟩
  | ok c =>
    obtain ⟨m, rfl⟩ := h.exists_wrap c (Choice.setting_of_read hr)
    have hm : IsNumber v m := h.read_eq_ok.mp hr
    refine ⟨fun n => ?_, ?_⟩
    · constructor
      · intro hn
        obtain ⟨cs', hcs, hfield⟩ := hn
        cases hcs
        rw [h.field_add] at hfield
        exact Option.some.inj hfield ▸ hm
      · intro hn
        have hc := h.read_eq_ok.mpr hn
        rw [hr] at hc
        refine ⟨_, rfl, ?_⟩
        rw [Except.ok.inj hc, h.field_add]
    · simp only [reduceCtorEq, exists_false, iff_false, Classical.not_not]
      exact ⟨m, hm⟩

/-- **A number is taken as it is**, from a word and from a variable. -/
theorem exact (h : Wraps s field wrap IsNumber) : Exact s field IsNumber where
  alone env v hv := by
    rw [Choices.gather_of_revised (Choices.ofWords_single s v) fun t ht _ => hv t ht]
    exact h.takes_revised _ v
  argument before given after env cs v hg := by
    rw [Choices.gather_argument hg]
    exact h.takes_revised _ v
  environment words args env v hw hs hv := by
    rw [Choices.gather_variable hw hs hv]
    exact h.takes_revised _ v

end Wraps

/-! ## Documents -/

namespace File

theorem FitBut.fit_iff (h : FitBut s es) : Fit es ↔ ∀ v, value? es s = some v → s.Admits v := by
  constructor
  · exact fun hf v hv => hf.values s v hv
  · intro hs
    refine ⟨h.sections, h.complete, fun t v hv => ?_⟩
    by_cases ht : t = s
    · subst ht
      exact hs v hv
    · exact h.values t v ht hv

theorem exactInFile {field : File → Int} {InRange : Int → Prop}
    (hs : ∀ n, Document.Scalar.inRange n = true → (s.Admits (.integer n) ↔ InRange n))
    (hf : ∀ {es n f}, Fields es f → value? es s = some (.integer n) → field f = n) :
    ExactInFile s field InRange := by
  have admits {text : String} {es : Entries} {n : Int} (hp : Document.parse? text = some es)
      (hv : value? es s = some (.integer n)) : s.Admits (.integer n) ↔ InRange n := by
    cases orderly_value? (Document.orderly_of_parse hp) hv with
    | integer hn => exact hs n hn
  refine ⟨fun text es n f hp hv hl => ?_, fun text es n hp hv hbut => ?_,
    fun text es n words env read cs path hp hv hn hg hc hr => ?_⟩
  · obtain ⟨es', hp', hl⟩ := parse_eq_ok.mp hl
    obtain rfl : es = es' := Option.some.inj (hp.symm.trans hp')
    have hfit := fit_of_ofEntries ⟨f, hl⟩
    exact ⟨(admits hp hv).mp (hfit.values s _ hv),
      hf (fields_of_ofEntries (Document.orderly_of_parse hp) hl) hv⟩
  · rw [exists_parse_iff, ← admits hp hv]
    constructor
    · intro h
      obtain ⟨es', hp', hfit⟩ := h
      obtain rfl : es = es' := Option.some.inj (hp.symm.trans hp')
      exact hfit.values s _ hv
    · intro ha
      refine ⟨es, hp, hbut.fit_iff.mpr fun v hv' => ?_⟩
      obtain rfl : .integer n = v := Option.some.inj (hv.symm.trans hv')
      exact ha
  · have ha : ¬ s.Admits (.integer n) := fun ha => hn ((admits hp hv).mp ha)
    exact (filed_of_gather hg hc).exposed text es s _ hr hp hv ha

theorem exactInFile_port :
    ExactInFile .port (fun f => f.server.port.toNat) fun n => 0 ≤ n ∧ n ≤ 65535 := by
  refine exactInFile (fun n _ => Setting.admits_port) fun {es n f} hf hv => ?_
  have hg := hf.port
  rw [hv] at hg
  exact (Value.integer.inj (port_eq_ok.mp hg)).symm

theorem exactInFile_seconds :
    ExactInFile .idle (fun f => f.server.idle.toNat) fun n => 0 ≤ n := by
  refine exactInFile (fun n hr => Setting.admits_idle hr) fun {es n f} hf hv => ?_
  have hg := hf.idle
  rw [hv] at hg
  exact (Value.integer.inj (seconds_eq_ok.mp hg)).symm

end File

/-! ## The limit -/

theorem Config.limit_of_pos {n : UInt64} (h : 1 ≤ n) :
    limit n = some ⟨n.toNat * 1000000000⟩ := by
  have hne : n ≠ 0 := by
    intro h0
    rw [h0] at h
    exact absurd h (by decide)
  rw [limit, if_neg hne]
  rfl

/-- **No number among the settings becomes another one.** It is taken as it is written, or not at
all. -/
theorem numbers_exact : ExactNumbers where
  port := wraps_port.exact
  seconds := wraps_seconds.exact
  portInFile := File.exactInFile_port
  secondsInFile := File.exactInFile_seconds
  limit words env read c hc := by
    obtain ⟨cs, f, hg, hf, rfl⟩ := Config.load_eq_ok.mp hc
    refine ⟨cs, f, hg, hf, fun n hn hpos => ?_⟩
    rw [← Config.limit_of_pos hpos, ← hn]
    rfl

theorem numbers_exact_borders :
    (∃ cs, Choices.gather [Setting.port.argument (Utf8.ofString "+0065535")] noVariables = .ok cs ∧
      cs.port = some 65535) ∧
    beyondPorts.text = "[server]\nport = 65536\n" ∧
    ∃ d, Config.load [Setting.config.argument [102]] noVariables
      (fun _ => .ok (Utf8.ofString beyondPorts.text)) = .error (.unfit [102] d) := by
  have hport : IsPort (Utf8.ofString "+0065535") 65535 :=
    ⟨['+', '0', '0', '6', '5', '5', '3', '5'], by decide +kernel,
      .unsigned (.plus ⟨by decide, List.all_eq_true.mp (by decide), by decide⟩)⟩
  have hg : Choices.gather [Setting.config.argument [102]] noVariables =
      .ok { config := some [102] } := gather_noVariables.mpr (by rfl)
  refine ⟨?_, by decide +kernel, ?_⟩
  · exact ((numbers_exact.port.alone noVariables _ fun _ _ => nofun).accepted 65535).mpr hport
  · exact numbers_exact.portInFile.refused _ _ 65536 _ _ _ _ _ (Document.parse?_text beyondPorts) rfl
      (by decide) hg rfl rfl

end SerialAck.Settings

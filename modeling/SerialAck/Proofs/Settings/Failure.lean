/-
When a load fails, and with what. Arguments and variables are judged before any file is looked at,
and a variable only if no argument is in its place; of the file every value is judged, also where
an argument or a variable is in its place (`verdict_of_load`).
-/
import SerialAck.Proofs.Settings.Layout

namespace SerialAck.Settings

open Document (Value Entries)

/-- The words by themselves are at fault, or a variable is that no argument masks. -/
inductive UsageFault (words : List (List UInt8)) (env : Environment) : Prop where
  | words {m : Mistake} (h : Choices.ofWords words = .error (.mistake m))
  | unmasked {args : Choices} {s : Setting} (h : Choices.ofWords words = .ok args)
      (hs : args.has s = false) (hv : ¬ env.Valid s)

/-- The path that an argument names, and where none does a variable. -/
def configPath? (words : List (List UInt8)) (env : Environment) : Option (List UInt8) :=
  ((Choices.ofWords words).toOption.bind (·.config)).or env.choices.config

/-- What a load comes to that reads the file at a path. -/
structure Filed (words : List (List UInt8)) (env : Environment) (read : ReadFile)
    (path : List UInt8) : Prop where
  unreadable : ∀ p fault, Config.load words env read = .error (.unreadable p fault) ↔
    p = path ∧ (read path = .error fault ∨
      fault = .notUtf8 ∧ ∃ body, read path = .ok body ∧ ¬ Utf8.WellFormed body)
  unfit : (∃ p d, Config.load words env read = .error (.unfit p d)) ↔
    ∃ text, read path = .ok (Utf8.ofString text) ∧
      ¬ ∃ es, Document.parse? text = some es ∧ File.Fit es
  unfitPath : ∀ p d, Config.load words env read = .error (.unfit p d) → p = path
  loads : (∃ c, Config.load words env read = .ok c) ↔
    ∃ text, read path = .ok (Utf8.ofString text) ∧
      ∃ es, Document.parse? text = some es ∧ File.Fit es
  alone : ∀ read' : ReadFile, read' path = read path →
    Config.load words env read' = Config.load words env read
  /-- A value that does not fit is found, whatever arguments and variables there are. -/
  exposed : ∀ text es s v, read path = .ok (Utf8.ofString text) →
    Document.parse? text = some es → File.value? es s = some v → ¬ s.Admits v →
    ∃ d, Config.load words env read = .error (.unfit path d)

/-- What becomes of a load that is not asked for a text. -/
structure Verdict (words : List (List UInt8)) (env : Environment) (read : ReadFile) : Prop where
  usage : (∃ m, Config.load words env read = .error (.stop (.mistake m))) ↔ UsageFault words env
  usageAlone : UsageFault words env →
    ∀ read' : ReadFile, Config.load words env read' = Config.load words env read
  fileless : ¬ UsageFault words env → configPath? words env = none →
    ∀ read' : ReadFile, ∃ c, Config.load words env read' = .ok c
  filed : ¬ UsageFault words env → ∀ path, configPath? words env = some path →
    Filed words env read path
  /-- A variable is not looked at where an argument gives its setting. -/
  masked : ∀ env' : Environment, (∀ args, Choices.ofWords words = .ok args →
    ∀ s, args.has s = false → env' s = env s) →
    Config.load words env' read = Config.load words env read

variable {words : List (List UInt8)} {env : Environment} {read read' : ReadFile} {c : Config}
  {f : File} {cs args : Choices} {path : List UInt8} {stop : Stop} {text : String} {es : Entries}

/-! ## Arguments and variables -/

/-- Only words ask for texts. -/
theorem Choices.mistake_of_gather (hr : ∀ r, ofWords words ≠ .error (.request r))
    (h : gather words env = .error stop) : ∃ m, stop = .mistake m := by
  cases hw : ofWords words with
  | error stop' =>
    obtain rfl : stop' = stop := by simpa [gather_of_stop hw] using h
    cases stop' with
    | mistake m => exact ⟨m, rfl⟩
    | request r => exact absurd hw (hr r)
  | ok args =>
    rw [gather_of_ofWords hw] at h
    cases ha : args.addEnvironment env with
    | ok cs => simp [ha, Line.lift] at h
    | error m =>
      refine ⟨m, ?_⟩
      simpa [ha, Line.lift, eq_comm] using h

theorem not_usageFault_iff (hr : ∀ r, Choices.ofWords words ≠ .error (.request r)) :
    ¬ UsageFault words env ↔ ∃ cs, Choices.gather words env = .ok cs := by
  constructor
  · intro hu
    cases hw : Choices.ofWords words with
    | error stop =>
      cases stop with
      | mistake m => exact absurd (.words hw) hu
      | request r => exact absurd hw (hr r)
    | ok args =>
      refine ⟨_, Choices.gather_eq_ok.mpr ⟨args, hw, fun s hs => ?_, rfl⟩⟩
      exact Classical.byContradiction fun hv => hu (.unmasked hw hs hv)
  · rintro ⟨cs, hg⟩ hu
    obtain ⟨args, hw, hv, -⟩ := Choices.gather_eq_ok.mp hg
    cases hu with
    | words h => simp [hw] at h
    | unmasked h hs hn =>
      obtain rfl : args = _ := Except.ok.inj (hw.symm.trans h)
      exact hn (hv _ hs)

theorem config_of_gather (h : Choices.gather words env = .ok cs) :
    cs.config = configPath? words env := by
  obtain ⟨args, hw, -, rfl⟩ := Choices.gather_eq_ok.mp h
  rw [configPath?, hw]
  rfl

/-! ## The file -/

namespace File

theorem exists_parse_iff : (∃ f, parse text = .ok f) ↔
    ∃ es, Document.parse? text = some es ∧ Fit es := by
  simp only [parse_eq_ok]
  constructor
  · rintro ⟨f, es, hp, hf⟩
    exact ⟨es, hp, fit_of_ofEntries ⟨f, hf⟩⟩
  · rintro ⟨es, hp, hf⟩
    obtain ⟨f, h⟩ := hf.exists_ofEntries (Document.orderly_of_parse hp)
    exact ⟨f, es, hp, h⟩

theorem load_eq_unreadable {p : List UInt8} {fault : Fault} :
    load read (some path) = .error (.unreadable p fault) ↔ p = path ∧ (read path = .error fault ∨
      fault = .notUtf8 ∧ ∃ body, read path = .ok body ∧ ¬ Utf8.WellFormed body) := by
  have hwell (text : String) : Utf8.WellFormed (Utf8.ofString text) := ⟨text.toList, rfl⟩
  rcases load_cases read path with
    ⟨fault', hr, h⟩ | ⟨body, hr, hb, h⟩ | ⟨text, d, hr, -, h⟩ | ⟨text, f, hr, -, h⟩
  · simp [h, hr, eq_comm]
  · simp [h, hr, hb, eq_comm]
  · simp [h, hr, hwell]
  · simp [h, hr, hwell]

theorem load_eq_unfit {p : List UInt8} {d : Defect} :
    load read (some path) = .error (.unfit p d) ↔
      p = path ∧ ∃ text, read path = .ok (Utf8.ofString text) ∧ parse text = .error d := by
  rcases load_cases read path with
    ⟨fault', hr, h⟩ | ⟨body, hr, hb, h⟩ | ⟨text, d, hr, hp, h⟩ | ⟨text, f, hr, hp, h⟩
  · simp [h, hr]
  · have hne (text : String) : body ≠ Utf8.ofString text := fun he => hb ⟨text.toList, he⟩
    simp [h, hr, hne]
  · simp [h, hr, hp, Utf8.ofString_inj, eq_comm]
  · simp [h, hr, hp, Utf8.ofString_inj]

theorem load_ne_stop {place : Option (List UInt8)} :
    load read place ≠ .error (.stop stop) := by
  cases place with
  | none => nofun
  | some path =>
    rcases load_cases read path with ⟨_, _, h⟩ | ⟨_, _, _, h⟩ | ⟨_, _, _, _, h⟩ | ⟨_, _, _, _, h⟩
    all_goals
      rw [h]
      nofun

end File

/-! ## A whole load -/

namespace Config

theorem load_of_stop (h : Choices.gather words env = .error stop) :
    load words env read = .error (.stop stop) := by
  rw [load, h]

theorem map_eq_error {ε α β : Type} {x : Except ε α} {g : α → β} {e : ε} :
    x.map g = .error e ↔ x = .error e := by
  cases x <;> simp [Except.map]

theorem load_eq_stop : load words env read = .error (.stop stop) ↔
    Choices.gather words env = .error stop := by
  constructor
  · intro h
    cases hg : Choices.gather words env with
    | error stop' =>
      rw [load_of_stop hg] at h
      cases h
      rfl
    | ok cs =>
      rw [load_of_gather hg, map_eq_error] at h
      exact absurd h File.load_ne_stop
  · exact load_of_stop

theorem load_congr_of_gather {env' : Environment}
    (h : Choices.gather words env' = Choices.gather words env) :
    load words env' read = load words env read := by
  rw [load, load, h]

end Config

theorem filed_of_gather (hg : Choices.gather words env = .ok cs) (hc : cs.config = some path) :
    Filed words env read path := by
  have hl (read : ReadFile) : Config.load words env read =
      (File.load read (some path)).map (Config.merge cs) := by
    rw [Config.load_of_gather hg, hc]
  have hbad (text : String) : (¬ ∃ es, Document.parse? text = some es ∧ File.Fit es) ↔
      ∃ d, File.parse text = .error d := by
    rw [← File.exists_parse_iff]
    cases File.parse text <;> simp
  refine ⟨fun p fault => ?_, ?_, fun p d h => ?_, ?_, fun read' hr => ?_, ?_⟩
  · rw [hl, Config.map_eq_error, File.load_eq_unreadable]
  · simp only [hl, Config.map_eq_error, File.load_eq_unfit, hbad]
    constructor
    · rintro ⟨p, d, -, text, hr, hp⟩
      exact ⟨text, hr, d, hp⟩
    · rintro ⟨text, hr, d, hp⟩
      exact ⟨path, d, rfl, text, hr, hp⟩
  · rw [hl, Config.map_eq_error, File.load_eq_unfit] at h
    exact h.1
  · simp only [hl, exists_map, File.load_eq_ok, ← File.exists_parse_iff]
    constructor
    · rintro ⟨f, text, hr, hp⟩
      exact ⟨text, hr, f, hp⟩
    · rintro ⟨text, hr, f, hp⟩
      exact ⟨f, text, hr, hp⟩
  · rw [hl, hl, File.load_congr (by rintro _ ⟨⟩; exact hr)]
  · intro text es s v hr hp hv ha
    obtain ⟨d, hd⟩ : ∃ d, File.parse text = .error d := by
      refine (hbad text).mp ?_
      rintro ⟨es', hp', hf⟩
      obtain rfl : es = es' := Option.some.inj (hp.symm.trans hp')
      exact ha (hf.values s v hv)
    refine ⟨d, ?_⟩
    rw [hl, Config.map_eq_error, File.load_eq_unfit]
    exact ⟨rfl, text, hr, hd⟩

/-- **A load fails for its words, then for its variables, then for its file**, and only for these.
Arguments mask variables altogether, but nothing in a file. -/
theorem verdict_of_load (hr : ∀ r, Choices.ofWords words ≠ .error (.request r))
    (env : Environment) (read : ReadFile) : Verdict words env read := by
  have husage : UsageFault words env ↔ ∃ m, Choices.gather words env = .error (.mistake m) := by
    rw [← Classical.not_not (a := UsageFault words env), not_usageFault_iff hr]
    cases hg : Choices.gather words env with
    | ok cs => simp
    | error stop =>
      obtain ⟨m, rfl⟩ := Choices.mistake_of_gather hr hg
      simp
  refine ⟨?_, fun hu read' => ?_, fun hu hc read' => ?_, fun hu path hc => ?_, fun env' he => ?_⟩
  · simp only [Config.load_eq_stop, husage]
  · obtain ⟨m, hg⟩ := husage.mp hu
    rw [Config.load_of_stop hg, Config.load_of_stop hg]
  · obtain ⟨cs, hg⟩ := (not_usageFault_iff hr).mp hu
    rw [Config.load_of_gather hg, config_of_gather hg, hc]
    exact ⟨_, rfl⟩
  · obtain ⟨cs, hg⟩ := (not_usageFault_iff hr).mp hu
    exact filed_of_gather hg (by rw [config_of_gather hg, hc])
  · exact Config.load_congr_of_gather (Choices.gather_congr he)

/-- A port as an argument, over a variable and a file that are no ports. -/
def maskingWords : List (List UInt8) :=
  ["--port=1", "--config=f"].map Utf8.ofString

def maskedEnvironment : Environment
  | .port => some (Utf8.ofString "none")
  | _ => none

/-- A document with the first number that is no port. -/
def beyondPorts : Document.Layout where
  sections :=
    [{ name := "server"
       assignments := [.ofNat "port" bareNames.port 65536 (by decide)]
       bare := bareNames.server
       nodup := List.pairwise_singleton _ _ }]
  nodup := List.pairwise_singleton _ _

def exposedRead : ReadFile := fun _ =>
  .ok (Utf8.ofString beyondPorts.text)

/-- The variable is masked, and the file is not. -/
theorem verdict_masked :
    Choices.ofWords maskingWords = .ok { port := some 1, config := some [102] } ∧
      beyondPorts.text = "[server]\nport = 65536\n" ∧
      Verdict maskingWords maskedEnvironment exposedRead ∧
      ∃ d, Config.load maskingWords maskedEnvironment exposedRead = .error (.unfit [102] d) := by
  have hw : Choices.ofWords maskingWords = .ok { port := some 1, config := some [102] } := by rfl
  have hverdict : Verdict maskingWords maskedEnvironment exposedRead := by
    refine verdict_of_load (fun r hr => ?_) maskedEnvironment exposedRead
    rw [hw] at hr
    cases hr
  have husage : ¬ UsageFault maskingWords maskedEnvironment := by
    intro hu
    cases hu with
    | words h =>
      rw [hw] at h
      cases h
    | @unmasked _ s h hs hv =>
      obtain rfl := Except.ok.inj (hw.symm.trans h)
      cases s with
      | port => cases hs
      | _ => exact hv nofun
  have hpath : configPath? maskingWords maskedEnvironment = some [102] := by
    rw [configPath?, hw]
    rfl
  have hport : ¬ Setting.port.Admits (.integer 65536) := by
    rw [Setting.admits_port]
    omega
  refine ⟨hw, by decide +kernel, hverdict, ?_⟩
  exact (hverdict.filed husage [102] hpath).exposed _ _ .port _ rfl
    (Document.parse?_text beyondPorts) rfl hport

end SerialAck.Settings

/-
Which layer a configuration has its values from. An argument counts before a variable, a variable
before the file, the file before what is built in, and this for each setting by itself
(`layered_of_load`); only the acknowledgment looks at another setting, where no layer has one.
-/
import Mathlib.Tactic.Common
import SerialAck.Proofs.Settings.FileLayer
import SerialAck.Proofs.Text.Utf8

namespace SerialAck.Settings

open Document (Entries)

/-- The layer of the file that a path leads to. Without a path it is empty. -/
inductive Consults (read : ReadFile) : Option (List UInt8) → Choices → Prop where
  | nothing : Consults read none {}
  | file {path : List UInt8} {text : String} {es : Entries}
      (hr : read path = .ok (Utf8.ofString text)) (hp : Document.parse? text = some es) :
      Consults read (some path) (File.choices es)

/-- The seconds that count, 0 where no layer has any. -/
def winningSeconds (args vars file : Choices) : UInt64 :=
  ((args.idle.or vars.idle).or file.idle).getD 0

/-- A configuration out of three layers, field by field. -/
structure Precedence (args vars file : Choices) (c : Config) : Prop where
  host : c.host = ((args.host.or vars.host).or file.host).getD "127.0.0.1"
  port : c.port = ((args.port.or vars.port).or file.port).getD 65432
  mode : c.mode = ((args.mode.or vars.mode).or file.mode).getD .byte
  level : c.level = ((args.level.or vars.level).or file.level).getD "info"
  /-- The default is that of the mode in force, whichever layer that is from. -/
  ack : c.ack = ((args.ack.or vars.ack).or file.ack).getD c.mode.defaultAck
  endless : c.idle = none ↔ winningSeconds args vars file = 0
  limit : ∀ d, c.idle = some d →
    d.wholeSeconds = (winningSeconds args vars file).toNat ∧ d.subsecond = 0
  sessionMode : c.session.mode = c.mode
  sessionAck : c.session.ack = c.ack.toUTF8.data.toList
  sessionIdle : c.session.idle = c.idle

/-- A configuration, what the arguments gave, and what the file did. -/
structure Layered (words : List (List UInt8)) (env : Environment) (read : ReadFile) (c : Config)
    (args file : Choices) : Prop where
  arguments : Choices.ofWords words = .ok args
  /-- Every variable that counts is a value. -/
  environment : ∀ s, args.has s = false → env.Valid s
  consults : Consults read (args.config.or env.choices.config) file
  /-- No other file is looked at. -/
  alone : ∀ read' : ReadFile, (∀ path, args.config.or env.choices.config = some path →
    read' path = read path) → Config.load words env read' = .ok c
  precedence : Precedence args env.choices file c

variable {words : List (List UInt8)} {env : Environment} {read read' : ReadFile} {c : Config}
  {f : File} {cs args vars : Choices} {path : List UInt8} {es : Entries} {text : String}

/-! ## The idle limit -/

namespace Config

theorem limit_eq_none_iff {seconds : UInt64} : limit seconds = none ↔ seconds = 0 := by
  unfold limit
  split <;> simp_all

theorem limit_eq_some {seconds : UInt64} {d : Duration} (h : limit seconds = some d) :
    d.wholeSeconds = seconds.toNat ∧ d.subsecond = 0 := by
  unfold limit at h
  split at h
  · cases h
  · cases h
    rw [Duration.wholeSeconds, Duration.subsecond, Duration.ofSeconds]
    exact ⟨Nat.mul_div_cancel _ (by decide), Nat.mul_mod_left ..⟩

end Config

/-! ## The file -/

namespace File

theorem ofBytes_ofString (path : List UInt8) (text : String) :
    ofBytes path (Utf8.ofString text) = (parse text).mapError (.unfit path) := by
  rw [ofBytes, Utf8.toString?_ofString]
  cases hp : parse text <;> simp [hp, Except.mapError]

/-- The file is not there, or no text, or does not fit, or does. -/
theorem load_cases (read : ReadFile) (path : List UInt8) :
    (∃ fault, read path = .error fault ∧
      load read (some path) = .error (.unreadable path fault)) ∨
    (∃ body, read path = .ok body ∧ ¬ Utf8.WellFormed body ∧
      load read (some path) = .error (.unreadable path .notUtf8)) ∨
    (∃ text d, read path = .ok (Utf8.ofString text) ∧ parse text = .error d ∧
      load read (some path) = .error (.unfit path d)) ∨
    (∃ text f, read path = .ok (Utf8.ofString text) ∧ parse text = .ok f ∧
      load read (some path) = .ok f) := by
  cases hr : read path with
  | error fault =>
    refine .inl ⟨fault, rfl, ?_⟩
    simp [load, hr]
  | ok body =>
    have hl : load read (some path) = ofBytes path body := by simp [load, hr]
    rw [hl]
    cases ht : Utf8.toString? body with
    | none =>
      refine .inr (.inl ⟨body, rfl, Utf8.toString?_eq_none_iff.mp ht, ?_⟩)
      simp [ofBytes, ht]
    | some text =>
      obtain rfl := Utf8.toString?_eq_some_iff.mp ht
      rw [ofBytes_ofString]
      cases hp : parse text with
      | error d => exact .inr (.inr (.inl ⟨text, d, rfl, hp, rfl⟩))
      | ok f => exact .inr (.inr (.inr ⟨text, f, rfl, hp, rfl⟩))

theorem parse_eq_ok : parse text = .ok f ↔
    ∃ es, Document.parse? text = some es ∧ ofEntries es = .ok f := by
  unfold parse
  cases Document.parse? text <;> simp

theorem load_eq_ok : load read (some path) = .ok f ↔
    ∃ text, read path = .ok (Utf8.ofString text) ∧ parse text = .ok f := by
  rcases load_cases read path with
    ⟨fault, hr, h⟩ | ⟨body, hr, hb, h⟩ | ⟨text, d, hr, hp, h⟩ | ⟨text, f', hr, hp, h⟩
  · simp [h, hr]
  · have hne (text : String) : body ≠ Utf8.ofString text := fun he => hb ⟨text.toList, he⟩
    simp [h, hr, hne]
  · simp [h, hr, hp, Utf8.ofString_inj]
  · simp [h, hr, hp, Utf8.ofString_inj]

/-- Where the file is read alike, it is loaded alike. -/
theorem load_congr {place : Option (List UInt8)}
    (h : ∀ path, place = some path → read' path = read path) :
    load read' place = load read place := by
  cases place with
  | none => rfl
  | some path => rw [load, load, h path rfl]

end File

/-! ## All layers -/

namespace Config

theorem load_of_gather (h : Choices.gather words env = .ok cs) :
    load words env read = (File.load read cs.config).map (merge cs) := by
  rw [load, h]

theorem load_eq_ok : load words env read = .ok c ↔ ∃ cs f, Choices.gather words env = .ok cs ∧
    File.load read cs.config = .ok f ∧ merge cs f = c := by
  unfold load
  cases Choices.gather words env <;> simp [map_eq_ok]

end Config

/-- A file counts like one more layer beneath the others. -/
theorem Config.merge_file (cs file : Choices) : merge cs file.file = merge (cs.or file) {} := by
  simp [merge, Choices.file, Choices.or, ReadMode.default]

theorem precedence_merge (args vars file : Choices) :
    Precedence args vars file (Config.merge (args.or vars) file.file) := by
  have hidle : (Config.merge (args.or vars) file.file).idle =
      Config.limit (winningSeconds args vars file) := by
    rw [Config.merge_file]
    rfl
  refine
    { host := by rw [Config.merge_file]; rfl
      port := by rw [Config.merge_file]; rfl
      mode := by rw [Config.merge_file]; rfl
      level := by rw [Config.merge_file]; rfl
      ack := rfl
      endless := by rw [hidle, Config.limit_eq_none_iff]
      limit := fun d hd => Config.limit_eq_some (hidle ▸ hd)
      sessionMode := rfl
      sessionAck := Utf8.ofString_eq _
      sessionIdle := rfl }

theorem consults_of_load {place : Option (List UInt8)} {f : File}
    (h : File.load read place = .ok f) : ∃ file, Consults read place file ∧ f = file.file := by
  cases place with
  | none =>
    cases h
    exact ⟨{}, .nothing, rfl⟩
  | some path =>
    obtain ⟨text, hr, hp⟩ := File.load_eq_ok.mp h
    obtain ⟨es, hes, hf⟩ := File.parse_eq_ok.mp hp
    exact ⟨File.choices es, .file hr hes,
      File.eq_file_of_ofEntries (Document.orderly_of_parse hes) hf⟩

/-- **Settings come from the highest layer that has them**, each by itself. -/
theorem layered_of_load (h : Config.load words env read = .ok c) :
    ∃ args file, Layered words env read c args file := by
  obtain ⟨cs, f, hg, hf, rfl⟩ := Config.load_eq_ok.mp h
  obtain ⟨args, hw, hv, rfl⟩ := Choices.gather_eq_ok.mp hg
  obtain ⟨file, hc, rfl⟩ := consults_of_load hf
  refine ⟨args, file, hw, hv, hc, fun read' hr => ?_, precedence_merge args env.choices file⟩
  have hsame : File.load read' (args.or env.choices).config = .ok file.file := by
    rw [← hf]
    exact File.load_congr hr
  rw [Config.load_of_gather hg, hsame]
  rfl

/-- A mode and no limit as arguments, over a mode in the environment and a limit in a file. The
file alone has a host and a level. -/
def mixedWords : List (List UInt8) :=
  ["--mode=byte", "--idle-timeout=0", "--config=f"].map Utf8.ofString

def mixedEnvironment : Environment
  | .mode => some (Utf8.ofString "chunk")
  | .port => some (Utf8.ofString "8080")
  | _ => none

def mixedRead : ReadFile := fun _ =>
  .ok (Utf8.ofString ("[server]\nhost = 'h'\nport = 1\nidle_timeout = 5\n" ++
    "[session]\nmode = 'chunk'\n[logging]\nlevel = 'warn'\n"))

def mixedConfig : Config :=
  ⟨"h", 8080, .byte, "aloha", none, "warn"⟩

theorem layered_mixed : Config.load mixedWords mixedEnvironment mixedRead = .ok mixedConfig ∧
    ∃ args file, Layered mixedWords mixedEnvironment mixedRead mixedConfig args file := by
  have h : Config.load mixedWords mixedEnvironment mixedRead = .ok mixedConfig := by
    have hd : (Config.load mixedWords mixedEnvironment mixedRead).toOption = some mixedConfig := by
      decide +kernel
    exact toOption_eq_some.mp hd
  exact ⟨h, layered_of_load h⟩

end SerialAck.Settings

/-
Names of modes. A text is a mode as a word, as a variable and as a string of a document alike, or in
none of these places (`named`): two readers take it, and both look it up among the same names.
-/
import SerialAck.Proofs.Settings.Layout
import SerialAck.Proofs.Settings.Words

namespace SerialAck.Settings

open Document (Layout)

/-- No variables at all. -/
def noVariables : Environment := fun _ => none

/-- Nothing but a mode in the environment. -/
def modeVariable (text : String) : Environment := fun s =>
  if s = .mode then some (Utf8.ofString text) else none

/-- A text is taken for a mode in every place where it can stand, or in none. -/
structure Named (text : String) (m : ReadMode) : Prop where
  argument : ∀ read, (∃ c, Config.load [Utf8.ofString ("--mode=" ++ text)] noVariables read =
    .ok c ∧ c.mode = m) ↔ text = m.name
  /-- As a word of its own. -/
  separate : ∀ read, (∃ c, Config.load [Utf8.ofString "--mode", Utf8.ofString text] noVariables
    read = .ok c ∧ c.mode = m) ↔ text = m.name
  environment : ∀ read, (∃ c, Config.load [] (modeVariable text) read = .ok c ∧ c.mode = m) ↔
    text = m.name
  /-- However the text is spelled. -/
  file : ∀ path w (read : ReadFile), path ≠ [] → Document.Quoted.Spelled text.toList w →
    read path = .ok (Utf8.ofString ("[session]\nmode = \"" ++ .ofList w ++ "\"\n")) →
    ((∃ c, Config.load [Choice.word (.config path)] noVariables read = .ok c ∧ c.mode = m) ↔
      text = m.name)

variable {text : String} {m : ReadMode} {cs : Choices} {words : List (List UInt8)}
  {env : Environment} {read : ReadFile}

/-- A mode is all that a text can give. -/
def modeOnly (m : ReadMode) : Choices :=
  { mode := some m }

theorem gather_noVariables : Choices.gather words noVariables = .ok cs ↔
    Choices.ofWords words = .ok cs := by
  have hor (args : Choices) : args.or noVariables.choices = args := by
    refine Choices.eq_iff_get?.mpr fun s => ?_
    rw [Choices.get?_or, Environment.get?_choices]
    exact Option.or_none
  have hv (s : Setting) : noVariables.Valid s := nofun
  rw [Choices.gather_eq_ok]
  constructor
  · rintro ⟨args, hw, -, rfl⟩
    rwa [hor]
  · intro hw
    exact ⟨cs, hw, fun s _ => hv s, (hor cs).symm⟩

/-- Where words and variables give a mode or nothing, so does the load. -/
theorem load_of_gather_mode (hg : ∀ cs, Choices.gather words env = .ok cs ↔
    ∃ m : ReadMode, text = m.name ∧ cs = modeOnly m) :
    (∃ c, Config.load words env read = .ok c ∧ c.mode = m) ↔ text = m.name := by
  constructor
  · rintro ⟨c, hl, rfl⟩
    obtain ⟨cs, f, hcs, -, rfl⟩ := Config.load_eq_ok.mp hl
    obtain ⟨m, hm, rfl⟩ := (hg cs).mp hcs
    exact hm
  · intro hm
    exact ⟨_, Config.load_of_gather ((hg _).mpr ⟨m, hm, rfl⟩), rfl⟩

theorem give_mode : Choices.give {} .mode (Utf8.ofString text) = .ok cs ↔
    ∃ m : ReadMode, text = m.name ∧ cs = modeOnly m := by
  rw [Choices.give_eq_ok]
  constructor
  · rintro ⟨-, c, hc, rfl⟩
    obtain ⟨m, hm, rfl⟩ := map_eq_ok.mp hc
    exact ⟨m, Choice.readMode_eq_ok.mp hm, rfl⟩
  · rintro ⟨m, hm, rfl⟩
    exact ⟨rfl, .mode m, map_eq_ok.mpr ⟨m, Choice.readMode_eq_ok.mpr hm, rfl⟩, rfl⟩

theorem ofWords_argument : Choices.ofWords [Utf8.ofString ("--mode=" ++ text)] = .ok cs ↔
    ∃ m : ReadMode, text = m.name ∧ cs = modeOnly m := by
  have hw : Utf8.ofString ("--mode=" ++ text) =
      Utf8.ofString ("--" ++ Setting.mode.long ++ "=") ++ Utf8.ofString text :=
    Utf8.ofString_append "--mode=" text
  rw [hw, Choices.ofWords, Choices.words_cons_eq_ok (by simp [Choice.ofBytes_long]),
    Choices.word_long, ← give_mode]
  cases Choices.give {} .mode (Utf8.ofString text) with
  | error fault => simp [Line.lift, Except.map]
  | ok ds => simp [Line.lift, Except.map, Line.words, Line.settle]

/-- While a value is awaited, any other word is an error. -/
theorem word_waiting {l l' : Line} {s : Setting} {w : Word} (hl : l.pending = .waiting s)
    (hw : w ≠ .separator) :
    l.word w = .ok l' ↔ ∃ bytes, w = .plain bytes ∧ l' = { l with pending := .given s bytes } := by
  have hset (t : Setting) (value : Option (List UInt8)) :
      l.setting t value = .error (.missing s) := by
    rw [Line.setting, Line.settle, hl]
    rfl
  cases w with
  | separator => exact absurd rfl hw
  | long name value =>
    simp only [Line.word]
    split
    · simp [hset, Line.lift]
    · split <;> simp
  | short letters =>
    cases letters with
    | nil => simp [Line.word]
    | cons letter r =>
      simp only [Line.word]
      split
      · simp [hset, Line.lift]
      · split <;> simp
  | plain bytes => simp [Line.word, hl, eq_comm]

theorem plain_of_ofBytes {w bytes : List UInt8} (h : Word.ofBytes w = .plain bytes) :
    bytes = w := by
  unfold Word.ofBytes at h
  split at h
  · split at h
    · cases h
      rfl
    · split at h
      · cases h
      · split at h <;> cases h
  · cases h
    rfl

theorem ofWords_separate :
    Choices.ofWords [Utf8.ofString "--mode", Utf8.ofString text] = .ok cs ↔
      ∃ m : ReadMode, text = m.name ∧ cs = modeOnly m := by
  have hname : Word.ofBytes (Utf8.ofString "--mode") = .long (Utf8.ofString "mode") none := by
    decide +kernel
  have hfirst : Line.word {} (.long (Utf8.ofString "mode") none) =
      .ok { pending := .waiting .mode } := by rfl
  have hplain (m : ReadMode) : Word.ofBytes (Utf8.ofString m.name) =
      .plain (Utf8.ofString m.name) := by
    cases m <;> decide +kernel
  rw [Choices.ofWords, Choices.words_cons_eq_ok (by simp [hname]), hname, hfirst]
  simp only [Except.ok.injEq, exists_eq_left']
  by_cases hs : Word.ofBytes (Utf8.ofString text) = .separator
  · have hmissing : Line.words { pending := .waiting .mode } [Utf8.ofString text] =
        .error (.mistake (.missing .mode)) := by
      rw [Line.words.eq_def]
      simp only [hs]
      rfl
    rw [hmissing]
    simp only [reduceCtorEq, false_iff]
    rintro ⟨m, rfl, -⟩
    rw [hplain] at hs
    cases hs
  · rw [Choices.words_cons_eq_ok hs]
    constructor
    · rintro ⟨l, hl, hw⟩
      obtain ⟨bytes, hb, rfl⟩ := (word_waiting rfl hs).mp hl
      obtain rfl := plain_of_ofBytes hb
      exact give_mode.mp (Choices.lift_eq_ok.mp hw)
    · rintro ⟨m, rfl, rfl⟩
      refine ⟨_, (word_waiting rfl hs).mpr ⟨_, hplain m, rfl⟩, ?_⟩
      exact Choices.lift_eq_ok.mpr (give_mode.mpr ⟨m, rfl, rfl⟩)

theorem modeVariable_name (m : ReadMode) : modeVariable m.name = (modeOnly m).environment := by
  funext s
  cases s <;> rfl

theorem gather_modeVariable : Choices.gather [] (modeVariable text) = .ok cs ↔
    ∃ m : ReadMode, text = m.name ∧ cs = modeOnly m := by
  have hc (m : ReadMode) : (modeOnly m).config ≠ some [] := nofun
  rw [Choices.gather_eq_ok]
  constructor
  · rintro ⟨args, hw, hv, rfl⟩
    cases hw
    obtain ⟨c, hr⟩ := hv .mode rfl _ rfl
    obtain ⟨m, hm, -⟩ := map_eq_ok.mp hr
    obtain rfl := Choice.readMode_eq_ok.mp hm
    refine ⟨m, rfl, ?_⟩
    rw [modeVariable_name, Choices.choices_environment (hc m)]
    rfl
  · rintro ⟨m, rfl, rfl⟩
    rw [modeVariable_name]
    refine ⟨{}, rfl, fun s _ => Choices.valid_environment (hc m) s, ?_⟩
    rw [Choices.choices_environment (hc m)]
    rfl

/-- The document that gives a mode and nothing else. -/
def modeLayout (text : String) (w : List Char) (h : Document.Quoted.Spelled text.toList w) :
    Layout where
  sections :=
    [{ name := "session"
       assignments :=
         [{ key := "mode"
            value := .string text
            text := '"' :: (w ++ ['"'])
            bare := bareNames.mode
            writes := .string h }]
       bare := bareNames.session
       nodup := List.pairwise_singleton _ _ }]
  nodup := List.pairwise_singleton _ _

theorem text_modeLayout {w : List Char} (h : Document.Quoted.Spelled text.toList w) :
    (modeLayout text w h).text = "[session]\nmode = \"" ++ .ofList w ++ "\"\n" := by
  rw [← String.toList_inj]
  simp [Layout.text, Layout.lines, modeLayout, Document.Section.lines, Document.Section.header,
    Document.Assignment.line]

theorem parse_modeLayout {w : List Char} (h : Document.Quoted.Spelled text.toList w) :
    File.parse (modeLayout text w h).text =
      (namedMode text).map fun m => { session := { mode := m } } := by
  rw [File.parse, Document.parse?_text]
  show File.ofEntries [("session", .table .header [("mode", .string text)])] = _
  cases hm : namedMode text <;>
    simp [File.ofEntries, File.put, session, fill, SessionSection.put, mode, hm, Except.map,
      sequenceLength?, bind, Except.bind, pure, Except.pure]

theorem load_path {path body : List UInt8} (hpath : path ≠ []) (hr : read path = .ok body) :
    Config.load [Choice.word (.config path)] noVariables read =
      (File.ofBytes path body).map (Config.merge { config := some path }) := by
  have hw : Choices.ofWords [Choice.word (.config path)] = .ok { config := some path } :=
    Choices.ofWords_of_perm (l := [.config path]) (by simpa using hpath) (.refl _)
  rw [Config.load_of_gather (gather_noVariables.mpr hw), File.load]
  simp only [hr]

theorem named (text : String) (m : ReadMode) : Named text m where
  argument _ := load_of_gather_mode fun _ => gather_noVariables.trans ofWords_argument
  separate _ := load_of_gather_mode fun _ => gather_noVariables.trans ofWords_separate
  environment _ := load_of_gather_mode fun _ => gather_modeVariable
  file path w read hpath hw hr := by
    rw [load_path hpath hr, ← text_modeLayout hw, File.ofBytes_ofString, parse_modeLayout hw,
      ← namedMode_eq_ok]
    cases namedMode text with
    | error d => simp [Except.map, Except.mapError]
    | ok m' => simp [Except.map, Except.mapError, Config.merge]

end SerialAck.Settings

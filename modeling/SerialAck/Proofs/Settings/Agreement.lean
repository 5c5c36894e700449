/-
The three ways to give a setting agree. Six values are spread over the words of a command line, the
variables of an environment and the keys of a document, each to one of them, and a load puts them
together again, whatever the spread (`settings_agree`).
-/
import SerialAck.Proofs.Settings.ModeNames

namespace SerialAck.Settings

open Document (Layout)

/-- Where a setting is given. -/
inductive Layer where
  | argument | variable | file
  deriving Repr, DecidableEq

/-- What a server is run with, and the path of a file if there is one. -/
structure Values where
  path : Option (List UInt8)
  host : String
  port : UInt16
  mode : ReadMode
  ack : String
  idle : UInt64
  level : String

namespace Values

def choices (v : Values) : Choices where
  config := v.path
  host := some v.host
  port := some v.port
  mode := some v.mode
  ack := some v.ack
  idle := some v.idle
  level := some v.level

/-- The configuration with exactly these values. -/
def result (v : Values) : Config where
  host := v.host
  port := v.port
  mode := v.mode
  ack := v.ack
  idle := if v.idle = 0 then none else some (.ofSeconds v.idle.toNat)
  level := v.level

end Values

/-- The part of a layer that is given in one of the three places. -/
def Choices.placed (cs : Choices) (place : Setting → Layer) (l : Layer) : Choices where
  config := if place .config = l then cs.config else none
  host := if place .host = l then cs.host else none
  port := if place .port = l then cs.port else none
  mode := if place .mode = l then cs.mode else none
  ack := if place .ack = l then cs.ack else none
  idle := if place .idle = l then cs.idle else none
  level := if place .level = l then cs.level else none

/-- Every choice is where its setting is placed, and nowhere else: as a word of the command line,
which may stand in any order, as a variable, or in the document at the path. -/
structure Given (cs : Choices) (place : Setting → Layer) (words : List (List UInt8))
    (env : Environment) (read : ReadFile) : Prop where
  arguments : ∃ args : List Choice,
    args.Perm (cs.placed place .argument).toList ∧ words = args.map Choice.word
  environment : ∀ s, env s = ((cs.placed place .variable).get? s).map Choice.written
  document : ∀ path, cs.config = some path →
    ∃ d : Layout, Holds d (cs.placed place .file) ∧ read path = .ok (Utf8.ofString d.text)

/-- A place for each setting that it can be given in: the path not in the file it leads to, nothing
in a file without a path, and no number there that is beyond those of documents. -/
structure Placed (v : Values) (place : Setting → Layer) : Prop where
  path : v.path ≠ some []
  outside : place .config ≠ .file
  fileless : v.path = none → ∀ s, place s ≠ .file
  seconds : place .idle = .file → v.idle.toNat ≤ 0x7FFFFFFFFFFFFFFF

variable {cs : Choices} {place : Setting → Layer} {l : Layer} {v : Values}
  {words : List (List UInt8)} {env : Environment} {read : ReadFile} {s : Setting}

namespace Choices

theorem get?_placed (cs : Choices) (place : Setting → Layer) (l : Layer) (s : Setting) :
    (cs.placed place l).get? s = if place s = l then cs.get? s else none := by
  cases s <;> simp only [get?, placed] <;> split <;> rfl

/-- Together the three parts are the whole. -/
theorem or_placed (cs : Choices) (place : Setting → Layer) :
    ((cs.placed place .argument).or (cs.placed place .variable)).or (cs.placed place .file) =
      cs := by
  refine eq_iff_get?.mpr fun s => ?_
  rw [get?_or, get?_or, get?_placed, get?_placed, get?_placed]
  cases place s <;> simp

theorem config_placed (hc : cs.config ≠ some []) : (cs.placed place l).config ≠ some [] := by
  rw [placed]
  split
  · exact hc
  · nofun

end Choices

/-! ## Putting the values together -/

namespace Given

theorem gather (h : Given cs place words env read) (hc : cs.config ≠ some []) :
    Choices.gather words env =
      .ok ((cs.placed place .argument).or (cs.placed place .variable)) := by
  obtain ⟨args, hperm, rfl⟩ := h.arguments
  obtain rfl : env = (cs.placed place .variable).environment := funext h.environment
  have hvars : (cs.placed place .variable).config ≠ some [] := Choices.config_placed hc
  refine Choices.gather_eq_ok.mpr ⟨_, Choices.ofWords_of_perm (Choices.config_placed hc) hperm,
    fun s _ => Choices.valid_environment hvars s, ?_⟩
  rw [Choices.choices_environment hvars]

theorem load (h : Given v.choices place words env read) (hp : Placed v place) :
    Config.load words env read = .ok v.result := by
  have hfile : (v.choices.placed place .file).config = none := if_neg hp.outside
  have hor := v.choices.or_placed place
  generalize hargs : (v.choices.placed place .argument).or (v.choices.placed place .variable) = cs
    at hor
  have hg := h.gather hp.path
  rw [hargs] at hg
  have hconfig : cs.config = v.path := by
    have hc := congrArg Choices.config hor
    rw [Choices.or, hfile] at hc
    simpa [Values.choices] using hc
  have hl : File.load read cs.config = .ok (v.choices.placed place .file).file := by
    rw [hconfig]
    cases hv : v.path with
    | none =>
      have hnone : v.choices.placed place .file = {} := by
        refine Choices.eq_iff_get?.mpr fun s => ?_
        rw [Choices.get?_placed, if_neg (hp.fileless hv s)]
        cases s <;> rfl
      rw [hnone]
      rfl
    | some path =>
      obtain ⟨d, hd, hr⟩ := h.document path hv
      exact File.load_eq_ok.mpr ⟨d.text, hr, parse_of_holds hd hfile⟩
  rw [Config.load_of_gather hg, hl]
  show Except.ok (Config.merge cs (v.choices.placed place .file).file) = _
  rw [Config.merge_file, hor]
  rfl

end Given

/-- Every placement can be written out. -/
theorem exists_given (hp : Placed v place) :
    ∃ words env read, Given v.choices place words env read := by
  have hn : ∀ n, (v.choices.placed place .file).idle = some n → n.toNat ≤ 0x7FFFFFFFFFFFFFFF := by
    intro n h
    have hi : (if place .idle = .file then some v.idle else none) = some n := h
    split at hi
    · rename_i he
      cases hi
      exact hp.seconds he
    · cases hi
  exact ⟨_, _, fun _ => .ok (Utf8.ofString (v.choices.placed place .file).layout.text),
    ⟨_, .refl _, rfl⟩, fun s => rfl, fun path _ => ⟨_, holds_layout hn, rfl⟩⟩

/-- **Arguments, variables and files agree on settings.** However the values are spread over the
three, and however that is written down, they come to the same configuration; and a text names a
mode in one of the three if it does in the others. -/
theorem settings_agree (hp : Placed v place) :
    (∃ words env read, Given v.choices place words env read) ∧
      (∀ words env read, Given v.choices place words env read →
        Config.load words env read = .ok v.result) ∧
      ∀ text m, Named text m :=
  ⟨exists_given hp, fun _ _ _ h => h.load hp, named⟩

/-- Some of each in every place, among it what has to be escaped in a document. -/
def scatteredValues : Values where
  path := some [102]
  host := "\"\\\n"
  port := 65535
  mode := .chunk
  ack := ""
  idle := 0x7FFFFFFFFFFFFFFF
  level := "-"

def scattered : Setting → Layer
  | .config | .ack => .variable
  | .port | .level => .argument
  | .host | .mode | .idle => .file

theorem settings_agree_scattered : Placed scatteredValues scattered ∧
    ∃ words env read, Given scatteredValues.choices scattered words env read ∧
      Config.load words env read = .ok scatteredValues.result := by
  have hp : Placed scatteredValues scattered := ⟨by decide, by decide, nofun, fun _ => by decide⟩
  obtain ⟨⟨words, env, read, hg⟩, hl, -⟩ := settings_agree hp
  exact ⟨hp, words, env, read, hg, hl words env read hg⟩

end SerialAck.Settings

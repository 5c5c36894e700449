/-
Settings that are written out. Each choice has a text, the same for a word of the command line and
for a variable, and every reader takes the text for the choice (`read_written`). The words of a
layer read back as the layer in whatever order they stand (`ofWords_of_perm`), and so do its
variables (`choices_environment`).
-/
import SerialAck.Proofs.Settings.Values

namespace SerialAck.Settings

/-! ## One choice -/

namespace Choice

/-- The value as a word or a variable has it. -/
def written : Choice → List UInt8
  | .config path => path
  | .host text | .ack text | .level text => Utf8.ofString text
  | .port number => Utf8.ofString (Numeral.text number.toNat)
  | .mode m => Utf8.ofString m.name
  | .idle seconds => Utf8.ofString (Numeral.text seconds.toNat)

/-- The choice as one word. -/
def word (c : Choice) : List UInt8 :=
  Utf8.ofString ("--" ++ c.setting.long ++ "=") ++ c.written

variable {c : Choice} {s : Setting}

theorem readMode_eq_ok {text : String} {m : ReadMode} :
    readMode (Utf8.ofString text) = .ok m ↔ text = m.name := by
  rw [readMode_eq_name, Utf8.ofString_inj]

/-- What is written is a value. Only an empty path is none. -/
theorem isValue_written (h : c ≠ .config []) : c.IsValue c.written := by
  have hdigits (n : Nat) : Utf8.ofString (Numeral.text n) = Utf8.encode (Numeral.digits n) := by
    rw [Utf8.ofString, Numeral.text, String.toList_ofList]
  cases c with
  | config path =>
    refine ⟨?_, rfl⟩
    rintro rfl
    exact h rfl
  | host text | ack text | level text => rfl
  | port n => exact ⟨_, hdigits n.toNat, .unsigned (.plain (Numeral.denotes_digits n.toNat))⟩
  | mode m => rfl
  | idle n => exact ⟨_, hdigits n.toNat, .plain (Numeral.denotes_digits n.toNat)⟩

/-- **A written value reads back.** -/
theorem read_written (h : c ≠ .config []) : Choice.read c.setting c.written = .ok c :=
  read_eq_ok.mpr ⟨rfl, isValue_written h⟩

/-! ## One word -/

theorem ofLong?_long (s : Setting) : Setting.ofLong? (Utf8.ofString s.long) = some s := by
  cases s <;> decide +kernel

theorem ofBytes_long (s : Setting) (value : List UInt8) :
    Word.ofBytes (Utf8.ofString ("--" ++ s.long ++ "=") ++ value) =
      .long (Utf8.ofString s.long) (some value) := by
  have hl : ∀ b ∈ Utf8.ofString s.long, decide (b ≠ equals) = true := by
    cases s <;> decide +kernel
  have hw : Utf8.ofString ("--" ++ s.long ++ "=") ++ value =
      dash :: dash :: (Utf8.ofString s.long ++ equals :: value) := by
    rw [Utf8.ofString_append, Utf8.ofString_append, List.append_assoc, List.append_assoc]
    rfl
  have ht : (Utf8.ofString s.long ++ equals :: value).takeWhile (· ≠ equals) =
      Utf8.ofString s.long := by
    rw [List.takeWhile_append_of_pos hl, List.takeWhile_cons_of_neg (by decide), List.append_nil]
  have hd : (Utf8.ofString s.long ++ equals :: value).dropWhile (· ≠ equals) =
      equals :: value := by
    rw [List.dropWhile_append_of_pos hl, List.dropWhile_cons_of_neg (by decide)]
  rw [hw, Word.ofBytes, if_neg (by simp), if_neg (by simp), if_neg (by simp), ht, hd]
  rfl

end Choice

/-! ## One word after the other -/

namespace Line

theorem setting_none (l : Line) (s : Setting) :
    l.setting s none = l.settle.map fun cs => { choices := cs, pending := .waiting s } := by
  unfold setting
  cases l.settle <;> rfl

theorem setting_some (l : Line) (s : Setting) (value : List UInt8) : l.setting s (some value) =
    (l.settle >>= fun cs => cs.give s value).map fun cs => { choices := cs } := by
  unfold setting
  cases l.settle with
  | error m => rfl
  | ok cs =>
    show (do return { choices := ← cs.give s value } : Except Mistake Line) = _
    show _ = (cs.give s value).map _
    cases cs.give s value <;> rfl

/-- A setting and its value in one word. -/
theorem word_joined (l : Line) (s : Setting) (value : List UInt8) :
    l.word (Word.ofBytes (Utf8.ofString ("--" ++ s.long ++ "=") ++ value)) =
      lift (l.setting s (some value)) := by
  simp only [Choice.ofBytes_long, word, Choice.ofLong?_long]

end Line

/-! ## A layer as words -/

namespace Choices

variable {cs : Choices} {c : Choice} {s : Setting} {l : List Choice}

/-- The choices of a layer one by one. -/
def toList (cs : Choices) : List Choice :=
  Setting.all.filterMap cs.get?

theorem mem_toList : c ∈ cs.toList ↔ cs.get? c.setting = some c := by
  rw [toList, List.mem_filterMap]
  constructor
  · rintro ⟨s, -, hs⟩
    rwa [setting_of_get? hs]
  · intro h
    exact ⟨c.setting, mem_all _, h⟩

theorem nodup_toList (cs : Choices) : (cs.toList.map Choice.setting).Nodup := by
  have hmap (l : List Setting) :
      (l.filterMap cs.get?).map Choice.setting = l.filter fun s => (cs.get? s).isSome := by
    induction l with
    | nil => rfl
    | cons s l ih =>
      cases hs : cs.get? s with
      | none => simp [hs, ih]
      | some c => simp [hs, ih, setting_of_get? hs]
  rw [toList, hmap]
  exact nodup_all.filter _

/-- Once the first choice is added, the others are still free. -/
theorem free_add (hn : ((c :: l).map Choice.setting).Nodup)
    (hf : ∀ d ∈ c :: l, cs.get? d.setting = none) :
    ∀ d ∈ l, (cs.add c).get? d.setting = none := by
  intro d hd
  have hne : c.setting ≠ d.setting := fun heq =>
    (List.nodup_cons.mp hn).1 (heq ▸ List.mem_map_of_mem hd)
  rw [get?_add, if_neg hne]
  exact hf d (List.mem_cons_of_mem c hd)

/-- Choices for different settings do not get in each other's way. -/
theorem get?_foldl_add (hn : (l.map Choice.setting).Nodup)
    (hf : ∀ d ∈ l, cs.get? d.setting = none) :
    (l.foldl add cs).get? s = some c ↔ (c ∈ l ∧ c.setting = s) ∨ cs.get? s = some c := by
  induction l generalizing cs with
  | nil => simp
  | cons d l ih =>
    obtain ⟨hd, hl⟩ := List.nodup_cons.mp hn
    rw [List.foldl_cons, ih hl (free_add hn hf), get?_add]
    by_cases hs : d.setting = s
    · subst hs
      have hnone := hf d List.mem_cons_self
      have hout : ∀ e ∈ l, e.setting ≠ d.setting := fun e he heq =>
        hd (heq ▸ List.mem_map_of_mem he)
      rw [if_pos rfl, hnone]
      constructor
      · rintro (⟨he, heq⟩ | h)
        · exact absurd heq (hout c he)
        · cases h
          exact .inl ⟨List.mem_cons_self, rfl⟩
      · rintro (⟨he, heq⟩ | h)
        · rcases List.mem_cons.mp he with rfl | he
          · exact .inr rfl
          · exact absurd heq (hout c he)
        · cases h
    · rw [if_neg hs, List.mem_cons]
      constructor
      · rintro (⟨he, heq⟩ | h)
        · exact .inl ⟨.inr he, heq⟩
        · exact .inr h
      · rintro (⟨rfl | he, heq⟩ | h)
        · exact absurd heq hs
        · exact .inl ⟨he, heq⟩
        · exact .inr h

/-- However the choices of a layer are ordered, together they are the layer. -/
theorem foldl_add_of_perm (h : l.Perm cs.toList) : l.foldl add {} = cs := by
  have hn : (l.map Choice.setting).Nodup := (h.map _).nodup_iff.mpr cs.nodup_toList
  have hnone (s : Setting) : ({} : Choices).get? s = none := by cases s <;> rfl
  refine eq_iff_get?.mpr fun s => Option.ext fun c => ?_
  rw [get?_foldl_add hn fun d _ => hnone _, hnone, h.mem_iff, mem_toList]
  constructor
  · rintro (⟨hg, rfl⟩ | h)
    · exact hg
    · cases h
  · intro hg
    obtain rfl := setting_of_get? hg
    exact .inl ⟨hg, rfl⟩

/-- A setting and its value in one word. -/
theorem word_long (cs : Choices) (s : Setting) (value : List UInt8) :
    Line.word { choices := cs } (Word.ofBytes (Utf8.ofString ("--" ++ s.long ++ "=") ++ value)) =
      Line.lift ((cs.give s value).map fun cs => { choices := cs }) := by
  rw [Line.word_joined, Line.setting_some]
  rfl

theorem word_choice (h : c ≠ .config []) (hs : cs.has c.setting = false) :
    Line.word { choices := cs } (Word.ofBytes c.word) = .ok { choices := cs.add c } := by
  have hg : cs.give c.setting c.written = .ok (cs.add c) :=
    give_eq_ok.mpr ⟨hs, c, Choice.read_written h, rfl⟩
  rw [Choice.word, word_long, hg]
  rfl

/-- A word other than the separator takes one turn. -/
theorem words_cons {l : Line} {w : List UInt8} (hs : Word.ofBytes w ≠ .separator)
    (ws : List (List UInt8)) : l.words (w :: ws) = l.word (Word.ofBytes w) >>= (·.words ws) := by
  rw [Line.words.eq_def]
  cases hw : Word.ofBytes w with
  | separator => exact absurd hw hs
  | _ => cases h : l.word (Word.ofBytes w) <;> rw [hw] at h <;> simp [hw, h, bind, Except.bind]

theorem words_cons_eq_ok {l : Line} {w : List UInt8} {ws : List (List UInt8)}
    (hs : Word.ofBytes w ≠ .separator) :
    l.words (w :: ws) = .ok cs ↔ ∃ l', l.word (Word.ofBytes w) = .ok l' ∧ l'.words ws = .ok cs := by
  rw [words_cons hs, bind_eq_ok]

theorem words_settings (hn : (l.map Choice.setting).Nodup) (hc : ∀ c ∈ l, c ≠ .config [])
    (hf : ∀ c ∈ l, cs.get? c.setting = none) :
    Line.words { choices := cs } (l.map Choice.word) = .ok (l.foldl add cs) := by
  induction l generalizing cs with
  | nil => rfl
  | cons d l ih =>
    have hl := (List.nodup_cons.mp hn).2
    have hs := word_choice (hc d List.mem_cons_self)
      (get?_eq_none_iff.mp (hf d List.mem_cons_self))
    rw [List.map_cons, words_cons_eq_ok (by simp [Choice.word, Choice.ofBytes_long])]
    refine ⟨_, hs, ?_⟩
    exact ih hl (fun c hm => hc c (List.mem_cons_of_mem d hm)) (free_add hn hf)

/-- **The words of a layer read back**, in whatever order they stand. -/
theorem ofWords_of_perm (hc : cs.config ≠ some []) (h : l.Perm cs.toList) :
    ofWords (l.map Choice.word) = .ok cs := by
  have hn : (l.map Choice.setting).Nodup := (h.map _).nodup_iff.mpr cs.nodup_toList
  have hpath : ∀ c ∈ l, c ≠ .config [] := by
    rintro c hm rfl
    have hg : cs.config.map Choice.config = some (.config []) := mem_toList.mp (h.mem_iff.mp hm)
    obtain ⟨path, hp, he⟩ := Option.map_eq_some_iff.mp hg
    cases he
    exact hc hp
  rw [ofWords, words_settings hn hpath fun c _ => by cases c <;> rfl, foldl_add_of_perm h]

example : [Choice.level "info", .mode .chunk].map Choice.word =
    ["--log-level=info", "--mode=chunk"].map Utf8.ofString := by decide +kernel

/-! ## A layer as variables -/

/-- The environment in which just the choices of a layer are written. -/
def environment (cs : Choices) : Environment := fun s =>
  (cs.get? s).map Choice.written

theorem read_environment (hc : cs.config ≠ some []) (h : cs.get? s = some c) :
    Choice.read s c.written = .ok c := by
  obtain rfl := setting_of_get? h
  refine Choice.read_written ?_
  rintro rfl
  obtain ⟨path, hp, he⟩ := Option.map_eq_some_iff.mp h
  cases he
  exact hc hp

theorem valid_environment (hc : cs.config ≠ some []) (s : Setting) :
    cs.environment.Valid s := by
  intro value hv
  obtain ⟨c, hg, rfl⟩ := Option.map_eq_some_iff.mp hv
  exact ⟨c, read_environment hc hg⟩

/-- **The variables of a layer read back.** -/
theorem choices_environment (hc : cs.config ≠ some []) : cs.environment.choices = cs := by
  refine eq_iff_get?.mpr fun s => ?_
  rw [Environment.get?_choices, environment]
  cases hg : cs.get? s with
  | none => rfl
  | some c =>
    show (Choice.read s c.written).toOption = some c
    rw [read_environment hc hg]
    rfl

end Choices

end SerialAck.Settings

/-
Spellings on the command line. A setting can be given its value in five ways, and each of them hands
the value over in the same way (`words_spelled`). A command line that spells one occurrence after
the other is therefore the occurrences given one by one (`words_commandLine`): they all count,
whatever their order, or the first that comes a second time is refused.
-/
import Mathlib.Data.List.Induction
import Mathlib.Data.List.Nodup
import SerialAck.Proofs.Settings.ModeNames
import SerialAck.Proofs.Settings.Revision

namespace SerialAck.Settings

/-- A word that may follow an option as its value: nothing that begins with a dash, except a dash. -/
def Alone (v : List UInt8) : Prop :=
  v.head? = some dash → v = [dash]

/-- The words that give the setting this value. -/
inductive Spelled (s : Setting) (v : List UInt8) : List (List UInt8) → Prop
  /-- As in `--port=80`. -/
  | longEquals : Spelled s v [s.argument v]
  /-- As in `--port 80`. -/
  | long (h : Alone v) : Spelled s v [Utf8.ofString ("--" ++ s.long), v]
  /-- As in `-p80`. -/
  | attached {x : Char} (hx : s.short? = some x) (hv : v ≠ []) (he : v.head? ≠ some equals) :
      Spelled s v [Utf8.ofString ("-" ++ .singleton x) ++ v]
  /-- As in `-p=80`. -/
  | shortEquals {x : Char} (hx : s.short? = some x) (hv : v ≠ []) :
      Spelled s v [Utf8.ofString ("-" ++ .singleton x ++ "=") ++ v]
  /-- As in `-p 80`. -/
  | short {x : Char} (hx : s.short? = some x) (h : Alone v) :
      Spelled s v [Utf8.ofString ("-" ++ .singleton x), v]

/-- A choice somewhere on a command line, with the value it has there and how it is spelled. -/
structure Occurrence where
  choice : Choice
  value : List UInt8
  words : List (List UInt8)
  isValue : choice.IsValue value
  spelled : Spelled choice.setting value words

namespace Occurrence

def setting (o : Occurrence) : Setting :=
  o.choice.setting

/-- The occurrence after what was chosen before it. -/
def give (cs : Choices) (o : Occurrence) : Except Mistake Choices :=
  cs.give o.setting o.value

end Occurrence

/-- The occurrences, spelled one after the other. -/
def commandLine (os : List Occurrence) : List (List UInt8) :=
  os.flatMap Occurrence.words

/-- A command line is what it spells, unless it repeats itself. -/
structure FreelySpelled (os : List Occurrence) : Prop where
  /-- Every occurrence counts, and nothing else does. -/
  distinct : (os.map Occurrence.setting).Nodup →
    ∃ cs, Choices.gather (commandLine os) noVariables = .ok cs ∧
      ∀ s c, cs.get? s = some c ↔ c.setting = s ∧ ∃ o ∈ os, o.choice = c
  /-- Neither the order nor the spelling makes a difference. -/
  same : (os.map Occurrence.setting).Nodup → ∀ os' : List Occurrence,
    (os'.map Occurrence.choice).Perm (os.map Occurrence.choice) →
      Choices.gather (commandLine os') noVariables = Choices.gather (commandLine os) noVariables
  /-- The first occurrence of a setting that was there before is the one at fault. -/
  repeated : ¬ (os.map Occurrence.setting).Nodup → ∃ before o after, os = before ++ o :: after ∧
    (before.map Occurrence.setting).Nodup ∧ o.setting ∈ before.map Occurrence.setting ∧
      Choices.gather (commandLine os) noVariables = .error (.mistake (.repeated o.setting))

variable {s : Setting} {v : List UInt8} {ws : List (List UInt8)} {x : Char} {cs : Choices}
  {c : Choice} {o : Occurrence} {os before after : List Occurrence}

/-! ## The forms of words -/

theorem Word.ofBytes_alone (h : Alone v) : Word.ofBytes v = .plain v := by
  unfold Word.ofBytes
  split
  · rename_i a b r
    by_cases ha : a = dash
    · cases h (congrArg some ha)
    · rw [if_pos ha]
  · rfl

theorem Word.ofBytes_long (s : Setting) :
    Word.ofBytes (Utf8.ofString ("--" ++ s.long)) = .long (Utf8.ofString s.long) none := by
  cases s <;> decide +kernel

/-- The letter of a setting is one byte and belongs to that setting alone. -/
theorem letter_of_short? (hx : s.short? = some x) : ∃ b : UInt8,
    Utf8.ofString ("-" ++ .singleton x) = [dash, b] ∧ b ≠ dash ∧ Setting.ofShort? b = some s := by
  cases s <;> cases hx <;> exact ⟨_, rfl, by decide +kernel, by decide +kernel⟩

theorem Word.ofBytes_short {b : UInt8} (hb : b ≠ dash) (v : List UInt8) :
    Word.ofBytes (dash :: b :: v) = .short (b :: v) := by
  rw [Word.ofBytes, if_neg (by simp), if_pos hb]

/-! ## Each spelling -/

namespace Line

variable {α β : Type}

theorem lift_bind (r : Except Mistake α) (f : α → Except Mistake β) :
    lift (r >>= f) = lift r >>= fun a => lift (f a) := by
  cases r <;> rfl

theorem lift_map_bind (r : Except Mistake α) (f : α → Line) (ws : List (List UInt8)) :
    lift (r.map f) >>= (·.words ws) = lift r >>= fun a => (f a).words ws := by
  cases r <;> rfl

/-- A setting with its value in the same word. -/
theorem words_joined {l : Line} {w : List UInt8} (hw : Word.ofBytes w ≠ .separator)
    (h : l.word (Word.ofBytes w) = lift (l.setting s (some v))) (rest : List (List UInt8)) :
    l.words (w :: rest) =
      lift (l.settle >>= fun cs => cs.give s v) >>= fun cs => Line.words { choices := cs } rest := by
  rw [Choices.words_cons hw, h, setting_some, lift_map_bind]

/-- A setting whose value is the next word. -/
theorem words_separate {l : Line} {w : List UInt8} (hw : Word.ofBytes w ≠ .separator)
    (h : l.word (Word.ofBytes w) = lift (l.setting s none)) (hv : Alone v)
    (rest : List (List UInt8)) :
    l.words (w :: v :: rest) = lift l.settle >>= fun cs =>
      Line.words { choices := cs, pending := .given s v } rest := by
  have hplain : Word.ofBytes v = .plain v := Word.ofBytes_alone hv
  have hnext (cs : Choices) : Line.words { choices := cs, pending := .waiting s } (v :: rest) =
      Line.words { choices := cs, pending := .given s v } rest := by
    rw [Choices.words_cons (by simp [hplain]), hplain]
    rfl
  rw [Choices.words_cons hw, h, setting_none, lift_map_bind]
  simp only [hnext]

theorem word_letter {b : UInt8} (l : Line) (hs : Setting.ofShort? b = some s)
    (r : List UInt8) : l.word (.short (b :: r)) = lift (l.setting s (attached r)) := by
  simp only [word, hs]

theorem attached_cons (hv : v ≠ []) (he : v.head? ≠ some equals) : attached v = some v := by
  cases v with
  | nil => exact absurd rfl hv
  | cons b v =>
    have hb : b ≠ equals := fun h => he (congrArg some h)
    simp [attached, hb]

/-- Whether the value is given at once or left open, it is given before anything else is. -/
theorem words_spelled (h : Spelled s v ws) {rest : List (List UInt8)}
    {f : Choices → Except Mistake Choices}
    (hf : ∀ l : Line, l.words rest = lift (l.settle >>= f)) (l : Line) :
    l.words (ws ++ rest) = lift (l.settle >>= fun cs => cs.give s v >>= f) := by
  -- what is left of each spelling once its words are read
  have joined {w : List UInt8} (hw : Word.ofBytes w ≠ .separator)
      (hword : l.word (Word.ofBytes w) = lift (l.setting s (some v))) :
      l.words ([w] ++ rest) = lift (l.settle >>= fun cs => cs.give s v >>= f) := by
    have hgive : (l.settle >>= fun cs => cs.give s v >>= f) =
        (l.settle >>= fun cs => cs.give s v) >>= f := (bind_assoc ..).symm
    rw [List.singleton_append, words_joined hw hword, hgive, lift_bind _ f]
    exact congrArg _ (funext fun cs => hf _)
  have separate {w : List UInt8} (hw : Word.ofBytes w ≠ .separator)
      (hword : l.word (Word.ofBytes w) = lift (l.setting s none)) (hv : Alone v) :
      l.words ([w, v] ++ rest) = lift (l.settle >>= fun cs => cs.give s v >>= f) := by
    rw [List.cons_append, List.singleton_append, words_separate hw hword hv, lift_bind]
    exact congrArg _ (funext fun cs => hf _)
  cases h with
  | longEquals => exact joined (Choices.argument_ne_separator s v) (word_argument l s v)
  | long hv =>
    refine separate (by simp [Word.ofBytes_long]) ?_ hv
    simp only [Word.ofBytes_long, word, Choice.ofLong?_long]
  | attached hx hv he =>
    obtain ⟨b, hx, hb, hs⟩ := letter_of_short? hx
    rw [hx]
    refine joined (by simp [Word.ofBytes_short hb]) ?_
    rw [List.cons_append, List.singleton_append, Word.ofBytes_short hb, word_letter l hs,
      attached_cons hv he]
  | shortEquals hx hv =>
    obtain ⟨b, hx, hb, hs⟩ := letter_of_short? hx
    rw [Utf8.ofString_append, hx]
    refine joined (by simp [Word.ofBytes_short hb]) ?_
    rw [List.append_assoc, List.cons_append, List.singleton_append, Word.ofBytes_short hb,
      word_letter l hs]
    rfl
  | short hx hv =>
    obtain ⟨b, hx, hb, hs⟩ := letter_of_short? hx
    rw [hx]
    refine separate (by simp [Word.ofBytes_short hb]) ?_ hv
    rw [Word.ofBytes_short hb, word_letter l hs]
    rfl

/-- **A command line is its occurrences, given one by one.** -/
theorem words_commandLine (l : Line) (os : List Occurrence) :
    l.words (commandLine os) = lift (l.settle >>= fun cs => os.foldlM Occurrence.give cs) := by
  induction os generalizing l with
  | nil =>
    show lift l.settle = lift (l.settle >>= pure)
    rw [bind_pure]
  | cons o os ih => exact words_spelled o.spelled ih l

end Line

/-! ## One occurrence after the other -/

namespace Occurrence

theorem give_free (o : Occurrence) (h : cs.get? o.setting = none) :
    give cs o = .ok (cs.add o.choice) :=
  Choices.give_eq_ok.mpr ⟨Choices.get?_eq_none_iff.mp h, o.choice,
    Choice.read_eq_ok.mpr ⟨rfl, o.isValue⟩, rfl⟩

theorem give_taken (h : cs.get? o.setting ≠ none) : give cs o = .error (.repeated o.setting) := by
  have hs : cs.has o.setting = true := by
    rwa [Ne, Choices.get?_eq_none_iff, Bool.not_eq_false] at h
  rw [give, Choices.give, if_pos hs]

/-- The settings of occurrences are those of their choices. -/
theorem map_setting (os : List Occurrence) :
    os.map setting = (os.map choice).map Choice.setting := by
  rw [List.map_map]
  rfl

theorem foldlM_give (hn : (os.map setting).Nodup) (hf : ∀ o ∈ os, cs.get? o.setting = none) :
    os.foldlM give cs = .ok ((os.map choice).foldl Choices.add cs) := by
  induction os generalizing cs with
  | nil => rfl
  | cons o os ih =>
    have hrest : ∀ p ∈ os, (cs.add o.choice).get? p.setting = none := by
      intro p hp
      refine Choices.free_add (l := os.map choice) ?_ ?_ p.choice (List.mem_map_of_mem hp)
      · rwa [← List.map_cons, ← map_setting]
      · intro c hc
        rw [← List.map_cons] at hc
        obtain ⟨q, hq, rfl⟩ := List.mem_map.mp hc
        exact hf q hq
    rw [List.foldlM_cons, give_free o (hf o List.mem_cons_self)]
    exact ih (List.nodup_cons.mp hn).2 hrest

/-- Where some setting comes twice, it comes a second time for the first time. -/
theorem exists_repeated (h : ¬ (os.map setting).Nodup) : ∃ before o after,
    os = before ++ o :: after ∧ (before.map setting).Nodup ∧ o.setting ∈ before.map setting := by
  induction os using List.reverseRecOn with
  | nil => exact absurd List.nodup_nil h
  | append_singleton os o ih =>
    by_cases hn : (os.map setting).Nodup
    · refine ⟨os, o, [], rfl, hn, ?_⟩
      by_contra hm
      refine h ?_
      rw [List.map_append, List.map_singleton]
      exact List.Nodup.append hn (List.nodup_singleton _) (List.disjoint_singleton.mpr hm)
    · obtain ⟨before, p, after, rfl, hb, hp⟩ := ih hn
      exact ⟨before, p, after ++ [o], by simp, hb, hp⟩

end Occurrence

/-! ## Whole command lines -/

open Occurrence

/-- What the occurrences choose together. -/
def chosen (os : List Occurrence) : Choices :=
  (os.map choice).foldl Choices.add {}

theorem get?_empty (s : Setting) : ({} : Choices).get? s = none := by
  cases s <;> rfl

theorem get?_chosen (hn : (os.map setting).Nodup) :
    (chosen os).get? s = some c ↔ c.setting = s ∧ ∃ o ∈ os, o.choice = c := by
  rw [map_setting] at hn
  rw [chosen, Choices.get?_foldl_add hn fun d _ => get?_empty _, get?_empty, List.mem_map]
  simp [and_comm]

theorem gather_distinct (hn : (os.map setting).Nodup) :
    Choices.gather (commandLine os) noVariables = .ok (chosen os) := by
  refine gather_noVariables.mpr ?_
  rw [Choices.ofWords, Line.words_commandLine]
  exact congrArg Line.lift (foldlM_give hn fun o _ => get?_empty _)

theorem gather_repeated (hn : (before.map setting).Nodup)
    (ho : o.setting ∈ before.map setting) :
    Choices.gather (commandLine (before ++ o :: after)) noVariables =
      .error (.mistake (.repeated o.setting)) := by
  obtain ⟨p, hp, hs⟩ := List.mem_map.mp ho
  have htaken : (chosen before).get? o.setting ≠ none := by
    rw [(get?_chosen (c := p.choice) hn).mpr ⟨hs, p, hp, rfl⟩]
    exact Option.some_ne_none _
  refine Choices.gather_of_stop ?_
  have hgive : (before ++ o :: after).foldlM give {} = .error (.repeated o.setting) := by
    rw [List.foldlM_append, foldlM_give hn fun o _ => get?_empty _]
    show give (chosen before) o >>= _ = _
    rw [give_taken htaken]
    rfl
  rw [Choices.ofWords, Line.words_commandLine]
  exact congrArg Line.lift hgive

/-- **Order and spelling do not matter on the command line**, and nothing may be repeated. -/
theorem commandLine_freelySpelled (os : List Occurrence) : FreelySpelled os where
  distinct hn := ⟨chosen os, gather_distinct hn, fun _ _ => get?_chosen hn⟩
  same hn os' hp := by
    have hn' : (os'.map setting).Nodup := by
      rw [map_setting] at hn ⊢
      exact (hp.map _).nodup_iff.mpr hn
    rw [gather_distinct hn, gather_distinct hn']
    refine congrArg _ (Choices.eq_iff_get?.mpr fun s => Option.ext fun c => ?_)
    rw [get?_chosen hn, get?_chosen hn', ← List.mem_map, ← List.mem_map, hp.mem_iff]
  repeated hn := by
    obtain ⟨before, o, after, rfl, hb, ho⟩ := exists_repeated hn
    exact ⟨before, o, after, rfl, hb, ho, gather_repeated hb ho⟩

/-- Values that look like something else. -/
def oddities : List Occurrence :=
  [⟨.ack "-p", Utf8.ofString "-p", _, rfl, .attached rfl (by decide) (by decide)⟩,
   ⟨.level "", [], _, rfl, .long nofun⟩,
   ⟨.host "-", Utf8.ofString "-", _, rfl, .short rfl fun _ => rfl⟩,
   ⟨.port 80, Utf8.ofString "080", _,
    ⟨_, rfl, .unsigned (.plain ⟨by decide, List.all_eq_true.mp (by decide), by decide⟩)⟩,
    .shortEquals rfl (by decide)⟩,
   ⟨.config (Utf8.ofString "--"), Utf8.ofString "--", _, ⟨by decide, rfl⟩, .longEquals⟩]

theorem oddities_freelySpelled :
    commandLine oddities =
      ["-a-p", "--log-level", "", "-H", "-", "-p=080", "--config=--"].map Utf8.ofString ∧
    (∃ cs, Choices.gather (commandLine oddities) noVariables = .ok cs ∧
      ∀ o ∈ oddities, cs.get? o.setting = some o.choice) ∧
    Choices.gather (commandLine oddities.reverse) noVariables =
      Choices.gather (commandLine oddities) noVariables ∧
    ∃ s, Choices.gather (commandLine (oddities ++ oddities.take 1)) noVariables =
      .error (.mistake (.repeated s)) := by
  have hn : (oddities.map setting).Nodup := by decide
  have hodd := commandLine_freelySpelled oddities
  obtain ⟨cs, hg, hcs⟩ := hodd.distinct hn
  obtain ⟨-, o, -, -, -, -, ho⟩ :=
    (commandLine_freelySpelled (oddities ++ oddities.take 1)).repeated (by decide)
  refine ⟨by decide +kernel, ⟨cs, hg, fun o ho => ?_⟩,
    hodd.same hn _ ((List.reverse_perm _).map _), _, ho⟩
  exact (hcs o.setting o.choice).mpr ⟨rfl, o, ho, rfl⟩

end SerialAck.Settings

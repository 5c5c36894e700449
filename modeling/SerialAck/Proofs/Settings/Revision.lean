/-
Another value in the same place. Where arguments and variables are accepted with some value for a
setting, any other value in its place is judged by itself: it is read, and all else stays as it was,
or it is refused, and nothing else is to blame (`gather_argument`, `gather_variable`).
-/
import SerialAck.Proofs.Settings.Words

namespace SerialAck.Settings

/-- The setting and a value in one word. -/
def Setting.argument (s : Setting) (value : List UInt8) : List UInt8 :=
  Utf8.ofString ("--" ++ s.long ++ "=") ++ value

/-- The environment with this value for the setting. -/
def Environment.set (env : Environment) (s : Setting) (value : List UInt8) : Environment :=
  fun t => if t = s then some value else env t

/-- The choices with this value for the setting, if it is one. -/
def Choices.revised (cs : Choices) (s : Setting) (value : List UInt8) : Except Stop Choices :=
  match Choice.read s value with
  | .ok c => .ok (cs.add c)
  | .error fault => .error (.mistake (.value s fault))

/-- The line with one more choice. -/
def Line.put (l : Line) (c : Choice) : Line :=
  { l with choices := l.choices.add c }

variable {cs cs' args : Choices} {c d : Choice} {s t : Setting} {l l' : Line} {w : List UInt8}
  {value : List UInt8} {words : List (List UInt8)} {env : Environment}

/-! ## Choices one after the other -/

namespace Choices

theorem has_add (cs : Choices) (c : Choice) (s : Setting) :
    (cs.add c).has s = (decide (c.setting = s) || cs.has s) := by
  rw [has_eq_isSome, has_eq_isSome, get?_add]
  by_cases h : c.setting = s <;> simp [h]

theorem add_add (h : c.setting = d.setting) : (cs.add c).add d = cs.add d := by
  refine eq_iff_get?.mpr fun s => ?_
  rw [get?_add, get?_add, get?_add, h]
  by_cases hs : d.setting = s <;> simp [hs]

theorem add_comm (h : c.setting ≠ d.setting) : (cs.add c).add d = (cs.add d).add c := by
  refine eq_iff_get?.mpr fun s => ?_
  rw [get?_add, get?_add, get?_add, get?_add]
  by_cases hs : d.setting = s
  · have hc : c.setting ≠ s := hs ▸ h
    simp [hs, hc]
  · simp [hs]

theorem or_add (cs ds : Choices) (c : Choice) : (cs.add c).or ds = (cs.or ds).add c := by
  refine eq_iff_get?.mpr fun s => ?_
  rw [get?_or, get?_add, get?_add, get?_or]
  by_cases hs : c.setting = s <;> simp [hs]

theorem give_eq_error (hs : cs.has s = false) {fault : ValueFault}
    (hr : Choice.read s value = .error fault) : cs.give s value = .error (.value s fault) := by
  rw [give, hs, hr]
  rfl

/-- A value for one setting does not depend on what is chosen for another. -/
theorem give_add (hc : cs.has c.setting = true) (h : cs.give s value = .ok cs') :
    (cs.add c).give s value = .ok (cs'.add c) ∧ cs'.has c.setting = true := by
  obtain ⟨hs, d, hd, rfl⟩ := give_eq_ok.mp h
  have hds := Choice.setting_of_read hd
  have hne : c.setting ≠ d.setting := by
    intro he
    rw [he, hds, hs] at hc
    cases hc
  refine ⟨give_eq_ok.mpr ⟨?_, d, hd, (add_comm hne).symm⟩, ?_⟩
  · rw [has_add, hs, ← hds, decide_eq_false hne, Bool.or_false]
  · rw [has_add, hc, Bool.or_true]

end Choices

/-! ## Lines that differ in one choice -/

namespace Line

theorem settle_put (hc : l.choices.has c.setting = true) (h : l.settle = .ok cs) :
    (l.put c).settle = .ok (cs.add c) ∧ cs.has c.setting = true := by
  unfold settle at h ⊢
  split at h
  · rename_i hp
    cases h
    exact ⟨by simp only [put, hp], hc⟩
  · cases h
  · rename_i hp
    have hg := Choices.give_add hc h
    exact ⟨by simpa only [put, hp] using hg.1, hg.2⟩

theorem setting_put {value : Option (List UInt8)} (hc : l.choices.has c.setting = true)
    (h : l.setting s value = .ok l') :
    (l.put c).setting s value = .ok (l'.put c) ∧ l'.choices.has c.setting = true := by
  cases value with
  | none =>
    rw [setting_none, map_eq_ok] at h
    obtain ⟨cs, hs, rfl⟩ := h
    obtain ⟨hput, hhas⟩ := settle_put hc hs
    rw [setting_none, hput]
    exact ⟨rfl, hhas⟩
  | some v =>
    rw [setting_some, map_eq_ok] at h
    obtain ⟨cs', hg, rfl⟩ := h
    obtain ⟨cs, hs, hg⟩ := bind_eq_ok.mp hg
    obtain ⟨hput, hhas⟩ := settle_put hc hs
    obtain ⟨hgive, hhas'⟩ := Choices.give_add hhas hg
    rw [setting_some, hput]
    exact ⟨map_eq_ok.mpr ⟨_, hgive, rfl⟩, hhas'⟩

theorem word_put {w : Word} (hc : l.choices.has c.setting = true) (h : l.word w = .ok l') :
    (l.put c).word w = .ok (l'.put c) ∧ l'.choices.has c.setting = true := by
  unfold word at h ⊢
  split at h
  · cases h
    exact ⟨rfl, hc⟩
  · split at h
    · exact (setting_put hc (Choices.lift_eq_ok.mp h)).imp_left Choices.lift_eq_ok.mpr
    · split at h <;> cases h
  · cases h
  · split at h
    · exact (setting_put hc (Choices.lift_eq_ok.mp h)).imp_left Choices.lift_eq_ok.mpr
    · split at h <;> cases h
  · rename_i bytes
    split at h
    · rename_i hp
      cases h
      exact ⟨by simp only [put, hp], hc⟩
    · cases h

/-- What is chosen for a setting makes no difference to the words that follow. -/
theorem words_put (hc : l.choices.has c.setting = true) (h : l.words words = .ok cs) :
    (l.put c).words words = .ok (cs.add c) := by
  induction words generalizing l with
  | nil => exact Choices.lift_eq_ok.mpr (settle_put hc (Choices.lift_eq_ok.mp h)).1
  | cons w ws ih =>
    by_cases hw : Word.ofBytes w = .separator
    · rw [words.eq_def] at h ⊢
      simp only [hw] at h ⊢
      split at h
      · exact Choices.lift_eq_ok.mpr (settle_put hc (Choices.lift_eq_ok.mp h)).1
      · cases h
    · obtain ⟨l', hl, hws⟩ := (Choices.words_cons_eq_ok hw).mp h
      obtain ⟨hput, hhas⟩ := word_put hc hl
      exact (Choices.words_cons_eq_ok hw).mpr ⟨_, hput, ih hhas hws⟩

/-- Words lead to a line at which reading goes on, or to no good whatever follows. -/
theorem words_append (l : Line) (front : List (List UInt8)) :
    (∃ l' : Line, ∀ rest, l.words (front ++ rest) = l'.words rest) ∨
      ∀ w rest, ∃ stop, l.words (front ++ w :: rest) = .error stop := by
  induction front generalizing l with
  | nil => exact .inl ⟨l, fun _ => rfl⟩
  | cons u front ih =>
    by_cases hu : Word.ofBytes u = .separator
    · refine .inr fun w rest => ?_
      rw [List.cons_append, words.eq_def]
      simp only [hu]
      cases front <;> exact ⟨_, rfl⟩
    · simp only [List.cons_append, Choices.words_cons hu]
      cases hl : l.word (Word.ofBytes u) with
      | error stop => exact .inr fun w rest => ⟨stop, rfl⟩
      | ok l₁ => exact ih l₁

theorem word_argument (l : Line) (s : Setting) (value : List UInt8) :
    l.word (Word.ofBytes (s.argument value)) = lift (l.setting s (some value)) :=
  word_joined l s value

end Line

/-! ## Arguments -/

namespace Choices

variable {before after : List (List UInt8)} {given : List UInt8}

theorem argument_ne_separator (s : Setting) (value : List UInt8) :
    Word.ofBytes (s.argument value) ≠ .separator := by
  simp [Setting.argument, Choice.ofBytes_long]

theorem ofWords_revised (h : ofWords (before ++ s.argument given :: after) = .ok args)
    (value : List UInt8) :
    ofWords (before ++ s.argument value :: after) = args.revised s value := by
  rcases Line.words_append {} before with ⟨l, hl⟩ | hstop
  · rw [ofWords, hl] at h ⊢
    obtain ⟨l₁, hw, hafter⟩ := (words_cons_eq_ok (argument_ne_separator s given)).mp h
    rw [Line.word_argument, lift_eq_ok, Line.setting_some, map_eq_ok] at hw
    obtain ⟨cs', hg, rfl⟩ := hw
    obtain ⟨cs, hs, hg⟩ := bind_eq_ok.mp hg
    obtain ⟨hfree, c, hc, rfl⟩ := give_eq_ok.mp hg
    rw [words_cons (argument_ne_separator s value), Line.word_argument, Line.setting_some, hs]
    show Line.lift ((cs.give s value).map _) >>= _ = _
    unfold revised
    cases hr : Choice.read s value with
    | error fault =>
      rw [give_eq_error hfree hr]
      rfl
    | ok d =>
      have hsame : c.setting = d.setting :=
        (Choice.setting_of_read hc).trans (Choice.setting_of_read hr).symm
      have hput : ({ choices := cs.add c } : Line).put d = { choices := cs.add d } := by
        rw [Line.put, add_add hsame]
      rw [give_eq_ok.mpr ⟨hfree, d, hr, rfl⟩]
      show Line.words { choices := cs.add d } after = _
      rw [← hput]
      refine Line.words_put ?_ hafter
      rw [has_add, decide_eq_true hsame, Bool.true_or]
  · obtain ⟨stop, hbad⟩ := hstop (s.argument given) after
    rw [ofWords, hbad] at h
    cases h

/-- One argument and nothing else. -/
theorem ofWords_single (s : Setting) (value : List UInt8) :
    ofWords [s.argument value] = ({} : Choices).revised s value := by
  have hfree : ({} : Choices).has s = false := by cases s <;> rfl
  rw [ofWords, words_cons (argument_ne_separator s value), Line.word_argument, Line.setting_some]
  show Line.lift ((({} : Choices).give s value).map _) >>= _ = _
  unfold revised
  cases hr : Choice.read s value with
  | error fault =>
    rw [give_eq_error hfree hr]
    rfl
  | ok c =>
    rw [give_eq_ok.mpr ⟨hfree, c, hr, rfl⟩]
    rfl

/-- Words that are judged by one value, over variables that are well. -/
theorem gather_of_revised {value : List UInt8} (h : ofWords words = args.revised s value)
    (hv : ∀ t, t ≠ s → args.has t = false → env.Valid t) :
    gather words env = (args.or env.choices).revised s value := by
  unfold revised at h ⊢
  cases hr : Choice.read s value with
  | error fault =>
    rw [hr] at h
    exact gather_of_stop h
  | ok c =>
    rw [hr] at h
    refine gather_eq_ok.mpr ⟨_, h, fun t ht => ?_, (or_add ..).symm⟩
    rw [has_add, Bool.or_eq_false_iff, Choice.setting_of_read hr, decide_eq_false_iff_not] at ht
    exact hv t (Ne.symm ht.1) ht.2

/-- **An argument is judged by itself.** -/
theorem gather_argument (h : gather (before ++ s.argument given :: after) env = .ok cs)
    (value : List UInt8) :
    gather (before ++ s.argument value :: after) env = cs.revised s value := by
  obtain ⟨args, hw, hv, rfl⟩ := gather_eq_ok.mp h
  exact gather_of_revised (ofWords_revised hw value) fun t _ => hv t

/-! ## Variables -/

theorem get?_choices_set (env : Environment) (s t : Setting) (value : List UInt8) :
    (env.set s value).choices.get? t =
      if t = s then (Choice.read s value).toOption else env.choices.get? t := by
  rw [Environment.get?_choices, Environment.get?_choices, Environment.set]
  by_cases ht : t = s
  · rw [if_pos ht, if_pos ht, ht]
    rfl
  · rw [if_neg ht, if_neg ht]

theorem valid_set (h : env.Valid t) (ht : t ≠ s) (value : List UInt8) :
    (env.set s value).Valid t := by
  intro v hv
  rw [Environment.set, if_neg ht] at hv
  exact h v hv

/-- **A variable is judged by itself**, where no argument is in its place. -/
theorem gather_variable (hw : ofWords words = .ok args) (hs : args.has s = false)
    (hv : ∀ t, t ≠ s → args.has t = false → env.Valid t) (value : List UInt8) :
    gather words (env.set s value) = (args.or env.choices).revised s value := by
  have hset : (env.set s value) s = some value := if_pos rfl
  unfold revised
  cases hr : Choice.read s value with
  | error fault =>
    rw [gather_of_ofWords hw, addEnvironment, foldlM_addVariable_eq_error nodup_all (mem_all s) hs
      hset hr fun t _ hne hf => valid_set (hv t hne hf) hne value]
    rfl
  | ok c =>
    refine gather_eq_ok.mpr ⟨args, hw, fun t hf => ?_, eq_iff_get?.mpr fun t => ?_⟩
    · by_cases ht : t = s
      · intro v h
        rw [ht, hset] at h
        cases h
        exact ⟨c, ht ▸ hr⟩
      · exact valid_set (hv t ht hf) ht value
    · rw [get?_add, get?_or, get?_or, get?_choices_set, hr, Choice.setting_of_read hr]
      by_cases ht : s = t
      · rw [if_pos ht, if_pos ht.symm, ← ht, get?_eq_none_iff.mpr hs]
        rfl
      · rw [if_neg ht, if_neg (Ne.symm ht)]

end Choices

end SerialAck.Settings

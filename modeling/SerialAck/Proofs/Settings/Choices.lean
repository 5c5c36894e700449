/-
Settings as layers. `Choices.get?` is the view of one layer, at most one choice for each setting,
and `Choices.or` puts one layer over another. What arguments and variables give together is the
one over the other (`gather_eq_ok`), if each variable that shows is a value; one that does not
show makes no difference at all (`gather_congr`).
-/
import SerialAck.Settings.Load

namespace SerialAck.Settings

theorem bind_eq_ok {ε α β : Type} {x : Except ε α} {f : α → Except ε β} {b : β} :
    x >>= f = .ok b ↔ ∃ a, x = .ok a ∧ f a = .ok b := by
  cases x with
  | error e => simp [bind, Except.bind]
  | ok a => simp [bind, Except.bind]

theorem map_eq_ok {ε α β : Type} {x : Except ε α} {f : α → β} {b : β} :
    x.map f = .ok b ↔ ∃ a, x = .ok a ∧ f a = b := by
  cases x with
  | error e => simp [Except.map]
  | ok a => simp [Except.map]

theorem exists_map {ε α β : Type} {x : Except ε α} {f : α → β} :
    (∃ b, x.map f = .ok b) ↔ ∃ a, x = .ok a := by
  cases x <;> simp [Except.map]

theorem toOption_eq_some {ε α : Type} {x : Except ε α} {a : α} :
    x.toOption = some a ↔ x = .ok a := by
  cases x <;> simp [Except.toOption]

/-! ## Reading a value -/

theorem ofName?_eq_some {s : String} {m : ReadMode} : ReadMode.ofName? s = some m ↔ s = m.name := by
  cases m <;> simp [ReadMode.ofName?, ReadMode.all, ReadMode.name, List.find?_cons] <;> grind

theorem Choice.setting_of_read {s : Setting} {value : List UInt8} {c : Choice}
    (h : Choice.read s value = .ok c) : c.setting = s := by
  cases s <;>
  · obtain ⟨_, -, rfl⟩ := map_eq_ok.mp h
    rfl

/-! ## One layer -/

namespace Choices

/-- What is chosen for a setting, if anything is. -/
def get? (cs : Choices) : Setting → Option Choice
  | .config => cs.config.map .config
  | .host => cs.host.map .host
  | .port => cs.port.map .port
  | .mode => cs.mode.map .mode
  | .ack => cs.ack.map .ack
  | .idle => cs.idle.map .idle
  | .level => cs.level.map .level

/-- The first layer, and the second where the first has nothing. -/
def or (high low : Choices) : Choices where
  config := high.config.or low.config
  host := high.host.or low.host
  port := high.port.or low.port
  mode := high.mode.or low.mode
  ack := high.ack.or low.ack
  idle := high.idle.or low.idle
  level := high.level.or low.level

variable {cs ds : Choices} {c : Choice} {s t : Setting}

theorem has_eq_isSome (cs : Choices) (s : Setting) : cs.has s = (cs.get? s).isSome := by
  cases s <;> simp [has, get?]

theorem get?_eq_none_iff : cs.get? s = none ↔ cs.has s = false := by
  rw [has_eq_isSome]
  cases cs.get? s <;> simp

theorem setting_of_get? (h : cs.get? s = some c) : c.setting = s := by
  cases s <;>
  · obtain ⟨_, -, rfl⟩ := Option.map_eq_some_iff.mp h
    rfl

theorem get?_add (cs : Choices) (c : Choice) (s : Setting) :
    (cs.add c).get? s = if c.setting = s then some c else cs.get? s := by
  cases c <;> cases s <;> rfl

theorem get?_or (high low : Choices) (s : Setting) :
    (high.or low).get? s = (high.get? s).or (low.get? s) := by
  cases s <;> simp [get?, or, Option.map_or]

/-- There is no more to a layer than what it gives for each setting. -/
theorem eq_iff_get? : cs = ds ↔ ∀ s, cs.get? s = ds.get? s := by
  refine ⟨fun h s => h ▸ rfl, fun h => ?_⟩
  have some_map {α : Type} {f : α → Choice} (hf : ∀ x y, f x = f y → x = y) {x y : Option α}
      (h : x.map f = y.map f) : x = y := Option.map_injective (fun x y => hf x y) h
  cases cs
  cases ds
  simp only [mk.injEq]
  exact ⟨some_map (by simp) (h .config), some_map (by simp) (h .host), some_map (by simp) (h .port),
    some_map (by simp) (h .mode), some_map (by simp) (h .ack), some_map (by simp) (h .idle),
    some_map (by simp) (h .level)⟩

end Choices

/-! ## The environment as a layer -/

namespace Environment

/-- What the variables give, each read by itself. A variable that is no value gives nothing. -/
def choices (env : Environment) : Choices where
  config := (env .config).bind fun v => (Choice.readPath v).toOption
  host := (env .host).bind fun v => (Choice.readText v).toOption
  port := (env .port).bind fun v => (Choice.readNumber Choice.parsePort v).toOption
  mode := (env .mode).bind fun v => (Choice.readMode v).toOption
  ack := (env .ack).bind fun v => (Choice.readText v).toOption
  idle := (env .idle).bind fun v => (Choice.readNumber Choice.parseSeconds v).toOption
  level := (env .level).bind fun v => (Choice.readText v).toOption

/-- The variable of the setting is a value for it, or not there. -/
def Valid (env : Environment) (s : Setting) : Prop :=
  ∀ value, env s = some value → ∃ c, Choice.read s value = .ok c

theorem get?_choices (env : Environment) (s : Setting) :
    env.choices.get? s = (env s).bind fun v => (Choice.read s v).toOption := by
  have toOption_map {α : Type} (f : α → Choice) (r : Choice.Reading α) :
      (r.map f).toOption = r.toOption.map f := by cases r <;> rfl
  cases s <;> simp only [Choices.get?, choices, Choice.read, toOption_map, Option.map_bind] <;> rfl

end Environment

variable {env env' : Environment} {cs cs' args : Choices} {s : Setting} {l : List Setting}

namespace Choices

theorem give_eq_ok {value : List UInt8} :
    cs.give s value = .ok cs' ↔
      cs.has s = false ∧ ∃ c, Choice.read s value = .ok c ∧ cs' = cs.add c := by
  unfold give
  cases hs : cs.has s
  · cases hr : Choice.read s value with
    | error fault => simp
    | ok c => simp [eq_comm]
  · simp

/-- A variable counts where nothing is chosen yet, and then it has to be a value. -/
theorem addVariable_eq_ok :
    addVariable env cs s = .ok cs' ↔ (cs.has s = false → env.Valid s) ∧
      ∀ t, cs'.get? t = (cs.get? t).or (if t = s then env.choices.get? t else none) := by
  have same (h : ∀ t, cs.get? t = (cs.get? t).or (if t = s then env.choices.get? t else none)) :
      cs = cs' ↔
        ∀ t, cs'.get? t = (cs.get? t).or (if t = s then env.choices.get? t else none) := by
    rw [eq_comm, eq_iff_get?]
    exact forall_congr' fun t => by rw [← h t]
  unfold addVariable
  cases hs : cs.has s with
  | true =>
    rw [if_pos rfl, Except.ok.injEq, same, and_iff_right (by simp)]
    intro t
    by_cases ht : t = s
    · obtain ⟨c, hc⟩ : ∃ c, cs.get? s = some c := by
        rwa [has_eq_isSome, Option.isSome_iff_exists] at hs
      simp [ht, hc]
    · simp [ht]
  | false =>
    rw [if_neg (by simp)]
    cases he : env s with
    | none =>
      have hv : env.Valid s := fun value h => by simp [he] at h
      simp only
      rw [Except.ok.injEq, same, and_iff_right fun _ => hv]
      intro t
      by_cases ht : t = s
      · simp [ht, Environment.get?_choices, he]
      · simp [ht]
    | some value =>
      simp only
      rw [give_eq_ok, and_iff_right hs]
      cases hr : Choice.read s value with
      | error fault => simp [Environment.Valid, he, hr]
      | ok c =>
        have hv : env.Valid s := fun value' h => by
          obtain rfl : value = value' := by simpa [he] using h
          exact ⟨c, hr⟩
        have hadd : (∃ d, Except.ok c = (Except.ok d : Choice.Reading Choice) ∧ cs' = cs.add d) ↔
            cs' = cs.add c := by simp
        rw [hadd, eq_iff_get?, and_iff_right fun _ => hv]
        refine forall_congr' fun t => ?_
        rw [get?_add, Choice.setting_of_read hr]
        by_cases ht : t = s
        · subst ht
          rw [get?_eq_none_iff.mpr hs]
          simp [Environment.get?_choices, he, hr, Except.toOption]
        · simp [ht, Ne.symm ht]

theorem exists_addVariable (hv : cs.has s = false → env.Valid s) :
    ∃ ds, addVariable env cs s = .ok ds := by
  unfold addVariable
  cases hs : cs.has s with
  | true => exact ⟨cs, rfl⟩
  | false =>
    cases he : env s with
    | none => exact ⟨cs, rfl⟩
    | some value =>
      obtain ⟨c, hc⟩ := hv hs value he
      exact ⟨cs.add c, give_eq_ok.mpr ⟨hs, c, hc, rfl⟩⟩

/-- A variable leaves the other settings as they were. -/
theorem has_of_addVariable (h : addVariable env cs s = .ok cs') {t : Setting} (ht : t ≠ s) :
    cs'.has t = cs.has t := by
  rw [has_eq_isSome, has_eq_isSome, (addVariable_eq_ok.mp h).2 t, if_neg ht, Option.or_none]

/-- The variables of some settings, one after the other. None of them stands in the way of another,
since each is for a setting of its own. -/
theorem foldlM_addVariable_eq_ok (hn : l.Nodup) :
    l.foldlM (addVariable env) cs = .ok cs' ↔ (∀ s ∈ l, cs.has s = false → env.Valid s) ∧
      ∀ t, cs'.get? t = (cs.get? t).or (if t ∈ l then env.choices.get? t else none) := by
  induction l generalizing cs with
  | nil =>
    rw [List.foldlM_nil, show (pure cs : Except Mistake Choices) = .ok cs from rfl,
      Except.ok.injEq, eq_comm, eq_iff_get?]
    simp
  | cons s l ih =>
    obtain ⟨hs, hl⟩ := List.nodup_cons.mp hn
    -- the first variable leaves the settings of the others as they were
    have rest {ds : Choices} (hd : addVariable env cs s = .ok ds) {t : Setting} (ht : t ∈ l) :
        ds.has t = cs.has t := has_of_addVariable hd fun he => hs (he ▸ ht)
    have view {ds : Choices} (hd : addVariable env cs s = .ok ds) (t : Setting) :
        (ds.get? t).or (if t ∈ l then env.choices.get? t else none) =
          (cs.get? t).or (if t ∈ s :: l then env.choices.get? t else none) := by
      rw [(addVariable_eq_ok.mp hd).2 t, Option.or_assoc]
      by_cases ht : t = s
      · subst ht
        simp [hs]
      · simp [ht]
    rw [List.foldlM_cons, bind_eq_ok]
    constructor
    · rintro ⟨ds, hd, hf⟩
      obtain ⟨hvs, hgs⟩ := (ih hl).mp hf
      refine ⟨fun t ht => ?_, fun t => by rw [hgs, view hd]⟩
      rcases List.mem_cons.mp ht with rfl | ht
      · exact (addVariable_eq_ok.mp hd).1
      · rw [← rest hd ht]
        exact hvs t ht
    · rintro ⟨hv, hg⟩
      obtain ⟨ds, hd⟩ := exists_addVariable (hv s List.mem_cons_self)
      refine ⟨ds, hd, (ih hl).mpr ⟨fun t ht => ?_, fun t => by rw [hg, view hd]⟩⟩
      rw [rest hd ht]
      exact hv t (List.mem_cons_of_mem s ht)

/-- One variable that is no value is found, if it shows and those of the others are values. -/
theorem foldlM_addVariable_eq_error {value : List UInt8} {fault : ValueFault} (hn : l.Nodup)
    (hm : s ∈ l) (hs : cs.has s = false) (he : env s = some value)
    (hr : Choice.read s value = .error fault)
    (hv : ∀ t ∈ l, t ≠ s → cs.has t = false → env.Valid t) :
    l.foldlM (addVariable env) cs = .error (.value s fault) := by
  induction l generalizing cs with
  | nil => simp at hm
  | cons t l ih =>
    obtain ⟨ht, hl⟩ := List.nodup_cons.mp hn
    rw [List.foldlM_cons]
    by_cases hts : t = s
    · have hgive : addVariable env cs s = .error (.value s fault) := by
        simp [addVariable, give, hs, he, hr]
      rw [hts, hgive]
      rfl
    · obtain ⟨ds, hd⟩ := exists_addVariable (hv t List.mem_cons_self hts)
      have hkeep {u : Setting} (hu : u ≠ t) : ds.has u = cs.has u := has_of_addVariable hd hu
      rw [hd]
      refine ih hl ((List.mem_cons.mp hm).resolve_left (Ne.symm hts)) ?_ fun u hu hus hf => ?_
      · rw [hkeep (Ne.symm hts), hs]
      · rw [hkeep fun hut => ht (hut ▸ hu)] at hf
        exact hv u (List.mem_cons_of_mem t hu) hus hf

theorem mem_all (s : Setting) : s ∈ Setting.all := by
  cases s <;> decide

theorem nodup_all : Setting.all.Nodup := by decide

/-- The environment is a layer beneath the arguments. -/
theorem addEnvironment_eq_ok : cs.addEnvironment env = .ok cs' ↔
    (∀ s, cs.has s = false → env.Valid s) ∧ cs' = cs.or env.choices := by
  rw [addEnvironment, foldlM_addVariable_eq_ok nodup_all, eq_iff_get?]
  simp [mem_all, get?_or]

/-! ## Arguments and environment together -/

variable {words : List (List UInt8)}

theorem gather_of_ofWords (h : ofWords words = .ok args) :
    gather words env = Line.lift (args.addEnvironment env) := by
  rw [gather, h]
  rfl

theorem gather_of_stop {stop : Stop} (h : ofWords words = .error stop) :
    gather words env = .error stop := by
  rw [gather, h]
  rfl

theorem lift_eq_ok {α : Type} {x : Except Mistake α} {a : α} : Line.lift x = .ok a ↔ x = .ok a := by
  cases x <;> simp [Line.lift]

theorem gather_eq_ok : gather words env = .ok cs ↔ ∃ args, ofWords words = .ok args ∧
    (∀ s, args.has s = false → env.Valid s) ∧ cs = args.or env.choices := by
  cases h : ofWords words with
  | error stop => simp [gather_of_stop h]
  | ok args => simp [gather_of_ofWords h, lift_eq_ok, addEnvironment_eq_ok]

/-- A variable that an argument masks is not so much as looked at. -/
theorem foldlM_addVariable_congr (h : ∀ s ∈ l, cs.has s = false → env s = env' s) :
    l.foldlM (addVariable env) cs = l.foldlM (addVariable env') cs := by
  induction l generalizing cs with
  | nil => rfl
  | cons s l ih =>
    have hs : addVariable env cs s = addVariable env' cs s := by
      unfold addVariable
      cases hc : cs.has s with
      | true => rfl
      | false => rw [h s List.mem_cons_self hc]
    rw [List.foldlM_cons, List.foldlM_cons, ← hs]
    cases hd : addVariable env cs s with
    | error m => rfl
    | ok ds =>
      refine ih fun t ht hf => h t (List.mem_cons_of_mem s ht) ?_
      -- what had been chosen before is chosen still
      rw [← get?_eq_none_iff, (addVariable_eq_ok.mp hd).2 t, Option.or_eq_none_iff] at hf
      exact get?_eq_none_iff.mp hf.1

theorem gather_congr (h : ∀ args, ofWords words = .ok args →
    ∀ s, args.has s = false → env s = env' s) : gather words env = gather words env' := by
  cases hw : ofWords words with
  | error stop => rw [gather_of_stop hw, gather_of_stop hw]
  | ok args =>
    rw [gather_of_ofWords hw, gather_of_ofWords hw, addEnvironment, addEnvironment,
      foldlM_addVariable_congr fun s _ => h args hw s]

end Choices

end SerialAck.Settings

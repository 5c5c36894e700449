/-
A configuration file as a layer. `File.value?` is what a document holds for a setting, whatever
form its section has, and `File.choices` what that gives; a file that loads has these values, and
what is built in wherever the document holds none (`eq_file_of_ofEntries`).
-/
import SerialAck.Proofs.Document.Distinct
import SerialAck.Proofs.Settings.Choices

namespace SerialAck.Settings

open Document (Value Entries)

/-- The values of a section by the names of its settings. A sequence has them in their order. -/
def sectionEntries (names : List String) : Value → Entries
  | .table _ es => es
  | .array vs => names.zip vs
  | .tables ts => names.zip (ts.map (.table .header))
  | _ => []

namespace File

def valueIn? (es : Entries) (section_ : String) (names : List String) (key : String) :
    Option Value :=
  (es.get? section_).bind fun v => (sectionEntries names v).get? key

/-- What a document holds for a setting. No document names another. -/
def value? (es : Entries) : Setting → Option Value
  | .config => none
  | .host => valueIn? es "server" ServerSection.names "host"
  | .port => valueIn? es "server" ServerSection.names "port"
  | .idle => valueIn? es "server" ServerSection.names "idle_timeout"
  | .mode => valueIn? es "session" SessionSection.names "mode"
  | .ack => valueIn? es "session" SessionSection.names "ack"
  | .level => valueIn? es "logging" LoggingSection.names "level"

/-- What a document gives, each value read by itself. -/
def choices (es : Entries) : Choices where
  host := (value? es .host).bind fun v => (string v).toOption
  port := (value? es .port).bind fun v => (port v).toOption
  mode := (value? es .mode).bind fun v => (mode v).toOption
  ack := (value? es .ack).bind fun v => (string v).toOption
  idle := (value? es .idle).bind fun v => (seconds v).toOption
  level := (value? es .level).bind fun v => (string v).toOption

end File

/-- The file that a layer makes over what is built in. -/
def Choices.file (cs : Choices) : File where
  server :=
    { host := cs.host.getD "127.0.0.1"
      port := cs.port.getD 65432
      idle := cs.idle.getD 0 }
  session := { mode := cs.mode.getD .byte, ack := cs.ack }
  logging := { level := cs.level.getD "info" }

/-! ## One field -/

/-- `x` is what a value is read as, or the default where there is none. -/
def Gives {β : Type} (value : Option Value) (read : Value → Fits β) (default x : β) : Prop :=
  match value with
  | some v => read v = .ok x
  | none => x = default

/-- The field `g` is set by the entry with its name, and left alone by all others. -/
def Sets {α β : Type} (put : α → String × Value → Fits α) (key : String) (g : α → β)
    (read : Value → Fits β) : Prop :=
  ∀ {a k v a'}, put a (k, v) = .ok a' → if k = key then read v = .ok (g a') else g a' = g a

section

variable {α β : Type} {put : α → String × Value → Fits α} {names : List String} {key : String}
  {g : α → β} {read : Value → Fits β} {es : Entries} {a a' : α} {default x : β}
  {value : Option Value}

theorem Gives.eq_getD (h : Gives value read default x) :
    x = (value.bind fun v => (read v).toOption).getD default := by
  cases value with
  | none => exact h
  | some v =>
    rw [Option.bind_some, show read v = .ok x from h]
    rfl

/-- Among entries with different names a field is as its own entry sets it. -/
theorem gives_of_foldlM (hp : Sets put key g read)
    (hn : (es.map Prod.fst).Nodup) (h : es.foldlM put a = .ok a') :
    Gives (es.get? key) read (g a) (g a') := by
  induction es generalizing a with
  | nil =>
    obtain rfl : a = a' := by simpa [pure, Except.pure] using h
    rfl
  | cons e es ih =>
    obtain ⟨k, v⟩ := e
    rw [List.foldlM_cons, bind_eq_ok] at h
    obtain ⟨b, hb, h⟩ := h
    simp only [List.map_cons, List.nodup_cons] at hn
    have hrest := ih hn.2 h
    by_cases hk : k = key
    · subst hk
      -- the name does not come again
      have hnone : Entries.get? es k = none := Entries.get?_eq_none_iff.mpr hn.1
      rw [hnone] at hrest
      have hg : g a' = g b := hrest
      rw [Entries.get?, List.lookup_cons_self]
      show read v = .ok (g a')
      rw [hg]
      simpa using hp hb
    · have hne : (key == k) = false := beq_eq_false_iff_ne.mpr (Ne.symm hk)
      have hkeep : g b = g a := by simpa [hk] using hp hb
      rw [Entries.get?, List.lookup_cons, hne, ← hkeep]
      exact hrest

end

/-! ## One section -/

theorem keys_zip {α β : Type} (as : List α) (bs : List β) :
    (as.zip bs).map Prod.fst <+: as := by
  induction as generalizing bs with
  | nil => simp
  | cons a as ih =>
    cases bs with
    | nil => simp
    | cons b bs => simpa using ih bs

theorem nodup_sectionEntries {names : List String} {v : Value} (hn : names.Nodup)
    (hv : Document.Orderly v) : ((sectionEntries names v).map Prod.fst).Nodup := by
  cases hv with
  | table hk _ => exact hk
  | array _ | tables _ _ =>
    exact hn.sublist (keys_zip names _).sublist
  | _ => exact List.nodup_nil

theorem foldlM_of_fill {α : Type} {put : α → String × Value → Fits α} {names : List String}
    {wanted : Wanted} {defaults a : α} {v : Value} (h : fill put names wanted defaults v = .ok a) :
    (sectionEntries names v).foldlM put defaults = .ok a := by
  cases v with
  | table _ es | array vs | tables ts | moment => exact h
  | string _ | integer _ | real _ | boolean _ => simp [fill] at h

/-- Where a section is, it is filled; otherwise it is as built in. -/
def Filled {α : Type} (put : α → String × Value → Fits α) (names : List String)
    (defaults : α) (section_ : Option Value) (a : α) : Prop :=
  match section_ with
  | some v => (sectionEntries names v).foldlM put defaults = .ok a
  | none => a = defaults

/-- A section that is read where there is one, and as built in otherwise, is filled. -/
theorem filled_of_gives {α : Type} {put : α → String × Value → Fits α} {names : List String}
    {read : Value → Fits α} {defaults a : α} {section_ : Option Value}
    (hr : ∀ v a, read v = .ok a → (sectionEntries names v).foldlM put defaults = .ok a)
    (h : Gives section_ read defaults a) : Filled put names defaults section_ a := by
  cases section_ with
  | none => exact h
  | some v => exact hr v a h

/-- A field of a section, out of a whole document. -/
theorem gives_of_filled {α β : Type} {put : α → String × Value → Fits α} {names : List String}
    {name key : String} {g : α → β} {read : Value → Fits β} {es : Entries} {a defaults : α}
    (hp : Sets put key g read) (ho : es.Orderly) (hn : names.Nodup)
    (h : Filled put names defaults (es.get? name) a) :
    Gives (File.valueIn? es name names key) read (g defaults) (g a) := by
  unfold File.valueIn?
  cases hv : es.get? name with
  | none =>
    rw [hv] at h
    exact congrArg g h
  | some v =>
    rw [hv] at h
    exact gives_of_foldlM hp (nodup_sectionEntries hn (ho.value hv)) h

/-! ## What an entry changes -/

variable {es : Entries} {f f' : File} {k : String} {v : Value}

theorem ServerSection.put_eq_ok {s s' : ServerSection} : s.put (k, v) = .ok s' ↔
    (k = "host" ∧ ∃ host, string v = .ok host ∧ { s with host } = s') ∨
      (k = "port" ∧ ∃ port, Settings.port v = .ok port ∧ { s with port } = s') ∨
      (k = "idle_timeout" ∧ ∃ idle, seconds v = .ok idle ∧ { s with idle } = s') ∨
      (k ∉ names ∧ s = s') := by
  unfold put
  split
  · rename_i hk
    obtain rfl : k = "host" := hk
    simp [map_eq_ok, names]
  · split
    · rename_i hk
      obtain rfl : k = "port" := hk
      simp [map_eq_ok, names]
    · split
      · rename_i hk
        obtain rfl : k = "idle_timeout" := hk
        simp [map_eq_ok, names]
      · rename_i hh hp hi
        simp_all [names]

theorem SessionSection.put_eq_ok {s s' : SessionSection} : s.put (k, v) = .ok s' ↔
    (k = "mode" ∧ ∃ mode, Settings.mode v = .ok mode ∧ { s with mode } = s') ∨
      (k = "ack" ∧ ∃ ack, string v = .ok ack ∧ { s with ack := some ack } = s') ∨
      (k ∉ names ∧ s = s') := by
  unfold put
  split
  · rename_i hk
    obtain rfl : k = "mode" := hk
    simp [map_eq_ok, names]
  · split
    · rename_i hk
      obtain rfl : k = "ack" := hk
      simp [map_eq_ok, names]
    · rename_i hm ha
      simp_all [names]

theorem LoggingSection.put_eq_ok {s s' : LoggingSection} : s.put (k, v) = .ok s' ↔
    (k = "level" ∧ ∃ level, string v = .ok level ∧ { s with level } = s') ∨
      (k ∉ names ∧ s = s') := by
  unfold put
  split
  · rename_i hk
    obtain rfl : k = "level" := hk
    simp [map_eq_ok, names]
  · rename_i hl
    simp_all [names]

theorem File.put_eq_ok : f.put (k, v) = .ok f' ↔
    (k = "server" ∧ ∃ server, Settings.server v = .ok server ∧ { f with server } = f') ∨
      (k = "session" ∧ ∃ session, Settings.session v = .ok session ∧ { f with session } = f') ∨
      (k = "logging" ∧ ∃ logging, Settings.logging v = .ok logging ∧ { f with logging } = f') ∨
      (k ∉ ["server", "session", "logging"] ∧ f = f') := by
  unfold put
  split
  · rename_i hk
    obtain rfl : k = "server" := hk
    simp [map_eq_ok]
  · split
    · rename_i hk
      obtain rfl : k = "session" := hk
      simp [map_eq_ok]
    · split
      · rename_i hk
        obtain rfl : k = "logging" := hk
        simp [map_eq_ok]
      · rename_i hs hm hl
        simp_all

/-! ## A whole file -/

namespace File

theorem filled_server (ho : es.Orderly) (h : ofEntries es = .ok f) :
    Filled ServerSection.put ServerSection.names {} (es.get? "server") f.server := by
  have hp : Sets put "server" File.server Settings.server := by
    intro f k v f' hp
    have := put_eq_ok.mp hp
    grind
  exact filled_of_gives (fun _ _ => foldlM_of_fill) (gives_of_foldlM hp ho.nodup h)

theorem filled_session (ho : es.Orderly) (h : ofEntries es = .ok f) :
    Filled SessionSection.put SessionSection.names {} (es.get? "session") f.session := by
  have hp : Sets put "session" File.session Settings.session := by
    intro f k v f' hp
    have := put_eq_ok.mp hp
    grind
  refine filled_of_gives (fun v s hs => ?_) (gives_of_foldlM hp ho.nodup h)
  obtain ⟨s', hf, hs⟩ := bind_eq_ok.mp hs
  split at hs
  · simp at hs
  · exact foldlM_of_fill (Except.ok.inj hs ▸ hf)

theorem filled_logging (ho : es.Orderly) (h : ofEntries es = .ok f) :
    Filled LoggingSection.put LoggingSection.names {} (es.get? "logging") f.logging := by
  have hp : Sets put "logging" File.logging Settings.logging := by
    intro f k v f' hp
    have := put_eq_ok.mp hp
    grind
  exact filled_of_gives (fun _ _ => foldlM_of_fill)
    (gives_of_foldlM (g := File.logging) hp ho.nodup h)

/-- A file that loads, setting by setting: what the document holds, and else what is built in. -/
structure Fields (es : Entries) (f : File) : Prop where
  host : Gives (value? es .host) string "127.0.0.1" f.server.host
  port : Gives (value? es .port) port 65432 f.server.port
  idle : Gives (value? es .idle) seconds 0 f.server.idle
  mode : Gives (value? es .mode) Settings.mode .byte f.session.mode
  ack : Gives (value? es .ack) (fun v => (string v).map some) none f.session.ack
  level : Gives (value? es .level) string "info" f.logging.level

theorem fields_of_ofEntries (ho : es.Orderly) (h : ofEntries es = .ok f) : Fields es f where
  host := by
    refine gives_of_filled (g := ServerSection.host) ?_ ho (by decide) (filled_server ho h)
    intro s k v s' hp
    have := ServerSection.put_eq_ok.mp hp
    grind [ServerSection.names]
  port := by
    refine gives_of_filled (g := ServerSection.port) ?_ ho (by decide) (filled_server ho h)
    intro s k v s' hp
    have := ServerSection.put_eq_ok.mp hp
    grind [ServerSection.names]
  idle := by
    refine gives_of_filled (g := ServerSection.idle) ?_ ho (by decide) (filled_server ho h)
    intro s k v s' hp
    have := ServerSection.put_eq_ok.mp hp
    grind [ServerSection.names]
  mode := by
    refine gives_of_filled (g := SessionSection.mode) ?_ ho (by decide) (filled_session ho h)
    intro s k v s' hp
    have := SessionSection.put_eq_ok.mp hp
    grind [SessionSection.names]
  ack := by
    refine gives_of_filled (g := SessionSection.ack) ?_ ho (by decide) (filled_session ho h)
    intro s k v s' hp
    have := SessionSection.put_eq_ok.mp hp
    grind [SessionSection.names, Except.map]
  level := by
    refine gives_of_filled (g := LoggingSection.level) ?_ ho (by decide) (filled_logging ho h)
    intro s k v s' hp
    have := LoggingSection.put_eq_ok.mp hp
    grind [LoggingSection.names]

/-- **A file that loads is its layer**, over what is built in. -/
theorem eq_file_of_ofEntries (ho : es.Orderly) (h : ofEntries es = .ok f) :
    f = (choices es).file := by
  have fields := fields_of_ofEntries ho h
  have hack : f.session.ack = (choices es).ack := by
    rw [fields.ack.eq_getD, choices]
    cases value? es .ack with
    | none => rfl
    | some v => cases hv : string v <;> simp [hv, Except.map, Except.toOption]
  obtain ⟨⟨host, port, idle⟩, ⟨mode, ack⟩, ⟨level⟩⟩ := f
  simp only [Choices.file, mk.injEq, ServerSection.mk.injEq, SessionSection.mk.injEq,
    LoggingSection.mk.injEq]
  exact ⟨⟨fields.host.eq_getD, fields.port.eq_getD, fields.idle.eq_getD⟩,
    ⟨fields.mode.eq_getD, hack⟩, fields.level.eq_getD⟩

end File

end SerialAck.Settings

/-
What a document means. Of each section only the settings count: with everything else taken out, the
sections are filled in the same way, up to the same defect (`ofEntries_settingsIn`). A document
that loads holds just the values it was written with, so that their order does not count either
(`Reordered.value?`).
-/
import SerialAck.Proofs.Settings.Numbers

namespace SerialAck.Settings

open Document (Value Entries Layout)

/-- The names of the settings in a section. -/
def namesIn (section_ : String) : List String :=
  if section_ = "server" then ServerSection.names
  else if section_ = "session" then SessionSection.names
  else if section_ = "logging" then LoggingSection.names
  else []

/-- The entries of a section that are settings. -/
def known (e : String × Value) : Entries :=
  match e.2 with
  | .table _ t => t.filter (·.1 ∈ namesIn e.1)
  | _ => []

/-- All that a document says of settings: the sections that have any, with these alone. -/
def settingsIn (es : Entries) : List (String × Entries) :=
  (es.map fun e => (e.1, known e)).filter (!·.2.isEmpty)

/-- Every section that there is, is a table. -/
def Tabular (es : Entries) : Prop :=
  ∀ e ∈ es, e.1 ∈ ["server", "session", "logging"] → ∃ form t, e.2 = .table form t

/-- The same document in another order, of keys as of sections. -/
inductive Reordered : Entries → Entries → Prop where
  | sections {es es' : Entries} (h : es.Perm es') : Reordered es es'
  | keys {form form' : Document.Form} {t t' : Entries} (before after : Entries) (name : String)
      (h : t.Perm t') :
      Reordered (before ++ (name, .table form t) :: after)
        (before ++ (name, .table form' t') :: after)
  | trans {es es' es'' : Entries} (h : Reordered es es') (h' : Reordered es' es'') :
      Reordered es es''

/-- The name of a mode, or a table that has it for its only key and nothing beneath it. -/
def IsMode (v : Value) (m : ReadMode) : Prop :=
  v = .string m.name ∨ ∃ form inner, v = .table form [(m.name, inner)] ∧ isEmpty inner = true

/-- The values that suit a setting. No document has the first one. -/
def Setting.Suits : Setting → Value → Prop
  | .config, _ => True
  | .host, v | .ack, v | .level, v => ∃ text, v = .string text
  | .port, v => ∃ n, v = .integer n ∧ 0 ≤ n ∧ n ≤ 65535
  | .idle, v => ∃ n, v = .integer n ∧ 0 ≤ n
  | .mode, v => ∃ m, IsMode v m

/-- The file has what the document holds, and what is built in wherever it holds nothing. -/
structure Means (es : Entries) (f : File) : Prop where
  host : File.value? es .host = some (.string f.server.host) ∨
    File.value? es .host = none ∧ f.server.host = "127.0.0.1"
  port : File.value? es .port = some (.integer f.server.port.toNat) ∨
    File.value? es .port = none ∧ f.server.port = 65432
  idle : File.value? es .idle = some (.integer f.server.idle.toNat) ∨
    File.value? es .idle = none ∧ f.server.idle = 0
  mode : (∃ v, File.value? es .mode = some v ∧ IsMode v f.session.mode) ∨
    File.value? es .mode = none ∧ f.session.mode = .byte
  /-- Nothing is built in for the acknowledgment. -/
  ack : File.value? es .ack = f.session.ack.map .string
  level : File.value? es .level = some (.string f.logging.level) ∨
    File.value? es .level = none ∧ f.logging.level = "info"

/-- What becomes of a text whose entries are these. -/
structure Understood (text : String) (es : Entries) : Prop where
  loads : (∃ f, File.parse text = .ok f) ↔ ∀ s v, File.value? es s = some v → s.Suits v
  means : ∀ f, File.parse text = .ok f → Means es f
  /-- Nothing but settings makes a difference, not even to what is wrong. -/
  others : ∀ text' es', Document.parse? text' = some es' → Tabular es' →
    settingsIn es' = settingsIn es → File.parse text' = File.parse text
  order : ∀ text' es', Document.parse? text' = some es' → Reordered es es' →
    ∀ f, File.parse text = .ok f → File.parse text' = .ok f

variable {es es' : Entries} {f f' : File} {k j : String} {v : Value} {s : Setting} {text : String}

/-! ## What is not a setting -/

section

variable {α : Type} {put : α → String × Value → Fits α} {names : List String}

/-- Entries that change nothing can as well be left out. -/
theorem foldlM_filter_names (hp : ∀ a k v, k ∉ names → put a (k, v) = .ok a) (es : Entries)
    (a : α) : (es.filter (·.1 ∈ names)).foldlM put a = es.foldlM put a := by
  induction es generalizing a with
  | nil => rfl
  | cons e es ih =>
    rw [List.filter_cons, List.foldlM_cons]
    split
    · rw [List.foldlM_cons]
      exact congrArg _ (funext ih)
    · rename_i he
      rw [hp a e.1 e.2 (by simpa using he)]
      exact ih a

/-- How a section is filled from a table. -/
theorem fill_table {wanted : Wanted} {a : α} {form : Document.Form} {t : Entries}
    (hp : ∀ a k v, k ∉ names → put a (k, v) = .ok a) :
    fill put names wanted a (.table form t) =
      fill put names wanted a (.table .header (t.filter (·.1 ∈ names))) :=
  (foldlM_filter_names hp t a).symm

end

namespace File

variable {form : Document.Form} {t : Entries}

theorem server_table (form : Document.Form) (t : Entries) : Settings.server (.table form t) =
    Settings.server (.table .header (t.filter (·.1 ∈ ServerSection.names))) :=
  fill_table fun _ _ _ hk => ServerSection.put_eq_ok.mpr (.inr (.inr (.inr ⟨hk, rfl⟩)))

theorem session_table (form : Document.Form) (t : Entries) : Settings.session (.table form t) =
    Settings.session (.table .header (t.filter (·.1 ∈ SessionSection.names))) := by
  unfold Settings.session
  rw [fill_table fun _ _ _ hk => SessionSection.put_eq_ok.mpr (.inr (.inr ⟨hk, rfl⟩))]
  rfl

theorem logging_table (form : Document.Form) (t : Entries) : Settings.logging (.table form t) =
    Settings.logging (.table .header (t.filter (·.1 ∈ LoggingSection.names))) :=
  fill_table fun _ _ _ hk => LoggingSection.put_eq_ok.mpr (.inr ⟨hk, rfl⟩)

/-- A section counts for no more than its settings. -/
theorem put_known (ht : k ∈ ["server", "session", "logging"] → ∃ form t, v = .table form t)
    (f : File) : put f (k, v) = put f (k, .table .header (known (k, v))) := by
  by_cases hk : k ∈ ["server", "session", "logging"]
  · obtain ⟨form, t, rfl⟩ := ht hk
    have hnames : k = "server" ∨ k = "session" ∨ k = "logging" := by simpa using hk
    rcases hnames with rfl | rfl | rfl
    · exact congrArg (Except.map _) (server_table form t)
    · exact congrArg (Except.map _) (session_table form t)
    · exact congrArg (Except.map _) (logging_table form t)
  · rw [put_eq_ok.mpr (.inr (.inr (.inr ⟨hk, rfl⟩))), put_eq_ok.mpr (.inr (.inr (.inr ⟨hk, rfl⟩)))]

/-- The section of this name, if it is one, is as built in. -/
def Fresh (f : File) (k : String) : Prop :=
  (k = "server" → f.server = {}) ∧ (k = "session" → f.session = {}) ∧ (k = "logging" → f.logging = {})

theorem fresh_of_put (h : put f (k, v) = .ok f') (hj : j ≠ k) (hf : Fresh f j) : Fresh f' j := by
  have := put_eq_ok.mp h
  unfold Fresh at hf ⊢
  grind

/-- A section without settings is no more than none. -/
theorem put_empty (hf : Fresh f k) : put f (k, .table form []) = .ok f := by
  obtain ⟨hs, hm, hl⟩ := hf
  obtain ⟨server, session, logging⟩ := f
  unfold put
  split
  · rename_i hk
    obtain rfl := hs hk
    rfl
  · split
    · rename_i hk
      obtain rfl := hm hk
      rfl
    · split
      · rename_i hk
        obtain rfl := hl hk
        rfl
      · rfl

/-- **Only settings count** in a document, and that goes for its defects. -/
theorem foldlM_settingsIn (hn : (es.map Prod.fst).Nodup) (ht : Tabular es)
    (hf : ∀ e ∈ es, Fresh f e.1) :
    es.foldlM put f =
      (settingsIn es).foldlM (fun f e => put f (e.1, .table .header e.2)) f := by
  induction es generalizing f with
  | nil => rfl
  | cons e es ih =>
    obtain ⟨k, v⟩ := e
    obtain ⟨hk, hn⟩ := List.nodup_cons.mp hn
    obtain ⟨htk, ht⟩ := List.forall_mem_cons.mp ht
    obtain ⟨hfk, hf⟩ := List.forall_mem_cons.mp hf
    rw [List.foldlM_cons, settingsIn, List.map_cons, List.filter_cons]
    by_cases hempty : known (k, v) = []
    · have hput : put f (k, v) = .ok f := by rw [put_known htk, hempty, put_empty hfk]
      rw [hput, hempty]
      exact ih hn ht hf
    · rw [if_pos (by simpa using hempty), List.foldlM_cons, ← put_known htk]
      cases hput : put f (k, v) with
      | error d => rfl
      | ok f' =>
        refine ih hn ht fun e he => fresh_of_put hput ?_ (hf e he)
        intro hek
        have hmem : e.1 ∈ es.map Prod.fst := List.mem_map_of_mem he
        exact hk (hek ▸ hmem)

theorem ofEntries_settingsIn (ho : es.Orderly) (ht : Tabular es) :
    ofEntries es =
      (settingsIn es).foldlM (fun f e => put f (e.1, .table .header e.2)) {} :=
  foldlM_settingsIn ho.nodup ht fun _ _ => ⟨fun _ => rfl, fun _ => rfl, fun _ => rfl⟩

end File

/-! ## Order -/

theorem File.valueIn?_eq_some_iff {names : List String} {name key : String} (ho : es.Orderly)
    (hn : names.Nodup) : valueIn? es name names key = some v ↔
      ∃ w, (name, w) ∈ es ∧ (key, v) ∈ sectionEntries names w := by
  constructor
  · intro h
    obtain ⟨w, hw, hv⟩ := mem_of_valueIn? h
    exact ⟨w, Entries.mem_of_get? hw, hv⟩
  · intro h
    obtain ⟨w, hw, hv⟩ := h
    exact valueIn?_of_mem ho hn (Entries.get?_of_mem ho.nodup hw) hv rfl

namespace Reordered

theorem orderly (h : Reordered es es') (ho : es.Orderly) : es'.Orderly := by
  induction h with
  | sections h => exact ⟨(h.map _).nodup_iff.mp ho.nodup, fun e he => ho.values e (h.mem_iff.mpr he)⟩
  | @keys form form' t t' before after name h =>
    refine ⟨?_, fun e he => ?_⟩
    · have hn := ho.nodup
      rw [List.map_append, List.map_cons] at hn ⊢
      exact hn
    · have ht : Document.Orderly (.table form t) := ho.values (name, _) (by simp)
      have ht := Entries.Orderly.ofTable ht
      have ht' : Entries.Orderly t' := ⟨(h.map _).nodup_iff.mp ht.nodup, fun e he =>
        ht.values e (h.mem_iff.mpr he)⟩
      rcases List.mem_append.mp he with he | he
      · exact ho.values e (List.mem_append_left _ he)
      · rcases List.mem_cons.mp he with rfl | he
        · exact ht'.table form'
        · exact ho.values e (List.mem_append_right _ (List.mem_cons_of_mem _ he))
  | trans _ _ ih ih' => exact ih' (ih ho)

theorem tabular (h : Reordered es es') (ht : Tabular es) : Tabular es' := by
  induction h with
  | sections h => exact fun e he => ht e (h.mem_iff.mpr he)
  | keys before after name h =>
    intro e he hs
    rcases List.mem_append.mp he with he | he
    · exact ht e (List.mem_append_left _ he) hs
    · rcases List.mem_cons.mp he with rfl | he
      · exact ⟨_, _, rfl⟩
      · exact ht e (List.mem_append_right _ (List.mem_cons_of_mem _ he)) hs
  | trans _ _ ih ih' => exact ih' (ih ht)

theorem valueIn? {names : List String} {name key : String} (h : Reordered es es')
    (ho : es.Orderly) (hn : names.Nodup) :
    File.valueIn? es' name names key = File.valueIn? es name names key := by
  induction h with
  | sections h =>
    have ho' := (Reordered.sections h).orderly ho
    refine Option.ext fun v => ?_
    simp only [File.valueIn?_eq_some_iff ho hn, File.valueIn?_eq_some_iff ho' hn, h.mem_iff]
  | @keys form form' t t' before after other h =>
    have ho' := (@Reordered.keys form form' t t' before after other h).orderly ho
    refine Option.ext fun v => ?_
    have hentries (form : Document.Form) (t : Entries) :
        sectionEntries names (.table form t) = t := rfl
    simp only [File.valueIn?_eq_some_iff ho hn, File.valueIn?_eq_some_iff ho' hn, List.mem_append,
      List.mem_cons, Prod.mk.injEq, or_and_right, exists_or, and_assoc, exists_and_left,
      exists_eq_left, hentries, h.mem_iff]
  | trans h _ ih ih' => rw [ih' (h.orderly ho), ih ho]

/-- **What a document holds does not depend on its order.** -/
theorem value? (h : Reordered es es') (ho : es.Orderly) (s : Setting) :
    File.value? es' s = File.value? es s := by
  cases s with
  | config => rfl
  | host | port | idle | mode | ack | level => exact h.valueIn? ho (by decide)

end Reordered

/-! ## Whole documents -/

theorem Setting.admits_iff_suits (ho : Document.Orderly v) (hs : s ≠ .config) :
    s.Admits v ↔ s.Suits v := by
  cases s with
  | config => exact absurd rfl hs
  | host | ack | level => exact Iff.rfl
  | mode => exact Iff.rfl
  | port =>
    constructor
    · intro h
      obtain ⟨n, rfl⟩ := h
      exact ⟨_, rfl, admits_port.mp ⟨n, rfl⟩⟩
    · intro h
      obtain ⟨n, rfl, hn⟩ := h
      exact admits_port.mpr hn
  | idle =>
    constructor
    · intro h
      obtain ⟨n, rfl⟩ := h
      exact ⟨_, rfl, Int.natCast_nonneg _⟩
    · intro h
      obtain ⟨n, rfl, hn⟩ := h
      cases ho with
      | integer hr => exact (admits_idle hr).mpr hn

namespace File

theorem fit_iff (ho : es.Orderly) (ht : Tabular es) :
    Fit es ↔ ∀ s v, value? es s = some v → s.Suits v := by
  have admits {s : Setting} {v : Value} (hv : value? es s = some v) : s.Admits v ↔ s.Suits v := by
    refine Setting.admits_iff_suits (orderly_value? ho hv) fun hs => ?_
    subst hs
    cases hv
  constructor
  · exact fun h s v hv => (admits hv).mp (h.values s v hv)
  · intro h
    refine ⟨fun name hm v hv => ?_, fun v n hv hn => ?_, fun s v hv => (admits hv).mpr (h s v hv)⟩
    · obtain ⟨form, t, rfl⟩ := ht _ (Entries.mem_of_get? hv) hm
      trivial
    · obtain ⟨form, t, rfl⟩ := ht _ (Entries.mem_of_get? hv) (by simp)
      cases hn

/-- A field of a file that loads is what the document holds, or built in. -/
theorem cases_of_gives {β : Type} {value : Option Value} {read : Value → Fits β} {default x : β}
    (h : Gives value read default x) :
    (∃ v, value = some v ∧ read v = .ok x) ∨ value = none ∧ x = default := by
  cases value with
  | none => exact .inr ⟨rfl, h⟩
  | some v => exact .inl ⟨v, rfl, h⟩

theorem means_of_fields (h : Fields es f) : Means es f where
  host := by simpa only [string_eq_ok, exists_eq_right] using cases_of_gives h.host
  port := by simpa only [port_eq_ok, exists_eq_right] using cases_of_gives h.port
  idle := by simpa only [seconds_eq_ok, exists_eq_right] using cases_of_gives h.idle
  mode := by simpa only [mode_eq_ok, IsMode] using cases_of_gives h.mode
  ack := by
    rcases cases_of_gives h.ack with ⟨v, hv, hr⟩ | ⟨hv, hd⟩
    · obtain ⟨text, ht, hf⟩ := map_eq_ok.mp hr
      rw [hv, ← hf, string_eq_ok.mp ht]
      rfl
    · rw [hv, hd]
      rfl
  level := by simpa only [string_eq_ok, exists_eq_right] using cases_of_gives h.level

theorem parse_of_entries (h : Document.parse? text = some es) : parse text = ofEntries es := by
  rw [parse, h]

/-- A document that loads still does so in another order, and as the same file. -/
theorem ofEntries_of_reordered (ho : es.Orderly) (ht : Tabular es) (h : Reordered es es')
    (hf : ofEntries es = .ok f) : ofEntries es' = .ok f := by
  have hsuits := (fit_iff ho ht).mp (fit_of_ofEntries ⟨f, hf⟩)
  obtain ⟨f', hf'⟩ : ∃ f', ofEntries es' = .ok f' := by
    refine Fit.exists_ofEntries (h.orderly ho) ((fit_iff (h.orderly ho) (h.tabular ht)).mpr ?_)
    intro s v hv
    exact hsuits s v (h.value? ho s ▸ hv)
  have hchoices : choices es' = choices es := by
    simp only [choices, h.value? ho]
  rw [hf', eq_file_of_ofEntries (h.orderly ho) hf', hchoices, ← eq_file_of_ofEntries ho hf]

end File

/-- **What a document means.** It is its settings, each one by itself, and nothing else. -/
theorem document_understood (hp : Document.parse? text = some es) (ht : Tabular es) :
    Understood text es := by
  have ho := Document.orderly_of_parse hp
  refine ⟨?_, fun f hf => ?_, fun text' es' hp' ht' hs => ?_, fun text' es' hp' hr f hf => ?_⟩
  · rw [File.parse_of_entries hp, File.exists_ofEntries_iff ho, File.fit_iff ho ht]
  · rw [File.parse_of_entries hp] at hf
    exact File.means_of_fields (File.fields_of_ofEntries ho hf)
  · rw [File.parse_of_entries hp, File.parse_of_entries hp', File.ofEntries_settingsIn ho ht,
      File.ofEntries_settingsIn (Document.orderly_of_parse hp') ht', hs]
  · rw [File.parse_of_entries hp] at hf
    rw [File.parse_of_entries hp', File.ofEntries_of_reordered ho ht hr hf]

/-- A port and an acknowledgment that is empty. -/
def plainSettings : Layout where
  sections :=
    [{ name := "server"
       assignments := [.ofNat "port" bareNames.port 80 (by decide)]
       bare := bareNames.server
       nodup := List.pairwise_singleton _ _ },
     { name := "session"
       assignments := [.ofString "ack" bareNames.ack ""]
       bare := bareNames.session
       nodup := List.pairwise_singleton _ _ }]
  nodup := by decide

/-- The same among names that look like others. -/
def clutteredSettings : Layout where
  sections :=
    [{ name := "logging"
       assignments := [.ofNat "Level" (by decide) 3 (by decide)]
       bare := bareNames.logging
       nodup := List.pairwise_singleton _ _ },
     { name := "Server"
       assignments := [.ofString "port" bareNames.port "none"]
       bare := by decide
       nodup := List.pairwise_singleton _ _ },
     { name := "server"
       assignments :=
         [.ofNat "PORT" (by decide) 70000 (by decide),
          .ofNat "port" bareNames.port 80 (by decide)]
       bare := bareNames.server
       nodup := by decide },
     { name := "session"
       assignments :=
         [.ofString "ack" bareNames.ack "", .ofString "acks" (by decide) "x"]
       bare := bareNames.session
       nodup := by decide }]
  nodup := by decide

theorem tabular_entries (d : Layout) : Tabular d.entries := by
  intro e he _
  obtain ⟨s, -, rfl⟩ := List.mem_map.mp he
  exact ⟨_, _, rfl⟩

theorem document_understood_cluttered :
    clutteredSettings.text = "[logging]\nLevel = 3\n[Server]\nport = \"none\"\n" ++
      "[server]\nPORT = 70000\nport = 80\n[session]\nack = \"\"\nacks = \"x\"\n" ∧
    File.parse clutteredSettings.text = File.parse plainSettings.text ∧
    ∃ f, File.parse plainSettings.text = .ok f ∧ Means plainSettings.entries f := by
  have plain := document_understood (Document.parse?_text plainSettings) (tabular_entries _)
  refine ⟨by decide +kernel, ?_, ?_⟩
  · exact plain.others _ _ (Document.parse?_text clutteredSettings) (tabular_entries _) rfl
  · have hsuits : ∀ s v, File.value? plainSettings.entries s = some v → s.Suits v := by
      intro s v hv
      cases s with
      | config | host | idle | mode | level => cases hv
      | port =>
        cases hv
        exact ⟨80, rfl, by decide, by decide⟩
      | ack =>
        cases hv
        exact ⟨"", rfl⟩
    obtain ⟨f, hf⟩ := plain.loads.mpr hsuits
    exact ⟨f, hf, plain.means f hf⟩

end SerialAck.Settings

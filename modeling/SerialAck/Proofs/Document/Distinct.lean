/-
Documents hold no key twice, in no table however deep, and no whole number beyond 64 bits. `Orderly`
says so of a value; each way to change a table keeps it, what is read within brackets and braces has
it, and so does the tree that all the statements of a text make (`orderly_of_parse`).
-/
import SerialAck.Document.Statement

namespace SerialAck.Document

/-- No table within the value has a key twice, and its whole numbers are in range. -/
inductive Orderly : Value → Prop where
  | string (s : String) : Orderly (.string s)
  | integer {n : Int} (h : Scalar.inRange n = true) : Orderly (.integer n)
  | real (x : RealNumber) : Orderly (.real x)
  | boolean (b : Bool) : Orderly (.boolean b)
  | moment : Orderly .moment
  | array {vs : List Value} (h : ∀ v ∈ vs, Orderly v) : Orderly (.array vs)
  | table {form : Form} {es : List (String × Value)} (hn : (es.map Prod.fst).Nodup)
      (h : ∀ e ∈ es, Orderly e.2) : Orderly (.table form es)
  | tables {ts : List (List (String × Value))} (hn : ∀ t ∈ ts, (t.map Prod.fst).Nodup)
      (h : ∀ t ∈ ts, ∀ e ∈ t, Orderly e.2) : Orderly (.tables ts)

/-- No key twice, neither here nor in any table beneath, and no number out of range. -/
structure Entries.Orderly (es : Entries) : Prop where
  nodup : (es.map Prod.fst).Nodup
  values : ∀ e ∈ es, Document.Orderly e.2

namespace Entries

variable {es es' t : Entries} {key : String} {v : Value}

theorem mem_of_get? (h : es.get? key = some v) : (key, v) ∈ es := by
  obtain ⟨front, rest, rfl, -⟩ := List.lookup_eq_some_iff.mp h
  simp

theorem get?_eq_none_iff : es.get? key = none ↔ key ∉ es.map Prod.fst := by
  rw [get?, List.lookup_eq_none_iff]
  constructor
  · intro h hm
    obtain ⟨e, he, rfl⟩ := List.mem_map.mp hm
    simpa using h e he
  · intro h e he
    exact bne_iff_ne.mpr fun hk => h (hk ▸ List.mem_map_of_mem he)

theorem get?_of_mem (hn : (es.map Prod.fst).Nodup) (h : (key, v) ∈ es) : es.get? key = some v := by
  induction es with
  | nil => simp at h
  | cons e es ih =>
    simp only [List.map_cons, List.nodup_cons] at hn
    rcases List.mem_cons.mp h with rfl | h
    · simp [get?]
    · have hne : (key == e.1) = false :=
        beq_eq_false_iff_ne.mpr fun he => hn.1 (he ▸ List.mem_map_of_mem h)
      rw [get?, List.lookup_cons, hne]
      exact ih hn.2 h

theorem get?_eq_some_iff (hn : (es.map Prod.fst).Nodup) : es.get? key = some v ↔ (key, v) ∈ es :=
  ⟨mem_of_get?, get?_of_mem hn⟩

namespace Orderly

theorem nil : Orderly [] :=
  ⟨List.nodup_nil, by simp⟩

theorem table (h : Orderly es) (form : Form) : Document.Orderly (.table form es) :=
  .table h.nodup h.values

theorem ofTable {form : Form} (h : Document.Orderly (.table form es)) : Orderly es := by
  cases h with
  | table hn h => exact ⟨hn, h⟩

theorem ofTables {ts : List Entries} (h : Document.Orderly (.tables ts)) (ht : t ∈ ts) :
    Orderly t := by
  cases h with
  | tables hn h => exact ⟨hn t ht, h t ht⟩

theorem tables {ts : List Entries} (h : ∀ t ∈ ts, Orderly t) : Document.Orderly (.tables ts) :=
  .tables (fun t ht => (h t ht).nodup) fun t ht => (h t ht).values

theorem value (h : Orderly es) (hv : es.get? key = some v) : Document.Orderly v :=
  h.values _ (mem_of_get? hv)

/-- Of repeated tables another last one. -/
theorem setLast {ts : List Entries} (h : Document.Orderly (.tables ts)) (ht : Orderly t) :
    Document.Orderly (.tables (ts.dropLast ++ [t])) := by
  refine tables fun u hu => ?_
  rcases List.mem_append.mp hu with hu | hu
  · exact ofTables h (List.dropLast_subset ts hu)
  · exact List.mem_singleton.mp hu ▸ ht

/-! ### The ways to change a table -/

theorem add (h : Orderly es) (hk : es.get? key = none) (hv : Document.Orderly v) :
    Orderly (es.add key v) := by
  refine ⟨?_, fun e he => ?_⟩
  · rw [Entries.add, List.map_append, List.nodup_append]
    refine ⟨h.nodup, by simp, fun a ha b hb => ?_⟩
    obtain rfl : b = key := by simpa using hb
    exact fun hab => get?_eq_none_iff.mp hk (hab ▸ ha)
  · rcases List.mem_append.mp he with he | he
    · exact h.values e he
    · rw [List.mem_singleton.mp he]
      exact hv

theorem replace (h : Orderly es) (hv : Document.Orderly v) : Orderly (es.replace key v) := by
  have hkeys : (es.replace key v).map Prod.fst = es.map Prod.fst := by
    rw [Entries.replace, List.map_map]
    refine List.map_congr_left fun e _ => ?_
    by_cases he : e.1 = key <;> simp [he]
  refine ⟨hkeys ▸ h.nodup, fun e he => ?_⟩
  obtain ⟨d, hd, rfl⟩ := List.mem_map.mp he
  by_cases hk : (d.1 == key) = true
  · rw [if_pos hk]
    exact hv
  · rw [if_neg hk]
    exact h.values d hd

theorem erase (h : Orderly es) : Orderly (es.erase key) :=
  ⟨h.nodup.sublist (List.filter_sublist.map _), fun e he => h.values e (List.mem_filter.mp he).1⟩

theorem get?_erase (es : Entries) (key : String) : (es.erase key).get? key = none := by
  refine List.lookup_eq_none_iff.mpr fun e he => ?_
  have := (List.mem_filter.mp he).2
  simp only [Bool.not_eq_true', beq_eq_false_iff_ne] at this
  exact bne_iff_ne.mpr (Ne.symm this)

theorem assign {path : List String} (h : Orderly es) (hv : Document.Orderly v)
    (ha : Entries.assign v path es = some es') : Orderly es' := by
  fun_induction Entries.assign v path es generalizing es' with
  | case3 key es hk =>
    obtain rfl := Option.some.inj ha
    exact h.add (by simpa using hk) hv
  | case4 key next path es hk ih =>
    obtain ⟨t, ht, rfl⟩ := Option.map_eq_some_iff.mp ha
    exact h.add hk ((ih nil ht).table .dotted)
  | case5 key next path es form t hk _ ih =>
    obtain ⟨u, hu, rfl⟩ := Option.map_eq_some_iff.mp ha
    exact h.replace ((ih (ofTable (h.value hk)) hu).table form)
  | case7 key next path es ts hk _ ih =>
    obtain ⟨t, ht, hm⟩ := Option.bind_eq_some_iff.mp ha
    obtain ⟨u, hu, rfl⟩ := Option.map_eq_some_iff.mp hm
    have hts := h.value hk
    exact h.replace (setLast hts (ih t (ofTables hts (List.mem_of_getLast? ht)) hu))
  | _ => simp at ha

theorem descend {path : List String} {change : Entries → Option Entries} (h : Orderly es)
    (hc : ∀ {t u : Entries}, Orderly t → change t = some u → Orderly u)
    (hd : Entries.descend change path es = some es') : Orderly es' := by
  fun_induction Entries.descend change path es generalizing es' with
  | case1 es => exact hc h hd
  | case2 key path es hk ih =>
    obtain ⟨t, ht, rfl⟩ := Option.map_eq_some_iff.mp hd
    exact h.add hk ((ih nil ht).table .implied)
  | case4 key path es form t hk _ ih =>
    obtain ⟨u, hu, rfl⟩ := Option.map_eq_some_iff.mp hd
    exact h.replace ((ih (ofTable (h.value hk)) hu).table form)
  | case5 key path es ts hk ih =>
    obtain ⟨t, ht, hm⟩ := Option.bind_eq_some_iff.mp hd
    obtain ⟨u, hu, rfl⟩ := Option.map_eq_some_iff.mp hm
    have hts := h.value hk
    exact h.replace (setLast hts (ih t (ofTables hts (List.mem_of_getLast? ht)) hu))
  | _ => simp at hd

theorem «open» (h : Orderly es) (ho : Entries.open key es = some es') : Orderly es' := by
  unfold Entries.open at ho
  split at ho
  · rename_i hk
    obtain rfl := Option.some.inj ho
    exact h.add hk (nil.table .header)
  · rename_i t hk
    obtain rfl := Option.some.inj ho
    exact h.erase.add (get?_erase es key) ((ofTable (h.value hk)).table .header)
  · simp at ho

theorem openNext (h : Orderly es) (ho : Entries.openNext key es = some es') : Orderly es' := by
  unfold Entries.openNext at ho
  split at ho
  · rename_i hk
    obtain rfl := Option.some.inj ho
    exact h.add hk (tables (by simp [nil]))
  · rename_i ts hk
    obtain rfl := Option.some.inj ho
    refine h.replace (tables fun t ht => ?_)
    rcases List.mem_append.mp ht with ht | ht
    · exact ofTables (h.value hk) ht
    · exact List.mem_singleton.mp ht ▸ nil
  · simp at ho

end Orderly

/-- What holds at first and is kept by each turn holds in the end. -/
theorem foldlM_keeps {α β : Type} {f : β → α → Option β} {P : β → Prop} {l : List α} {b b' : β}
    (hb : P b) (hf : ∀ a ∈ l, ∀ b b', P b → f b a = some b' → P b')
    (h : l.foldlM f b = some b') : P b' := by
  induction l generalizing b with
  | nil =>
    obtain rfl : b = b' := by simpa using h
    exact hb
  | cons a l ih =>
    rw [List.foldlM_cons, Option.bind_eq_bind, Option.bind_eq_some_iff] at h
    obtain ⟨c, hc, h⟩ := h
    exact ih (hf a List.mem_cons_self b c hb hc)
      (fun a ha => hf a (List.mem_cons_of_mem _ ha)) h

theorem orderly_ofPairs {pairs : List (List String × Value)}
    (hp : ∀ pair ∈ pairs, Document.Orderly pair.2) (h : ofPairs pairs = some es) : es.Orderly :=
  foldlM_keeps Orderly.nil (fun pair hm _ _ hb ha => hb.assign (hp pair hm) ha) h

end Entries

/-! ## What is read -/

/-- All that the reader takes for a value is orderly. -/
def ReadsOrderly (item : Reader Value) : Prop :=
  ∀ {cs v r}, item cs = some (v, r) → Orderly v

variable {item : Reader Value} {cs r : List Char} {v : Value}

theorem orderly_pair (hi : ReadsOrderly item) {p : List String × Value}
    (h : pair item cs = some (p, r)) : Orderly p.2 := by
  unfold pair at h
  split at h
  · obtain ⟨⟨w, s⟩, hw, he⟩ := Option.map_eq_some_iff.mp h
    simp only [Prod.mk.injEq] at he
    obtain ⟨rfl, rfl⟩ := he
    exact hi hw
  · simp at h

theorem orderly_elements (hi : ReadsOrderly item) {fuel : Nat} {vs : List Value}
    (h : elements item fuel cs = some (vs, r)) : ∀ v ∈ vs, Orderly v := by
  fun_induction elements item fuel cs generalizing vs r with
  | case3 =>
    obtain ⟨rfl, -⟩ : [] = vs ∧ _ = r := by simpa using h
    simp
  | case5 _ _ _ _ _ v _ hv _ _ ih =>
    obtain ⟨⟨ws, s⟩, hws, he⟩ := Option.map_eq_some_iff.mp h
    simp only [Prod.mk.injEq] at he
    obtain ⟨rfl, rfl⟩ := he
    intro w hw
    rcases List.mem_cons.mp hw with rfl | hw
    · exact hi hv
    · exact ih hws w hw
  | case6 _ _ _ _ _ v _ hv =>
    obtain ⟨rfl, -⟩ : [v] = vs ∧ _ = r := by simpa using h
    simpa using hi hv
  | _ => simp at h

theorem orderly_members (hi : ReadsOrderly item) {fuel : Nat}
    {pairs : List (List String × Value)} (h : members item fuel cs = some (pairs, r)) :
    ∀ pair ∈ pairs, Orderly pair.2 := by
  fun_induction members item fuel cs generalizing pairs r with
  | case3 _ _ p _ hp _ _ ih =>
    obtain ⟨⟨qs, s⟩, hqs, he⟩ := Option.map_eq_some_iff.mp h
    simp only [Prod.mk.injEq] at he
    obtain ⟨rfl, rfl⟩ := he
    intro q hq
    rcases List.mem_cons.mp hq with rfl | hq
    · exact orderly_pair hi hp
    · exact ih hqs q hq
  | case4 _ _ p _ hp =>
    obtain ⟨rfl, -⟩ : [p] = pairs ∧ _ = r := by simpa using h
    simpa using orderly_pair hi hp
  | _ => simp at h

theorem orderly_braces (hi : ReadsOrderly item) (h : braces item cs = some (v, r)) :
    Orderly v := by
  unfold braces at h
  split at h
  · obtain ⟨rfl, -⟩ : .table .inline [] = v ∧ _ = r := by simpa using h
    exact Entries.Orderly.nil.table .inline
  · split at h
    · simp at h
    · rename_i pairs _ hm
      obtain ⟨es, hes, he⟩ := Option.map_eq_some_iff.mp h
      simp only [Prod.mk.injEq] at he
      obtain ⟨rfl, -⟩ := he
      exact (Entries.orderly_ofPairs (orderly_members hi hm) hes).table .inline

/-- No number, truth value or moment has a table within, and only numbers in range are read. -/
theorem orderly_scalar (h : Scalar.scalar cs = some (v, r)) : Orderly v := by
  obtain ⟨w, hw, he⟩ := Option.map_eq_some_iff.mp h
  simp only [Prod.mk.injEq] at he
  obtain ⟨rfl, -⟩ := he
  unfold Scalar.value? at hw
  split at hw
  · exact Option.some.inj hw ▸ .boolean true
  · split at hw
    · exact Option.some.inj hw ▸ .boolean false
    · split at hw
      · split at hw
        · rename_i hn
          exact Option.some.inj hw ▸ .integer hn
        · simp at hw
      · split at hw
        · exact Option.some.inj hw ▸ .real _
        · split at hw
          · exact Option.some.inj hw ▸ .moment
          · simp at hw

theorem readsOrderly_value (depth : Nat) : ReadsOrderly (value depth) := by
  -- on the brackets that may still be opened
  induction depth using Nat.strongRecOn with
  | ind depth ih =>
    intro cs v r h
    unfold value at h
    split at h
    · simp at h
    · split at h
      · obtain ⟨⟨s, t⟩, -, he⟩ := Option.map_eq_some_iff.mp h
        simp only [Prod.mk.injEq] at he
        exact he.1 ▸ .string _
      · split at h
        · split at h
          · simp at h
          · rename_i depth
            obtain ⟨⟨vs, t⟩, hvs, he⟩ := Option.map_eq_some_iff.mp h
            simp only [Prod.mk.injEq] at he
            exact he.1 ▸ .array (orderly_elements (ih depth (Nat.lt_succ_self depth)) hvs)
        · split at h
          · split at h
            · simp at h
            · rename_i depth
              exact orderly_braces (ih depth (Nat.lt_succ_self depth)) h
          · exact orderly_scalar h

/-! ## The tree of a text -/

/-- What a statement gives to a key is orderly. -/
def Statement.Orderly : Statement → Prop
  | .assign _ v => Document.Orderly v
  | .header _ | .nextHeader _ => True

theorem orderly_statement {s : Statement} (h : statement cs = some (s, r)) : s.Orderly := by
  unfold statement at h
  split at h
  · split at h
    · obtain ⟨rfl, -⟩ : Statement.nextHeader _ = s ∧ _ = r := by simpa using h
      trivial
    · simp at h
  · split at h
    · obtain ⟨rfl, -⟩ : Statement.header _ = s ∧ _ = r := by simpa using h
      trivial
    · simp at h
  · obtain ⟨⟨⟨path, w⟩, t⟩, hp, he⟩ := Option.map_eq_some_iff.mp h
    simp only [Prod.mk.injEq] at he
    obtain ⟨rfl, -⟩ := he
    exact orderly_pair (readsOrderly_value depthLimit) hp

theorem orderly_statements {fuel : Nat} {ss : List Statement}
    (h : statements fuel cs = some ss) : ∀ s ∈ ss, s.Orderly := by
  fun_induction statements fuel cs generalizing ss with
  | case2 =>
    obtain rfl : [] = ss := by simpa using h
    simp
  | case3 _ _ _ _ _ ih => exact ih h
  | case6 _ _ s _ _ _ _ _ hs ih =>
    obtain ⟨ts, hts, rfl⟩ := Option.map_eq_some_iff.mp h
    intro t ht
    rcases List.mem_cons.mp ht with rfl | ht
    · exact orderly_statement hs
    · exact ih hts t ht
  | _ => simp at h

theorem Draft.orderly_openAt {change : String → Entries → Option Entries} {path : List String}
    {d d' : Draft} (hd : d.root.Orderly)
    (hc : ∀ {key t u}, Entries.Orderly t → change key t = some u → u.Orderly)
    (h : d.openAt change path = some d') : d'.root.Orderly := by
  obtain ⟨key, -, hm⟩ := Option.bind_eq_some_iff.mp h
  obtain ⟨root, hr, rfl⟩ := Option.map_eq_some_iff.mp hm
  exact hd.descend hc hr

theorem Draft.orderly_add {s : Statement} {d d' : Draft} (hd : d.root.Orderly) (hs : s.Orderly)
    (h : d.add s = some d') : d'.root.Orderly := by
  cases s with
  | header path => exact orderly_openAt hd Entries.Orderly.open h
  | nextHeader path => exact orderly_openAt hd Entries.Orderly.openNext h
  | assign path v =>
    obtain ⟨root, hr, rfl⟩ := Option.map_eq_some_iff.mp h
    exact hd.descend (fun ht ha => ht.assign hs ha) hr

/-- **The tree of a document has no key twice**, and no number out of range. -/
theorem orderly_of_parse {text : String} {es : Entries} (h : parse? text = some es) :
    es.Orderly := by
  obtain ⟨ss, hss, ho⟩ := Option.bind_eq_some_iff.mp h
  obtain ⟨d, hd, rfl⟩ := Option.map_eq_some_iff.mp ho
  have hs := orderly_statements hss
  exact Entries.foldlM_keeps (P := fun d : Draft => d.root.Orderly) Entries.Orderly.nil
    (fun s hm _ _ hb ha => Draft.orderly_add hb (hs s hm) ha) hd

end SerialAck.Document

/-
Writes in a row. A peer that takes an acknowledgment piece by piece leaves a block of writes where
another leaves a single one; `merge` makes one write of each block. `Folds` builds two such traces
side by side, and says of each block how it came about.
-/
import SerialAck.Proofs.Session.Trace

namespace SerialAck.Session

/-- Puts an entry before others. A write joins the write that comes next. -/
def Entry.join : Entry → List Entry → List Entry
  | .write offered taken, .write _ more :: rest => .write offered (taken ++ more) :: rest
  | e, rest => e :: rest

/-- The trace with each block of writes as one write of all its bytes. -/
def merge (trace : List Entry) : List Entry :=
  trace.foldr Entry.join []

/-- `block` is a block of writes in the trace, and not a part of a longer one. -/
def Block (trace block : List Entry) : Prop :=
  ∃ p q, trace = p ++ block ++ q ∧ block ≠ [] ∧ (∀ e ∈ block, e.isWrite) ∧
    (∀ e ∈ p.getLast?, ¬ e.isWrite) ∧ ∀ e ∈ q.head?, ¬ e.isWrite

/-- Writes that offer `n` bytes at first, and then each what the one before has left, down to
nothing. -/
inductive Pays : Nat → List Entry → Prop where
  | done : Pays 0 []
  | more {n taken block} (ht : taken ≠ []) (hn : taken.length ≤ n)
      (h : Pays (n - taken.length) block) : Pays n (.write n taken :: block)

/-- The same trace twice, with some acknowledgments written in pieces in the first one. -/
inductive Folds (ack : List UInt8) : List Entry → List Entry → Prop where
  | nil : Folds ack [] []
  | other {e p q} (he : ¬ e.isWrite) (h : Folds ack p q) : Folds ack (e :: p) (e :: q)
  | block {block p q} (hb : Pays ack.length block) (hw : written block = ack) (hne : ack ≠ [])
      (hp : ∀ e ∈ p.head?, ¬ e.isWrite) (h : Folds ack p q) :
      Folds ack (block ++ p) (.write ack.length ack :: q)

variable {e : Entry} {p q block slow fast : List Entry} {n : Nat} {ack : List UInt8}

/-! ## Merging -/

@[simp] theorem merge_cons : merge (e :: p) = e.join (merge p) := rfl

theorem Entry.join_of_not_write (he : ¬ e.isWrite) (q : List Entry) : e.join q = e :: q := by
  cases e <;> first | rfl | exact absurd rfl he

theorem Entry.join_merge {taken : List UInt8} (hp : ∀ e ∈ p.head?, ¬ e.isWrite) :
    (Entry.write n taken).join (merge p) = .write n taken :: merge p := by
  cases p with
  | nil => rfl
  | cons e p =>
    have he : ¬ e.isWrite := hp e rfl
    rw [merge_cons, join_of_not_write he]
    cases e <;> first | rfl | exact absurd rfl he

/-- Merging changes nothing of what is read off entry by entry, if one write shows what two that
follow each other show. -/
theorem flatMap_merge {α : Type} {f : Entry → List α}
    (hf : ∀ offered taken offered' more,
      f (.write offered (taken ++ more)) = f (.write offered taken) ++ f (.write offered' more))
    (trace : List Entry) : (merge trace).flatMap f = trace.flatMap f := by
  have join : ∀ e q, (Entry.join e q).flatMap f = f e ++ q.flatMap f := by
    intro e q
    unfold Entry.join
    split
    · rename_i offered taken offered' more rest
      simp [hf offered taken offered' more]
    · rfl
  induction trace with
  | nil => rfl
  | cons e p ih => rw [merge_cons, join, ih, List.flatMap_cons]

theorem written_merge (trace : List Entry) : written (merge trace) = written trace :=
  flatMap_merge (fun _ _ _ _ => rfl) trace

theorem logged_merge (trace : List Entry) : logged (merge trace) = logged trace :=
  flatMap_merge (fun _ _ _ _ => rfl) trace

theorem reads_merge (trace : List Entry) :
    (merge trace).filter Entry.isRead = trace.filter Entry.isRead := by
  have join : ∀ e q, (Entry.join e q).filter Entry.isRead = (e :: q).filter Entry.isRead := by
    intro e q
    unfold Entry.join
    split
    · rfl
    · rfl
  induction trace with
  | nil => rfl
  | cons e p ih => rw [merge_cons, join, List.filter_cons, ih, List.filter_cons]

/-! ## Blocks -/

theorem Pays.isWrite (h : Pays n block) : ∀ e ∈ block, e.isWrite := by
  induction h with
  | done => simp
  | more ht hn h ih => simpa [Entry.isWrite] using ih

theorem Pays.merge (h : Pays n block) (hn : n ≠ 0) (hp : ∀ e ∈ p.head?, ¬ e.isWrite) :
    merge (block ++ p) = .write n (written block) :: merge p := by
  induction h with
  | done => exact absurd rfl hn
  | @more n taken block ht hle h ih =>
    rw [List.cons_append, merge_cons, written_cons]
    by_cases hrest : n - taken.length = 0
    · rw [hrest] at h
      cases h with
      | done => simpa [Entry.written] using Entry.join_merge hp
      | more ht hn => exact absurd (List.length_eq_zero_iff.mp (Nat.le_zero.mp hn)) ht
    · rw [ih hrest]
      rfl

theorem last_of_append (before : List Entry) (h : ∀ e ∈ (before ++ p).getLast?, ¬ e.isWrite) :
    ∀ e ∈ p.getLast?, ¬ e.isWrite := by
  intro e he
  refine h e ?_
  rw [Option.mem_def] at he ⊢
  rw [List.getLast?_append, he]
  rfl

theorem takeWhile_isWrite (hw : ∀ e ∈ block, e.isWrite) (hp : ∀ e ∈ p.head?, ¬ e.isWrite) :
    (block ++ p).takeWhile Entry.isWrite = block := by
  rw [List.takeWhile_append_of_pos hw]
  cases p with
  | nil => simp
  | cons e p => simp [hp e rfl]

/-- Two blocks that begin at the same place are the same. -/
theorem block_unique {block' : List Entry} (h : block ++ p = block' ++ q)
    (hw : ∀ e ∈ block, e.isWrite) (hw' : ∀ e ∈ block', e.isWrite)
    (hp : ∀ e ∈ p.head?, ¬ e.isWrite) (hq : ∀ e ∈ q.head?, ¬ e.isWrite) : block = block' := by
  rw [← takeWhile_isWrite hw hp, h, takeWhile_isWrite hw' hq]

namespace Folds

theorem append (h : Folds ack slow fast) {entries : List Entry} (he : ∀ e ∈ entries, ¬ e.isWrite) :
    Folds ack (entries ++ slow) (entries ++ fast) := by
  induction entries with
  | nil => exact h
  | cons e entries ih =>
    exact .other (he e List.mem_cons_self) (ih fun e h => he e (List.mem_cons_of_mem _ h))

/-- Merging the first trace gives the second. -/
theorem merge_eq (h : Folds ack slow fast) : merge slow = fast := by
  induction h with
  | nil => rfl
  | other he h ih => rw [merge_cons, ih, Entry.join_of_not_write he]
  | block hb hw hne hp h ih =>
    rw [hb.merge (by simpa using hne) hp, hw, ih]

example : merge [.read 1 [97], .write 3 [79], .write 2 [107, 33], .read 1 []] =
    [.read 1 [97], .write 3 [79, 107, 33], .read 1 []] := rfl

/-- Each block of the first trace pays an acknowledgment. -/
theorem pays (h : Folds ack slow fast) (hb : Block slow block) : Pays ack.length block := by
  obtain ⟨p, q, hs, hne, hw, hp, hq⟩ := hb
  induction h generalizing p with
  | nil =>
    have hnil : block = [] := by simp_all
    exact absurd hnil hne
  | @other e slow fast he h ih =>
    cases p with
    | nil =>
      obtain ⟨e', block, rfl⟩ := List.exists_cons_of_ne_nil hne
      obtain ⟨rfl, -⟩ := List.cons.inj hs
      exact absurd (hw e List.mem_cons_self) he
    | cons e' p =>
      obtain ⟨rfl, htail⟩ := List.cons.inj hs
      exact ih p htail (last_of_append [e] hp)
  | @block block' slow fast hb hack _ hslow h ih =>
    rw [List.append_assoc] at hs
    rcases List.append_eq_append_iff.mp hs with ⟨p', rfl, htail⟩ | ⟨more, hmore, htail⟩
    · -- it comes after this one
      exact ih p' (by rw [htail, List.append_assoc]) (last_of_append block' hp)
    · -- it begins with this one, as there is no write just before it
      rcases List.eq_nil_or_concat p with rfl | ⟨p, e, rfl⟩
      · rw [List.nil_append] at hmore
        subst hmore
        exact block_unique htail hw hb.isWrite hq hslow ▸ hb
      · have he : e ∈ block' := by simp [hmore]
        exact absurd (hb.isWrite e he) (hp e (by simp))

end Folds

end SerialAck.Session

/-
Scripted streams. A script lists, in order, what one direction of a connection brings and how long
that takes; time passes only in its waits. `Script.next` is the one way to wait: it looks for what
comes next within a budget of milliseconds. A read waits within the idle limit and the patience of
the observer, a write within the patience alone.
-/
import SerialAck.Fault

namespace SerialAck.Session

inductive Step (α : Type) where
  | now (what : α)
  | wait (ms : Nat)
  /-- Nothing ever comes from here on. -/
  | hang
  deriving Repr, DecidableEq

abbrev Script (α : Type) := List (Step α)

inductive Arrival where
  | data (bytes : List UInt8)
  | failure (fault : Fault)
  | eof
  deriving Repr, DecidableEq

inductive Acceptance where
  /-- Takes as many bytes as are offered, but at most `count`. -/
  | take (count : Nat)
  | failure (fault : Fault)
  deriving Repr, DecidableEq

/-- What a script has within a budget. -/
inductive Next (α : Type) where
  | due (what : α) (rest : Script α) (spent : Nat)
  /-- The script is over. -/
  | nothing (spent : Nat)
  /-- The budget ran out before the first event of `rest` came about. -/
  | late (rest : Script α)
  deriving Repr, DecidableEq

namespace Next

/-- The same, `ms` milliseconds later. -/
def after {α : Type} (ms : Nat) : Next α → Next α
  | .due a rest spent => .due a rest (ms + spent)
  | .nothing spent => .nothing (ms + spent)
  | .late rest => .late rest

end Next

/-- What comes next if the waits before it take no more than `budget`. -/
def Script.next {α : Type} (budget : Nat) : Script α → Next α
  | [] => .nothing 0
  | .now a :: rest => .due a rest 0
  | .hang :: rest => .late (.hang :: rest)
  | .wait n :: rest =>
    if n ≤ budget then (Script.next (budget - n) rest).after n else .late (.wait n :: rest)

/-- The data of a script of arrivals, joined. -/
def Script.data : Script Arrival → List UInt8
  | [] => []
  | .now (.data bytes) :: rest => bytes ++ Script.data rest
  | _ :: rest => Script.data rest

def Next.data : Next Arrival → List UInt8
  | .due (.data bytes) rest _ => bytes ++ rest.data
  | .due _ rest _ => rest.data
  | .nothing _ => []
  | .late rest => rest.data

def Next.length {α : Type} : Next α → Nat
  | .due _ rest _ => rest.length + 1
  | .nothing _ => 0
  | .late rest => rest.length

@[simp] theorem Next.length_after {α : Type} (ms : Nat) (x : Next α) :
    (x.after ms).length = x.length := by
  cases x <;> rfl

/-- Waiting loses no data. -/
theorem Script.data_next (budget : Nat) (script : Script Arrival) :
    script.data = (script.next budget).data := by
  fun_induction Script.next budget script with
  | case1 => rfl
  | case2 _ a rest => cases a <;> rfl
  | case3 => rfl
  | case4 _ n rest _ ih =>
    rw [Script.data, ih]
    · generalize Script.next _ rest = x
      cases x with
      | due a => cases a <;> rfl
      | nothing | late => rfl
    · simp
  | case5 => rfl

theorem Script.length_next {α : Type} (budget : Nat) (script : Script α) :
    (script.next budget).length ≤ script.length := by
  fun_induction Script.next budget script with
  | case4 _ n rest _ ih =>
    simp only [Next.length_after, List.length_cons]
    omega
  | _ => simp [Next.length]

/-- How long an observer watches a session, in milliseconds. -/
def patience : Nat := 1000000000

structure Stream where
  reads : Script Arrival := []
  writes : Script Acceptance := []
  /-- What is left of the patience. -/
  left : Nat := patience
  deriving Repr, DecidableEq

/-- What became of a read. -/
inductive Reading where
  /-- No bytes stand for the end of the input. -/
  | got (bytes : List UInt8)
  | failed (fault : Fault)
  | timedOut
  /-- Still waiting when the patience ends. -/
  | stuck
  deriving Repr, DecidableEq

inductive Writing where
  | took (bytes : List UInt8)
  | failed (fault : Fault)
  | stuck
  deriving Repr, DecidableEq

namespace Stream

def elapsed (s : Stream) : Nat :=
  patience - s.left

/-- The milliseconds that a read may wait. -/
def readBudget (limit : Option Nat) (s : Stream) : Nat :=
  match limit with
  | none => s.left
  | some l => min l s.left

/-- The limit ends a wait before the patience does, or at the same time. -/
def isLimited (limit : Option Nat) (s : Stream) : Bool :=
  limit.any (· ≤ s.left)

/-- A read of at most `size` bytes. What it leaves of its data is there for the next one. -/
def read (size : Nat) (limit : Option Nat) (s : Stream) : Reading × Stream :=
  match s.reads.next (s.readBudget limit) with
  | .late rest =>
    (if s.isLimited limit then .timedOut else .stuck,
      { s with reads := rest, left := s.left - s.readBudget limit })
  | .nothing spent => (.got [], { s with reads := [], left := s.left - spent })
  | .due (.data bytes) rest spent =>
    let kept := bytes.drop size
    (.got (bytes.take size),
      { s with reads := if kept = [] then rest else .now (.data kept) :: rest,
               left := s.left - spent })
  | .due (.failure f) rest spent => (.failed f, { s with reads := rest, left := s.left - spent })
  | .due .eof rest spent => (.got [], { s with reads := rest, left := s.left - spent })

/-- A write that offers `bytes`. -/
def write (bytes : List UInt8) (s : Stream) : Writing × Stream :=
  match s.writes.next s.left with
  | .late rest => (.stuck, { s with writes := rest, left := 0 })
  | .nothing spent => (.took bytes, { s with writes := [], left := s.left - spent })
  | .due (.take n) rest spent =>
    (.took (bytes.take n), { s with writes := rest, left := s.left - spent })
  | .due (.failure f) rest spent => (.failed f, { s with writes := rest, left := s.left - spent })

/-- The data that reads can still bring. -/
def dataLeft (s : Stream) : Nat :=
  s.reads.data.length

theorem dataLeft_read {size limit} {s t : Stream} {bytes}
    (h : s.read size limit = (.got bytes, t)) : t.dataLeft + bytes.length = s.dataLeft := by
  have hd := Script.data_next (s.readBudget limit) s.reads
  unfold read at h
  split at h <;> rename_i he <;> rw [he] at hd
  · cases hl : s.isLimited limit <;> simp [hl] at h
  · simp only [Prod.mk.injEq, Reading.got.injEq] at h
    obtain ⟨rfl, rfl⟩ := h
    simp [dataLeft, hd, Next.data, Script.data]
  · simp only [Prod.mk.injEq, Reading.got.injEq] at h
    obtain ⟨rfl, rfl⟩ := h
    simp only [dataLeft, hd, Next.data, List.length_append]
    split
    · rename_i hk
      have := List.drop_eq_nil_iff.mp hk
      simp
      omega
    · simp [Script.data]
      omega
  · simp at h
  · simp only [Prod.mk.injEq, Reading.got.injEq] at h
    obtain ⟨rfl, rfl⟩ := h
    simp [dataLeft, hd, Next.data]

/-- A write uses up an event of its script, or has none and takes all. -/
theorem length_writes_write {s t : Stream} {bytes taken}
    (h : s.write bytes = (.took taken, t)) :
    t.reads = s.reads ∧
      (t.writes.length < s.writes.length ∨ t.writes.length ≤ s.writes.length ∧ taken = bytes) := by
  have hl := Script.length_next s.left s.writes
  unfold write at h
  split at h <;> rename_i he <;> rw [he] at hl <;>
    simp only [Prod.mk.injEq, reduceCtorEq, false_and, Writing.took.injEq] at h
  all_goals
    obtain ⟨rfl, rfl⟩ := h
    simp only [Next.length] at hl
    simp
    try omega

theorem length_writes_write_failed {s t : Stream} {bytes fault}
    (h : s.write bytes = (.failed fault, t)) :
    t.reads = s.reads ∧ t.writes.length < s.writes.length := by
  have hl := Script.length_next s.left s.writes
  unfold write at h
  split at h <;> rename_i he <;> rw [he] at hl <;>
    simp only [Prod.mk.injEq, reduceCtorEq, false_and] at h
  obtain ⟨-, rfl⟩ := h
  simp only [Next.length] at hl
  exact ⟨rfl, Nat.lt_of_succ_le hl⟩

end Stream

end SerialAck.Session

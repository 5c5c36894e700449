/-
Streams that do their part: they bring data in time, up to an end of the input (`Feeds`), and take
at least something of all that is written (`Yields`). A session on such a stream is never held up
but by the patience of the observer, and comes to a clean end (`exists_end`).
-/
import SerialAck.Proofs.Session.Account

namespace SerialAck.Session

/-- The script brings `chunks`, each in an event of its own, and then the end of the input. No
waits in a row, with `waited` before the first of them, take longer than the limit. -/
inductive Feeds (limit : Option Nat) : Nat → Script Arrival → List (List UInt8) → Prop where
  | nothing {waited} : Feeds limit waited [] []
  | eof {waited rest} : Feeds limit waited (.now .eof :: rest) []
  | empty {waited rest} : Feeds limit waited (.now (.data []) :: rest) []
  | data {waited bytes rest chunks} (hb : bytes ≠ []) (h : Feeds limit 0 rest chunks) :
      Feeds limit waited (.now (.data bytes) :: rest) (bytes :: chunks)
  | wait {waited ms rest chunks} (hw : ∀ l ∈ limit, waited + ms ≤ l)
      (h : Feeds limit (waited + ms) rest chunks) : Feeds limit waited (.wait ms :: rest) chunks

/-- The script has only waits, and events that take a byte or more. -/
def Yields (script : Script Acceptance) : Prop :=
  ∀ e ∈ script, (∃ ms, e = .wait ms) ∨ ∃ n, 0 < n ∧ e = .now (.take n)

/-! ## What comes next -/

/-- What there is within a budget of a script that feeds. -/
inductive Fed (limit : Option Nat) (waited budget : Nat) :
    List (List UInt8) → Next Arrival → Prop where
  | late {rest chunks} (h : ∀ l ∈ limit, waited + budget < l) :
      Fed limit waited budget chunks (.late rest)
  | nothing {spent} : Fed limit waited budget [] (.nothing spent)
  | eof {rest spent} : Fed limit waited budget [] (.due .eof rest spent)
  | empty {rest spent} : Fed limit waited budget [] (.due (.data []) rest spent)
  | data {bytes rest spent chunks} (hb : bytes ≠ []) (h : Feeds limit 0 rest chunks) :
      Fed limit waited budget (bytes :: chunks) (.due (.data bytes) rest spent)

theorem Fed.after {limit waited budget ms chunks next}
    (h : Fed limit (waited + ms) (budget - ms) chunks next) (hm : ms ≤ budget) :
    Fed limit waited budget chunks (next.after ms) := by
  cases h with
  | late h => exact .late fun l hl => by have := h l hl; omega
  | nothing => exact .nothing
  | eof => exact .eof
  | empty => exact .empty
  | data hb h => exact .data hb h

theorem Feeds.next {limit waited script chunks} (h : Feeds limit waited script chunks)
    (budget : Nat) : Fed limit waited budget chunks (script.next budget) := by
  induction h generalizing budget with
  | nothing => exact .nothing
  | eof => exact .eof
  | empty => exact .empty
  | data hb h => exact .data hb h
  | @wait waited ms rest chunks hw h ih =>
    rw [Script.next]
    split
    · rename_i hm
      exact (ih _).after hm
    · exact .late fun l hl => by have := hw l hl; omega

/-- What is still to come after `size` bytes of the first chunk. -/
def behind (size : Nat) (bytes : List UInt8) (chunks : List (List UInt8)) : List (List UInt8) :=
  if bytes.drop size = [] then chunks else bytes.drop size :: chunks

theorem take_append_behind (size : Nat) (bytes : List UInt8) (chunks : List (List UInt8)) :
    bytes.take size ++ (behind size bytes chunks).flatten = (bytes :: chunks).flatten := by
  unfold behind
  split
  · rename_i h
    rw [List.take_of_length_le (List.drop_eq_nil_iff.mp h), List.flatten_cons]
  · rw [List.flatten_cons, ← List.append_assoc, List.take_append_drop, List.flatten_cons]

/-- What a read of a stream that feeds comes to. -/
inductive Fetches (limit : Option Nat) (size : Nat) (t : Stream) :
    List (List UInt8) → Reading × Stream → Prop where
  | stuck {chunks u} : Fetches limit size t chunks (.stuck, u)
  | nothing {u} : Fetches limit size t [] (.got [], u)
  | data {bytes chunks u} (hb : bytes ≠ []) (hw : u.writes = t.writes)
      (h : Feeds limit 0 u.reads (behind size bytes chunks)) :
      Fetches limit size t (bytes :: chunks) (.got (bytes.take size), u)

variable {limit : Option Nat} {t : Stream} {chunks : List (List UInt8)}

theorem Feeds.read (h : Feeds limit 0 t.reads chunks) (size : Nat) :
    Fetches limit size t chunks (t.read size limit) := by
  have hn := h.next (t.readBudget limit)
  unfold Stream.read
  split <;> rename_i he <;> rw [he] at hn
  · have hl : t.isLimited limit = false := by
      cases hn with
      | late h =>
        cases limit with
        | none => rfl
        | some l =>
          have := h l rfl
          simp [Stream.readBudget] at this
          simp [Stream.isLimited]
          omega
    rw [hl]
    exact .stuck
  · cases hn
    exact .nothing
  · cases hn with
    | empty =>
      dsimp only
      rw [List.take_nil]
      exact .nothing
    | @data bytes rest spent chunks hb h =>
      refine .data hb rfl ?_
      unfold behind
      split
      · exact h
      · exact .data ‹_› h
  · cases hn
  · cases hn
    exact .nothing

theorem Yields.next {script : Script Acceptance} (h : Yields script) (budget : Nat) :
    (∃ rest, script.next budget = .late rest) ∨ (∃ spent, script.next budget = .nothing spent) ∨
      ∃ n rest spent, script.next budget = .due (.take n) rest spent ∧ 0 < n ∧ Yields rest := by
  induction script generalizing budget with
  | nil => exact .inr (.inl ⟨0, rfl⟩)
  | cons e script ih =>
    have hy : Yields script := fun e he => h e (List.mem_cons_of_mem _ he)
    rcases h e List.mem_cons_self with ⟨ms, rfl⟩ | ⟨n, hn, rfl⟩
    · rw [Script.next]
      split
      · rcases ih hy (budget - ms) with ⟨rest, hr⟩ | ⟨spent, hr⟩ | ⟨n, rest, spent, hr, hn⟩
        · exact .inl ⟨rest, by rw [hr]; rfl⟩
        · exact .inr (.inl ⟨ms + spent, by rw [hr]; rfl⟩)
        · exact .inr (.inr ⟨n, rest, ms + spent, by rw [hr]; rfl, hn⟩)
      · exact .inl ⟨_, rfl⟩
    · exact .inr (.inr ⟨n, script, 0, rfl, hn, hy⟩)

/-- A write to a stream that yields waits for ever or makes headway. -/
theorem Yields.write (h : Yields t.writes) (rest : List UInt8) :
    (∃ u, t.write rest = (.stuck, u)) ∨
      ∃ taken u, t.write rest = (.took taken, u) ∧ (rest ≠ [] → taken ≠ []) ∧ u.reads = t.reads ∧
        Yields u.writes := by
  unfold Stream.write
  rcases h.next t.left with ⟨more, hn⟩ | ⟨spent, hn⟩ | ⟨n, more, spent, hn, hpos, hy⟩ <;> rw [hn]
  · exact .inl ⟨_, rfl⟩
  · exact .inr ⟨rest, _, rfl, id, rfl, by simp [Yields]⟩
  · refine .inr ⟨rest.take n, _, rfl, fun hr => ?_, rfl, hy⟩
    simp only [ne_eq, List.take_eq_nil_iff, not_or]
    exact ⟨by omega, hr⟩

/-! ## Sessions on such streams -/

/-- The stream does its part in both directions. -/
structure Supplies (c : Config) (t : Stream) (chunks : List (List UInt8)) : Prop where
  feeds : Feeds c.limit 0 t.reads chunks
  yields : Yields t.writes

variable {c : Config} {s s' : State} {t' : Stream} {entries trace : List Entry}

theorem Supplies.read {size : Nat} {bytes : List UInt8} (h : Supplies c t chunks)
    (hr : t.read size c.limit = (.got bytes, t')) (hb : bytes ≠ []) :
    ∃ chunk more, chunks = chunk :: more ∧ chunk ≠ [] ∧ chunk.take size = bytes ∧
      Supplies c t' (behind size chunk more) := by
  have hf := h.feeds.read size
  rw [hr] at hf
  cases hf with
  | nothing => exact absurd rfl hb
  | data hc hw hf => exact ⟨_, _, rfl, hc, rfl, hf, hw ▸ h.yields⟩

theorem Supplies.eq_nil {size : Nat} (h : Supplies c t chunks)
    (hr : t.read size c.limit = (.got [], t')) (hs : 0 < size) : chunks = [] := by
  have hf := h.feeds.read size
  rw [hr] at hf
  generalize hbytes : Reading.got [] = r at hf
  cases hf with
  | stuck => simp at hbytes
  | nothing => rfl
  | data hb => simp [hb, Nat.ne_of_gt hs] at hbytes

/-- A call on such a stream brings nothing and uses up no data, or it is a read of what comes
next. -/
theorem Supplies.call (h : Supplies c t chunks) (hc : Call c s t entries s' t') :
    received entries = [] ∧ Supplies c t' chunks ∨
      ∃ chunk more, chunks = chunk :: more ∧ chunk ≠ [] ∧
        received entries = [chunk.take (s.readSize c.mode)] ∧
        Supplies c t' (behind (s.readSize c.mode) chunk more) := by
  cases hc with
  | read hp hr hb =>
    have hs : s.readSize c.mode = c.mode.size := by simp [State.readSize, hp]
    obtain ⟨chunk, more, rfl, hc, rfl, hm⟩ := h.read hr hb
    exact .inr ⟨chunk, more, rfl, hc, by simp [hs, Entry.received_read hb], hs ▸ hm⟩
  | drain hp hr hb =>
    have hs : s.readSize c.mode = ReadMode.chunkSize := by simp [State.readSize, hp]
    obtain ⟨chunk, more, rfl, hc, rfl, hm⟩ := h.read hr hb
    exact .inr ⟨chunk, more, rfl, hc, by simp [hs, Entry.received_read hb], hs ▸ hm⟩
  | @write rest last taken _ hp hw ht =>
    rcases h.yields.write rest with ⟨u, hu⟩ | ⟨taken', u, hu, -, hreads, hy⟩ <;> rw [hw] at hu
    · simp at hu
    · simp only [Prod.mk.injEq, Writing.took.injEq] at hu
      obtain ⟨-, rfl⟩ := hu
      exact .inl ⟨rfl, hreads ▸ h.feeds, hy⟩
  | @retry rest last f _ hp hw hk =>
    rcases h.yields.write rest with ⟨u, hu⟩ | ⟨taken, u, hu, -⟩ <;> rw [hw] at hu <;> simp at hu

theorem Supplies.calls {stream : Stream} (h : Supplies c stream chunks)
    (hc : Calls c {} stream trace s t) :
    ∃ more, Supplies c t more ∧ (received trace).flatten ++ more.flatten = chunks.flatten := by
  induction hc with
  | none => exact ⟨chunks, h, rfl⟩
  | more _ hc ih =>
    obtain ⟨more, hm, hd⟩ := ih
    rcases hm.call hc with ⟨hr, hm⟩ | ⟨chunk, more, rfl, -, hr, hm⟩
    · exact ⟨more, hm, by simpa [hr] using hd⟩
    · refine ⟨_, hm, ?_⟩
      simpa [hr, take_append_behind] using hd

/-- Such a stream does not end a session but by the end of its input. -/
theorem Supplies.lastCall {o : Outcome} (h : Supplies c t chunks)
    (hs : ∀ rest last, s.phase = .replying rest last → rest ≠ [])
    (hl : LastCall c s t entries o t') :
    chunks = [] ∧ ∃ summary, o = .finished summary := by
  cases hl with
  | closed hp hr => exact ⟨h.eq_nil hr (by cases c.mode <;> decide), _, rfl⟩
  | drained hp hr => exact ⟨h.eq_nil hr (by decide), _, rfl⟩
  | readFailed hp hr | timedOut hp hr =>
    have hf := h.feeds.read (s.readSize c.mode)
    rw [hr] at hf
    cases hf
  | @writeZero rest last _ hp hw =>
    rcases h.yields.write rest with ⟨u, hu⟩ | ⟨taken, u, hu, ht, -⟩ <;> rw [hw] at hu
    · simp at hu
    · simp only [Prod.mk.injEq, Writing.took.injEq] at hu
      exact absurd hu.1.symm (ht (hs rest last hp))
  | @writeFailed rest last f _ hp hw hk =>
    rcases h.yields.write rest with ⟨u, hu⟩ | ⟨taken, u, hu, -⟩ <;> rw [hw] at hu <;> simp at hu

/-- A session on such a stream comes to a clean end once it has read all the data, if it is not
stuck. -/
theorem Supplies.exists_end {stream : Stream} (h : Supplies c stream chunks)
    (hr : (handle c stream).result ≠ .stuck) :
    ∃ trace s t entries summary u, Calls c {} stream trace s t ∧
      LastCall c s t entries (.finished summary) u ∧ Supplies c t [] ∧
      (received trace).flatten = chunks.flatten ∧
      handle c stream = ⟨trace ++ entries, .ended (.finished summary), u⟩ := by
  obtain ⟨trace, s, t, hcs, ⟨entries, o, u, hl, he⟩ | ⟨u, -, he⟩⟩ := run_cases c {} stream
  · obtain ⟨more, hm, hd⟩ := h.calls hcs
    obtain ⟨rfl, summary, rfl⟩ := hm.lastCall (fun _ _ => hcs.rest_ne_nil) hl
    exact ⟨trace, s, t, entries, summary, u, hcs, hl, hm, by simpa using hd, he⟩
  · simp [handle, he] at hr

end SerialAck.Session

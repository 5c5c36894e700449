/-
Sessions end. Each read but the last brings a byte, so the data bounds the reads, and each write
but the interrupted ones takes a byte, so the payload bounds the writes (`Calls.readCount_le`,
`Calls.writeCount_le`). What keeps a session from its end is then only a call that takes longer
than it is watched, and there is none if the waits of the script are short enough in all, or the
limit is (`Calls.step_ne_stuck`).
-/
import Mathlib.Data.List.Induction
import SerialAck.Proofs.Session.Account
import SerialAck.Proofs.Session.Faults
import SerialAck.Proofs.Session.IdleLimit

namespace SerialAck.Session

def Acceptance.isSpared (spared : Fault → Bool) : Acceptance → Bool
  | .take _ => false
  | .failure f => spared f

/-- How many of `n` writes meet a fault that is spared, where `before` others went before. -/
def sparedWrites (spared : Fault → Bool) (script : Script Acceptance) (before n : Nat) : Nat :=
  ((script.events.drop before).take n).countP (Acceptance.isSpared spared)

/-- A session that ends, with no more calls than there are bytes for. Writes do not count that
meet a fault which `spared` holds of. -/
structure ComesToEnd (spared : Fault → Bool) (c : Config) (stream : Stream) : Prop where
  ended : ∃ o, (handle c stream).result = .ended o
  reads : (handle c stream).readCalls ≤ stream.reads.data.length + 1
  /-- A read that brings nothing is the last one. -/
  lastRead : ∀ p e q, (handle c stream).trace = p ++ e :: q → e.isRead = true →
    e.received = [] → (handle c stream).readCalls = readCount p + 1
  /-- From one read to the next there is one acknowledgment to write. -/
  writes : ∀ p between q, (handle c stream).trace = p ++ between ++ q →
    (∀ e ∈ between, ¬ e.isRead) → writeCount between ≤
      c.ack.length + sparedWrites spared stream.writes (writeCount p) (writeCount between)

/-- The scripts leave the session time to end: all of their waits together are short, or the
limit is, as many times as there can be a read. -/
def Ample (c : Config) (reads : Script Arrival) (writes : Script Acceptance) : Prop :=
  .hang ∉ writes ∧ (.hang ∉ reads ∧ reads.waits + writes.waits < patience ∨
    ∃ l, c.limit = some l ∧ (reads.data.length + 1) * l + writes.waits < patience)

variable {c : Config} {s s' : State} {start t t' u : Stream} {trace entries : List Entry}

/-! ## Reads -/

theorem Call.readCount_le (h : Call c s t entries s' t') :
    readCount entries + t'.dataLeft ≤ t.dataLeft := by
  cases h with
  | read hp hr hb =>
    have hdata := Stream.dataLeft_read hr
    have hpos := List.length_pos_iff.mpr hb
    simp only [readCount_cons, readCount_map_log, Entry.isRead, if_true]
    omega
  | drain hp hr hb =>
    have hdata := Stream.dataLeft_read hr
    have hpos := List.length_pos_iff.mpr hb
    simp only [readCount_cons, readCount_nil, Entry.isRead, if_true]
    omega
  | write hp hw ht =>
    simp [Entry.isRead, Stream.dataLeft, (Stream.length_writes_write hw).1]
  | retry hp hw hk =>
    simp [Entry.isRead, Stream.dataLeft, (Stream.length_writes_write_failed hw).1]

/-- Reads that let the session go on bring a byte or more. -/
theorem Calls.readCount_le (h : Calls c s start trace s' t) :
    readCount trace + t.dataLeft ≤ start.dataLeft := by
  induction h with
  | none => simp
  | more _ hc ih =>
    have hcall := hc.readCount_le
    rw [readCount_append]
    omega

/-- There is one read in the last call, or none. -/
theorem LastCall.readCalls_le {o : Outcome} (h : LastCall c s t entries o u)
    (trace : List Entry) :
    (Run.mk (trace ++ entries) (.ended o) u).readCalls ≤ readCount trace + 1 := by
  cases h <;> simp [Run.readCalls, Entry.isRead]

theorem handle_readCalls_le (c : Config) (start : Stream) :
    (handle c start).readCalls ≤ start.dataLeft + 1 := by
  obtain ⟨trace, s, t, hcs, ⟨entries, o, u, hl, hr⟩ | ⟨u, -, hr⟩⟩ := run_cases c {} start
  · have hcalls := hcs.readCount_le
    have hlast := hl.readCalls_le trace
    rw [handle, hr]
    omega
  · have hcalls := hcs.readCount_le
    simp only [handle, hr, Run.readCalls]
    omega

theorem Call.received_ne_nil {e : Entry} (h : Call c s t entries s' t')
    (hhead : entries.head? = some e) (hr : e.isRead) : e.received ≠ [] := by
  cases h with
  | read hp hr hb | drain hp hr hb =>
    obtain rfl := Option.some.inj hhead
    simp [Entry.received_read hb]
  | write | retry =>
    obtain rfl := Option.some.inj hhead
    simp [Entry.isRead] at hr

theorem LastCall.readCalls_of_read {o : Outcome} {e : Entry} (h : LastCall c s t entries o u)
    (hhead : entries.head? = some e) (hr : e.isRead) :
    (Run.mk (trace ++ entries) (.ended o) u).readCalls = readCount trace + 1 := by
  cases h with
  | closed | drained | readFailed => simp [Run.readCalls, Entry.isRead]
  | timedOut => simp at hhead
  | writeZero | writeFailed =>
    obtain rfl := Option.some.inj hhead
    simp [Entry.isRead] at hr

theorem readCalls_of_received_eq_nil {p q : List Entry} {e : Entry}
    (h : (handle c start).trace = p ++ e :: q) (he : e.isRead = true) (hn : e.received = []) :
    (handle c start).readCalls = readCount p + 1 := by
  obtain ⟨before, s, t, q', entries, hcs, hl, rfl, hq⟩ := leaves_of_split h
  obtain ⟨rfl, -⟩ := hl.of_read hq he
  have hhead : entries.head? = some e := by
    obtain ⟨rest, rfl⟩ := hq
    rfl
  rw [List.append_nil]
  rcases hl with ⟨s', t', hc⟩ | ⟨o, u, hl⟩
  · exact absurd hn (hc.received_ne_nil hhead he)
  · rw [handle, hcs.run_eq, run_of_lastCall hl]
    exact hl.readCalls_of_read hhead he

/-! ## Writes -/

/-- What the peer is still owed of an acknowledgment. -/
def State.unwritten (s : State) : List UInt8 :=
  match s.phase with
  | .replying rest _ => rest
  | _ => []

theorem State.unwritten_of_replying {rest : List UInt8} {last : Bool}
    (hp : s.phase = .replying rest last) : s.unwritten = rest := by
  rw [unwritten, hp]

theorem State.unwritten_reply (s : State) (rest : List UInt8) (last : Bool) :
    (s.reply rest last).unwritten = rest := by
  unfold reply
  split
  · rename_i hr
    subst hr
    cases last <;> rfl
  · rfl

theorem Balanced.length_unwritten_le (h : Balanced c trace s) :
    s.unwritten.length ≤ c.ack.length := by
  cases hp : s.phase with
  | replying rest last =>
    simp only [Balanced, hp] at h
    simpa [State.unwritten, hp] using h.rest
  | listening | draining => simp [State.unwritten, hp]

/-- A call that is a write gets something off, or is interrupted. Others bring input first. -/
theorem Call.write_or_read (h : Call c s t entries s' t') :
    (∃ e, entries = [e] ∧ e.isWrite ∧
      (s'.unwritten.length < s.unwritten.length ∨
        s' = s ∧ ∃ f, t.writes.events.head? = some (.failure f) ∧ f.kind = .interrupted)) ∨
      ∃ e ∈ entries, e.isRead ∧ writeCount entries = 0 := by
  cases h with
  | @read bytes _ hp hr hb =>
    refine .inr ⟨_, List.mem_cons_self, rfl, ?_⟩
    simp [Entry.isWrite]
  | drain hp hr hb => exact .inr ⟨_, List.mem_singleton_self _, rfl, rfl⟩
  | @write rest last taken _ hp hw hne =>
    refine .inl ⟨_, rfl, rfl, .inl ?_⟩
    have hle := (Stream.prefix_of_write hw).length_le
    have hpos := List.length_pos_iff.mpr hne
    rw [State.unwritten_reply, State.unwritten_of_replying hp, List.length_drop]
    omega
  | retry hp hw hk =>
    refine .inl ⟨_, rfl, rfl, .inr ⟨rfl, ?_⟩⟩
    obtain ⟨a, ha, -, hfinal⟩ := (Call.retry (c := c) hp hw hk).exists_callsOf
    obtain rfl := List.singleton_inj.mp ha
    obtain ⟨-, _, _, f, -, -, hf, hkind⟩ := hfinal rfl
    exact ⟨f, hf, hkind⟩

theorem Leaves.of_write {q : List Entry} {e : Entry} (h : Leaves c s t entries)
    (hq : q ++ [e] <+: entries) (he : e.isWrite) :
    q = [] ∧ ∃ rest last, s.phase = .replying rest last := by
  obtain rfl := h.eq_nil_of_call hq (Entry.ne_log_of_isWrite he)
  refine ⟨rfl, ?_⟩
  rcases h with ⟨s', t', h⟩ | ⟨o, t', h⟩ <;> cases h <;> simp_all [Entry.isWrite]

theorem sparedWrites_le_succ (spared : Fault → Bool) (script : Script Acceptance)
    (before n : Nat) :
    sparedWrites spared script before n ≤ sparedWrites spared script before (n + 1) :=
  (List.take_sublist_take_left (Nat.le_succ n)).countP_le

theorem sparedWrites_succ {spared : Fault → Bool} {script : Script Acceptance} {before n : Nat}
    {f : Fault} (h : script.events[before + n]? = some (.failure f)) (hf : spared f = true) :
    sparedWrites spared script before (n + 1) = sparedWrites spared script before n + 1 := by
  rw [← List.getElem?_drop] at h
  rw [sparedWrites, List.take_add_one, h, List.countP_append]
  simp [sparedWrites, Acceptance.isSpared, hf]

/-- What has been written since some point after the last read has got a byte off with each write,
but for those that were interrupted. -/
theorem Calls.writeCount_le {p between : List Entry} (h : Calls c {} start trace s t)
    (ht : trace = p ++ between) (hb : ∀ e ∈ between, ¬ e.isRead) :
    s.unwritten.length + writeCount between ≤ c.ack.length +
      sparedWrites (·.kind = .interrupted) start.writes (writeCount p) (writeCount between) := by
  induction h generalizing between with
  | none =>
    obtain ⟨-, rfl⟩ := List.append_eq_nil_iff.mp ht.symm
    simp [State.unwritten]
  | @more trace entries s₁ t₁ s₂ t₂ hcs hc ih =>
    have hle := (hcs.balanced.call hc).length_unwritten_le
    rcases hc.write_or_read with ⟨e, rfl, hw, hstep⟩ | ⟨e, hmem, hr, hzero⟩
    · rcases List.eq_nil_or_concat between with rfl | ⟨between, a, rfl⟩
      · exact Nat.le_add_right_of_le hle
      · rw [List.concat_eq_append] at ht hb ⊢
        rw [← List.append_assoc] at ht
        obtain ⟨rfl, he⟩ := List.append_inj' ht rfl
        obtain rfl := List.singleton_inj.mp he
        have hbefore := ih rfl fun a ha => hb a (List.mem_append_left _ ha)
        have hcount : writeCount (between ++ [e]) = writeCount between + 1 := by simp [hw]
        rw [hcount]
        rcases hstep with hless | ⟨rfl, f, hf, hk⟩
        · have hmono := sparedWrites_le_succ (·.kind = .interrupted) start.writes (writeCount p)
            (writeCount between)
          omega
        · rw [hcs.events_eq, List.head?_drop, writeCount_append] at hf
          rw [sparedWrites_succ hf (by simpa using hk)]
          omega
    · have hnone : writeCount between = 0 := by
        rcases List.append_eq_append_iff.mp ht with ⟨a, -, rfl⟩ | ⟨b, -, rfl⟩
        · rw [writeCount_append] at hzero
          omega
        · exact absurd hr (hb e (List.mem_append_right _ hmem))
      omega

theorem writeCount_between_le {p between q : List Entry}
    (h : (handle c start).trace = p ++ between ++ q) (hb : ∀ e ∈ between, ¬ e.isRead) :
    writeCount between ≤ c.ack.length +
      sparedWrites (·.kind = .interrupted) start.writes (writeCount p) (writeCount between) := by
  induction between using List.reverseRec generalizing q with
  | nil => simp
  | append_singleton between e ih =>
    have hbefore : ∀ a ∈ between, ¬ a.isRead := fun a ha => hb a (List.mem_append_left _ ha)
    cases hw : e.isWrite with
    | false =>
      simpa [hw] using ih (q := e :: q) (by simpa using h) hbefore
    | true =>
      have hat : (run c {} start).trace = p ++ between ++ e :: q := by
        rw [← handle, h]
        simp
      obtain ⟨before, s, t, q', entries, hcs, hl, hsplit, hq⟩ := leaves_of_split hat
      obtain ⟨rfl, rest, last, hp⟩ := hl.of_write hq hw
      have hle := hcs.writeCount_le (by rw [hsplit, List.append_nil]) hbefore
      have hpos := List.length_pos_iff.mpr (hcs.rest_ne_nil hp)
      have hmono := sparedWrites_le_succ (·.kind = .interrupted) start.writes (writeCount p)
        (writeCount between)
      have hcount : writeCount (between ++ [e]) = writeCount between + 1 := by simp [hw]
      rw [State.unwritten_of_replying hp] at hle
      rw [hcount]
      omega

/-! ## Time -/

section

variable {α : Type} {script : Script α}

theorem Script.pause_le_waits (script : Script α) : script.pause ≤ script.waits := by
  obtain ⟨before, hscript, hwaits⟩ := script.exists_append_upcoming
  have hsum := congrArg Script.waits hscript
  rw [Script.waits_append, hwaits] at hsum
  omega

theorem Script.Hangs.mem (h : script.Hangs) : .hang ∈ script :=
  (List.dropWhile_sublist _).subset (List.mem_of_mem_head? h)

end

theorem Leftover.waits_add {script gone left : Script Arrival} (h : Leftover script gone left) :
    Script.waits gone + Script.waits left = script.waits := by
  cases h with
  | whole => rw [Script.waits_append]
  | part => simp [Step.milliseconds]

theorem Leftover.hang_mem {script gone left : Script Arrival} (h : Leftover script gone left)
    (hl : .hang ∈ left) : .hang ∈ script := by
  cases h with
  | whole => exact List.mem_append_right _ hl
  | part => exact List.mem_append_right _ (List.mem_cons_of_mem _ (by simpa using hl))

theorem Brings.ne_stuck {size spent : Nat} {limit : Option Nat} {script rest : Script Arrival}
    {r : Reading} (h : Brings size limit script r rest spent) : r ≠ .stuck := by
  cases h with
  | ready =>
    unfold Reading.of
    split <;> simp
  | late => simp

theorem Takes.ne_stuck {spent : Nat} {bytes : List UInt8} {script rest : Script Acceptance}
    {w : Writing} (h : Takes bytes script w rest spent) : w ≠ .stuck := by
  cases h with
  | ready =>
    unfold Writing.of
    split <;> simp

/-- A read is stuck only if what it waits for is too late, and the limit too. -/
theorem Stream.late_of_read_stuck {size : Nat} {limit : Option Nat}
    (h : t.read size limit = (.stuck, u)) :
    (∀ l ∈ limit, t.left < l) ∧ (t.left < t.reads.pause ∨ t.reads.Hangs) := by
  rcases t.read_cases size limit with hstuck | ⟨r, rest, spent, hb, hs⟩
  · exact hstuck
  · rw [read_of_brings hb hs] at h
    exact absurd (Prod.mk.inj h).1 hb.ne_stuck

theorem Stream.late_of_write_stuck {bytes : List UInt8} (h : t.write bytes = (.stuck, u)) :
    t.left < t.writes.pause ∨ t.writes.Hangs := by
  by_cases hp : t.left < t.writes.pause ∨ t.writes.Hangs
  · exact hp
  · obtain ⟨hle, hh⟩ := not_or.mp hp
    have ht : Takes bytes t.writes _ _ _ := .ready hh
    rw [write_of_takes ht (Nat.le_of_not_lt hle)] at h
    exact absurd (Prod.mk.inj h).1 ht.ne_stuck

/-- With scripts that leave it time enough, no call of a session is stuck. -/
theorem Calls.step_ne_stuck (h : Calls c {} start trace s t) (hstart : start.left = patience)
    (ha : Ample c start.reads start.writes) : step c s t ≠ .stuck u := by
  intro hu
  obtain ⟨reads, writes, huses, hlimit⟩ := h.uses
  have htime := huses.time
  have hin := huses.input.waits_add
  have hout : Script.waits writes + t.writes.waits = start.writes.waits := by
    rw [huses.output, Script.waits_append]
  have hcount : readCount trace ≤ start.reads.data.length := Nat.le_of_add_right_le h.readCount_le
  have hbefore : ∀ l ∈ c.limit, Script.waits reads + l ≤ (start.reads.data.length + 1) * l := by
    intro l hl
    calc Script.waits reads + l
      _ ≤ l * readCount trace + l := Nat.add_le_add_right (hlimit l hl) l
      _ = l * (readCount trace + 1) := (Nat.mul_succ _ _).symm
      _ ≤ l * (start.reads.data.length + 1) := Nat.mul_le_mul_left l (Nat.succ_le_succ hcount)
      _ = (start.reads.data.length + 1) * l := Nat.mul_comm _ _
  have hhang : .hang ∉ t.writes := fun hm => ha.1 (huses.output ▸ List.mem_append_right _ hm)
  rcases step_stuck_iff.mp hu with ⟨-, hr⟩ | ⟨rest, last, -, hw⟩
  · obtain ⟨hlate, hslow⟩ := Stream.late_of_read_stuck hr
    rcases ha.2 with ⟨hh, hsum⟩ | ⟨l, hl, hsum⟩
    · rcases hslow with hp | hh'
      · have hpause := t.reads.pause_le_waits
        omega
      · exact hh (huses.input.hang_mem hh'.mem)
    · have hnow := hlate l hl
      have hspent := hbefore l hl
      omega
  · rcases Stream.late_of_write_stuck hw with hp | hh
    · have hpause := t.writes.pause_le_waits
      rcases ha.2 with ⟨-, hsum⟩ | ⟨l, hl, hsum⟩
      · omega
      · have hspent := hbefore l hl
        omega
    · exact hhang hh.mem

theorem handle_ended (hstart : start.left = patience) (ha : Ample c start.reads start.writes) :
    ∃ o, (handle c start).result = .ended o := by
  obtain ⟨trace, s, t, hcs, ⟨entries, o, u, -, hr⟩ | ⟨u, hu, -⟩⟩ := run_cases c {} start
  · exact ⟨o, by rw [handle, hr]⟩
  · exact absurd hu (hcs.step_ne_stuck hstart ha)

/-- **Sessions end.** If the waits leave it time enough, a session comes to its end with at most
one read for each byte there is and one more, and with at most one write for each byte of an
acknowledgment, where those that were interrupted do not count. -/
theorem handle_comes_to_end {c : Config} {reads : Script Arrival} {writes : Script Acceptance}
    (h : Ample c reads writes) :
    ComesToEnd (·.kind = .interrupted) c { reads, writes } where
  ended := handle_ended rfl h
  reads := handle_readCalls_le c _
  lastRead _ _ _ ht he hn := readCalls_of_received_eq_nil ht he hn
  writes _ _ _ ht hb := writeCount_between_le ht hb

/-- Two bytes at once, of which the second is acknowledged after an interruption, and then nothing
ever comes. -/
def silentStream : Stream where
  reads := [.wait 3, .now (.data [97, 98]), .hang]
  writes := [.now (.take 1), .now (.take 1), .wait 7, .now (.take 1),
    .now (.failure (.ofKind .interrupted))]

theorem handle_comes_to_end_silent :
    Ample ⟨.byte, [79, 107], some (.ofMilliseconds 5)⟩ silentStream.reads silentStream.writes ∧
    ComesToEnd (·.kind = .interrupted) ⟨.byte, [79, 107], some (.ofMilliseconds 5)⟩ silentStream ∧
    (handle ⟨.byte, [79, 107], some (.ofMilliseconds 5)⟩ silentStream).readCalls = 3 ∧
    writeCount (handle ⟨.byte, [79, 107], some (.ofMilliseconds 5)⟩ silentStream).trace = 5 := by
  have hample : Ample ⟨.byte, [79, 107], some (.ofMilliseconds 5)⟩ silentStream.reads
      silentStream.writes := by
    refine ⟨by decide, .inr ⟨5, rfl, ?_⟩⟩
    decide
  exact ⟨hample, handle_comes_to_end hample, by cbv, by cbv⟩

/-- One byte, and an acknowledgment of one byte, the write of which is interrupted. -/
def resumedStream : Stream where
  reads := [.now (.data [97])]
  writes := [.now (.failure (.ofKind .interrupted))]

/-- An acknowledgment can take more writes than it has bytes. -/
theorem not_comes_to_end_uninterrupted :
    Ample ⟨.chunk, [111], none⟩ resumedStream.reads resumedStream.writes ∧
      ¬ ComesToEnd (fun _ => false) ⟨.chunk, [111], none⟩ resumedStream := by
  have htrace : (handle ⟨.chunk, [111], none⟩ resumedStream).trace =
      [.read 1024 [97]] ++ [.log (.chunk [97]), .writeFailed 1, .write 1 [111]] ++
        [.read 1024 [], .log .closedByPeer] := by cbv
  refine ⟨⟨by decide, .inl (by decide)⟩, fun h => ?_⟩
  have hle := h.writes _ _ _ htrace (by simp [Entry.isRead])
  revert hle
  decide

end SerialAck.Session

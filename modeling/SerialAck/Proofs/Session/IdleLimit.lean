/-
What the idle limit does. Each read of a session has the whole limit for itself: what comes within
it is read just when it comes, and what does not ends the session when the limit is over. Writes
take the time they take.
-/
import SerialAck.Proofs.Session.Usage

namespace SerialAck

theorem Duration.milliseconds_ofMilliseconds (l : Nat) :
    (ofMilliseconds l).milliseconds = l := by
  simp only [milliseconds, ofMilliseconds, millisecond]
  omega

namespace Session

namespace Entry

/-- What a read shows of the event that it meets, or of the end of the script. -/
def ofArrival (size : Nat) : Option Arrival → Entry
  | some (.data bytes) => .read size (bytes.take size)
  | some (.failure _) => .readFailed size
  | some .eof | none => .read size []

/-- The same of a write that offers `bytes`. -/
def ofAcceptance (bytes : List UInt8) : Option Acceptance → Entry
  | some (.take n) => .write bytes.length (bytes.take n)
  | some (.failure _) => .writeFailed bytes.length
  | none => .write bytes.length bytes

end Entry

/-- So many reads have begun. One that was cut short has left no entry. -/
def Run.readCalls (r : Run) : Nat :=
  match r.result with
  | .ended (.failed (.idle _)) => readCount r.trace + 1
  | _ => readCount r.trace

/-- What a limit of `l` milliseconds means for a session. -/
structure HoldsLimit (c : Config) (l : Nat) (stream : Stream) : Prop where
  /-- Wherever the session reads, it waits for what comes within the limit. -/
  inTime : ∀ trace s t, Calls c {} stream trace s t →
    s.Reads → t.reads.pause ≤ l → ¬ t.reads.Hangs →
      trace ++ [.ofArrival (s.readSize c.mode) t.reads.events.head?] <+: (handle c stream).trace ∧
        (step c s t).stream.elapsed = t.elapsed + t.reads.pause
  /-- It gives up what does not come when the limit is over. -/
  late : ∀ trace s t, Calls c {} stream trace s t →
    s.Reads → (l < t.reads.pause ∨ t.reads.Hangs) →
      ∃ u, handle c stream = ⟨trace, .ended (.failed (.idle (.ofMilliseconds l))), u⟩ ∧
        u.elapsed = t.elapsed + l
  /-- Wherever it writes, it waits as long as it takes, and the next read has no less time. -/
  patient : ∀ trace s t rest last, Calls c {} stream trace s t → s.phase = .replying rest last →
    trace ++ [.ofAcceptance rest t.writes.events.head?] <+: (handle c stream).trace ∧
      (step c s t).stream.elapsed = t.elapsed + t.writes.pause ∧
      (step c s t).stream.reads = t.reads
  bounded : (handle c stream).stream.elapsed ≤ l * (handle c stream).readCalls +
    (stream.writes.used (handle c stream).stream.writes).waits
  elapsed : (∀ d, (handle c stream).result ≠ .ended (.failed (.idle d))) →
    (handle c stream).stream.elapsed =
      (stream.reads.used (handle c stream).stream.reads).waits +
        (stream.writes.used (handle c stream).stream.writes).waits

variable {c : Config} {s s' : State} {start t u : Stream} {trace : List Entry} {spent : Nat}

/-! ## One call -/

theorem listen_of_reading {a : Option Arrival}
    (hr : t.read (s.readSize c.mode) c.limit = (.of (s.readSize c.mode) a, u)) :
    [.ofArrival (s.readSize c.mode) a] <+: (listen c s t).entries ∧
      (listen c s t).stream = u := by
  unfold listen
  rw [hr]
  cases a with
  | none => simp [Reading.of, Entry.ofArrival]
  | some a =>
    cases a with
    | data bytes => simp [Reading.of, Entry.ofArrival]
    | failure f => exact ⟨List.prefix_rfl, rfl⟩
    | eof => simp [Reading.of, Entry.ofArrival]

theorem speak_of_writing {rest : List UInt8} {a : Option Acceptance} (s : State) (last : Bool)
    (hw : t.write rest = (.of rest a, u)) :
    (speak s rest last t).entries = [.ofAcceptance rest a] ∧ (speak s rest last t).stream = u := by
  unfold speak
  rw [hw]
  cases a with
  | none => simp [Writing.of, Entry.ofAcceptance]
  | some a =>
    cases a with
    | take n => simp [Writing.of, Entry.ofAcceptance]
    | failure f =>
      by_cases hk : f.kind = .interrupted <;>
        simp [Writing.of, Entry.ofAcceptance, Progress.entries, Progress.stream, hk]

/-- A session that does not get stuck reads what the script brings. -/
theorem Calls.brings (h : Calls c {} start trace s t) (hr : (handle c start).result ≠ .stuck)
    (hp : s.Reads) :
    ∃ r u spent, t.read (s.readSize c.mode) c.limit = (r, u) ∧
      Brings (s.readSize c.mode) c.limit t.reads r u.reads spent ∧ spent ≤ t.left ∧
      u.left = t.left - spent := by
  obtain ⟨r, u, hread⟩ : ∃ r u, t.read (s.readSize c.mode) c.limit = (r, u) := ⟨_, _, rfl⟩
  have hs : r ≠ .stuck := by
    rintro rfl
    have hstep : step c s t = .stuck u := by rw [step_of_reads hp, listen, hread]
    rw [handle, h.run_eq] at hr
    exact step_ne_stuck hr u hstep
  obtain ⟨spent, hb, hle, -, hleft⟩ := Stream.brings_of_read hread hs
  exact ⟨r, u, spent, hread, hb, hle, hleft⟩

/-- It writes what the peer takes. -/
theorem Calls.takes {rest : List UInt8} {last : Bool} (h : Calls c {} start trace s t)
    (hr : (handle c start).result ≠ .stuck) (hp : s.phase = .replying rest last) :
    ∃ w u spent, t.write rest = (w, u) ∧ Takes rest t.writes w u.writes spent ∧
      spent ≤ t.left ∧ u.reads = t.reads ∧ u.left = t.left - spent := by
  obtain ⟨w, u, hwrite⟩ : ∃ w u, t.write rest = (w, u) := ⟨_, _, rfl⟩
  have hs : w ≠ .stuck := by
    rintro rfl
    have hstep : step c s t = .stuck u := by rw [step_of_replying hp, speak, hwrite]
    rw [handle, h.run_eq] at hr
    exact step_ne_stuck hr u hstep
  obtain ⟨spent, ht, hle, hreads, hleft⟩ := Stream.takes_of_write hwrite hs
  exact ⟨w, u, spent, hwrite, ht, hle, hreads, hleft⟩

theorem Calls.trace_prefix (h : Calls c {} start trace s t) {entries : List Entry}
    (he : entries <+: (step c s t).entries) : trace ++ entries <+: (handle c start).trace := by
  rw [handle, h.run_eq]
  exact (List.prefix_append_right_inj trace).mpr (he.trans (entries_prefix_trace c s t))

/-! ## The clock -/

theorem Stream.elapsed_eq (ht : t.left ≤ patience) (hs : spent ≤ t.left)
    (hu : u.left = t.left - spent) : u.elapsed = t.elapsed + spent := by
  simp only [elapsed, hu]
  omega

theorem Calls.left_le (h : Calls c s start trace s' t) : t.left ≤ start.left := by
  obtain ⟨reads, writes, hu, -⟩ := h.uses
  exact hu.left_le

variable {l : Nat}

theorem Calls.inTime (h : Calls c {} start trace s t) (hstart : start.left = patience)
    (hr : (handle c start).result ≠ .stuck) (hl : c.limit = some l)
    (hp : s.Reads) (hw : t.reads.pause ≤ l)
    (hh : ¬ t.reads.Hangs) :
    trace ++ [.ofArrival (s.readSize c.mode) t.reads.events.head?] <+: (handle c start).trace ∧
      (step c s t).stream.elapsed = t.elapsed + t.reads.pause := by
  obtain ⟨r, u, spent, hread, hb, hle, hleft⟩ := h.brings hr hp
  obtain ⟨rfl, -, rfl⟩ := hb.unique (.ready (by simpa [hl] using hw) hh)
  have hstep := listen_of_reading hread
  rw [← step_of_reads hp t] at hstep
  refine ⟨h.trace_prefix hstep.1, ?_⟩
  rw [hstep.2]
  exact Stream.elapsed_eq (hstart ▸ h.left_le) hle hleft

theorem Calls.late (h : Calls c {} start trace s t) (hstart : start.left = patience)
    (hr : (handle c start).result ≠ .stuck) (hl : c.limit = some l)
    (hp : s.Reads) (hw : l < t.reads.pause ∨ t.reads.Hangs) :
    ∃ u, handle c start = ⟨trace, .ended (.failed (.idle (c.idle.getD ⟨0⟩))), u⟩ ∧
      u.elapsed = t.elapsed + l := by
  obtain ⟨r, u, spent, hread, hb, hle, hleft⟩ := h.brings hr hp
  obtain ⟨rest, hn⟩ := Script.next_of_late hw
  obtain ⟨rfl, -, rfl⟩ := hb.unique (.late hl hw hn)
  refine ⟨u, ?_, Stream.elapsed_eq (hstart ▸ h.left_le) hle hleft⟩
  rw [handle, h.run_eq, run_of_lastCall (.timedOut hp hread), Run.prepend, List.append_nil]

theorem Calls.patient {rest : List UInt8} {last : Bool} (h : Calls c {} start trace s t)
    (hstart : start.left = patience) (hr : (handle c start).result ≠ .stuck)
    (hp : s.phase = .replying rest last) :
    trace ++ [.ofAcceptance rest t.writes.events.head?] <+: (handle c start).trace ∧
      (step c s t).stream.elapsed = t.elapsed + t.writes.pause ∧
      (step c s t).stream.reads = t.reads := by
  obtain ⟨w, u, spent, hwrite, ht, hle, hreads, hleft⟩ := h.takes hr hp
  obtain ⟨rfl, -, rfl⟩ := ht.eq
  have hstep := speak_of_writing s last hwrite
  rw [← step_of_replying (c := c) hp t] at hstep
  refine ⟨h.trace_prefix (hstep.1 ▸ List.prefix_rfl), ?_, ?_⟩
  · rw [hstep.2]
    exact Stream.elapsed_eq (hstart ▸ h.left_le) hle hleft
  · rw [hstep.2, hreads]

/-! ## The whole run -/

theorem LastCall.of_idle {d : Duration} {entries : List Entry}
    (h : LastCall c s t entries (.failed (.idle d)) u) :
    entries = [] ∧ t.read (s.readSize c.mode) c.limit = (.timedOut, u) := by
  cases h with
  | timedOut hp hr => exact ⟨rfl, hr⟩

theorem handle_of_idle {d : Duration} (h : (handle c start).result = .ended (.failed (.idle d))) :
    ∃ trace s t u, Calls c {} start trace s t ∧
      t.read (s.readSize c.mode) c.limit = (.timedOut, u) ∧
      handle c start = ⟨trace, .ended (.failed (.idle d)), u⟩ := by
  obtain ⟨trace, s, t, hcs, ⟨entries, o, u, hl, hr⟩ | ⟨u, -, hr⟩⟩ := run_cases c {} start
  · rw [handle, hr] at h ⊢
    obtain rfl := Result.ended.inj h
    obtain ⟨rfl, hread⟩ := hl.of_idle
    exact ⟨trace, s, t, u, hcs, hread, by rw [List.append_nil]⟩
  · simp [handle, hr] at h

theorem handle_bounded (hstart : start.left = patience) (hr : (handle c start).result ≠ .stuck)
    (hl : c.limit = some l) :
    (handle c start).stream.elapsed ≤ l * (handle c start).readCalls +
      (start.writes.used (handle c start).stream.writes).waits := by
  cases he : (handle c start).result with
  | stuck => exact absurd he hr
  | ended o =>
    by_cases ho : ∃ d, o = .failed (.idle d)
    · obtain ⟨d, rfl⟩ := ho
      obtain ⟨trace, s, t, u, hcs, hread, hh⟩ := handle_of_idle he
      obtain ⟨reads, writes, hu, hle⟩ := hcs.uses
      obtain ⟨spent, hb, hs, hwrites, hleft⟩ := Stream.brings_of_read hread (by simp)
      have hused : start.writes.used u.writes = writes := hwrites ▸ hu.writes_used
      have hbefore := hle l hl
      have hnow := hb.within l hl
      calc (handle c start).stream.elapsed
        _ = u.elapsed := by rw [hh]
        _ = t.elapsed + spent := Stream.elapsed_eq (hstart ▸ hu.left_le) hs hleft
        _ = Script.waits reads + Script.waits writes + spent := by rw [hu.elapsed_eq hstart]
        _ ≤ l * (readCount trace + 1) + Script.waits writes := by rw [Nat.mul_succ]; omega
        _ = _ := by rw [hh, hused, Run.readCalls]
    · obtain ⟨reads, writes, hu, hle⟩ := handle_uses he (by simpa using ho)
      have hcalls : (handle c start).readCalls = readCount (handle c start).trace := by
        unfold Run.readCalls
        split
        · rename_i d hd
          exact absurd ⟨d, Result.ended.inj (he.symm.trans hd)⟩ ho
        · rfl
      rw [hu.elapsed_eq hstart, hu.writes_used, hcalls]
      exact Nat.add_le_add_right (hle l hl) _

theorem handle_elapsed (hstart : start.left = patience) (hr : (handle c start).result ≠ .stuck)
    (hi : ∀ d, (handle c start).result ≠ .ended (.failed (.idle d))) :
    (handle c start).stream.elapsed =
      (start.reads.used (handle c start).stream.reads).waits +
        (start.writes.used (handle c start).stream.writes).waits := by
  cases he : (handle c start).result with
  | stuck => exact absurd he hr
  | ended o =>
    obtain ⟨reads, writes, hu, -⟩ := handle_uses he fun d ho => hi d (ho ▸ he)
    rw [hu.elapsed_eq hstart, hu.reads_used, hu.writes_used]

/-- **The idle limit is exact.** It bounds each read for itself and nothing else. -/
theorem handle_holds_limit {mode : ReadMode} {ack : List UInt8} {l : Nat}
    {reads : Script Arrival} {writes : Script Acceptance}
    (h : (handle ⟨mode, ack, some (.ofMilliseconds l)⟩ { reads, writes }).result ≠ .stuck) :
    HoldsLimit ⟨mode, ack, some (.ofMilliseconds l)⟩ l { reads, writes } := by
  have hl : Config.limit ⟨mode, ack, some (.ofMilliseconds l)⟩ = some l :=
    congrArg some (Duration.milliseconds_ofMilliseconds l)
  constructor
  · intro trace s t hcs hp hw hh
    exact hcs.inTime rfl h hl hp hw hh
  · intro trace s t hcs hp hw
    exact hcs.late rfl h hl hp hw
  · intro trace s t rest last hcs hp
    exact hcs.patient rfl h hp
  · exact handle_bounded rfl h hl
  · exact handle_elapsed rfl h

/-- The terminator comes in the last moment, and is acknowledged at length; then nothing comes. -/
def tardyStream : Stream where
  reads := [.wait 2, .wait 3, .now (.data [36]), .wait 6, .now .eof]
  writes := [.wait 100, .now (.take 1)]

theorem handle_holds_limit_tardy :
    (handle ⟨.byte, [79, 107], some (.ofMilliseconds 5)⟩ tardyStream).result ≠ .stuck ∧
    HoldsLimit ⟨.byte, [79, 107], some (.ofMilliseconds 5)⟩ 5 tardyStream ∧
    (handle ⟨.byte, [79, 107], some (.ofMilliseconds 5)⟩ tardyStream).result =
      .ended (.failed (.idle (.ofMilliseconds 5))) ∧
    (handle ⟨.byte, [79, 107], some (.ofMilliseconds 5)⟩ tardyStream).stream.elapsed = 110 := by
  have hresult : (handle ⟨.byte, [79, 107], some (.ofMilliseconds 5)⟩ tardyStream).result =
      .ended (.failed (.idle (.ofMilliseconds 5))) := by cbv
  have hstuck : (handle ⟨.byte, [79, 107], some (.ofMilliseconds 5)⟩ tardyStream).result ≠
      .stuck := by
    rw [hresult]
    simp
  exact ⟨hstuck, handle_holds_limit hstuck, hresult, by cbv⟩

end Session

end SerialAck

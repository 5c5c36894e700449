/-
Two sessions on the same stream, where one may wait longer. As long as no read is cut short they
make the same calls (`step_of_tighter`), so a longer limit tells nothing new where the shorter one
has not run out, and where it has, the longer one only adds to what there was.
-/
import SerialAck.Proofs.Session.Calls
import SerialAck.Proofs.Session.Pause
import SerialAck.Proofs.Session.Trace

namespace SerialAck.Session

/-- `idle` lets nobody wait longer than `idle'`, where no limit is longer than any. -/
def Tighter (idle idle' : Option Duration) : Prop :=
  ∀ d' ∈ idle', ∃ d ∈ idle, d.nanoseconds ≤ d'.nanoseconds

variable {c : Config} {s : State} {t u : Stream} {idle' : Option Duration}

theorem Tighter.limit (h : Tighter c.idle idle') :
    ∀ l' ∈ Config.limit { c with idle := idle' }, ∃ l ∈ c.limit, l ≤ l' := by
  intro l' hl'
  obtain ⟨d', hd', rfl⟩ := Option.map_eq_some_iff.mp hl'
  obtain ⟨d, hd, hle⟩ := h d' hd'
  have hle : d.milliseconds ≤ d'.milliseconds :=
    Nat.div_le_div_right (Nat.add_le_add_right hle _)
  exact ⟨d.milliseconds, Option.map_eq_some_iff.mpr ⟨d, hd, rfl⟩, hle⟩

/-- What comes within a limit comes within a longer one, and who waits in vain for as long as he is
watched does so under both. -/
theorem Stream.read_of_longer {size : Nat} {limit limit' : Option Nat} {r : Reading}
    (hl : ∀ l' ∈ limit', ∃ l ∈ limit, l ≤ l') (hr : t.read size limit = (r, u))
    (ht : r ≠ .timedOut) : t.read size limit' = (r, u) := by
  rcases t.read_cases size limit with ⟨hlate, hw⟩ | ⟨r', rest, spent, hb, hs⟩
  · have hlate' : ∀ l' ∈ limit', t.left < l' := by
      intro l' hl'
      obtain ⟨l, hmem, hle⟩ := hl l' hl'
      exact Nat.lt_of_lt_of_le (hlate l hmem) hle
    obtain ⟨rest, hn, hstuck⟩ := t.read_of_stuck size hlate hw
    obtain ⟨rest', hn', hstuck'⟩ := t.read_of_stuck size hlate' hw
    obtain rfl := Next.late.inj (hn.symm.trans hn')
    rw [hstuck', ← hstuck, hr]
  · rw [read_of_brings hb hs] at hr
    obtain ⟨rfl, rfl⟩ := Prod.mk.inj hr
    exact read_of_brings (hb.widen ht hl) hs

theorem step_of_tighter (h : Tighter c.idle idle') (s : State) (t : Stream) :
    step { c with idle := idle' } s t = step c s t ∨
      ∃ d u, step c s t = .ends [] (.failed (.idle d)) u := by
  rcases s.replying_or_reads with ⟨rest, last, hp⟩ | hp
  · exact .inl (by rw [step_of_replying hp, step_of_replying hp])
  · rw [step_of_reads hp, step_of_reads hp]
    obtain ⟨r, u, hr⟩ : ∃ r u, t.read (s.readSize c.mode) c.limit = (r, u) := ⟨_, _, rfl⟩
    by_cases ht : r = .timedOut
    · subst ht
      exact .inr ⟨_, u, by rw [listen, hr]⟩
    · have hr' := Stream.read_of_longer h.limit hr ht
      left
      rw [listen, listen, hr, hr']
      cases r with
      | timedOut => exact absurd rfl ht
      | _ => rfl

theorem run_of_tighter (h : Tighter c.idle idle') (s : State) (t : Stream) :
    run { c with idle := idle' } s t = run c s t ∨
      (∃ d, (run c s t).result = .ended (.failed (.idle d))) ∧
        (run c s t).trace <+: (run { c with idle := idle' } s t).trace := by
  fun_induction run c s t with
  | case1 s t entries s' t' hs ih =>
    rcases step_of_tighter h s t with hstep | ⟨d, u, hu⟩
    · have hrun := run_of_call (step_goes_iff.mp (hstep.trans hs))
      rw [hrun]
      rcases ih with ih | ⟨⟨d, hd⟩, hp⟩
      · exact .inl (by rw [ih])
      · exact .inr ⟨⟨d, hd⟩, (List.prefix_append_right_inj entries).mpr hp⟩
    · simp [hs] at hu
  | case2 s t entries o t' hs =>
    rcases step_of_tighter h s t with hstep | ⟨d, u, hu⟩
    · exact .inl (run_of_lastCall (step_ends_iff.mp (hstep.trans hs)))
    · rw [hs] at hu
      obtain ⟨rfl, rfl, rfl⟩ := Progress.ends.inj hu
      exact .inr ⟨⟨d, rfl⟩, List.nil_prefix⟩
  | case3 s t t' hs =>
    rcases step_of_tighter h s t with hstep | ⟨d, u, hu⟩
    · exact .inl (run_of_stuck (hstep.trans hs))
    · simp [hs] at hu

/-- **More time never hurts.** With a longer limit a session is the same if it does not time out,
and else it goes on from there. -/
theorem handle_of_tighter (h : Tighter c.idle idle') (stream : Stream) :
    ((∀ d, (handle c stream).result ≠ .ended (.failed (.idle d))) →
      handle { c with idle := idle' } stream = handle c stream) ∧
    (handle c stream).trace <+: (handle { c with idle := idle' } stream).trace ∧
    written (handle c stream).trace <+:
      written (handle { c with idle := idle' } stream).trace := by
  rcases run_of_tighter h {} stream with hrun | ⟨⟨d, hd⟩, hp⟩
  · have heq : handle { c with idle := idle' } stream = handle c stream := hrun
    rw [heq]
    exact ⟨fun _ => rfl, List.prefix_rfl, List.prefix_rfl⟩
  · refine ⟨fun hi => absurd hd (hi d), hp, ?_⟩
    obtain ⟨more, hmore⟩ := hp
    rw [handle, handle, ← hmore, written_append]
    exact List.prefix_append _ _

/-- Two chunks, `gap` milliseconds apart. -/
def gapStream (gap : Nat) : Stream where
  reads := [.now (.data [97]), .wait gap, .now (.data [98])]

theorem handle_of_tighter_gap :
    Tighter (some (.ofMilliseconds 5)) (some (.ofMilliseconds 6)) ∧
    (handle ⟨.chunk, [79], some (.ofMilliseconds 5)⟩ (gapStream 5)).result =
      .ended (.finished ⟨.peerClosed, 2, 2⟩) ∧
    handle ⟨.chunk, [79], some (.ofMilliseconds 6)⟩ (gapStream 5) =
      handle ⟨.chunk, [79], some (.ofMilliseconds 5)⟩ (gapStream 5) ∧
    (handle ⟨.chunk, [79], some (.ofMilliseconds 5)⟩ (gapStream 6)).result =
      .ended (.failed (.idle (.ofMilliseconds 5))) ∧
    (handle ⟨.chunk, [79], some (.ofMilliseconds 5)⟩ (gapStream 6)).trace <+:
      (handle ⟨.chunk, [79], some (.ofMilliseconds 6)⟩ (gapStream 6)).trace ∧
    (handle ⟨.chunk, [79], some (.ofMilliseconds 6)⟩ (gapStream 6)).result =
      .ended (.finished ⟨.peerClosed, 2, 2⟩) := by
  have htight : Tighter (some (.ofMilliseconds 5)) (some (.ofMilliseconds 6)) := by
    simp [Tighter, Duration.ofMilliseconds, Duration.millisecond]
  have hprompt : (handle ⟨.chunk, [79], some (.ofMilliseconds 5)⟩ (gapStream 5)).result =
      .ended (.finished ⟨.peerClosed, 2, 2⟩) := by cbv
  have hsame := (handle_of_tighter (c := ⟨.chunk, [79], some (.ofMilliseconds 5)⟩) htight
    (gapStream 5)).1 (by simp [hprompt])
  have hmore := (handle_of_tighter (c := ⟨.chunk, [79], some (.ofMilliseconds 5)⟩) htight
    (gapStream 6)).2.1
  exact ⟨htight, hprompt, hsame, by cbv, hmore, by cbv⟩

end SerialAck.Session

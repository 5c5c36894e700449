/-
How a session that gives up tells its limit. A limit of whole seconds is told by a whole number: itself
as long as 53 bits hold it, and else one that rounds to the same number (`Duration.text_ofSeconds`).
-/
import SerialAck.Proofs.Number.Decimal
import SerialAck.Proofs.Session.Faults
import SerialAck.Settings.Load

namespace SerialAck

/-- Both round to the same number of 53 bits. -/
def Binary64.RoundAlike (n v : Nat) : Prop :=
  ∃ m, ∀ k, (Rounds n k ↔ k = m) ∧ (Rounds v k ↔ k = m)

theorem Binary64.RoundAlike.of_nearest {n v : Nat} (h : nearest v = nearest n) :
    RoundAlike n v := by
  obtain ⟨m, hm⟩ : ∃ m : Nat, nearest n = m := ⟨_, nearest_natCast n⟩
  refine ⟨m, fun k => ?_⟩
  rw [← nearest_eq_iff, ← nearest_eq_iff, h, hm, Nat.cast_inj]
  exact ⟨eq_comm, eq_comm⟩

namespace Duration

variable {n m : Nat}

theorem seconds_ofSeconds (n : Nat) : (ofSeconds n).seconds = Binary64.nearest n := by
  have hwhole : (ofSeconds n).wholeSeconds = n := Nat.mul_div_cancel n (by decide)
  have hpart : (ofSeconds n).subsecond = 0 := Nat.mul_mod_left n second
  obtain ⟨k, hk⟩ : ∃ k : Nat, Binary64.nearest n = k := ⟨_, Binary64.nearest_natCast n⟩
  have hzero : Binary64.nearest (mkRat (0 : Nat) second) = 0 := rfl
  rw [seconds, hwhole, hpart, hzero, add_zero, hk]
  exact Binary64.nearest_of_fits (Binary64.nearest_eq_iff.mp hk).fits

theorem text_ofSeconds (n : Nat) : ∃ v : Nat, (ofSeconds n).text = Numeral.text v ∧
    Binary64.RoundAlike n v ∧ (n ≤ 2 ^ 53 → v = n) := by
  obtain ⟨v, ht, hv, hself⟩ := Decimal.text_nearest n
  exact ⟨v, by rw [text, seconds_ofSeconds, ht], .of_nearest hv, hself⟩

theorem text_ofSeconds_of_le (h : n ≤ 2 ^ 53) : (ofSeconds n).text = Numeral.text n := by
  obtain ⟨v, ht, -, hself⟩ := text_ofSeconds n
  rw [ht, hself h]

end Duration

namespace Session

/-- What a message says of a limit of `n` seconds. -/
structure TellsLimit (n : UInt64) (message : String) : Prop where
  exact : n.toNat ≤ 2 ^ 53 → message = "no data received for " ++ toString n.toNat ++ "s"
  /-- No other limit has that message. -/
  apart : n.toNat ≤ 2 ^ 53 → ∀ m : UInt64, m.toNat ≤ 2 ^ 53 → m ≠ n →
    (Error.idle (.ofSeconds m.toNat)).message ≠ message
  /-- Greater numbers are told by digits that round alike. -/
  rounded : ∃ ds v, message = "no data received for " ++ .ofList ds ++ "s" ∧
    Numeral.Denotes ds v ∧ (ds.head? = some '0' → ds = ['0']) ∧ Binary64.RoundAlike n.toNat v

variable {c : Config} {start : Stream} {d : Duration} {n : UInt64}

theorem idle_of_handle (h : (handle c start).result = .ended (.failed (.idle d))) :
    c.idle = some d := by
  obtain ⟨trace, s, t, -, ⟨entries, o, u, hl, hr⟩ | ⟨u, -, hr⟩⟩ := run_cases c {} start
  · rw [handle, hr] at h
    obtain rfl := Result.ended.inj h
    cases hl with
    | timedOut hp hread =>
      obtain ⟨d, hd⟩ := idle_of_timedOut hread
      rw [hd]
      rfl
  · rw [handle, hr] at h
    cases h

theorem message_idle (d : Duration) :
    (Error.idle d).message = "no data received for " ++ d.text ++ "s" := rfl

theorem message_idle_inj {d e : Duration} :
    (Error.idle d).message = (Error.idle e).message ↔ d.text = e.text := by
  rw [message_idle, message_idle, String.append_left_inj, String.append_right_inj]

theorem tellsLimit (n : UInt64) : TellsLimit n (Error.idle (.ofSeconds n.toNat)).message where
  exact hn := by
    rw [message_idle, Duration.text_ofSeconds_of_le hn, Numeral.text_eq_toString]
  apart hn m hm hne he := by
    rw [message_idle_inj, Duration.text_ofSeconds_of_le hn, Duration.text_ofSeconds_of_le hm,
      Numeral.text_inj] at he
    exact hne (UInt64.toNat_inj.mp he)
  rounded := by
    obtain ⟨v, ht, hv, -⟩ := Duration.text_ofSeconds n.toNat
    refine ⟨Numeral.digits v, v, ?_, Numeral.denotes_digits v, ?_, hv⟩
    · rw [message_idle, ht, Numeral.text]
    · intro hhead
      by_cases h0 : v = 0
      · rw [h0, Numeral.digits, if_pos (by decide)]
        rfl
      · exact absurd hhead (Numeral.head?_digits (Nat.pos_of_ne_zero h0))

/-- **The message names the limit.** This goes for all whole seconds, and so for the seconds that
settings decide on. -/
theorem handle_tells_limit :
    (∀ c start d (n : UInt64), c.idle = some (.ofSeconds n.toNat) →
      (handle c start).result = .ended (.failed (.idle d)) →
        TellsLimit n (Error.idle d).message) ∧
    ∀ cs f start d,
      (handle (Settings.Config.merge cs f).session start).result = .ended (.failed (.idle d)) →
        TellsLimit (cs.idle.getD f.server.idle) (Error.idle d).message := by
  have told : ∀ c start d (n : UInt64), c.idle = some (.ofSeconds n.toNat) →
      (handle c start).result = .ended (.failed (.idle d)) →
        TellsLimit n (Error.idle d).message := by
    intro c start d n hc h
    obtain rfl : Duration.ofSeconds n.toNat = d :=
      Option.some.inj (hc.symm.trans (idle_of_handle h))
    exact tellsLimit n
  refine ⟨told, fun cs f start d h => told _ start d _ ?_ h⟩
  have hd : Settings.Config.limit (cs.idle.getD f.server.idle) = some d := idle_of_handle h
  show Settings.Config.limit (cs.idle.getD f.server.idle) = _
  unfold Settings.Config.limit at hd ⊢
  split at hd
  · cases hd
  · rw [if_neg ‹_›]

/-- Nothing ever comes, and the observer waits longer than the longest limit. -/
def hangingStream : Stream where
  reads := [.hang]
  left := 1000 * UInt64.size

theorem handle_tells_limit_greatest :
    (handle (Settings.Config.merge { idle := some 18446744073709551615 } {}).session
      hangingStream).result = .ended (.failed (.idle (.ofSeconds 18446744073709551615))) ∧
    TellsLimit 18446744073709551615
      (Error.idle (.ofSeconds 18446744073709551615)).message ∧
    (Error.idle (.ofSeconds 18446744073709551615)).message =
      "no data received for 18446744073709552000s" := by
  have hresult : (handle (Settings.Config.merge { idle := some 18446744073709551615 } {}).session
      hangingStream).result = .ended (.failed (.idle (.ofSeconds 18446744073709551615))) := by cbv
  exact ⟨hresult, handle_tells_limit.2 _ _ _ _ hresult, by decide +kernel⟩

end Session

end SerialAck

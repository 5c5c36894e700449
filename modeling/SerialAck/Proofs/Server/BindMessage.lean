/-
What the message of a failed bind tells. Where its address ends can be seen from the message alone,
since a reader of addresses stops there (`read_append`); so the message stands for one address and
one text of a fault, whatever these are.
-/
import SerialAck.Proofs.Address.RoundTrip
import SerialAck.Server.Basic

namespace SerialAck.Server

/-- The message for an address and a fault stands for no others. -/
structure Identifies (a : Address) (f : Fault) : Prop where
  splits : (Error.bind a f).message = "Failed to bind " ++ a.toString ++ ": " ++ f.text
  readsBack : Address.parse? a.toString = some a
  /-- There is no other place to split at where an address would be in front. -/
  unique : ∀ address text b,
    (Error.bind a f).message = "Failed to bind " ++ address ++ ": " ++ text →
      Address.parse? address = some b → address = a.toString ∧ b = a ∧ text = f.text
  injective : ∀ b g, (Error.bind b g).message = (Error.bind a f).message → b = a ∧ g.text = f.text

variable {a : Address} {f : Fault}

theorem message_bind (a : Address) (f : Fault) :
    (Error.bind a f).message = "Failed to bind " ++ a.toString ++ ": " ++ f.text := rfl

/-- Two addresses with something behind them that begins with a colon. -/
theorem eq_of_split {b : Address} {cs r w : List Char} (h : a.text ++ ':' :: r = cs ++ ':' :: w)
    (hb : Address.read cs = some (b, [])) : cs = a.text ∧ b = a ∧ w = r := by
  have hread := Address.read_append (w := ':' :: r) (Address.closes_cons rfl (by decide))
    (Address.read_text a)
  rw [h, Address.read_append (Address.closes_cons rfl (by decide)) hb] at hread
  obtain ⟨rfl, hr⟩ := Prod.mk.inj (Option.some.inj hread)
  obtain rfl := (List.cons.inj hr).2
  exact ⟨(List.append_cancel_right h).symm, rfl, rfl⟩

theorem unique_split {b : Address} {address text : String}
    (h : (Error.bind a f).message = "Failed to bind " ++ address ++ ": " ++ text)
    (hb : Address.parse? address = some b) :
    address = a.toString ∧ b = a ∧ text = f.text := by
  have hchars : a.text ++ ':' :: ' ' :: f.text.toList = address.toList ++ ':' :: ' ' :: text.toList := by
    have hcolon : ": ".toList = [':', ' '] := rfl
    have hl := congrArg String.toList h
    simpa [message_bind, Address.toString, hcolon] using hl
  obtain ⟨haddress, rfl, htext⟩ := eq_of_split hchars (Address.parse?_eq_some.mp hb)
  refine ⟨?_, rfl, String.toList_inj.mp (List.cons.inj htext).2⟩
  rw [Address.toString, ← haddress, String.ofList_toList]

/-- **A failed bind tells its address.** The message can be taken apart in one way only, and no two
addresses or faults with different texts have the same one. -/
theorem bind_identifies (a : Address) (f : Fault) : Identifies a f where
  splits := message_bind a f
  readsBack := Address.parse?_toString a
  unique _ _ _ h hb := unique_split h hb
  injective b g h := by
    have hsplit := h.symm.trans (message_bind b g)
    obtain ⟨-, hb, hg⟩ := unique_split hsplit (Address.parse?_toString b)
    exact ⟨hb, hg⟩

end SerialAck.Server

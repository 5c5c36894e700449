/-
Getting hold of an address: what a host's name stands for, and whether one may listen there.
-/
import SerialAck.Address.Parser
import SerialAck.Server.Basic

namespace SerialAck.Server

/-- What there is to know of the network that a server is part of. -/
structure Network where
  /-- The addresses that names stand for, in order of preference. -/
  lookup : String → UInt16 → Except Fault (List Address)
  /-- Why nobody may listen on an address, if that is so. -/
  refuses : Address → Option Fault
  /-- The port for those that do not ask for one. -/
  freePort : UInt16
  /-- Why no connection can be made, if that is so. -/
  unreachable : Option Fault := none

namespace Network

/-- An address needs no look at the network, and a name that no system can be given gets none. -/
def resolve (net : Network) (host : String) (port : UInt16) : Except Fault (List Address) :=
  match Address.ofHost? host port with
  | some a => .ok [a]
  | none => if host.toList.contains '\x00' then .error .nulInName else net.lookup host port

/-- The address that a server listens on: the first that its host stands for. -/
def bind (net : Network) (host : String) (port : UInt16) : Except Error Address :=
  let target := host ++ ":" ++ Numeral.text port.toNat
  match net.resolve host port with
  | .error f => .error (.resolve target f)
  | .ok [] => .error (.noAddress target)
  | .ok (a :: _) =>
    match net.refuses a with
    | some f => .error (.bind a f)
    | none => .ok (if port = 0 then a.withPort net.freePort else a)

end Network

end SerialAck.Server

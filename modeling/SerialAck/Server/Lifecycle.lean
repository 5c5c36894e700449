/-
All that can happen to a server. Connections come, or fail to, in any order; at any moment it can
be asked to stop; and when several things are ready at once, either may be seen first.
-/
import SerialAck.Server.Machine

namespace SerialAck.Server

/-- What waiting for a connection can lead to. -/
inductive Arrival where
  | connection (peer : Peer) (stream : Session.Stream)
  | fault (fault : Fault)
  deriving Repr, DecidableEq

structure World where
  server : State := {}
  /-- What is still to arrive, in order. -/
  coming : List Arrival := []
  /-- The server has been asked to stop, whether it has seen that or not. -/
  asked : Bool := false
  deriving Repr, DecidableEq

/-- One turn of the world, with what the server does in it. -/
inductive Turn (config : Session.Config) : World → List Act → World → Prop where
  | ask {w : World} (h : w.asked = false) : Turn config w [] { w with asked := true }
  | look {w : World} (h : w.asked = false) (hp : w.server.phase ≠ .stopped) :
      Turn config w [.looks false] w
  | accept {w : World} {peer : Peer} {stream : Session.Stream} {rest : List Arrival}
      (hp : w.server.phase = .waiting) (hc : w.coming = .connection peer stream :: rest) :
      Turn config w (w.server.accept peer stream).1
        { w with server := (w.server.accept peer stream).2, coming := rest }
  | miss {w : World} {f : Fault} {rest : List Arrival}
      (hp : w.server.phase = .waiting) (hc : w.coming = .fault f :: rest) :
      Turn config w (w.server.miss f).1
        { w with server := (w.server.miss f).2, coming := rest }
  | advance {w : World} {acts : List Act} {s : State}
      (h : w.server.advance config = some (acts, s)) :
      Turn config w acts { w with server := s }
  | stop {w : World} (h : w.asked = true) (hp : w.server.phase ≠ .stopped) :
      Turn config w w.server.stop.1 { w with server := w.server.stop.2 }

/-- Everything a server has done since it began to wait for the arrivals `coming`. -/
inductive History (config : Session.Config) (coming : List Arrival) :
    List Act → World → Prop where
  | start : History config coming State.opening { coming }
  | turn {acts more : List Act} {w w' : World} (h : History config coming acts w)
      (ht : Turn config w more w') : History config coming (acts ++ more) w'

end SerialAck.Server

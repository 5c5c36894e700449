/-
Whole runs of the program among clients on its own machine: what it prints, what the clients see,
and how it ends.
-/
import SerialAck.Program
import SerialAck.Server.Loopback

namespace SerialAck.Program

open Server (Network)
open Server.Loopback (Action Answer)

structure Report where
  lines : List String := []
  answers : List Answer := []
  failure : Option Failure := none

def Report.exitCode (r : Report) : Nat :=
  (r.failure.map Failure.exitCode).getD 0

/-- A line without the carriage return that belongs to its end. -/
def withoutReturn (l : List Char) : List Char :=
  if l.getLast? = some '\r' then l.dropLast else l

/-- The lines of a text. Behind the last line end there is a line only if there is some text, and
that one has no end. -/
def linesOf (text : List Char) : List (List Char) :=
  let ls := text.splitOn '\n'
  ls.dropLast.map withoutReturn ++ ls.getLast?.toList.filter (· ≠ [])

def textLines (text : String) : List String :=
  (linesOf text.toList).map .ofList

/-- A record with line ends in its fields takes several lines. -/
def printed (filter : Log.Filter) (records : List Log.Record) : List String :=
  (lines filter records).flatMap fun l => textLines (l ++ "\n")

/-- Nothing is printed on a terminal. What clients do counts only if the program comes to serve
them. -/
def rehearse (net : Network) (actions : List Action) : Launch → Report
  | .answer text => { lines := textLines (Terminal.plain text) }
  | .fail failure => { failure := some failure }
  | .start config filter =>
    match begin net config with
    | (events, .error e) =>
      { lines := printed filter (events.map Event.record), failure := some (.server e) }
    | (events, .ok address) =>
      let (answers, acts) := Server.Loopback.play net config.session actions
      let served := acts.flatMap (Server.Act.events address.toString)
      let records := events.map Event.record ++ served.map Server.Event.record ++
        [Event.stopped.record]
      { lines := printed filter records, answers }

end SerialAck.Program

import Partitura.Score

/-!
# Timelines

Events in the order in which they were made, up to a limit. In the end they are sorted by
their start; events that start together keep their order.
-/

namespace Partitura

structure Timeline where
  /-- How many more events there is room for. -/
  room : Nat
  /-- The newest first. -/
  newest : List Event := []
  /-- Whether an event was refused. -/
  truncated : Bool := false
  deriving DecidableEq, Repr

namespace Timeline

/-- The events in the order in which they were made. -/
def events (t : Timeline) : List Event := t.newest.reverse

/-- Add an event if there is room, and say whether there was. -/
def add (e : Event) (t : Timeline) : Bool × Timeline :=
  match t.room with
  | 0 => (false, { t with truncated := true })
  | room + 1 => (true, { t with room, newest := e :: t.newest })

/-- The events by their start. -/
def sorted (t : Timeline) : List Event := t.events.mergeSort (fun d e => d.start ≤ e.start)

/-- The latest end; zero without events. -/
def ticks (t : Timeline) : Int :=
  match t.sorted with
  | [] => 0
  | e :: es => es.foldl (fun m d => max m d.stop) e.stop

end Timeline

end Partitura

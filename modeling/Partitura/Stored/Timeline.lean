import Partitura.Stored

/-!
# Timelines of stored events

Events in the order in which they came, up to a limit that may be any number. Sorting and the
latest end go by ticks as they are.
-/

namespace Partitura.Stored

open Number

structure Timeline where
  limit : Data
  events : List Event := []
  /-- Whether an event was refused. -/
  truncated : Bool := false

namespace Timeline

def isFull (t : Timeline) : Except Fault Bool := t.limit.atMost (.int t.events.length)

/-- Add an event if there is room, and say whether there was. -/
def add (e : Event) (t : Timeline) : Except Fault (Bool × Timeline) := do
  if ← t.isFull then return (false, { t with truncated := true })
  return (true, { t with events := t.events ++ [e] })

/-- The events by their start; those that start together keep their order. -/
def sorted (t : Timeline) : Except Fault (List Event) :=
  sortBy (fun d e => d.start.less e.start) t.events

/-- The latest end of some events; zero without any. -/
def ticks : List Event → Except Fault Data
  | [] => .ok (.int 0)
  | e :: es =>
    es.foldlM (fun latest d => do if ← latest.less d.stop then return d.stop else return latest)
      e.stop

end Timeline

end Partitura.Stored

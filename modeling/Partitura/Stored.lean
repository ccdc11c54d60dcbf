import Partitura.Data.Order
import Partitura.Data.Shown
import Partitura.Score

/-!
# Stored scores

What a score is when it was read from a file. Its header, instruments and groups are as checked
as those of a compiled one. Of its events the kinds, pitches and durations are; ticks,
velocities, names and measures are taken as they come, and whether they make sense shows only
where they are used.
-/

namespace Partitura

open Number

namespace Stored

structure Modifier where
  kind : ModifierKind
  name : Data
  args : List Data := []

structure Event where
  kind : EventKind
  pitches : List Partitura.Pitch
  /-- In quarters. -/
  duration : Rat
  start : Data
  stop : Data
  velocity : Data
  instrument : Data
  voice : Data
  modifiers : List Modifier := []
  /-- The measure it was written in; null if that is not known. -/
  measure : Data := .null

structure Score where
  header : Header := {}
  instruments : List Instrument := []
  groups : List Group := []
  timeline : List Event := []
  durationTicks : Data := .int 0
  ticksPerQuarter : Data := .int Partitura.ticksPerQuarter

namespace Modifier

/-- A modifier from its name and the texts of its arguments. A collection names nothing. -/
def create (name args : Data) : Except Fault Modifier := do
  let kind ← match name with
    | .scalar (.text s) => pure (ModifierKind.ofName s)
    | .scalar _ => pure .other
    | _ => throw .unsupported
  let args ← (← args.items).mapM fun
    | .scalar (.text s) => pure (Data.scalar (Partitura.Modifier.readArg s))
    | _ => throw .lacking
  return ⟨kind, name, args⟩

/-- A modifier that has a text for its name and scalars for its arguments. -/
def plain? (m : Modifier) : Option Partitura.Modifier := do
  let .scalar (.text name) := m.name | none
  return ⟨m.kind, name, ← m.args.mapM fun
    | .scalar s => some s
    | _ => none⟩

def number? (m : Modifier) : Option Data :=
  match m.args with
  | d :: _ =>
    match d.quantity with
    | .ok _ => some d
    | .error _ => none
  | [] => none

/-- The name, and the arguments if there are any. A name alone must be a text. -/
def text (m : Modifier) : Except Fault String := do
  match m.args, m.name with
  | [], .scalar (.text s) => return s
  | [], _ => throw .unsupported
  | args, name =>
    let shown ← name.shown
    return shown ++ "(" ++ ",".intercalate (← args.mapM Data.shown) ++ ")"

def alike (oneNan : Bool) (m n : Modifier) : Bool :=
  m.kind == n.kind && m.name.alike oneNan n.name && Data.alikeItems oneNan m.args n.args

end Modifier

namespace Event

def check (e : Event) : Except Fault Event := do
  if ← e.stop.less e.start then
    let stop ← e.stop.shown
    throw (.endsBeforeStart (← e.start.shown) stop)
  if e.duration < 0 then throw (.about .negativeLength (writeFraction e.duration))
  return e

def isGrace (e : Event) : Bool := e.modifiers.any (·.kind == .grace)

def hasModifier (name : Data) (e : Event) : Bool := e.modifiers.any (·.name.same name)

def alike (oneNan : Bool) (d e : Event) : Bool :=
  d.kind == e.kind && d.pitches == e.pitches && d.duration == e.duration
    && d.start.alike oneNan e.start && d.stop.alike oneNan e.stop
    && d.velocity.alike oneNan e.velocity && d.instrument.alike oneNan e.instrument
    && d.voice.alike oneNan e.voice && d.modifiers.length == e.modifiers.length
    && ((d.modifiers.zip e.modifiers).all fun (a, b) => a.alike oneNan b)
    && d.measure.alike oneNan e.measure

end Event

end Stored

/-! ## Compiled scores as stored ones -/

def Modifier.stored (m : Modifier) : Stored.Modifier := ⟨m.kind, .text m.name, m.args.map .scalar⟩

def Event.stored (e : Event) : Stored.Event where
  kind := e.kind
  pitches := e.pitches
  duration := e.duration
  start := .int e.start
  stop := .int e.stop
  velocity := .scalar e.velocity
  instrument := .text e.instrument
  voice := .text e.voice
  modifiers := e.modifiers.map Modifier.stored
  measure := (e.measure.map .int).getD .null

def Score.stored (s : Score) : Stored.Score where
  header := s.header
  instruments := s.instruments
  groups := s.groups
  timeline := s.timeline.map Event.stored
  durationTicks := .int s.durationTicks
  ticksPerQuarter := .int s.ticksPerQuarter

end Partitura

import Partitura.Json.Reader
import Partitura.Json.Writer
import Partitura.Stored.Read
import Partitura.Stored.Written

/-!
# Questions to a score

Playback asks for seconds, a renderer for the events of a measure. A score that makes no sense
answers with a fault.
-/

namespace Partitura.Stored.Score

open Number

def instrument? (s : Score) (id : Data) : Option Instrument :=
  s.instruments.find? fun i => (Data.text i.id).same id

def secondsPerTick (s : Score) : Except Fault Double := do
  let perQuarter ← s.ticksPerQuarter.quantity
  (Quantity.whole 60).div (← (Quantity.whole s.header.tempo).mul perQuarter)

def toSeconds (s : Score) (ticks : Data) : Except Fault Double := do
  let unit ← s.secondsPerTick
  return (← (← ticks.quantity).toDouble).mul unit

def durationSeconds (s : Score) : Except Fault Double := s.toSeconds s.durationTicks

def measureTicks (s : Score) : Except Fault Int := do
  Quantity.truncate (← (← s.ticksPerQuarter.quantity).scale s.header.signature.quarters)

def measureWindow (s : Score) (index : Data) : Except Fault (Data × Data) := do
  let ticks ← s.measureTicks
  let start ← (← (← index.quantity).sub (.whole 1)).mul (.whole ticks)
  let stop ← start.add (.whole ticks)
  return (.ofQuantity start, .ofQuantity stop)

/-- Whether data are what a filter asks for; null asks for nothing. -/
def passes (wanted d : Data) : Bool :=
  match wanted with
  | .scalar .null => true
  | wanted => d.same wanted

/-- Whether a value lies in a window, the end excluded. -/
def inWindow (start stop d : Data) : Except Fault Bool := do
  if ← start.atMost d then d.less stop else return false

/-- The events that start in a window, of one instrument or voice if given. -/
def eventsInWindow (s : Score) (start stop : Data) (instrument voice : Data := .null) :
    Except Fault (List Event) :=
  s.timeline.filterM fun e => do
    return (← inWindow start stop e.start) && passes instrument e.instrument
      && passes voice e.voice

/-- Put an item in front of the group of a key, or start a group at the end. -/
def addTo {α : Type} (oneNan : Bool) (key : Data) (x : α) :
    List (Data × List α) → List (Data × List α)
  | [] => [(key, [x])]
  | (k, xs) :: rest =>
    if k.alike oneNan key then (k, x :: xs) :: rest else (k, xs) :: addTo oneNan key x rest

/-- A key of a group, which is no list and no record. -/
def groupKey : Data → Except Fault Data
  | .scalar s => .ok (.scalar s)
  | _ => .error .unsupported

/-- The events of every instrument, in the order of first use. -/
def eventsByInstrument (s : Score) (oneNan : Bool := false) :
    Except Fault (List (Data × List Event)) := do
  let groups ← s.timeline.foldlM
    (fun groups e => do return addTo oneNan (← groupKey e.instrument) e groups) []
  return groups.map fun (id, newest) => (id, newest.reverse)

/-- Values in the order in which they came first. -/
def distinct (oneNan : Bool) (ds : List Data) : List Data :=
  ds.foldl (fun seen d => if seen.any (·.alike oneNan d) then seen else seen ++ [d]) []

/-- The voices of every instrument, in the order of first use. -/
def voices (s : Score) (oneNan : Bool := false) : Except Fault (List (Data × List Data)) := do
  return (← s.eventsByInstrument oneNan).map fun (id, es) =>
    (id, distinct oneNan (es.map Event.voice))

def timeText (h : Header) : Except Fault String := do
  return (← writeInt h.time.1) ++ "/" ++ (← writeInt h.time.2)

/-- The lowest and highest semitone; zeros if nothing sounds. -/
def pitchRange (s : Score) : Int × Int :=
  match s.timeline.flatMap (·.pitches.map Partitura.Pitch.midi) with
  | [] => (0, 0)
  | m :: ms => (ms.foldl min m, ms.foldl max m)

def summary (s : Score) (oneNan : Bool := false) : Except Fault Data := do
  let groups ← s.eventsByInstrument oneNan
  let time ← timeText s.header
  let sorted ← sortBy (fun a b => a.1.less b.1) groups
  let counts ← sorted.mapM fun (id, es) => do return (← id.shown, Data.int es.length)
  let seconds ← s.durationSeconds
  return .record [
    ("title", .text s.header.title), ("composer", .text s.header.composer),
    ("tempo", .int s.header.tempo), ("key", .text s.header.key), ("time_signature", .text time),
    ("instruments", .texts (s.instruments.map Instrument.id)),
    ("total_events", .int s.timeline.length), ("events_by_instrument", .record counts),
    ("duration_ticks", s.durationTicks), ("duration_seconds", .float (seconds.roundTo 3)),
    ("pitch_range", .list [.int s.pitchRange.1, .int s.pitchRange.2])]

/-- What lines are indented by: a text, so many blanks, or null for all on one line. -/
def indentOf : Data → Except Fault (Option String)
  | .scalar .null => .ok none
  | .scalar (.text s) => .ok (some s)
  | .scalar s =>
    match s.whole? with
    | some n => .ok (some (.ofList (List.replicate n.toNat ' ')))
    | none => .error .unsupported
  | _ => .error .unsupported

def toJson (s : Score) (indent : Option String := some "  ") : Except Fault String := do
  Json.write indent (← s.toData)

def ofJson (text : String) : Except Fault Score := do ofData (← Json.read text)

structure RoundTrip where
  sameData : Bool
  sameEvents : Bool
  durations : List Rat

/-- Write a score and read it back. What is no number comes back as the one value that JSON
has for it, so it equals itself only in a score that was read from JSON. -/
def roundTrip (s : Score) (oneNan : Bool := false) : Except Fault RoundTrip := do
  let back ← ofJson (← s.toJson)
  let there ← s.toData
  let here ← back.toData
  return {
    sameData := here.alike oneNan there
    sameEvents := back.timeline.length == s.timeline.length
      && (back.timeline.zip s.timeline).all fun (d, e) => d.alike oneNan e
    durations := back.timeline.map Event.duration }

end Partitura.Stored.Score

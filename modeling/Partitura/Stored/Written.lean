import Partitura.Stored

/-!
# Scores as plain data

The record a score is written as. Fields of an instrument that are not set, empty modifiers
and an unknown measure are left out.
-/

namespace Partitura

open Number

namespace Data

def texts (ss : List String) : Data := list (ss.map text)

def textRecord (fs : List (String × String)) : Data := record (fs.map fun (k, v) => (k, text v))

/-- A field, if there is a value for it. -/
def given {α : Type} (name : String) (f : α → Data) : Option α → List (String × Data)
  | some x => [(name, f x)]
  | none => []

end Data

def Header.toData (h : Header) : Data :=
  .record [
    ("title", .text h.title), ("composer", .text h.composer), ("tempo", .int h.tempo),
    ("key", .text h.key), ("time_signature", .list [.int h.time.1, .int h.time.2]),
    ("extra", .textRecord h.extra)]

def DrumNote.toData : DrumNote → Data
  | plain m => .int m
  | placed p m => .list [.int p, .int m]

def drumMapData (m : DrumMap) : Data := .record (m.map fun (k, v) => (k, v.toData))

namespace Instrument

def toData (i : Instrument) : Data :=
  .record (
    [("id", .text i.id), ("label", .text i.label)]
      ++ Data.given "group" .text i.group
      ++ [("style", .text i.style.text)]
      ++ Data.given "clef" .text i.clef
      ++ Data.given "transpose" .int i.transpose
      ++ Data.given "tuning" .texts i.tuning
      ++ Data.given "map" drumMapData i.map
      ++ Data.given "patch" .text i.patch
      ++ Data.given "volume" .float i.volume
      ++ Data.given "pan" .float i.pan)

/-- All fields, null for those that are not set. -/
def fullData (i : Instrument) : Data :=
  let orNull {α : Type} (f : α → Data) (x : Option α) : Data := (x.map f).getD .null
  .record [
    ("id", .text i.id), ("label", .text i.label), ("group", orNull .text i.group),
    ("style", .text i.style.text), ("clef", orNull .text i.clef),
    ("transpose", orNull .int i.transpose), ("tuning", orNull .texts i.tuning),
    ("map", orNull drumMapData i.map), ("patch", orNull .text i.patch),
    ("volume", orNull .float i.volume), ("pan", orNull .float i.pan)]

end Instrument

def Group.toData (g : Group) : Data :=
  .record [
    ("label", .text g.label), ("attributes", .textRecord g.attributes),
    ("instruments", .texts g.members)]

def Stored.Modifier.toData (m : Stored.Modifier) : Data :=
  .record [("kind", .text m.kind.text), ("name", m.name), ("args", .list m.args)]

/-- The double nearest to a fraction, if it is not beyond all of them. -/
def finiteDouble (q : Rat) : Except Fault Double :=
  let x := Double.ofRat q
  if x.isFinite then .ok x else .error .quotientTooLarge

namespace Stored

def Event.toData (e : Event) : Except Fault Data := do
  let pitches ← e.pitches.mapM Partitura.Pitch.text
  let duration ← finiteDouble e.duration
  return .record (
    [ ("kind", .text e.kind.text), ("pitches", .texts pitches), ("duration", .float duration),
      ("tick_start", e.start), ("tick_end", e.stop), ("velocity", e.velocity),
      ("instrument_id", e.instrument), ("voice_id", e.voice)]
      ++ (if e.modifiers.isEmpty then [] else
        [("modifiers", .list (e.modifiers.map Modifier.toData))])
      ++ match e.measure with
        | .scalar .null => []
        | d => [("measure", d)])

def Score.toData (s : Score) : Except Fault Data := do
  let events ← s.timeline.mapM Event.toData
  return .record [
    ("meta", s.header.toData), ("instruments", .list (s.instruments.map Instrument.toData)),
    ("groups", .list (s.groups.map Group.toData)),
    ("ticks_per_quarter", s.ticksPerQuarter), ("duration_ticks", s.durationTicks),
    ("timeline", .list events)]

end Stored

def Modifier.toData (m : Modifier) : Data := m.stored.toData

def Event.toData (e : Event) : Except Fault Data := e.stored.toData

def Score.toData (s : Score) : Except Fault Data := s.stored.toData

end Partitura

import Partitura.Data.Convert
import Partitura.Stored

/-!
# Scores from plain data

Reading back what a score is written as. Headers, instruments and groups are refused as a
whole if a field does not fit; events name the first thing that is wrong with them.
-/

namespace Partitura

open Number Data

namespace Header

def ofFields? (fs : List (String × Data)) : Option Header := do
  return {
    title := ← orElse asText? "title" "Untitled" fs
    composer := ← orElse asText? "composer" "Unknown" fs
    tempo := ← orElse asInt? "tempo" 120 fs
    key := ← orElse asText? "key" "C" fs
    time := ← orElse asPair? "time_signature" (4, 4) fs
    extra := ← orElse asTextRecord? "extra" [] fs }

def ofData? (d : Data) : Option Header := d.record?.bind ofFields?

end Header

def DrumNote.ofData? (d : Data) : Option DrumNote :=
  match d.asInt? with
  | some m => some (.plain m)
  | none => d.asPair?.map fun (p, m) => .placed p m

def drumMap? (d : Data) : Option DrumMap :=
  d.record?.bind (·.mapM fun (k, v) => (DrumNote.ofData? v).map (k, ·))

def Style.ofData? (d : Data) : Option Style := d.asText?.bind Style.ofText?

namespace Instrument

def ofFields? (fs : List (String × Data)) : Option Instrument := do
  return {
    id := ← need asText? "id" fs
    label := ← need asText? "label" fs
    group := ← maybe asText? "group" fs
    style := ← orElse Style.ofData? "style" .standard fs
    clef := ← maybe asText? "clef" fs
    transpose := ← maybe asInt? "transpose" fs
    tuning := ← maybe asTexts? "tuning" fs
    map := ← maybe drumMap? "map" fs
    patch := ← maybe asText? "patch" fs
    volume := ← maybe asDouble? "volume" fs
    pan := ← maybe asDouble? "pan" fs }

def ofData? (d : Data) : Option Instrument := d.record?.bind ofFields?

end Instrument

def Group.ofData? (d : Data) : Option Group :=
  d.record?.bind fun fs => do
    return {
      label := ← need asText? "label" fs
      attributes := ← orElse asTextRecord? "attributes" [] fs
      members := ← orElse asTexts? "instruments" [] fs }

def valid {α : Type} : Option α → Except Fault α
  | some x => .ok x
  | none => .error .invalid

def fieldsOf : Data → Except Fault (List (String × Data))
  | .record fs => .ok fs
  | _ => .error .unsupported

/-- A field that an event or modifier must have. -/
def require (name : String) (fs : List (String × Data)) : Except Fault Data :=
  match get? name fs with
  | some d => .ok d
  | none => .error (.missingField name)

/-- What a field holds one by one; nothing if the field is missing. -/
def itemsOf (name : String) (fs : List (String × Data)) : Except Fault (List Data) :=
  match get? name fs with
  | none => .ok []
  | some d => d.items

/-- A kind by its name. -/
def kindOf {α : Type} (ofText? : String → Option α) (fault : String → Fault) (d : Data) :
    Except Fault α :=
  match d.asText?.bind ofText? with
  | some k => .ok k
  | none => .error (.about fault d.quoted)

def pitchOf : Data → Except Fault Pitch
  | .scalar (.text s) => Pitch.ofText s
  | _ => .error .lacking

/-- The exact fraction of a text or a number. -/
def fractionOf : Data → Except Fault Rat
  | .scalar (.text s) => readFraction s
  | d => do (← d.quantity).toRat

/-- A duration as stored, to the nearest fraction with a denominator of at most the ticks in a
quarter. -/
def durationOf (d : Data) : Except Fault Rat := do
  return nearest ticksPerQuarter.toNat (← fractionOf d)

namespace Stored

namespace Modifier

def ofData (d : Data) : Except Fault Modifier := do
  let fs ← fieldsOf d
  let kind ← kindOf ModifierKind.ofText? .badModifierKind (← require "kind" fs)
  let name ← require "name" fs
  return ⟨kind, name, ← itemsOf "args" fs⟩

end Modifier

namespace Event

def ofData (d : Data) : Except Fault Event := do
  let fs ← fieldsOf d
  let kind ← kindOf EventKind.ofText? .badEventKind (← require "kind" fs)
  let pitches ← (← itemsOf "pitches" fs).mapM pitchOf
  let duration ← durationOf (← require "duration" fs)
  let start ← require "tick_start" fs
  let stop ← require "tick_end" fs
  let velocity ← require "velocity" fs
  let instrument ← require "instrument_id" fs
  let voice ← require "voice_id" fs
  let modifiers ← (← itemsOf "modifiers" fs).mapM Modifier.ofData
  let measure := (get? "measure" fs).getD .null
  check {
    kind, pitches, duration, start, stop, velocity, instrument, voice, modifiers, measure }

end Event

namespace Score

def ofData (d : Data) : Except Fault Score := do
  let fs ← match d with
    | .record fs => pure fs
    | _ => throw .lacking
  return {
    header := ← valid (orElse Header.ofData? "meta" {} fs)
    instruments := ← (← itemsOf "instruments" fs).mapM (valid <| Instrument.ofData? ·)
    groups := ← (← itemsOf "groups" fs).mapM (valid <| Group.ofData? ·)
    timeline := ← (← itemsOf "timeline" fs).mapM Event.ofData
    durationTicks := (get? "duration_ticks" fs).getD (.int 0)
    ticksPerQuarter := (get? "ticks_per_quarter" fs).getD (.int Partitura.ticksPerQuarter) }

end Score

end Stored

end Partitura

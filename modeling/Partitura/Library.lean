import Partitura.Pitch
import Partitura.Stored.Read
import Partitura.Yaml.Node

/-!
# Percussion kits and tunings

A library is loaded from documents in order: a valid one takes its name from an earlier one,
an invalid one is passed over. The General MIDI kit and the standard guitar are always there.
What was loaded is kept until it is cleared.
-/

namespace Partitura

open Data Yaml

structure Kit where
  name : String
  description : String
  map : DrumMap
  deriving DecidableEq, Repr

structure Tuning where
  name : String
  description : String
  strings : List String
  deriving DecidableEq, Repr

namespace Kit

def ofNode? (n : Node) : Option Kit := do
  let fs ← n.pick? ["name", "description", "map"]
  return {
    name := ← need asText? "name" fs
    description := ← orElse asText? "description" "" fs
    map := ← need drumMap? "map" fs }

def general : Kit := ⟨"gm_kit", "General MIDI drum kit", generalDrums⟩

end Kit

namespace Tuning

def ofNode? (n : Node) : Option Tuning := do
  let fs ← n.pick? ["name", "description", "strings"]
  return {
    name := ← need asText? "name" fs
    description := ← orElse asText? "description" "" fs
    strings := ← need asTexts? "strings" fs }

def guitar : Tuning := ⟨"guitar_standard", "Standard 6-string guitar", guitarStrings⟩

end Tuning

/-- Whether every text is a pitch; the first that is none settles it. -/
def allPitches : List String → Except Fault Bool
  | [] => .ok true
  | s :: ss => do
    match ← Pitch.read s Pitch.defaultOctave with
    | some _ => allPitches ss
    | none => return false

/-- Documents to load, or what kept one from being read. -/
structure Shelf where
  kits : List (Except Fault Node)
  tunings : List (Except Fault Node)

def loadKits (docs : List (Except Fault Node)) : Except Fault (List (String × Kit)) :=
  docs.foldlM (fun kits doc => do
    match Kit.ofNode? (← doc) with
    | some k => return put k.name k kits
    | none => return kits) [(Kit.general.name, Kit.general)]

/-- All tunings of some documents, by name. Every string must be a pitch. -/
def loadTunings (docs : List (Except Fault Node)) : Except Fault (List (String × Tuning)) :=
  docs.foldlM (fun tunings doc => do
    match Tuning.ofNode? (← doc) with
    | some t => if ← allPitches t.strings then return put t.name t tunings else return tunings
    | none => return tunings) [(Tuning.guitar.name, Tuning.guitar)]

/-- Tunings by name, as documents gave them. -/
structure Tunings where
  list : List (String × Tuning)
  loaded : ∃ docs, loadTunings docs = .ok list

def Tunings.load (docs : List (Except Fault Node)) : Except Fault Tunings :=
  match h : loadTunings docs with
  | .ok list => .ok ⟨list, docs, h⟩
  | .error f => .error f

structure Library where
  shelf : Shelf
  kits : Option (List (String × Kit)) := none
  tunings : Option Tunings := none

namespace Library

/-- The kits, loaded now if they were not before. -/
def allKits (l : Library) : Except Fault (List (String × Kit) × Library) :=
  match l.kits with
  | some kits => .ok (kits, l)
  | none => do
    let kits ← loadKits l.shelf.kits
    return (kits, { l with kits := some kits })

/-- The tunings, loaded now if they were not before. -/
def allTunings (l : Library) : Except Fault (List (String × Tuning) × Library) :=
  match l.tunings with
  | some tunings => .ok (tunings.list, l)
  | none => do
    let tunings ← Tunings.load l.shelf.tunings
    return (tunings.list, { l with tunings := some tunings })

def kit? (name : String) (l : Library) : Except Fault (Option Kit × Library) := do
  let (kits, l) ← l.allKits
  return (get? name kits, l)

def tuning? (name : String) (l : Library) : Except Fault (Option Tuning × Library) := do
  let (tunings, l) ← l.allTunings
  return (get? name tunings, l)

def kitNames (l : Library) : Except Fault (List String × Library) := do
  let (kits, l) ← l.allKits
  return ((kits.map (·.2.name)).mergeSort (· ≤ ·), l)

def tuningNames (l : Library) : Except Fault (List String × Library) := do
  let (tunings, l) ← l.allTunings
  return ((tunings.map (·.2.name)).mergeSort (· ≤ ·), l)

def clear (l : Library) : Library := { l with kits := none, tunings := none }

end Library

end Partitura

import Partitura.Compile.Context
import Partitura.Grammar.Declaration

/-!
# Settings, instruments and macros

Each declaration holds from where it stands on. A bad value keeps the one before it; the first
definition of an instrument and the last definition of a macro count.
-/

namespace Partitura

open Number Text

variable {P : Type}

/-! ## Settings -/

/-- A tempo: a number, truncated to a whole one above zero. -/
def readTempo? (s : String) : Option Int := do
  let q ← (← readDouble s).value?
  let n := truncate q
  if 0 < n then some n else none

namespace Header

/-- Apply one setting. An unknown one is kept aside. -/
def apply (key value : String) (h : Header) : Header × Option Issue :=
  let key := lower key
  if key = "title" then ({ h with title := value }, none)
  else if key = "composer" then ({ h with composer := value }, none)
  else if key = "key" then ({ h with key := value }, none)
  else if key = "tempo" then
    match readTempo? value with
    | some n => ({ h with tempo := n }, none)
    | none => (h, some (.invalidTempo value h.tempo))
  else if key = "time" then
    match TimeSignature.read value with
    | .ok t => ({ h with time := (t.numerator, t.denominator) }, none)
    | .error _ => (h, some (.invalidTime value h.time))
  else ({ h with extra := put key value h.extra }, some (.unknownSetting key))

end Header

namespace Run

def applySetting (key value : String) (t : Option (Token P)) : Run P Unit := do
  let (header, issue) := (← get).header.apply key value
  modify fun c => { c with header }
  match issue with
  | some i => report i t
  | none => return

def applyHeader (b : HeaderBlock P) : Run P Unit :=
  match b.settings with
  | none => report (.missingBlock (textOf b.keyword)) b.keyword
  | some settings => settings.forM fun (t, value) => applySetting t.value value (some t)

/-! ## Instruments -/

def findMap (name : String) : Run P (Option DrumMap) := do
  if name = Kit.general.name then return some generalDrums
  let (kit, library) ← lift ((← get).library.kit? name)
  modify fun c => { c with library }
  return kit.map Kit.map

/-- Whether a tuning is written as a row of pitches, and not as a name. -/
def isPitchRow (s : String) : Bool := (trim s).toList.contains ' ' || s.toList.contains ','

/-- The pitches of a row, which blanks and commas separate. -/
def pitchRow (s : String) : List String :=
  (words (s.toList.map fun c => if c = ',' then ' ' else c)).map .ofList

/-- A tuning by name or as a row of pitches. -/
def findTuning (s : String) : Run P (Option (List String)) := do
  if isPitchRow s then
    let strings := pitchRow s
    if strings.isEmpty then return none
    if ← lift (allPitches strings) then return some strings else return none
  let (tuning, library) ← lift ((← get).library.tuning? s)
  modify fun c => { c with library }
  return tuning.map Tuning.strings

def setAttribute (i : Instrument) (a : Attribute P) : Run P Instrument := do
  let t := some a.token
  if a.key = "style" then
    match Style.ofText? a.value with
    | some style => return { i with style }
    | none => report (.invalidStyle a.value i.id) t; return i
  else if a.key = "clef" then return { i with clef := some a.value }
  else if a.key = "patch" then return { i with patch := some a.value }
  else if a.key = "transpose" then
    match readInt a.value with
    | .ok n => return { i with transpose := some n }
    | .error _ => report (.invalidValue a.key a.value i.id) t; return i
  else if a.key = "vol" ∨ a.key = "volume" ∨ a.key = "pan" then
    match readDouble a.value with
    | some x =>
      return if a.key = "pan" then { i with pan := some x } else { i with volume := some x }
    | none => report (.invalidValue a.key a.value i.id) t; return i
  else if a.key = "map" then
    match ← findMap a.value with
    | some m => return { i with map := some m }
    | none => report (.unknownMap a.value i.id) t; return i
  else if a.key = "tuning" then
    match ← findTuning a.value with
    | some strings => return { i with tuning := some strings }
    | none => report (.unknownTuning a.value i.id) t; return i
  else
    report (.unknownAttribute a.key i.id) t
    return i

/-- Forget the cursors of an instrument. -/
def register (id : String) : Run P Unit :=
  modify fun c => { c with cursors := c.cursors.filter (·.1.instrument ≠ id) }

/-- Define an instrument, in a group or not. The result is none if nothing was defined. -/
def defineInstrument (group : Option String) (b : InstrumentBlock P) :
    Run P (Option Instrument) := do
  match b.body with
  | none =>
    report (.missingId (textOf b.keyword)) b.keyword
    return none
  | some d =>
    let id := d.id.value
    let i ← d.attributes.foldlM setAttribute { id, label := d.label, group }
    if (← get).defines id then
      report (.duplicateInstrument id) (some d.id)
      return none
    modify fun c => { c with instruments := c.instruments ++ [i] }
    register id
    return some i

def defineGroup (b : GroupBlock P) : Run P Unit :=
  match b.members with
  | none => report (.missingBlock (textOf b.keyword)) b.keyword
  | some blocks => do
    let members ← blocks.foldlM (fun members (block, tokens) => do
      match ← placed (.reached tokens) (defineInstrument (some b.label) block) with
      | some i => return members ++ [i.id]
      | none => return members) []
    let attributes := settle (b.attributes.map fun a => (a.key, a.value))
    modify fun c => { c with groups := c.groups ++ [⟨b.label, attributes, members⟩] }

/-! ## Macros -/

/-- The names of parameters; one that comes again is reported and dropped. -/
def declareParams (name : String) (params : List (Token P)) : Run P (List String) :=
  params.foldlM (fun names t => do
    let param := bareName t.value
    if param ∈ names then
      report (.duplicateParam name param) (some t)
      return names
    return names ++ [param]) []

/-- Define a macro. The result is none if it has no body. -/
def defineMacro (b : MacroBlock P) : Run P (Option (Macro P)) := do
  let params ← declareParams b.name b.params
  match b.body with
  | none =>
    report (.missingBlock (textOf b.keyword)) b.keyword
    return none
  | some body =>
    let m : Macro P := ⟨b.name, params, body⟩
    modify fun c => { c with macros := put b.name m c.macros }
    return some m

end Run

namespace Macro

/-- The argument that replaces a token: a call of a parameter is replaced, by nothing if the
argument is missing. -/
def slot? (m : Macro P) (t : Token P) : Option Nat :=
  match t.lexeme with
  | .call name => m.params.findIdx? (· == name)
  | _ => none

/-- The body with arguments in place of parameters. -/
def expand (m : Macro P) (args : List (List (Token P))) : List (Token P) :=
  m.body.flatMap fun t =>
    match m.slot? t with
    | some i => (args[i]?).getD []
    | none => [t]

end Macro

end Partitura

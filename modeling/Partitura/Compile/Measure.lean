import Partitura.Compile.Perform

/-!
# Measures

A measure block is played once for every measure of its range, each time at the tick its
measure starts at by the time signature then in force. Once an event was refused, the block is
not played again.
-/

namespace Partitura

open Number Text

variable {P : Type}

/-- Read `first` or `first-last`; none if it is malformed, starts below one or runs back. -/
def readRange (s : String) : Except Fault (Option (Int × Int)) :=
  let (first, last) := cutAt '-' (chomp s.toList)
  let isNumeral (cs : List Char) : Bool := !cs.isEmpty && cs.all isDigit
  if isNumeral first && last.all isNumeral then do
    let first ← readInt (.ofList first)
    let last ← match last with
      | some cs => readInt (.ofList cs)
      | none => pure first
    if first < 1 ∨ last < first then return none
    return some (first, last)
  else .ok none

namespace Run

def playPart (i : Instrument) (voices : List (VoiceStream P)) (base : Int)
    (measure : Option Int) : Run P Unit :=
  voices.forM fun v => discard (perform ⟨i, v.voice, base, measure⟩ v.items)

def playEntry (base : Int) (measure : Option Int) : Entry P → Run P Unit
  | .header b => applyHeader b
  | .part id voices => do
    match (← get).instrument? id with
    | some i => playPart i voices base measure
    | none => return

def playEntries (entries : List (Entry P)) (index base : Int) : Run P Unit :=
  entries.forM (playEntry base (some index))

/-- Play the entries of a block in `count` measures, `index` the first. -/
def playMeasures (entries : List (Entry P)) : Nat → Int → Run P Unit
  | 0, _ => return
  | count + 1, index => do
    let ticks := (← get).header.signature.ticks
    playEntries entries index ((index - 1) * ticks)
    if (← get).timeline.truncated then return
    playMeasures entries count (index + 1)

def rangeOf (b : MeasureBlock P) : Except Fault (Option (Int × Int)) :=
  match b.range with
  | some ⟨.symbol s, _⟩ => readRange s
  | _ => .ok none

/-- How many measures of a range are played. -/
def span (first last : Int) : Nat := (last - first + 1).toNat

def playMeasure (b : MeasureBlock P) : Run P Unit := do
  let range ← placed (.reached 2) (lift (rangeOf b))
  match b.body, range with
  | none, _ => report (.missingBlock (textOf b.keyword)) b.keyword
  | some _, none => report (.invalidRange (textOf b.range)) b.keyword
  | some body, some (first, last) =>
    let limit := (← get).options.maxMeasureSpan
    if limit < span first last then
      report (.rangeTruncated (textOf b.range) limit) b.range
    let entries := readEntries (← get).defines body
    placed .behind (playMeasures entries (min (span first last) limit) first)

end Run

end Partitura

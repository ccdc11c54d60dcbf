import Partitura.Compile.Declare

/-!
# Performing a voice

A voice stream is first turned into a script: its events, with every macro call replaced by
what the macro holds, as far as depth and budget allow. The script is then played one step at
a time. Only the played events move the voice on.
-/

namespace Partitura

open Number Text

variable {P : Type}

/-! ## Scripts -/

inductive Step (P : Type)
  | play (e : WrittenEvent P)
  /-- A macro call is expanded here. -/
  | expand
  /-- A macro call is refused. -/
  | refuse (issue : Issue) (t : Token P)
  | halt (f : Fault)

/-- What the calls in a stream may use. -/
structure Book (P : Type) where
  macros : List (String × Macro P)
  maxDepth : Nat
  maxExpansions : Nat

/-- The items of an expanded call, all at the place of the call. -/
def Macro.items (m : Macro P) (args : List (List (Token P))) (unread : Nat) :
    List (Placed (Item P)) :=
  (readBody (m.expand args)).map fun i => { i with unread }

/-- A script, and how many calls are expanded where it ends. -/
structure Script (P : Type) where
  steps : List (Placed (Step P))
  total : Nat

def Script.cons (step : Placed (Step P)) (s : Script P) : Script P :=
  { s with steps := step :: s.steps }

/-- The macro that a call expands if macros may be nested `depth` deep and `used` calls were
expanded before, or why it is refused. -/
def Book.lookUp (book : Book P) (depth used : Nat) (name : String) : Except Issue (Macro P) :=
  match get? name book.macros with
  | none => .error (.unknownMacro name)
  | some m =>
    if depth = 0 then .error (.macroTooDeep name book.maxDepth)
    else if used < book.maxExpansions then .ok m
    else .error (.macroBudget book.maxExpansions)

/-- The script of a stream; `inside` gives the script of what an expanded call holds. -/
def scriptWith (book : Book P) (depth : Nat)
    (inside : Nat → List (Placed (Item P)) → Script P) (used : Nat) :
    List (Placed (Item P)) → Script P
  | [] => ⟨[], used⟩
  | ⟨.event e, unread⟩ :: rest =>
    (scriptWith book depth inside used rest).cons ⟨.play e, unread⟩
  | ⟨.broken f, unread⟩ :: rest =>
    (scriptWith book depth inside used rest).cons ⟨.halt f, unread⟩
  | ⟨.call t name args, unread⟩ :: rest =>
    match book.lookUp depth used name with
    | .error issue => (scriptWith book depth inside used rest).cons ⟨.refuse issue t, unread⟩
    | .ok m =>
      let inner := inside (used + 1) (m.items args unread)
      let outer := scriptWith book depth inside inner.total rest
      { outer with steps := ⟨.expand, unread⟩ :: (inner.steps ++ outer.steps) }

/-- The script of a stream after `used` calls were expanded. Macros may be nested `depth`
deep. -/
def script (book : Book P) : (depth used : Nat) → List (Placed (Item P)) → Script P
  | 0 => scriptWith book 0 fun used _ => ⟨[], used⟩
  | depth + 1 => scriptWith book (depth + 1) (script book depth)

section Equations

variable (book : Book P) (depth used unread : Nat) (rest : List (Placed (Item P)))

@[simp] theorem script_nil : script book depth used [] = ⟨[], used⟩ := by
  cases depth <;> rfl

@[simp] theorem script_event (e : WrittenEvent P) :
    script book depth used (⟨.event e, unread⟩ :: rest) =
      (script book depth used rest).cons ⟨.play e, unread⟩ := by
  cases depth <;> rfl

@[simp] theorem script_broken (f : Fault) :
    script book depth used (⟨.broken f, unread⟩ :: rest) =
      (script book depth used rest).cons ⟨.halt f, unread⟩ := by
  cases depth <;> rfl

variable {book depth used} {name : String}

theorem script_refuse {issue : Issue} (h : book.lookUp depth used name = .error issue)
    (t : Token P) (args : List (List (Token P))) :
    script book depth used (⟨.call t name args, unread⟩ :: rest) =
      (script book depth used rest).cons ⟨.refuse issue t, unread⟩ := by
  cases depth <;> simp only [script, scriptWith, h]

theorem script_expand {m : Macro P} (h : book.lookUp (depth + 1) used name = .ok m)
    (t : Token P) (args : List (List (Token P))) :
    script book (depth + 1) used (⟨.call t name args, unread⟩ :: rest) =
      let inner := script book depth (used + 1) (m.items args unread)
      let outer := script book (depth + 1) inner.total rest
      { outer with steps := ⟨.expand, unread⟩ :: (inner.steps ++ outer.steps) } := by
  simp only [script, scriptWith, h]

end Equations

/-- Induction along a script: on how deep macros may be nested, then on the items. -/
theorem script_induction (book : Book P) {motive : Nat → Nat → List (Placed (Item P)) → Prop}
    (nil : ∀ depth used, motive depth used [])
    (event : ∀ depth used e unread rest, motive depth used rest →
      motive depth used (⟨.event e, unread⟩ :: rest))
    (broken : ∀ depth used f unread rest, motive depth used rest →
      motive depth used (⟨.broken f, unread⟩ :: rest))
    (refuse : ∀ depth used t name args unread rest issue,
      book.lookUp depth used name = .error issue → motive depth used rest →
      motive depth used (⟨.call t name args, unread⟩ :: rest))
    (expand : ∀ depth used t name args unread rest m,
      book.lookUp (depth + 1) used name = .ok m →
      motive depth (used + 1) (m.items args unread) →
      motive (depth + 1) (script book depth (used + 1) (m.items args unread)).total rest →
      motive (depth + 1) used (⟨.call t name args, unread⟩ :: rest))
    (depth used : Nat) (items : List (Placed (Item P))) : motive depth used items := by
  induction depth generalizing used items with
  | zero =>
    induction items with
    | nil => exact nil 0 used
    | cons p rest ih =>
      match p with
      | ⟨.event e, unread⟩ => exact event 0 used e unread rest ih
      | ⟨.broken f, unread⟩ => exact broken 0 used f unread rest ih
      | ⟨.call t name args, unread⟩ =>
        cases h : book.lookUp 0 used name with
        | error issue => exact refuse 0 used t name args unread rest issue h ih
        | ok m => unfold Book.lookUp at h; split at h <;> simp at h
  | succ depth below =>
    induction items generalizing used with
    | nil => exact nil _ used
    | cons p rest ih =>
      match p with
      | ⟨.event e, unread⟩ => exact event _ used e unread rest (ih used)
      | ⟨.broken f, unread⟩ => exact broken _ used f unread rest (ih used)
      | ⟨.call t name args, unread⟩ =>
        cases h : book.lookUp (depth + 1) used name with
        | error issue => exact refuse _ used t name args unread rest issue h (ih used)
        | ok m => exact expand depth used t name args unread rest m h (below _ _) (ih _)

/-! ## Pitches -/

/-- A pitch in tablature: fret and string, the last string counted first. -/
def tabPitch (tuning : List String) (s : String) : Except Fault (Option Pitch) :=
  match cutAt '-' s.toList with
  | (fret, some string) =>
    if !fret.isEmpty && fret.all isFigure && !string.isEmpty && string.all isFigure then do
      let fret ← readInt (.ofList fret)
      let string ← readInt (.ofList string)
      if 1 ≤ string ∧ string ≤ tuning.length then
        match tuning[(tuning.length - string).toNat]? with
        | none => throw .tokenOutOfRange
        | some note =>
          match ← Pitch.read note Pitch.defaultOctave with
          | some (p, _) => return some (p.transpose fret)
          | none => return none
      else return none
    else return none
  | (_, none) => return none

def gridPitch (map : DrumMap) (s : String) : Option Pitch :=
  (get? s map).map fun n => ⟨n.midi, 0⟩

/-- Nothing and the empty list alike give way to a default. -/
def orDefault {α : Type} (default : List α) : Option (List α) → List α
  | some (x :: xs) => x :: xs
  | _ => default

/-- The pitch of a symbol on an instrument, none if it has none there, and the octave of the
voice behind it. Only standard notation knows an octave; what is no pitch resets it. -/
def resolvePitch (i : Instrument) (octave : Int) (s : String) :
    Except Fault (Option Pitch) × Int :=
  match i.style with
  | .tab => (tabPitch (orDefault guitarStrings i.tuning) s, octave)
  | .grid => (.ok (gridPitch (orDefault generalDrums i.map) s), octave)
  | .standard =>
    match Pitch.read s octave with
    | .error f => (.error f, octave)
    | .ok none => (.ok none, Pitch.defaultOctave)
    | .ok (some (p, o)) => (.ok (some p), o)

namespace Run

/-- Resolve a symbol in a voice; what cannot be resolved is reported and sounds as middle C. -/
def resolve (i : Instrument) (key : VoiceKey) (t : Option (Token P)) (s : String) :
    Run P Pitch := do
  let (pitch, octave) := resolvePitch i ((← get).cursor key).octave s
  modifyCursor key fun c => { c with octave }
  match ← lift pitch with
  | some p => return p
  | none =>
    report (.unresolvedPitch s i.style i.id) t
    return .nominal

/-! ## Events -/

/-- Where a voice is played. -/
structure Stage where
  instrument : Instrument
  voice : String
  /-- The tick its measure starts at. -/
  base : Int
  measure : Option Int

def Stage.key (s : Stage) : VoiceKey := ⟨s.instrument.id, s.voice⟩

def sound (s : Stage) (e : WrittenEvent P) : Run P (EventKind × List Pitch) := do
  if e.isRest then return (.rest, [])
  let pitches ← e.pitches.mapM (resolve s.instrument s.key e.anchor)
  return (if e.chord then .chord else .note, pitches)

/-- Set the length that stays with the voice, or report one that cannot be read. -/
def setLength (key : VoiceKey) (e : WrittenEvent P) : Run P Unit :=
  match e.length with
  | .unwritten => modifyCursor key id
  | .value d => modifyCursor key fun c => { c with duration := d.quarters }
  | .unreadable text => do
    modifyCursor key id
    report (.invalidDuration text) e.anchor

/-- Put an event on the timeline if there is room. -/
def place (key : VoiceKey) (e : Event) (t : Option (Token P)) : Run P Unit := do
  let c ← get
  let (added, timeline) := c.timeline.add e
  modify fun c => { c with timeline }
  if added then
    modifyCursor key fun c => { c with tick := e.stop }
  else
    reportOnce (.eventLimit c.options.maxEvents) t

/-- Play an event `offset` ticks into the stream. The result is how far it moves the voice. -/
def play (s : Stage) (offset : Int) (e : WrittenEvent P) : Run P Int := do
  setLength s.key e
  let (kind, pitches) ← sound s e
  let cursor := (← get).cursor s.key
  let duration := if e.isGrace then 0 else cursor.duration
  let ticks := (← lift (Duration.make duration)).ticks
  let velocity ← lift (Velocity.ofModifiers e.modifiers)
  let start := s.base + offset
  let event ← lift (Event.check {
    kind, pitches, duration, start
    stop := start + ticks
    velocity := .float velocity
    instrument := s.key.instrument
    voice := s.key.voice
    modifiers := e.modifiers
    measure := s.measure })
  place s.key event e.anchor
  return ticks

/-- Take one step of a script, `offset` ticks into the stream. -/
def step (s : Stage) (offset : Int) : Step P → Run P Int
  | .play e => do return offset + (← play s offset e)
  | .expand => do
    modify fun c => { c with expansions := c.expansions + 1 }
    return offset
  | .refuse issue t => do
    reportOnce issue (some t)
    return offset
  | .halt f => throw { fault := f }

def scriptOf (c : Context P) (items : List (Placed (Item P))) : List (Placed (Step P)) :=
  (script ⟨c.macros, c.options.maxMacroDepth, c.options.maxMacroExpansions⟩
    c.options.maxMacroDepth c.expansions items).steps

/-- Play a voice stream. The result is how many ticks it lasts. -/
def perform (s : Stage) (items : List (Placed (Item P))) : Run P Int := do
  (scriptOf (← get) items).foldlM
    (fun offset p => placed (.unread p.unread) (step s offset p.value)) 0

end Run

end Partitura

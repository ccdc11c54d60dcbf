import Partitura.Compile
import Partitura.Stored.Timeline

/-!
# Sessions

A compilation taken one request at a time. Every request brings its own text; what was
declared before stays, and positions are those in the text of the request. A request that
fails keeps what it did before it failed.
-/

namespace Partitura

inductive Request
  -- read a declaration from its keyword on
  | header
  | group
  | template
  | instrument
  | measure
  /-- Apply a setting. -/
  | apply (key value : String)
  /-- Play the whole text as a measure block. -/
  | replay (index offset : Data)
  /-- Play the voices of an instrument, from its name on. -/
  | part (instrument : String) (base measure : Data)
  /-- Play a single voice stream. -/
  | voice (instrument voice : String) (base measure : Data)
  | lookup (name : String)
  | register (instrument : String)
  | cursor (instrument voice : String)
  | finalize

inductive Reply
  | nothing
  | macroName (name : String)
  | instrument (i : Instrument)
  | tick (n : Int)
  /-- Whether a macro and an instrument of a name exist, and how many macros, instruments,
  cursors and events there are. -/
  | lookup (isMacro isInstrument : Bool) (counts : List Nat)
  | cursor (known : Bool) (c : Cursor) (tick : Data)
  | timeline (starts : List Data) (ticks : Data)

structure Outcome where
  reply : Except Fault Reply
  /-- How many tokens were read. -/
  pos : Nat
  events : List Stored.Event
  notices : Notices

/-! ## Frames -/

/-- Where a request plays: the tick it starts at and its measure, as they were given. -/
structure Frame where
  base : Data
  measure : Data

namespace Frame

/-- The tick to play from: the base if it is whole, else zero. -/
def origin (f : Frame) : Except Fault Int := do
  match ← f.base.quantity with
  | .whole n => return n
  | .real _ => return 0

def index? (f : Frame) : Option Int :=
  match f.measure with
  | .scalar (.int n) => some n
  | _ => none

/-- An event that was played from the origin, put where the frame is. -/
def stored (f : Frame) (e : Event) : Except Fault Stored.Event := do
  match ← f.base.quantity with
  | .whole _ => return { e.stored with measure := f.measure }
  | .real x =>
    let start ← (Number.Quantity.real x).add (.whole e.start)
    let stop ← start.add (.whole (e.stop - e.start))
    return { e.stored with
      start := .ofQuantity start, stop := .ofQuantity stop, measure := f.measure }

end Frame

def Request.frame? : Request → Option Frame
  | .replay index offset => some ⟨offset, index⟩
  | .part _ base index => some ⟨base, index⟩
  | .voice _ _ base index => some ⟨base, index⟩
  | _ => none

/-! ## Sessions -/

structure Session where
  context : Context Nat
  /-- The events so far, with ticks and measures as they were given. -/
  events : List Stored.Event := []
  /-- Where voices ended that were played from a base that is not whole. -/
  ends : List (VoiceKey × Data) := []

namespace Session

def start (options : Options) : Session := { context := .start options .shipped }

/-- The end of the last event of a voice. -/
def tick (s : Session) (key : VoiceKey) : Data :=
  match s.ends.find? (·.1 == key) with
  | some (_, d) => d
  | none => .int (s.context.cursor key).tick

def existing : Option Instrument → Except Fault Instrument
  | some i => .ok i
  | none => .error .lacking

/-- The run of a request on its tokens, and the tokens it leaves unread. -/
def runOf (s : Session) (ts : List (Token Nat)) (r : Request) :
    Run Nat Reply × List (Token Nat) :=
  let c := s.context
  let within (base measure : Data) (play : Int → Option Int → Run Nat Reply) : Run Nat Reply :=
    let f : Frame := ⟨base, measure⟩
    do play (← Run.lift f.origin) f.index?
  match r with
  | .header =>
    let (b, rest) := readHeader ts
    (do Run.applyHeader b; return .nothing, rest)
  | .group =>
    let (b, rest) := readGroup ts
    (do Run.defineGroup b; return .nothing, rest)
  | .template =>
    let (b, rest) := readMacro ts
    (do
      match ← Run.defineMacro b with
      | some m => return .macroName m.name
      | none => return .nothing, rest)
  | .instrument =>
    let (b, rest) := readInstrument ts
    (do
      match ← Run.defineInstrument none b with
      | some i => return .instrument i
      | none => return .nothing, rest)
  | .measure =>
    let (b, rest) := readMeasure ts
    (do Run.playMeasure b; return .nothing, rest)
  | .apply key value => (do Run.applySetting key value none; return .nothing, ts)
  | .replay index offset =>
    (within offset index fun base measure => do
      (readEntries c.defines ts).forM (Run.playEntry base measure)
      return .nothing, [])
  | .part id base index =>
    let (voices, rest) := readPart c.defines ts.tail
    (match partStart? ts.tail with
      | none => return .nothing
      | some start => within base index fun base measure => do
        let i ← Run.placed (.unread start.length) (Run.lift (existing (c.instrument? id)))
        Run.playPart i voices base measure
        return .nothing, rest)
  | .voice id voice base index =>
    let (items, rest) := readStream c.defines ts
    (within base index fun base measure => do
      let i ← Run.placed (.unread ts.length) (Run.lift (existing (c.instrument? id)))
      return .tick (← Run.perform ⟨i, voice, base, measure⟩ items), rest)
  | .lookup name =>
    (return .lookup (get? name c.macros).isSome (c.defines name)
      [c.macros.length, c.instruments.length, c.cursors.length, c.timeline.newest.length], ts)
  | .register id => (do Run.register id; return .nothing, ts)
  | .cursor id voice =>
    let key : VoiceKey := ⟨id, voice⟩
    (do
      Run.modifyCursor key (fun cursor => cursor)
      return .cursor (c.hasCursor key) (c.cursor key) (s.tick key), ts)
  | .finalize =>
    let t : Stored.Timeline := { limit := .null, events := s.events }
    (do
      let sorted ← Run.lift t.sorted
      return .timeline (sorted.map (·.start)) (← Run.lift (Stored.Timeline.ticks sorted)), ts)

/-- How many of `total` tokens were read when a run stopped. -/
def position (total rest : Nat) : Place → Nat
  | .behind => total - rest
  | .reached n => n
  | .unread n => total - n

/-- The events that a request added, as its frame has them. -/
def added (s : Session) (r : Request) (d : Context Nat) : List Stored.Event :=
  (d.timeline.events.drop s.context.timeline.newest.length).map fun e =>
    match r.frame? with
    | none => e.stored
    | some f =>
      match f.stored e with
      | .ok stored => stored
      | .error _ => e.stored

/-- Where the voices ended that the new events belong to. -/
def newEnds (d : Context Nat) (old : List (VoiceKey × Data)) (es : List Stored.Event) :
    List (VoiceKey × Data) :=
  let all := es.foldl (fun ends e =>
    match e.instrument, e.voice with
    | .scalar (.text i), .scalar (.text v) =>
      let key : VoiceKey := ⟨i, v⟩
      (key, e.stop) :: ends.filter (·.1 != key)
    | _, _ => ends) old
  all.filter fun (key, _) => d.hasCursor key

def answer (s : Session) (source : String) (r : Request) : Outcome × Session :=
  let ts := tokenize source
  let (run, rest) := s.runOf ts r
  let outcome (reply : Except Fault Reply) (place : Place) (d : Context Nat) :
      Outcome × Session :=
    let events := s.added r d
    ({ reply
       pos := position ts.length rest.length place
       events
       notices := locateAll (.ofSource source) (d.found.drop s.context.reports.length) },
     { context := d, events := s.events ++ events, ends := newEnds d s.ends events })
  match run.run s.context with
  | .ok reply d => outcome (.ok reply) .behind d
  | .error stop d => outcome (.error stop.fault) stop.place d

end Session

end Partitura

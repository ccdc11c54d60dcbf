import Partitura.Instrument
import Partitura.Notice

/-!
# Issues

Everything a compilation can find wrong with a source, as causes. The wording stands in
`Issue.message` and nowhere else.
-/

namespace Partitura

open Number

inductive Issue
  | missingBlock (keyword : String)
  | invalidTempo (value : String) (current : Int)
  | invalidTime (value : String) (current : Int × Int)
  | unknownSetting (key : String)
  | missingId (keyword : String)
  | duplicateInstrument (id : String)
  | invalidStyle (value instrument : String)
  | invalidValue (key value instrument : String)
  | unknownMap (value instrument : String)
  | unknownTuning (value instrument : String)
  | unknownAttribute (key instrument : String)
  | duplicateParam (name param : String)
  | invalidRange (text : String)
  | rangeTruncated (text : String) (limit : Nat)
  | unknownMacro (name : String)
  | macroTooDeep (name : String) (depth : Nat)
  | macroBudget (limit : Nat)
  | invalidDuration (text : String)
  | unresolvedPitch (text : String) (style : Style) (instrument : String)
  | eventLimit (limit : Nat)
  deriving DecidableEq, Repr

namespace Issue

def severity : Issue → Severity
  | missingBlock _ => .error
  | unknownSetting _ => .info
  | unknownAttribute _ _ => .info
  | _ => .warning

def code : Issue → String
  | missingBlock _ => "MISSING_BLOCK"
  | invalidTempo _ _ => "INVALID_TEMPO"
  | invalidTime _ _ => "INVALID_TIME"
  | unknownSetting _ => "UNKNOWN_META"
  | missingId _ => "MISSING_ID"
  | duplicateInstrument _ => "DUPLICATE_INSTRUMENT"
  | invalidStyle _ _ => "INVALID_STYLE"
  | invalidValue _ _ _ => "INVALID_VALUE"
  | unknownMap _ _ => "UNKNOWN_MAP"
  | unknownTuning _ _ => "UNKNOWN_TUNING"
  | unknownAttribute _ _ => "UNKNOWN_ATTRIBUTE"
  | duplicateParam _ _ => "DUPLICATE_PARAM"
  | invalidRange _ => "INVALID_RANGE"
  | rangeTruncated _ _ => "RANGE_TRUNCATED"
  | unknownMacro _ => "UNKNOWN_MACRO"
  | macroTooDeep _ _ => "MACRO_TOO_DEEP"
  | macroBudget _ => "MACRO_BUDGET"
  | invalidDuration _ => "INVALID_DURATION"
  | unresolvedPitch _ _ _ => "UNRESOLVED_PITCH"
  | eventLimit _ => "EVENT_LIMIT"

def message : Issue → String
  | missingBlock k => "Expected '\x7b' after '" ++ k ++ "'."
  | invalidTempo v c => "Invalid tempo '" ++ v ++ "'; keeping " ++ decimal c ++ "."
  | invalidTime v c =>
    "Invalid time signature '" ++ v ++ "'; keeping " ++ decimal c.1 ++ "/" ++ decimal c.2 ++ "."
  | unknownSetting k => "Unrecognized meta key '" ++ k ++ "' kept in extra."
  | missingId k => "'" ++ k ++ "' without an instrument id."
  | duplicateInstrument i =>
    "Instrument '" ++ i ++ "' already defined; later definition ignored."
  | invalidStyle v i => "Unknown staff style '" ++ v ++ "' for instrument '" ++ i ++ "'."
  | invalidValue a v i =>
    "Invalid " ++ a ++ " value '" ++ v ++ "' for instrument '" ++ i ++ "'."
  | unknownMap v i => "Unknown percussion map '" ++ v ++ "' for instrument '" ++ i ++ "'."
  | unknownTuning v i => "Unknown tuning '" ++ v ++ "' for instrument '" ++ i ++ "'."
  | unknownAttribute a i => "Unknown attribute '" ++ a ++ "' on instrument '" ++ i ++ "' ignored."
  | duplicateParam n p => "Macro '" ++ n ++ "' repeats parameter '" ++ p ++ "'."
  | invalidRange t => "Invalid measure range '" ++ t ++ "'; block skipped."
  | rangeTruncated t n =>
    "Measure range '" ++ t ++ "' truncated to " ++ decimal n ++ " measures."
  | unknownMacro n => "Unknown macro '$" ++ n ++ "' expands to nothing."
  | macroTooDeep n d =>
    "Macro '$" ++ n ++ "' exceeds expansion depth " ++ decimal d ++ "; expansion dropped."
  | macroBudget n =>
    "Macro expansion limit " ++ decimal n ++ " reached; further expansions dropped."
  | invalidDuration t => "Invalid duration '" ++ t ++ "'; keeping previous duration."
  | unresolvedPitch t s i =>
    "Unrecognized pitch '" ++ t ++ "' for " ++ s.text ++ " instrument '" ++ i ++ "'."
  | eventLimit n => "Event limit " ++ decimal n ++ " reached; remaining events dropped."

/-- The notice of an issue at a line and column, if these are known. -/
def notice (i : Issue) (place : Option (Nat × Nat)) : Notice :=
  match place with
  | some (line, column) => ⟨i.severity, i.code, i.message, .int line, .int column⟩
  | none => { severity := i.severity, code := i.code, message := i.message }

end Issue

/-- An issue, and the position of the token it was met at. -/
structure Report (P : Type) where
  issue : Issue
  pos : Option P
  deriving DecidableEq, Repr

def Report.map {P Q : Type} (f : P → Q) (r : Report P) : Report Q := ⟨r.issue, r.pos.map f⟩

end Partitura

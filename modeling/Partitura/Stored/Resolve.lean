import Partitura.Compile.Perform
import Partitura.Stored.Pitch

/-!
# Symbols at a given octave

Resolving the symbols of one voice in turn, from an octave that may be any number.
-/

namespace Partitura

/-- The pitch a symbol stands for, if any, and the octave of the voice afterwards. -/
def resolveAt (i : Instrument) (octave : Data) (s : String) :
    Except Fault (Option Pitch) × Data :=
  match i.style with
  | .standard =>
    match Pitch.readAt s octave with
    | .error f => (.error f, octave)
    | .ok none => (.ok none, .int Pitch.defaultOctave)
    | .ok (some (p, o)) => (.ok (some p), o)
  | _ => ((resolvePitch i Pitch.defaultOctave s).1, octave)

/-- Resolve symbols in turn: for each one its pitch and the octave afterwards, and a notice for
every one that stands for none and sounds as middle C. -/
def resolveAll (i : Instrument) (octave : Data) :
    List String → List (Except Fault Pitch × Data) × Notices
  | [] => ([], [])
  | s :: ss =>
    let (pitch, octave) := resolveAt i octave s
    let (steps, notices) := resolveAll i octave ss
    match pitch with
    | .error f => ((.error f, octave) :: steps, notices)
    | .ok (some p) => ((.ok p, octave) :: steps, notices)
    | .ok none =>
      ((.ok .nominal, octave) :: steps,
        (Issue.unresolvedPitch s i.style i.id).notice none :: notices)

end Partitura

import Partitura.Data
import Partitura.Number.Numeral

/-!
# Modifiers

A modifier is written `.name` or `.name(argument, ...)` behind an event. Known names have a
kind of their own; any other name is kept as it is.
-/

namespace Partitura

open Number Text

inductive ModifierKind
  | grace | volume | staccato | accent | fermata | ghost | tenuto | dynamic | other
  deriving DecidableEq, Repr

namespace ModifierKind

def all : List ModifierKind :=
  [grace, volume, staccato, accent, fermata, ghost, tenuto, dynamic, other]

def text : ModifierKind → String
  | grace => "grace"
  | volume => "volume"
  | staccato => "staccato"
  | accent => "accent"
  | fermata => "fermata"
  | ghost => "ghost"
  | tenuto => "tenuto"
  | dynamic => "dynamic"
  | other => "other"

def ofText? (s : String) : Option ModifierKind := all.find? (·.text == s)

def ofName (name : String) : ModifierKind :=
  if name = "grace" then grace
  else if name = "vol" ∨ name = "vel" then volume
  else if name = "stacc" then staccato
  else if name = "acc" then accent
  else if name = "fermata" then fermata
  else if name = "ghost" then ghost
  else if name = "ten" then tenuto
  else if name ∈ ["pp", "p", "mp", "mf", "f", "ff"] then dynamic
  else other

end ModifierKind

structure Modifier where
  kind : ModifierKind
  name : String
  args : List Scalar := []
  deriving DecidableEq, Repr

namespace Modifier

/-- An argument: a number if it reads as a finite one, else its text. -/
def readArg (s : String) : Scalar :=
  let t := trim s
  match readInt t with
  | .ok n => .int n
  | .error _ =>
    match readDouble t with
    | some x => if x.isFinite then .float x else .text t
    | none => .text t

def create (name : String) (args : List String) : Modifier :=
  ⟨.ofName name, name, args.map readArg⟩

def number? (m : Modifier) : Option Scalar :=
  match m.args with
  | .int n :: _ => some (.int n)
  | .float x :: _ => some (.float x)
  | .flag b :: _ => some (.flag b)
  | _ => none

end Modifier

/-! ## Velocity -/

namespace Velocity

def default : Double := .ofScientific false 8 (-1)

def unit : Double := .ofInt 1

def clamp (x : Double) : Double :=
  let low := if Double.zero.lt x then x else .zero
  if low.lt unit then low else unit

/-- A quotient of whole numbers as a velocity; it must be finite. -/
def ofQuotient : Double → Except Fault Double
  | .finite negative u => .ok (clamp (.finite negative u))
  | _ => .error .quotientTooLarge

def ofVolume : Scalar → Except Fault Double
  | .float x => .ok (clamp (x.divNat 127))
  | s =>
    match s.whole? with
    | some n => ofQuotient (.ofRat (mkRat n 127))
    | none => .ok default

/-- The velocity the first volume modifier gives. -/
def ofModifiers (ms : List Modifier) : Except Fault Double :=
  match ms.find? (·.kind = .volume) with
  | none => .ok default
  | some m =>
    match m.number? with
    | none => .ok default
    | some s => ofVolume s

end Velocity

end Partitura

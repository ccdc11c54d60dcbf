import Partitura.Data.Convert
import Partitura.Fault

/-!
# Options of a compilation

Limits against sources that would never end, and whether warnings are refused.
-/

namespace Partitura

open Data

structure Options where
  maxMacroDepth : Nat := 32
  maxMacroExpansions : Nat := 100000
  maxEvents : Nat := 200000
  maxMeasureSpan : Nat := 4096
  strict : Bool := false
  deriving DecidableEq, Repr

namespace Options

def positive? (d : Data) : Option Nat :=
  d.asInt?.bind fun n => if 0 < n then some n.toNat else none

def ofData? (d : Data) : Option Options :=
  d.record?.bind fun fs => do
    return {
      maxMacroDepth := ← orElse positive? "max_macro_depth" 32 fs
      maxMacroExpansions := ← orElse positive? "max_macro_expansions" 100000 fs
      maxEvents := ← orElse positive? "max_events" 200000 fs
      maxMeasureSpan := ← orElse positive? "max_measure_span" 4096 fs
      strict := ← orElse asFlag? "strict" false fs }

def toData (o : Options) : Data :=
  .record [
    ("max_macro_depth", .int o.maxMacroDepth),
    ("max_macro_expansions", .int o.maxMacroExpansions), ("max_events", .int o.maxEvents),
    ("max_measure_span", .int o.maxMeasureSpan), ("strict", .flag o.strict)]

end Options

end Partitura

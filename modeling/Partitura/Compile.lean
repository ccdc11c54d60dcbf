import Partitura.Compile.Measure
import Partitura.Library.Shipped
import Partitura.Token.Lexer
import Partitura.Token.LineMap

/-!
# Compiling a source text

The declarations of a text are carried out in order; what was found wrong is reported with the
score. A run fails only at a limit of numbers, or, if that is asked for, because of a warning.
-/

namespace Partitura

open Number

variable {P : Type}

namespace Run

def declare : Declaration P → Run P Unit
  | .header b => applyHeader b
  | .group b => defineGroup b
  | .instrument b => discard (defineInstrument none b)
  | .template b => discard (defineMacro b)
  | .measure b => playMeasure b

def declareAll (ds : List (Declaration P)) : Run P Unit := ds.forM declare

end Run

namespace Context

def score (c : Context P) : Score where
  header := c.header
  instruments := c.instruments
  groups := c.groups
  timeline := c.timeline.sorted
  durationTicks := c.timeline.ticks

/-- What was found wrong, in order. -/
def found (c : Context P) : List (Report P) := c.reports.reverse

end Context

/-- The score of a list of tokens with what was found wrong, or the fault that stopped the run.
The state holds the library as it was left. A length that cannot be written is a fault. -/
def compileTokens (options : Options) (library : Library) (ts : List (Token P)) :
    EStateM.Result Stop (Context P) Unit :=
  (do
    Run.declareAll (readDocument ts)
    Run.lift (discard (writeInt (← get).timeline.ticks)) : Run P Unit).run
    (.start options library)

structure Compiled where
  score : Score
  notices : Notices

inductive Failure
  | internal (f : Fault)
  | strict (notices : Notices)

def Failure.message : Failure → String
  | internal f => "Internal compiler fault: " ++ f.message
  | strict ns =>
    match ns.strictText with
    | .ok s => s
    | .error f => f.message

def locateAll (m : LineMap) (rs : List (Report Nat)) : Notices :=
  rs.map fun r => r.issue.notice (r.pos.map m.locate)

/-- Compile a source text. The library comes back with what was loaded. -/
def compile (options : Options) (library : Library) (source : String) :
    Except Failure Compiled × Library :=
  match compileTokens options library (tokenize source) with
  | .error s c => (.error (.internal s.fault), c.library)
  | .ok _ c =>
    let notices := locateAll (.ofSource source) c.found
    if options.strict && !notices.isClean then (.error (.strict notices), c.library)
    else (.ok ⟨c.score, notices⟩, c.library)

end Partitura

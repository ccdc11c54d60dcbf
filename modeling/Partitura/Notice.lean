import Partitura.Data
import Partitura.Fault
import Partitura.Number.Decimal

/-!
# Notices

What a compilation has to say about its source, with the place it speaks of. A compilation is
clean if it has no errors and no warnings.
-/

namespace Partitura

open Number

inductive Severity
  | error | warning | info
  deriving DecidableEq, Repr

namespace Severity

def all : List Severity := [error, warning, info]

def text : Severity → String
  | error => "error"
  | warning => "warning"
  | info => "info"

def tag : Severity → String
  | error => "[ERROR]"
  | warning => "[WARNING]"
  | info => "[INFO]"

def ofText? (s : String) : Option Severity := all.find? (·.text == s)

end Severity

structure Notice where
  severity : Severity
  code : String
  message : String
  /-- Null if the place is not known. -/
  line : Scalar := .null
  column : Scalar := .null
  deriving DecidableEq, Repr

namespace Notice

def text (n : Notice) : String :=
  let place := match n.line with
    | .null => ""
    | line => " at " ++ line.plain ++ ":" ++ n.column.plain
  n.severity.tag ++ " " ++ n.code ++ ": " ++ n.message ++ place

def toData (n : Notice) : Data :=
  .record (
    [ ("severity", .text n.severity.text), ("code", .text n.code), ("message", .text n.message)]
      ++ match n.line with
        | .null => []
        | line => [("line", .scalar line), ("column", .scalar n.column)])

end Notice

abbrev Notices := List Notice

namespace Notices

def errors (ns : Notices) : Notices := ns.filter (·.severity = .error)

def warnings (ns : Notices) : Notices := ns.filter (·.severity = .warning)

def isClean (ns : Notices) : Bool := ns.all (·.severity = .info)

def codes (ns : Notices) : List String := ns.map Notice.code

def text (ns : Notices) : String :=
  if ns.isEmpty then "No diagnostics" else "\n".intercalate (ns.map Notice.text)

def toData (ns : Notices) : Data := .list (ns.map Notice.toData)

/-- How many notices are not mere information, and the first of the gravest. -/
def strictText (ns : Notices) : Except Fault String :=
  match ns.errors ++ ns.warnings with
  | [] => .error .nothingToReport
  | first :: rest =>
    .ok (decimal (rest.length + 1) ++ " issue(s) in strict mode; first: " ++ first.text)

end Notices

end Partitura

/-!
# Classes of characters

A class is a list of code point ranges, both ends included. The tables of the neighbouring
modules are of this form.
-/

namespace Partitura.Text

/-- Code point ranges, both ends included. -/
abbrev CharClass := List (Nat × Nat)

namespace CharClass

def has (k : CharClass) (c : Char) : Bool :=
  k.any fun r => r.1 ≤ c.toNat && c.toNat ≤ r.2

end CharClass

end Partitura.Text

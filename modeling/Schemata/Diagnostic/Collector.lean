import Schemata.Diagnostic

/-!
# Collected diagnostics

A `Collector` keeps diagnostics in the order in which they were added.  `duplicates` finds the
repeated names in a list, as a collector reports them: one diagnostic for each element whose name
an earlier one has.
-/

namespace Schemata

/-- Diagnostics in the order in which they were added. -/
structure Collector where
  diagnostics : List Diagnostic
deriving DecidableEq, Repr

namespace Collector

/-- Nothing collected. -/
def empty : Collector := ⟨[]⟩

/-- Adds one diagnostic. -/
def add (c : Collector) (d : Diagnostic) : Collector := ⟨c.diagnostics ++ [d]⟩

/-- Adds several, in order. -/
def append (c : Collector) (ds : List Diagnostic) : Collector := ⟨c.diagnostics ++ ds⟩

/-- The number of errors; warnings do not count. -/
def errorCount (c : Collector) : Nat := c.diagnostics.countP (·.isError)

/-- Whether there is an error among them. -/
def hasErrors (c : Collector) : Bool := 0 < c.errorCount

end Collector

namespace Diagnostic

/-- An earlier declaration has the qualified name. -/
def duplicateDeclaration (sort : String) (qualified : Name) (location : Location) : Diagnostic :=
  error .duplicateDeclaration location
    s!"duplicate {sort} declaration: '{qualified}' is already defined"

/-- An earlier member of `owner` has the name. -/
def duplicateMember (sort : String) (name owner : Name) (location : Location) : Diagnostic :=
  error .duplicateMember location s!"duplicate {sort} '{name}' in '{owner}'"

end Diagnostic

/-- What `report` says of each element whose key is that of an earlier one or is in `seen`. -/
def duplicates {α κ : Type} [BEq κ] (key : α → κ) (report : α → Diagnostic) (seen : List κ) :
    List α → List Diagnostic
  | [] => []
  | a :: as =>
    if seen.contains (key a) then report a :: duplicates key report seen as
    else duplicates key report (key a :: seen) as

end Schemata

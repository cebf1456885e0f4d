import Schemata.Text.Blank
import Schemata.TypeReference.Resolve

/-!
# Terms

A term has a type, and it may say for which sorts of element it is meant.
-/

namespace Schemata.Catalog

variable (c : Catalog)

/-- The type of a term. -/
def termType (t : Declared .term) : TypeReference :=
  let d := c.term t
  c.typeReference (c.termSchema t) d.typeName d.nullable d.location

/-- The declared type that a term has, or a collection of. -/
def termElement? (t : Declared .term) : Option (Element (Declared .type)) :=
  c.elementOf? t.model (c.termType t)

/-- The sorts of element that a term is meant for. -/
def appliesTo (t : Declared .term) : List String :=
  match (c.term t).appliesTo? with
  | some text => (Text.words Text.isBlank text.toList).map String.ofList
  | none => []

end Schemata.Catalog

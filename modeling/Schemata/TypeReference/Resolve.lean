import Schemata.Catalog.Lookup
import Schemata.TypeReference.Basic
import Schemata.TypeReference.Grammar

/-!
# Following type references

`Catalog.typeReference` reads a declared type reference and looks its name up from the schema that
holds it.  The built-in types come before all declared ones.
-/

namespace Schemata.Catalog

variable (c : Catalog)

/-- What a written reference refers to.  A collection is never null itself, and `nullable` is about
its elements; only entity types can be referred to by a reference to an entity. -/
def referenceOf (s : Declared .schema) (nullable : Bool) (location : Location) :
    TypeSyntax → TypeReference
  | .named name =>
    match PrimitiveKind.ofQualified? name with
    | some kind => .primitive kind nullable
    | none => .ofElement nullable (c.resolve s .type name location)
  | .collection element => .collection (referenceOf s nullable location element) false
  | .ref (.named name) =>
    .entityReference (.ofElement false (c.resolveType s name [.entity] location)) nullable
  | .ref entity =>
    .placeholder
      (.bad (TypeSyntax.ref entity).display
        (.error .wrongTypeReference location "Ref() must name an entity type"))
      nullable

/-- What a type reference in a schema refers to. -/
def typeReference (s : Declared .schema) (text : Name) (nullable : Bool) (location : Location) :
    TypeReference :=
  match TypeSyntax.parse? text with
  | some t => c.referenceOf s nullable location t
  | none =>
    .placeholder
      (.bad text (.error .wrongTypeReference location s!"malformed type reference '{text}'"))
      nullable

/-- The declared type at the bottom of a reference that a model makes; none for a built-in type. -/
def elementOf? (m : ModelId) (t : TypeReference) : Option (Element (Declared .type)) :=
  match t.elementType with
  | .declared h _ => some (.declared (c.locate m h))
  | .placeholder p _ => some (.placeholder p)
  | _ => none

end Schemata.Catalog

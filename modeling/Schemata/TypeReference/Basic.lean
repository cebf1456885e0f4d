import Schemata.Model.Id
import Schemata.Placeholder
import Schemata.Primitive.Kind

/-!
# Type references

A `TypeReference` is what a declared reference to a type has become: a built-in type, a declared
one, a collection, a reference to an entity, or a placeholder where the declaration could not be
followed.  Each layer says whether null is allowed there.
-/

namespace Schemata

/-- A reference to a type, from the point of view of one model. -/
inductive TypeReference where
  | primitive (kind : PrimitiveKind) (nullable : Bool)
  /-- A complex type, an entity type or an enumeration. -/
  | declared (handle : Handle .type) (nullable : Bool)
  | collection (element : TypeReference) (nullable : Bool)
  /-- A reference to an entity, not the entity itself. -/
  | entityReference (entity : TypeReference) (nullable : Bool)
  | placeholder (p : Placeholder) (nullable : Bool)
deriving DecidableEq, Repr

namespace TypeReference

/-- Whether null is allowed. -/
def nullable : TypeReference → Bool
  | primitive _ n | declared _ n | collection _ n | entityReference _ n | placeholder _ n => n

/-- The same reference where null is allowed or not. -/
def withNullable (n : Bool) : TypeReference → TypeReference
  | primitive kind _ => primitive kind n
  | declared handle _ => declared handle n
  | collection element _ => collection element n
  | entityReference entity _ => entityReference entity n
  | placeholder p _ => placeholder p n

/-- Whether it is a collection. -/
def isCollection : TypeReference → Bool
  | collection .. => true
  | _ => false

/-- Whether it is a reference to an entity. -/
def isEntityReference : TypeReference → Bool
  | entityReference .. => true
  | _ => false

/-- The built-in type, if it is one. -/
def primitive? : TypeReference → Option PrimitiveKind
  | primitive kind _ => some kind
  | _ => none

/-- What is left when all collections and entity references are taken away. -/
def elementType : TypeReference → TypeReference
  | collection element _ => element.elementType
  | entityReference entity _ => entity.elementType
  | t => t

/-- The placeholder at the bottom, if there is one. -/
def placeholder? (t : TypeReference) : Option Placeholder :=
  match t.elementType with
  | placeholder p _ => some p
  | _ => none

/-- What is wrong with the reference. -/
def diagnostics (t : TypeReference) : List Diagnostic :=
  match t.placeholder? with
  | some p => p.diagnostics
  | none => []

/-- The reference to a declared type or to the placeholder for it. -/
def ofElement (nullable : Bool) : Element (Handle .type) → TypeReference
  | .declared h => declared h nullable
  | .placeholder p => placeholder p nullable

end TypeReference

end Schemata

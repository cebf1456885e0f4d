import Schemata.Graph.Chain
import Schemata.Graph.Reach
import Schemata.TypeReference.Resolve

/-!
# Types that would contain themselves

A property whose type is a structured type, neither a collection nor a reference, holds a value of
that type.  If the value could hold a value of the type that declares the property, there would be
no end to it.  `Catalog.wouldContainItself` finds this out from the declarations alone, before any
property or base is resolved; types of referenced models cannot refer back and are left out.
-/

namespace Schemata.Catalog

variable (c : Catalog) (m : ModelId)

/-- The type that a reference in a schema leads to, if it is one of the same model. -/
def ownType? (schema : Id .schema) (reference : Name) : Option (Id .type) :=
  match c.resolve? ⟨m, schema⟩ .type reference with
  | some ⟨.self, id⟩ => some id
  | _ => none

/-- The base that a type names, if it is one of the same model. -/
def ownBase? (id : Id .type) : Option (Id .type) :=
  let t := (c.model m).type id
  (t.body.structured?.bind (·.base?)).bind (c.ownType? m t.schema)

/-- A type and the bases above it, in the same model and whatever their kinds. -/
def ownChain (id : Id .type) : List (Id .type) :=
  Chain.trail (c.ownBase? m) [] ((c.model m).types.size + 1) id

/-- Whether a type is the other one or has it above it. -/
def isOrExtends (id other : Id .type) : Bool := (c.ownChain m id).contains other

/-- The structured type of the same model that a property holds by value. -/
def heldType? (schema : Id .schema) (typeName : Name) : Option (Id .type) :=
  match TypeSyntax.parse? typeName with
  | some (.named name) =>
    (c.ownType? m schema name).filter fun id => ((c.model m).type id).body.kind ≠ .enum
  | _ => none

/-- The types that the declared properties of a type hold by value. -/
def declaredFields (id : Id .type) : List (Id .type) :=
  let t := (c.model m).type id
  match t.body.structured? with
  | some body =>
    body.properties.filterMap fun p => c.heldType? m t.schema ((c.model m).property p).typeName
  | none => []

/-- The types that the properties of a type hold by value, those of the types above it included. -/
def fields (id : Id .type) : List (Id .type) := (c.ownChain m id).flatMap (c.declaredFields m)

/-- Whether a value of `target` inside a value of `declaring` makes `declaring` hold itself. -/
def wouldContainItself (target declaring : Id .type) : Bool :=
  (Graph.reach (c.fields m) ((c.model m).types.size + 1) target).any
    (c.isOrExtends m · declaring)

end Schemata.Catalog

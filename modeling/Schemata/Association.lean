import Schemata.Types.Members
import Schemata.TypeReference.Basic

/-!
# Associations and navigation

An association relates two ends, each with a role, an entity type and a multiplicity.  A navigation
property names an association and the roles of the ends that it leads from and to.  Where a role
occurs at both ends, the first end has it.
-/

namespace Schemata

/-- The two ends of an association. -/
inductive EndSide where
  | first
  | second
deriving DecidableEq, Repr

/-- An end of an association. -/
structure AssociationEnd where
  association : Declared .association
  side : EndSide
deriving DecidableEq, Repr

namespace Catalog

variable (c : Catalog)

/-! ### Ends -/

/-- The ends of an association. -/
def ends (a : Declared .association) : List AssociationEnd := [⟨a, .first⟩, ⟨a, .second⟩]

/-- The declaration of an end. -/
def endDecl (e : AssociationEnd) : Decl.AssociationEnd :=
  match e.side with
  | .first => (c.association e.association).end1
  | .second => (c.association e.association).end2

/-- The first end that has the role. -/
def findEnd? (a : Declared .association) (role : Name) : Option AssociationEnd :=
  (ends a).find? fun e => (c.endDecl e).role = role

/-- The entity type at an end, as the model of the association sees it. -/
def endTypeHandle (e : AssociationEnd) : Element (Handle .type) :=
  let d := c.endDecl e
  c.resolveType (c.associationSchema e.association) d.typeName [.entity] d.location

/-- The entity type at an end. -/
def endType (e : AssociationEnd) : Element (Declared .type) :=
  (c.endTypeHandle e).map (c.locate e.association.model)

/-! ### Navigation properties -/

/-- The association of a navigation property, as its model sees it. -/
def navigationAssociationHandle (n : Declared .navigation) : Element (Handle .association) :=
  let d := c.navigationProperty n
  c.resolve (c.typeSchema (c.navigationDeclaringType n)) .association d.relationship d.location

/-- The association of a navigation property. -/
def navigationAssociation (n : Declared .navigation) : Element (Declared .association) :=
  (c.navigationAssociationHandle n).map (c.locate n.model)

/-- The placeholder for an end with the role. -/
def missingRole (n : Declared .navigation) (role : Name) : Placeholder :=
  let d := c.navigationProperty n
  .withMessage .unresolvedRole role d.location
    (s!"role '{role}' of navigation property '{d.name}' " ++
      s!"does not match an end of '{d.relationship}'")

/-- The side of an association on which a role is, if the association is there. -/
def sideOfRole (n : Declared .navigation) (association : Element (Declared .association))
    (role : Name) : Element EndSide :=
  .ofOption (c.missingRole n role)
    (association.declared?.bind fun a => (c.findEnd? a role).map (·.side))

/-- The sides from and to which a navigation property leads. -/
def navigationSides (n : Declared .navigation) (association : Element (Declared .association)) :
    Element EndSide × Element EndSide :=
  let d := c.navigationProperty n
  (c.sideOfRole n association d.fromRole, c.sideOfRole n association d.toRole)

/-- The end of an association on a side; of two placeholders, the one for the side. -/
def endAt (association : Element (Declared .association)) (side : Element EndSide) :
    Element AssociationEnd :=
  side.bind fun s => association.map (⟨·, s⟩)

/-- The end from which a navigation property leads. -/
def fromEnd (n : Declared .navigation) : Element AssociationEnd :=
  let association := c.navigationAssociation n
  endAt association (c.navigationSides n association).1

/-- The end to which a navigation property leads. -/
def toEnd (n : Declared .navigation) : Element AssociationEnd :=
  let association := c.navigationAssociation n
  endAt association (c.navigationSides n association).2

/-- The entity type to which a navigation property leads. -/
def navigationTarget (n : Declared .navigation) : Element (Declared .type) :=
  (c.toEnd n).bind c.endType

/-- The type of a navigation property that leads to `toEnd`, where the type `target` is.  Many
entities are a collection; there may be none at an end that says so. -/
def navigationTypeOf (n : Declared .navigation) (toEnd : Element AssociationEnd)
    (target : AssociationEnd → Element (Declared .type)) : TypeReference :=
  match toEnd with
  | .placeholder p => .placeholder p true
  | .declared e =>
    let d := c.endDecl e
    let ofEntity (entity : TypeReference) : TypeReference :=
      match d.multiplicity with
      | .many => .collection entity false
      | .zeroOrOne => entity.withNullable true
      | .one => entity
    match target e with
    | .placeholder p => ofEntity (.placeholder p false)
    | .declared t =>
      match c.handleFor n.model t with
      | some h => ofEntity (.declared h false)
      | none => .placeholder (c.missingRole n d.role) true

/-- The type of a navigation property. -/
def navigationType (n : Declared .navigation) : TypeReference :=
  c.navigationTypeOf n (c.toEnd n) c.endType

end Catalog

end Schemata

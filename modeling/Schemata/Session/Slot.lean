import Schemata.Cell
import Schemata.Expr.Diagnostics

/-!
# What a session remembers

A session answers questions about the models of a catalog.  What it finds out about a reference it
keeps in a cell, so that no reference is followed twice.  A `Slot` is the address of a cell: which
reference of which element it is about.  `Slot.Answer` is what such a cell holds.

`Catalog.onCycle` is what a read of a cell gives while the cell is being computed.
-/

namespace Schemata

/-- A reference that is followed once. -/
inductive Slot where
  /-- The base of a type. -/
  | base (t : Declared .type)
  /-- The key that a type declares. -/
  | key (t : Declared .type)
  | propertyType (p : Declared .property)
  /-- The association of a navigation property. -/
  | association (n : Declared .navigation)
  /-- The sides of the association between which a navigation property leads. -/
  | sides (n : Declared .navigation)
  | endType (e : AssociationEnd)
  | termType (t : Declared .term)
  /-- The container that a container extends. -/
  | extended (k : Declared .container)
  | entityType (s : Declared .entitySet)
  /-- The association of an association set. -/
  | setAssociation (s : Declared .associationSet)
  /-- The entity sets at the ends of an association set. -/
  | setEnds (s : Declared .associationSet)
  /-- The term or type that an annotation applies. -/
  | applied (a : Declared .annot)
  /-- The properties that the bindings of an annotation are for. -/
  | bindings (a : Declared .annot)
  /-- The names in an expression. -/
  | references (e : ExprRef)
  /-- The property that a path leads to. -/
  | pathTarget (e : ExprRef)
deriving DecidableEq, Repr

namespace Slot

/-- What a cell holds, as the model of the element sees it. -/
abbrev Answer : Slot → Type
  | base _ => Option (Element (Handle .type))
  | key _ => List (Element (Handle .property))
  | propertyType _ => TypeReference
  | association _ => Element (Handle .association)
  | sides _ => Element EndSide × Element EndSide
  | endType _ => Element (Handle .type)
  | termType _ => TypeReference
  | extended _ => Option (Element (Handle .container))
  | entityType _ => Element (Handle .type)
  | setAssociation _ => Element (Handle .association)
  | setEnds _ => List (Element (Handle .entitySet))
  | applied _ => AppliedTerm (Handle .term) (Handle .type)
  | bindings _ => List (Element (Handle .property))
  | references _ => ExprReferences
  | pathTarget _ => Element (Handle .property)

/-- The model whose element the cell is about. -/
def model : Slot → ModelId
  | base t | key t => t.model
  | propertyType p => p.model
  | association n | sides n => n.model
  | endType e => e.association.model
  | termType t => t.model
  | extended k => k.model
  | entityType s => s.model
  | setAssociation s | setEnds s => s.model
  | applied a | bindings a => a.model
  | references e | pathTarget e => e.owner.model

end Slot

namespace Catalog

variable (c : Catalog)

/-- The segments of a path, for an expression that is one. -/
def pathSegments (e : ExprRef) : List Name :=
  match (c.exprDecl e).form with
  | .path segments => segments
  | _ => []

/-- What a read of a cell gives while the cell is being computed. -/
def onCycle : (s : Slot) → s.Answer
  | .base t => some (.placeholder (c.cyclicBase t (c.type t).qualifiedName))
  | .key _ => []
  | .propertyType p =>
    let d := c.property p
    .placeholder (.cyclic .cyclicComplex d.typeName d.location) d.nullable
  | .association n => .placeholder (c.missingRole n (c.navigationProperty n).relationship)
  | .sides n =>
    let d := c.navigationProperty n
    (.placeholder (c.missingRole n d.fromRole), .placeholder (c.missingRole n d.toRole))
  | .endType e =>
    let d := c.endDecl e
    .placeholder (.unresolved .unresolvedType d.typeName d.location)
  | .termType t =>
    let d := c.term t
    .placeholder (.unresolved .unresolvedType d.typeName d.location) true
  | .extended _ => none
  | .entityType s =>
    let d := c.entitySet s
    .placeholder (.unresolved .unresolvedType d.entityType d.location)
  | .setAssociation s =>
    let d := (c.associationSet s).decl
    .placeholder (.unresolved .unresolvedAssociation d.association d.location)
  | .setEnds _ => []
  | .applied a =>
    let d := (c.annotated a).decl
    .value (.placeholder (.unresolved .unresolvedTerm d.term d.location))
  | .bindings _ => []
  | .references _ => .none
  | .pathTarget e =>
    .placeholder (.unresolved .unresolvedProperty (joinPath (c.pathSegments e))
      (c.exprDecl e).location)

end Catalog

end Schemata

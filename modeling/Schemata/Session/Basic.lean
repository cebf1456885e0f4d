import Schemata.Session.Slot
import Schemata.Term

/-!
# Following references once

The readings of this module do what the functions of the same names on a catalog do, but they keep
what they find in cells.  A reading may meet cells that are being computed, where types derive from
one another in a circle: it then gets the value for the cycle.
-/

namespace Schemata

/-- A computation that may read cells. -/
abbrev Session := StateM (Cells Slot Slot.Answer)

namespace Session

variable (c : Catalog)

/-- Reads a cell, and computes it if nobody has read it yet. -/
def remember (s : Slot) (compute : Session s.Answer) : Session s.Answer :=
  Cells.getOrCompute s compute (c.onCycle s)

/-! ### Types -/

/-- The base of a type, where `read` gives the bases of other types.  Where the base of the base
turns out to be part of a cycle, so is the base. -/
def baseVia (read : Declared .type → Session (Option (Element (Handle .type))))
    (t : Declared .type) : Session (Option (Element (Handle .type))) :=
  match c.baseName? t with
  | none => return none
  | some reference => do
    let schema := c.typeSchema t
    let name := c.expand schema reference
    match c.resolve schema .type reference (c.type t).location with
    | .placeholder p => return some (.placeholder p)
    | .declared h =>
      let base := c.locate t.model h
      if c.kind base ≠ c.kind t then return some (.placeholder (c.wrongBase t base name))
      else
        match ← read base with
        | some (.placeholder p) =>
          if p.kind.isCyclic then return some (.placeholder (c.cyclicBase t name))
          else return some (.declared h)
        | _ => return some (.declared h)

/-- The base of a type, found by at most `n` readings that are made within one another.  The
readings that `baseHandle?` allows are never used up (`run_eq_of_climbing`). -/
def baseHandleWithin : Nat → Declared .type → Session (Option (Element (Handle .type)))
  | 0, t => pure (c.onCycle (.base t))
  | n + 1, t => remember c (.base t) (baseVia c (baseHandleWithin n) t)

/-- The base of a type as its model sees it. -/
def baseHandle? (t : Declared .type) : Session (Option (Element (Handle .type))) :=
  baseHandleWithin c (c.count .type + 1) t

/-- The base of a type. -/
def base? (t : Declared .type) : Session (Option (Element (Declared .type))) :=
  return (← baseHandle? c t).map (·.map (c.locate t.model))

/-- A type and the bases above it, up to one that has been seen; at most `n` of them. -/
def ancestryWithin (seen : List (Declared .type)) :
    Nat → Declared .type → Session (List (Declared .type))
  | 0, _ => pure []
  | n + 1, t => do
    if t ∈ seen then return []
    else
      match (← base? c t).bind (·.declared?) with
      | none => return [t]
      | some base => return t :: (← ancestryWithin (t :: seen) n base)

/-- A type and the bases above it, nearest first. -/
def ancestry (t : Declared .type) : Session (List (Declared .type)) :=
  ancestryWithin c [] (c.count .type + 1) t

/-- The nearest property of a type that has the name. -/
def findProperty? (t : Declared .type) (name : Name) : Session (Option (Declared .property)) :=
  return (← ancestry c t).findSome? fun t =>
    (c.declaredProperties t).find? fun p => (c.property p).name = name

/-- The nearest navigation property of a type that has the name. -/
def findNavigation? (t : Declared .type) (name : Name) :
    Session (Option (Declared .navigation)) :=
  return (← ancestry c t).findSome? fun t =>
    (c.declaredNavigation t).find? fun n => (c.navigationProperty n).name = name

/-- The key that a type declares, as its model sees it. -/
def keyHandles (t : Declared .type) : Session (List (Element (Handle .property))) :=
  remember c (.key t)
    (match (c.type t).body.structured? with
    | none => pure []
    | some body =>
      body.key.mapM fun name => do
        let p? ← findProperty? c t name
        return .ofOption
          (Catalog.missingProperty name (c.type t).qualifiedName (c.type t).location)
          (p?.bind (c.handleFor t.model)))

/-- The properties of the key that a type declares. -/
def key (t : Declared .type) : Session (List (Element (Declared .property))) :=
  return (← keyHandles c t).map (·.map (c.locate t.model))

/-- The first key in a list of types that is not empty. -/
def firstKey : List (Declared .type) → Session (List (Element (Declared .property)))
  | [] => pure []
  | t :: ts => do
    let properties ← key c t
    if properties.isEmpty then firstKey ts else return properties

/-- The key that a type declares or that it has from the nearest base that declares one. -/
def effectiveKey (t : Declared .type) : Session (List (Element (Declared .property))) := do
  firstKey c (← ancestry c t)

/-- The type of a property. -/
def propertyType (p : Declared .property) : Session TypeReference :=
  remember c (.propertyType p) (pure (c.propertyType p))

/-- The declared type that a property holds, or holds a collection of. -/
def propertyElement? (p : Declared .property) : Session (Option (Element (Declared .type))) :=
  return c.elementOf? p.model (← propertyType c p)

/-- The type of a term. -/
def termType (t : Declared .term) : Session TypeReference :=
  remember c (.termType t) (pure (c.termType t))

/-! ### Associations and navigation -/

/-- The entity type at an end. -/
def endType (e : AssociationEnd) : Session (Element (Declared .type)) :=
  return (← remember c (.endType e) (pure (c.endTypeHandle e))).map (c.locate e.association.model)

/-- The association of a navigation property. -/
def navigationAssociation (n : Declared .navigation) : Session (Element (Declared .association)) :=
  return (← remember c (.association n) (pure (c.navigationAssociationHandle n))).map
    (c.locate n.model)

/-- The sides from and to which a navigation property leads. -/
def navigationSides (n : Declared .navigation) : Session (Element EndSide × Element EndSide) :=
  remember c (.sides n) do
    return c.navigationSides n (← navigationAssociation c n)

/-- The end from which a navigation property leads. -/
def fromEnd (n : Declared .navigation) : Session (Element AssociationEnd) := do
  let sides ← navigationSides c n
  return Catalog.endAt (← navigationAssociation c n) sides.1

/-- The end to which a navigation property leads. -/
def toEnd (n : Declared .navigation) : Session (Element AssociationEnd) := do
  let sides ← navigationSides c n
  return Catalog.endAt (← navigationAssociation c n) sides.2

/-- The entity type to which a navigation property leads. -/
def navigationTarget (n : Declared .navigation) : Session (Element (Declared .type)) := do
  match ← toEnd c n with
  | .declared e => endType c e
  | .placeholder p => return .placeholder p

/-- The type of a navigation property. -/
def navigationType (n : Declared .navigation) : Session TypeReference := do
  match ← toEnd c n with
  | .declared e =>
    let target ← endType c e
    return c.navigationTypeOf n (.declared e) fun _ => target
  | .placeholder p => return .placeholder p true

/-! ### Containers -/

/-- The container that a container extends. -/
def extended? (k : Declared .container) : Session (Option (Element (Declared .container))) :=
  return (← remember c (.extended k) (pure (c.extendedHandle? k))).map (·.map (c.locate k.model))

/-- The entity set of that name in a container, where `search` gives the one in the container that
it extends.  Nothing is found in a container that has been seen. -/
def findEntitySetVia (name : Name)
    (search : List (Declared .container) → Declared .container →
      Session (Option (Declared .entitySet)))
    (seen : List (Declared .container)) (k : Declared .container) :
    Session (Option (Declared .entitySet)) := do
  if k ∈ seen then return none
  else
    match (c.entitySets k).find? fun s => (c.entitySet s).name = name with
    | some s => return some s
    | none =>
      match (← extended? c k).bind (·.declared?) with
      | none => return none
      | some k' => search (k :: seen) k'

/-- The entity set of that name in the nearest container that declares one, if that is no container
that has been seen; at most `n` containers are looked at.  Those that `findEntitySet?` allows are
never used up (`run_eq_of_seen`). -/
def findEntitySetWithin (name : Name) (seen : List (Declared .container)) :
    Nat → Declared .container → Session (Option (Declared .entitySet))
  | 0, _ => pure none
  | n + 1, k => findEntitySetVia c name (fun seen k => findEntitySetWithin name seen n k) seen k

/-- The entity set of that name in the nearest container that declares one. -/
def findEntitySet? (k : Declared .container) (name : Name) :
    Session (Option (Declared .entitySet)) :=
  findEntitySetWithin c name [] (c.count .container + 1) k

/-- The type of the entities of a set. -/
def entityType (s : Declared .entitySet) : Session (Element (Declared .type)) :=
  return (← remember c (.entityType s) (pure (c.entityTypeHandle s))).map (c.locate s.model)

/-- The association of a set. -/
def setAssociation (s : Declared .associationSet) : Session (Element (Declared .association)) :=
  return (← remember c (.setAssociation s) (pure (c.setAssociationHandle s))).map
    (c.locate s.model)

/-- The roles of an association set and the entity sets that have them. -/
def setEnds (s : Declared .associationSet) :
    Session (List (Name × Element (Declared .entitySet))) := do
  let ends := c.setEndDecls s
  let sets ← remember c (.setEnds s)
    (ends.mapM fun e => do
      let set? ← findEntitySet? c (c.containerOfAssociationSet s) e.entitySet
      return .ofOption (.unresolved .unresolvedEntitySet e.entitySet e.location)
        (set?.bind (c.handleFor s.model)))
  return (ends.zip sets).map fun (e, set) => (e.role, set.map (c.locate s.model))

/-! ### Annotations -/

/-- What an annotation applies, as its model sees it. -/
def appliedHandle (a : Declared .annot) : Session (AppliedTerm (Handle .term) (Handle .type)) :=
  remember c (.applied a) (pure (c.appliedHandle a))

/-- What an annotation applies. -/
def applied (a : Declared .annot) : Session (AppliedTerm (Declared .term) (Declared .type)) :=
  return (← appliedHandle c a).map (c.locate a.model) (c.locate a.model)

/-- Finds the properties that the bindings of an annotation are for.  Nothing is read for a value
annotation, which has none. -/
def findBindings (a : Declared .annot) : Session (List (Element (Handle .property))) :=
  match (c.annotated a).decl.content with
  | .value _ => pure []
  | .properties bindings => do
    let applied ← applied c a
    bindings.mapM fun b => do
      let p? ← match Catalog.appliedType? applied with
        | some t => findProperty? c t b.property
        | none => pure none
      return c.boundHandle a applied b p?

/-- The properties that the bindings of an annotation are for. -/
def bindingHandles (a : Declared .annot) : Session (List (Element (Handle .property))) :=
  remember c (.bindings a) (findBindings c a)

/-- The property that the binding with a number is for. -/
def boundProperty (a : Declared .annot) (i : Nat) : Session (Element (Declared .property)) :=
  return c.boundAt a (← bindingHandles c a) i

/-! ### Expressions -/

/-- What the names in an expression lead to. -/
def references (e : ExprRef) : Session ExprReferences :=
  remember c (.references e)
    (match c.malformed? e, (c.exprDecl e).form with
    | none, .record typeName? properties => do
      let type? := typeName?.map (c.exprType e)
      let element? := type?.bind (c.elementOf? e.owner.model)
      let fields ← properties.mapM fun field => do
        let p? ← match element?.bind (·.declared?) with
          | some t => findProperty? c t field.property
          | none => pure none
        return c.fieldHandleOf e element? field p?
      return .record type? fields
    | _, _ => pure (c.references e))

/-- An expression with its operands and with what its names lead to. -/
def view (e : ExprRef) : Session ExprView :=
  return c.viewWith e (← references c e)

/-- The type to which one segment of a path leads.  A structural property hides a navigation
property. -/
def pathStep (fail : String → Placeholder) (t : Declared .type) (segment : Name) :
    Session (Element (Declared .type)) := do
  match ← findProperty? c t segment with
  | some p => return c.elementAlong fail t segment (← propertyElement? c p)
  | none =>
    match ← findNavigation? c t segment with
    | some n => navigationTarget c n
    | none => return .placeholder (c.missingSegment fail t segment)

/-- The property that a path beginning in a type leads to, as a model sees it. -/
def followPath (m : ModelId) (fail : String → Placeholder) (t : Declared .type) :
    List Name → Session (Element (Handle .property))
  | [] => return .placeholder (fail "empty property path")
  | [last] =>
    return .ofOption (c.missingSegment fail t last)
      ((← findProperty? c t last).bind (c.handleFor m))
  | segment :: rest => do
    match ← pathStep c fail t segment with
    | .declared t => followPath m fail t rest
    | .placeholder p => return .placeholder p

/-- The property that the path of an expression leads to, as its model sees it. -/
def pathTargetHandle (e : ExprRef) (segments : List Name) :
    Session (Element (Handle .property)) :=
  remember c (.pathTarget e)
    (match Catalog.pathStart (c.exprContext? e) segments (c.exprDecl e).location with
    | .placeholder p => pure (.placeholder p)
    | .declared t =>
      followPath c e.owner.model (Catalog.missingAlong segments (c.exprDecl e).location) t segments)

/-- The property that the path of an expression leads to. -/
def pathTarget (e : ExprRef) (segments : List Name) : Session (Element (Declared .property)) :=
  return (← pathTargetHandle c e segments).map (c.locate e.owner.model)

end Session

end Schemata

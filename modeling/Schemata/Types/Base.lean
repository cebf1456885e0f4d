import Schemata.Catalog.Lookup
import Schemata.Graph.Chain

/-!
# Base types

A complex or entity type may name a base.  The base must be declared and of the same kind, and the
chain of bases must come to an end; otherwise `Catalog.baseHandle?` gives a placeholder.  A type
whose chain runs into a circle has no base, whether the type is part of the circle or not.

`Catalog.ancestry` lists a type and the bases above it, nearest first.
-/

namespace Schemata.Catalog

variable (c : Catalog)

/-- The sort of a type. -/
def kind (t : Declared .type) : TypeKind := (c.type t).body.kind

/-- The base that a type names. -/
def baseName? (t : Declared .type) : Option Name := (c.type t).body.structured?.bind (·.base?)

/-- The base that a type names, if it is declared and of the same kind. -/
def namedBase? (t : Declared .type) : Option (Declared .type) :=
  match (c.baseName? t).bind (c.resolve? (c.typeSchema t) .type) with
  | none => none
  | some h =>
    let base := c.locate t.model h
    if c.kind base = c.kind t then some base else none

/-- Whether the chain of bases from a type on has no end. -/
def hasEndlessBases (t : Declared .type) : Bool :=
  Chain.continues c.namedBase? (c.count .type + 1) t

/-- The placeholder for a base in a chain without an end. -/
def cyclicBase (t : Declared .type) (name : Name) : Placeholder :=
  let kind : PlaceholderKind := if c.kind t = .entity then .cyclicEntity else .cyclicComplex
  .cyclic kind name (c.type t).location

/-- The placeholder for a base of another kind. -/
def wrongBase (t base : Declared .type) (name : Name) : Placeholder :=
  .bad name (.error .wrongBase (c.type t).location
    (s!"{(c.kind t).display} '{(c.type t).qualifiedName}' cannot derive from " ++
      s!"{(c.kind base).display} '{name}'"))

/-- The base of a type as its model sees it; none if the type names no base. -/
def baseHandle? (t : Declared .type) : Option (Element (Handle .type)) :=
  (c.baseName? t).map fun reference =>
    let schema := c.typeSchema t
    let name := c.expand schema reference
    (c.resolve schema .type reference (c.type t).location).bind fun h =>
      let base := c.locate t.model h
      if c.kind base ≠ c.kind t then .placeholder (c.wrongBase t base name)
      else if c.hasEndlessBases t then .placeholder (c.cyclicBase t name)
      else .declared h

/-- The base of a type; none if the type names no base. -/
def base? (t : Declared .type) : Option (Element (Declared .type)) :=
  (c.baseHandle? t).map (·.map (c.locate t.model))

/-- The declared base of a type, if it has one. -/
def declaredBase? (t : Declared .type) : Option (Declared .type) :=
  (c.base? t).bind (·.declared?)

/-- A type and the bases above it, nearest first. -/
def ancestry (t : Declared .type) : List (Declared .type) :=
  Chain.trail c.declaredBase? [] (c.count .type + 1) t

/-- Whether a type is the other one or derives from it. -/
def derivesFrom (t other : Declared .type) : Bool := (c.ancestry t).contains other

end Schemata.Catalog

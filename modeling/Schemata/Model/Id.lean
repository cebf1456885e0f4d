import Schemata.Location

/-!
# How elements are numbered

A model holds each kind of element in one array.  An `Id` is a place in such an array: its type
says which array is meant, so an identifier of a property cannot be read as one of a type.

An identifier alone does not say in which model it is meant.  A `Handle` says so relative to the
model that makes the reference: either that model itself or one of those it references, counted in
their order.
-/

namespace Schemata

/-- The kinds of element that are numbered. -/
inductive ElementKind where
  | schema
  /-- A complex type, an entity type or an enumeration. -/
  | type
  | property
  | navigation
  | association
  | term
  | container
  | entitySet
  | associationSet
  | annot
deriving DecidableEq, Repr, Inhabited

/-- The number of an element among those of its kind, in document order. -/
structure Id (k : ElementKind) where
  index : Nat
deriving DecidableEq, Repr, Inhabited

/-- The identifiers of `n` elements. -/
def Id.upTo (k : ElementKind) (n : Nat) : List (Id k) := (List.range n).map Id.mk

/-- How many referenced models a number tells apart: it has 16 bits. -/
def Origin.capacity : Nat := UInt16.size

/-- Where a reference leads, seen from the model that makes it. -/
inductive Origin where
  /-- Into the model itself. -/
  | self
  /-- Into a referenced model, by its number among them. -/
  | referenced (index : Fin Origin.capacity)
deriving DecidableEq, Repr, Inhabited

/-- An element, seen from the model that refers to it. -/
structure Handle (k : ElementKind) where
  origin : Origin
  id : Id k
deriving DecidableEq, Repr, Inhabited

/-- An element of the referenced model at a position.  Numbers begin again with the first model
where the positions go on. -/
def Handle.referenced {k : ElementKind} (position : Nat) (id : Id k) : Handle k :=
  ⟨.referenced ⟨position % Origin.capacity, Nat.mod_lt _ (by decide)⟩, id⟩

/-- A declaration at the top of a schema. -/
inductive ItemId where
  | type (id : Id .type)
  | association (id : Id .association)
  | term (id : Id .term)
  | container (id : Id .container)
deriving DecidableEq, Repr

/-- What an annotation can be attached to. -/
inductive Target where
  | type (id : Id .type)
  | property (id : Id .property)
  | navigation (id : Id .navigation)
  | association (id : Id .association)
  | term (id : Id .term)
  | container (id : Id .container)
  | entitySet (id : Id .entitySet)
deriving DecidableEq, Repr

/-- A declaration, as something that annotations can be attached to. -/
def ItemId.target : ItemId → Target
  | type id => .type id
  | association id => .association id
  | term id => .term id
  | container id => .container id

end Schemata

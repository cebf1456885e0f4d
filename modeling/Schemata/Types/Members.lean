import Schemata.Types.Base

/-!
# Members of types

A type has the properties it declares and those of its bases.  Lists put the bases' members first,
in the order of declaration; a search by name begins at the type itself.
-/

namespace Schemata.Catalog

variable (c : Catalog)

/-! ### Properties -/

/-- The properties that a type declares. -/
def declaredProperties (t : Declared .type) : List (Declared .property) :=
  match (c.type t).body.structured? with
  | some body => body.properties.map (⟨t.model, ·⟩)
  | none => []

/-- The properties of a type, those of its bases first. -/
def properties (t : Declared .type) : List (Declared .property) :=
  (c.ancestry t).reverse.flatMap c.declaredProperties

/-- The nearest property of a type that has the name. -/
def findProperty? (t : Declared .type) (name : Name) : Option (Declared .property) :=
  (c.ancestry t).findSome? fun t =>
    (c.declaredProperties t).find? fun p => (c.property p).name = name

/-- The navigation properties that a type declares. -/
def declaredNavigation (t : Declared .type) : List (Declared .navigation) :=
  match (c.type t).body.structured? with
  | some body => body.navigation.map (⟨t.model, ·⟩)
  | none => []

/-- The navigation properties of a type, those of its bases first. -/
def navigation (t : Declared .type) : List (Declared .navigation) :=
  (c.ancestry t).reverse.flatMap c.declaredNavigation

/-- The nearest navigation property of a type that has the name. -/
def findNavigation? (t : Declared .type) (name : Name) : Option (Declared .navigation) :=
  (c.ancestry t).findSome? fun t =>
    (c.declaredNavigation t).find? fun n => (c.navigationProperty n).name = name

/-- The qualified name of a property. -/
def propertyName (p : Declared .property) : Name :=
  qualify (c.type (c.declaringType p)).qualifiedName (c.property p).name

/-- The qualified name of a navigation property. -/
def navigationName (n : Declared .navigation) : Name :=
  qualify (c.type (c.navigationDeclaringType n)).qualifiedName (c.navigationProperty n).name

/-- The members of a type whose name an earlier member has; the two sorts of property share one
space of names. -/
def duplicateMembers (t : Declared .type) : List Diagnostic :=
  let properties := (c.declaredProperties t).map fun p =>
    ("property", (c.property p).name, (c.property p).location)
  let navigation := (c.declaredNavigation t).map fun n =>
    ("navigation property", (c.navigationProperty n).name, (c.navigationProperty n).location)
  let enum := match (c.type t).body.enum? with
    | some body => body.members.map fun m => ("enum member", m.name, m.location)
    | none => []
  duplicates (fun (_, name, _) => name)
    (fun (sort, name, location) =>
      .duplicateMember sort name (c.type t).qualifiedName location) []
    (properties ++ navigation ++ enum)

/-! ### Keys -/

/-- The placeholder for a property that a type should have. -/
def missingProperty (name owner : Name) (location : Location) : Placeholder :=
  .withMessage .unresolvedProperty name location
    s!"property '{name}' could not be found on type '{owner}'"

/-- The key that a type declares, as its model sees it. -/
def keyHandles (t : Declared .type) : List (Element (Handle .property)) :=
  match (c.type t).body.structured? with
  | none => []
  | some body =>
    body.key.map fun name =>
      .ofOption (missingProperty name (c.type t).qualifiedName (c.type t).location)
        ((c.findProperty? t name).bind (c.handleFor t.model))

/-- The properties of the key that a type declares. -/
def key (t : Declared .type) : List (Element (Declared .property)) :=
  (c.keyHandles t).map (·.map (c.locate t.model))

/-- The key that a type declares or that it has from the nearest base that declares one. -/
def effectiveKey (t : Declared .type) : List (Element (Declared .property)) :=
  (((c.ancestry t).map c.key).find? (!·.isEmpty)).getD []

end Schemata.Catalog

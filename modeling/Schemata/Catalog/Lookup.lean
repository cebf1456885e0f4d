import Schemata.Catalog.Basic

/-!
# Finding elements by name

A name is looked up in a model first and then in the models that it references, in their order.
There are two ways to ask.  A schema that refers to an element expands its aliases and gets a handle
(`Catalog.resolve?`).  One who looks at the model from outside gives a full name and gets the
element (`Catalog.find`).
-/

namespace Schemata.Catalog

variable (c : Catalog)

/-- A reference with an alias of the schema replaced by the namespace it stands for. -/
def expand (s : Declared .schema) (reference : Name) : Name :=
  (c.model s.model).expand s.id reference

/-! ### From within -/

/-- The first element with a full name, as the model sees it. -/
def handle? (m : ModelId) (k : SymbolKind) (name : Name) : Option (Handle k.element) :=
  match (c.model m).first? k name with
  | some id => some ⟨.self, id⟩
  | none =>
    (c.model m).references.zipIdx.findSome? fun (r, i) =>
      ((c.model r).first? k name).map (.referenced i)

/-- What a reference from a schema leads to. -/
def resolve? (s : Declared .schema) (k : SymbolKind) (reference : Name) :
    Option (Handle k.element) :=
  c.handle? s.model k (c.expand s reference)

/-! ### From outside -/

/-- The first element with a full name in a model or in those that it references. -/
def find? (m : ModelId) (k : SymbolKind) (name : Name) : Option (Declared k.element) :=
  (m :: (c.model m).references).findSome? fun r => ((c.model r).first? k name).map (⟨r, ·⟩)

/-- The placeholder for an element that is not found. -/
def missing (k : SymbolKind) (name : Name) (location : Location) : Placeholder :=
  let kind : PlaceholderKind := match k with
    | .type => .unresolvedType
    | .term => .unresolvedTerm
    | .container => .unresolvedContainer
    | .association => .unresolvedAssociation
  .unresolved kind name location

/-- The first element with a full name, or a placeholder that stands nowhere. -/
def find (m : ModelId) (k : SymbolKind) (name : Name) : Element (Declared k.element) :=
  .ofOption (missing k name .unknown) (c.find? m k name)

/-! ### References with a placeholder for a failure -/

/-- What a reference from a schema leads to, or a placeholder at the place of the reference. -/
def resolve (s : Declared .schema) (k : SymbolKind) (reference : Name) (location : Location) :
    Element (Handle k.element) :=
  .ofOption (missing k (c.expand s reference) location) (c.resolve? s k reference)

/-- Words joined by "or". -/
def alternatives : List String → String
  | [] => ""
  | [w] => w
  | w :: ws => w ++ " or " ++ alternatives ws

/-- The type that a reference leads to, which must be of one of some kinds. -/
def resolveType (s : Declared .schema) (reference : Name) (allowed : List TypeKind)
    (location : Location) : Element (Handle .type) :=
  (c.resolve s .type reference location).bind fun h =>
    let kind := (c.type (c.locate s.model h)).body.kind
    if kind ∈ allowed then .declared h
    else
      let name := c.expand s reference
      .placeholder (.bad name (.error .wrongTypeReference location
        s!"'{name}' is a {kind.display}, expected {alternatives (allowed.map (·.display))}"))

end Schemata.Catalog

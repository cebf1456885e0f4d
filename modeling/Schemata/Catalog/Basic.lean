import Schemata.Model.Build
import Schemata.Placeholder
import Schemata.Vocabulary.Core

/-!
# Catalogs

A `Catalog` is a row of models of which each may reference earlier ones.  The first is the core
vocabulary.  `Catalog.add` builds a model and puts it at the end.

A `Declared k` is an element of kind `k`: a model and an identifier in it.  Two of them are equal
if they are the same element.  `Catalog.locate` follows a handle from the model that makes the
reference, and `Catalog.handleFor` gives the handle by which a model sees an element.
-/

namespace Schemata

/-- Models of which each may reference earlier ones. -/
structure Catalog where
  models : Array Model

/-- An element of a model. -/
structure Declared (k : ElementKind) where
  model : ModelId
  id : Id k
deriving DecidableEq, Repr

namespace Catalog

/-! ### Models -/

/-- The number of the core vocabulary. -/
def core : ModelId := 0

/-- The core vocabulary alone. -/
def initial : Catalog :=
  ⟨#[Model.build { Options.standard with includeCore := false } [] [Core.schema]]⟩

variable (c : Catalog)

/-- The model with a number. -/
def model (m : ModelId) : Model := c.models.getD m default

/-- What a new model references directly: the given models, and the core vocabulary if it is to be
included and neither the schemas nor those models declare its namespace. -/
def directReferences (options : Options) (given : List ModelId) (schemas : List Decl.Schema) :
    List ModelId :=
  if options.includeCore && !schemas.any (·.namespaceName == Core.namespaceName) &&
      !given.any fun r => (c.model r).declaresNamespace Core.namespaceName
  then given ++ [core] else given

/-- Models without repeats, each where it comes first; `seen` are those that came before, the last
one first. -/
def distinct (seen : List ModelId) : List ModelId → List ModelId
  | [] => seen.reverse
  | r :: rs => if seen.any (· == r) then distinct seen rs else distinct (r :: seen) rs

/-- The directly referenced models, then those that they reference, each once. -/
def allReferences (direct : List ModelId) : List ModelId :=
  distinct [] (direct ++ direct.flatMap fun r => (c.model r).references)

/-- Builds one more model, which references models that are there already. -/
def add (options : Options) (given : List ModelId) (schemas : List Decl.Schema) : Catalog :=
  let references := c.allReferences (c.directReferences options given schemas)
  ⟨c.models.push (Model.build options references schemas)⟩

/-! ### Elements -/

/-- All elements of a kind in a model, in document order. -/
def elements (m : ModelId) (k : ElementKind) : List (Declared k) :=
  ((c.model m).ids k).map (⟨m, ·⟩)

/-- All elements of a kind, model by model. -/
def allElements (k : ElementKind) : List (Declared k) :=
  (List.range c.models.size).flatMap (c.elements · k)

/-- The number of elements of a kind in all models. -/
def count (k : ElementKind) : Nat := (c.allElements k).length

/-- The entry of a schema. -/
def schema (s : Declared .schema) : SchemaEntry := (c.model s.model).schema s.id

/-- The entry of a type. -/
def type (t : Declared .type) : TypeEntry := (c.model t.model).type t.id

/-- The entry of a property. -/
def property (p : Declared .property) : PropertyEntry := (c.model p.model).property p.id

/-- The entry of a navigation property. -/
def navigationProperty (n : Declared .navigation) : NavigationEntry :=
  (c.model n.model).navigationProperty n.id

/-- The entry of an association. -/
def association (a : Declared .association) : AssociationEntry :=
  (c.model a.model).association a.id

/-- The entry of a term. -/
def term (t : Declared .term) : TermEntry := (c.model t.model).term t.id

/-- The entry of a container. -/
def container (k : Declared .container) : ContainerEntry := (c.model k.model).container k.id

/-- The entry of an entity set. -/
def entitySet (s : Declared .entitySet) : EntitySetEntry := (c.model s.model).entitySet s.id

/-- The entry of an association set. -/
def associationSet (s : Declared .associationSet) : AssociationSetEntry :=
  (c.model s.model).associationSet s.id

/-- The entry of an annotation. -/
def annotated (a : Declared .annot) : AnnotationEntry := (c.model a.model).annotated a.id

/-! ### Handles -/

/-- The element that a model means by a handle. -/
def locate {k : ElementKind} (m : ModelId) (h : Handle k) : Declared k :=
  match h.origin with
  | .self => ⟨m, h.id⟩
  | .referenced i => ⟨(c.model m).references.getD i m, h.id⟩

/-- How a model sees an element: as its own or as one of a model that it references. -/
def handleFor {k : ElementKind} (m : ModelId) (e : Declared k) : Option (Handle k) :=
  if e.model = m then some ⟨.self, e.id⟩
  else ((c.model m).references.idxOf? e.model).map (.referenced · e.id)

/-! ### Schemas -/

/-- The schema that declares a type. -/
def typeSchema (t : Declared .type) : Declared .schema := ⟨t.model, (c.type t).schema⟩

/-- The schema that declares an association. -/
def associationSchema (a : Declared .association) : Declared .schema :=
  ⟨a.model, (c.association a).schema⟩

/-- The schema that declares a term. -/
def termSchema (t : Declared .term) : Declared .schema := ⟨t.model, (c.term t).schema⟩

/-- The schema that declares a container. -/
def containerSchema (k : Declared .container) : Declared .schema :=
  ⟨k.model, (c.container k).schema⟩

/-- The schema that holds an annotation. -/
def annotationSchema (a : Declared .annot) : Declared .schema :=
  ⟨a.model, (c.annotated a).schema⟩

/-- The type that declares a property. -/
def declaringType (p : Declared .property) : Declared .type := ⟨p.model, (c.property p).declaring⟩

/-- The type that declares a navigation property. -/
def navigationDeclaringType (n : Declared .navigation) : Declared .type :=
  ⟨n.model, (c.navigationProperty n).declaring⟩

/-- The container that declares an entity set. -/
def containerOf (s : Declared .entitySet) : Declared .container :=
  ⟨s.model, (c.entitySet s).container⟩

/-- The container that declares an association set. -/
def containerOfAssociationSet (s : Declared .associationSet) : Declared .container :=
  ⟨s.model, (c.associationSet s).container⟩

end Catalog

end Schemata

import Schemata.Diagnostic.Collector
import Schemata.Model.Entry

/-!
# Models

A `Model` is a forest of schemas taken apart: one array of entries for each kind of element, in
document order, and the list of the models that it references.  Nothing in it is resolved but the
targets of annotation blocks.

This module gives the entries of a model by their identifiers, the symbols it declares
(`Model.candidates`, `Model.first?`), the names that are declared more than once and the labels of
its expressions.  Types, terms, containers and associations have a space of names each; within one
the first declaration of a name counts.
-/

namespace Schemata

/-- A model, by its number in a catalog. -/
abbrev ModelId := Nat

/-- What is included in a model and what is checked of it. -/
structure Options where
  /-- Reference the core vocabulary where no schema declares it. -/
  includeCore : Bool
  /-- Check the default values of properties and terms. -/
  checkDefaults : Bool
  /-- Check that declared names are identifiers. -/
  checkNames : Bool
  /-- Check independent elements side by side. -/
  parallel : Bool
deriving DecidableEq, Repr, Inhabited

/-- Include and check everything, one element after another. -/
def Options.standard : Options := ⟨true, true, true, false⟩

/-- Schemas taken apart. -/
structure Model where
  options : Options
  /-- The models that are referenced directly, then those that they reference, each once. -/
  references : List ModelId
  schemas : Array SchemaEntry
  types : Array TypeEntry
  properties : Array PropertyEntry
  navigation : Array NavigationEntry
  associations : Array AssociationEntry
  terms : Array TermEntry
  containers : Array ContainerEntry
  entitySets : Array EntitySetEntry
  associationSets : Array AssociationSetEntry
  annotations : Array AnnotationEntry
  blocks : Array BlockEntry
deriving Inhabited

/-- The kinds of element that are found by a qualified name. -/
inductive SymbolKind where
  | type
  | term
  | container
  | association
deriving DecidableEq, Repr, Inhabited

namespace SymbolKind

/-- All of them. -/
def all : List SymbolKind := [type, term, container, association]

/-- The kind of element that such a name leads to. -/
@[reducible] def element : SymbolKind → ElementKind
  | type => .type
  | term => .term
  | container => .container
  | association => .association

/-- The noun for such an element. -/
def display : SymbolKind → String
  | type => "type"
  | term => "term"
  | container => "entity container"
  | association => "association"

end SymbolKind

namespace Model

/-- No schema yet. -/
def empty (options : Options) (references : List ModelId) : Model :=
  ⟨options, references, #[], #[], #[], #[], #[], #[], #[], #[], #[], #[], #[]⟩

/-! ### Entries -/

variable (m : Model)

/-- The entry of a schema. -/
def schema (id : Id .schema) : SchemaEntry := m.schemas.getD id.index default

/-- The entry of a type. -/
def type (id : Id .type) : TypeEntry := m.types.getD id.index default

/-- The entry of a property. -/
def property (id : Id .property) : PropertyEntry := m.properties.getD id.index default

/-- The entry of a navigation property. -/
def navigationProperty (id : Id .navigation) : NavigationEntry :=
  m.navigation.getD id.index default

/-- The entry of an association. -/
def association (id : Id .association) : AssociationEntry := m.associations.getD id.index default

/-- The entry of a term. -/
def term (id : Id .term) : TermEntry := m.terms.getD id.index default

/-- The entry of a container. -/
def container (id : Id .container) : ContainerEntry := m.containers.getD id.index default

/-- The entry of an entity set. -/
def entitySet (id : Id .entitySet) : EntitySetEntry := m.entitySets.getD id.index default

/-- The entry of an association set. -/
def associationSet (id : Id .associationSet) : AssociationSetEntry :=
  m.associationSets.getD id.index default

/-- The entry of an annotation. -/
def annotated (id : Id .annot) : AnnotationEntry := m.annotations.getD id.index default

/-- The entries of a kind, in document order. -/
def entries : (k : ElementKind) → Array (Entry k)
  | .schema => m.schemas
  | .type => m.types
  | .property => m.properties
  | .navigation => m.navigation
  | .association => m.associations
  | .term => m.terms
  | .container => m.containers
  | .entitySet => m.entitySets
  | .associationSet => m.associationSets
  | .annot => m.annotations

/-- The entry of an element of any kind. -/
def entry {k : ElementKind} (id : Id k) : Entry k := (m.entries k).getD id.index default

/-- The number of elements of a kind. -/
def count (k : ElementKind) : Nat := (m.entries k).size

/-- The model with one more element of a kind. -/
def push : (k : ElementKind) → Entry k → Model
  | .schema, e => { m with schemas := m.schemas.push e }
  | .type, e => { m with types := m.types.push e }
  | .property, e => { m with properties := m.properties.push e }
  | .navigation, e => { m with navigation := m.navigation.push e }
  | .association, e => { m with associations := m.associations.push e }
  | .term, e => { m with terms := m.terms.push e }
  | .container, e => { m with containers := m.containers.push e }
  | .entitySet, e => { m with entitySets := m.entitySets.push e }
  | .associationSet, e => { m with associationSets := m.associationSets.push e }
  | .annot, e => { m with annotations := m.annotations.push e }

/-- The identifiers of all elements of a kind, in document order. -/
def ids (k : ElementKind) : List (Id k) := Id.upTo k (m.count k)

/-- The blocks of a schema, in document order. -/
def blocksOf (id : Id .schema) : List BlockEntry := m.blocks.toList.filter (·.schema = id)

/-- Whether a schema has the namespace. -/
def declaresNamespace (ns : Name) : Bool := m.schemas.toList.any (·.namespaceName == ns)

/-! ### Symbols -/

/-- The qualified names of a kind, in document order. -/
def names : SymbolKind → List Name
  | .type => m.types.toList.map (·.qualifiedName)
  | .term => m.terms.toList.map (·.qualifiedName)
  | .container => m.containers.toList.map (·.qualifiedName)
  | .association => m.associations.toList.map (·.qualifiedName)

/-- All declarations with the name, in document order. -/
def candidates (k : SymbolKind) (name : Name) : List (Id k.element) :=
  (m.ids k.element).zip (m.names k) |>.filterMap fun (id, n) => if n = name then some id else none

/-- The first declaration with the name. -/
def first? (k : SymbolKind) (name : Name) : Option (Id k.element) :=
  ((m.names k).idxOf? name).map Id.mk

/-- The names of a kind that are declared more than once, in the order of their first
declarations. -/
def repeatedNames (k : SymbolKind) : List Name :=
  (m.names k).eraseDups.filter fun n => 1 < (m.names k).count n

/-- The names that are declared more than once, kind by kind. -/
def repeatedSymbols : List (SymbolKind × Name) :=
  SymbolKind.all.flatMap fun k => (m.repeatedNames k).map (k, ·)

/-- The space and the name that a declaration takes, and where it stands. -/
def symbol : ItemId → SymbolKind × Name × Location
  | .type id => (.type, (m.type id).qualifiedName, (m.type id).location)
  | .association id =>
    (.association, (m.association id).qualifiedName, (m.association id).location)
  | .term id => (.term, (m.term id).qualifiedName, (m.term id).location)
  | .container id => (.container, (m.container id).qualifiedName, (m.container id).location)

/-- The declarations of names that are taken, in document order. -/
def duplicateDeclarations : List Diagnostic :=
  duplicates (fun (k, name, _) => (k, name))
    (fun (k, name, location) => .duplicateDeclaration k.display name location) []
    ((m.schemas.toList.flatMap (·.items)).map m.symbol)

/-! ### Aliases -/

/-- What stands for a namespace in a schema: its own alias before those of other schemas. -/
def aliases (id : Id .schema) : List (Name × Name) :=
  let s := m.schema id
  s.alias?.toList.map (·, s.namespaceName) ++ s.usings.map fun u => (u.aliasName, u.namespaceName)

/-- A reference with an alias replaced by the namespace it stands for. -/
def expand (id : Id .schema) (reference : Name) : Name :=
  match splitQualified reference with
  | none => reference
  | some (ns, name) =>
    match (m.aliases id).lookup ns with
    | some ns' => ns' ++ "." ++ name
    | none => reference

/-! ### Labels -/

/-- A labeled expression. -/
structure Label where
  name : Name
  owner : Id .annot
  /-- The place of the expression among those of its annotation. -/
  place : Nat
deriving DecidableEq, Repr

/-- The labeled expressions of an annotation, in the order of the trees. -/
def labelsOf (id : Id .annot) : List Label :=
  let nodes := (m.annotated id).exprs.nodes.toList
  nodes.zipIdx.filterMap fun (node, place) =>
    match node.decl.form with
    | .labeled name _ => some ⟨name, id, place⟩
    | _ => none

/-- The labeled expressions of a schema, in document order. -/
def labels (id : Id .schema) : List Label :=
  (m.ids .annot).filter (fun a => (m.annotated a).schema = id) |>.flatMap m.labelsOf

/-- The first labeled expression of that name in a schema. -/
def label? (id : Id .schema) (name : Name) : Option Label :=
  (m.labels id).find? (·.name = name)

end Model

end Schemata

import Schemata.Model.Build
import Schemata.Proofs.Matching.Lifting

/-!
# Models that hold the same under other numbers

A `Matching` says, for each kind, which element of one model is taken for which of another.  Two
entries match if they hold the same but for the numbers in them, and those match
(`Matching.OnEntries`).  `Model.Matches T m m'` says that matching elements have matching entries,
that matching schemas have matching blocks and annotations, and that no element is taken for two.
-/

namespace Schemata

/-- Which elements of two models are taken for the same, kind by kind. -/
def Matching := (k : ElementKind) → Id k → Id k → Prop

namespace Matching

/-- Each number is taken for itself. -/
def same : Matching := fun _ => Eq

variable (T : Matching)

/-! ### Entries -/

/-- Matching declarations. -/
inductive OnItems : ItemId → ItemId → Prop
  | type {id id' : Id .type} (h : T .type id id') : OnItems (.type id) (.type id')
  | association {id id' : Id .association} (h : T .association id id') :
    OnItems (.association id) (.association id')
  | term {id id' : Id .term} (h : T .term id id') : OnItems (.term id) (.term id')
  | container {id id' : Id .container} (h : T .container id id') :
    OnItems (.container id) (.container id')

/-- Matching elements that can be annotated. -/
inductive OnTargets : Target → Target → Prop
  | type {id id' : Id .type} (h : T .type id id') : OnTargets (.type id) (.type id')
  | property {id id' : Id .property} (h : T .property id id') :
    OnTargets (.property id) (.property id')
  | navigation {id id' : Id .navigation} (h : T .navigation id id') :
    OnTargets (.navigation id) (.navigation id')
  | association {id id' : Id .association} (h : T .association id id') :
    OnTargets (.association id) (.association id')
  | term {id id' : Id .term} (h : T .term id id') : OnTargets (.term id) (.term id')
  | container {id id' : Id .container} (h : T .container id id') :
    OnTargets (.container id) (.container id')
  | entitySet {id id' : Id .entitySet} (h : T .entitySet id id') :
    OnTargets (.entitySet id) (.entitySet id')

/-- Matching entries of schemas. -/
structure OnSchemas (e e' : SchemaEntry) : Prop where
  namespaceName : e'.namespaceName = e.namespaceName
  alias? : e'.alias? = e.alias?
  usings : e'.usings = e.usings
  items : List.Forall₂ T.OnItems e.items e'.items
  location : e'.location = e.location

/-- Matching blocks. -/
structure OnBlocks (b b' : BlockEntry) : Prop where
  target : b'.target = b.target
  qualifier : b'.qualifier = b.qualifier
  annotations : List.Forall₂ (T .annot) b.annotations b'.annotations
  attachedTo? : Option.Rel T.OnTargets b.attachedTo? b'.attachedTo?
  location : b'.location = b.location

/-- Matching entries of annotations. -/
structure OnAnnotations (e e' : AnnotationEntry) : Prop where
  schema : T .schema e.schema e'.schema
  decl : e'.decl = e.decl
  target? : Option.Rel T.OnTargets e.target? e'.target?
  context? : Option.Rel (T .type) e.context? e'.context?
  outOfLine : e'.outOfLine = e.outOfLine
  exprs : e'.exprs = e.exprs
  roots : e'.roots = e.roots

/-- Matching declarations of complex or entity types. -/
structure OnStructured (b b' : StructuredEntry) : Prop where
  base? : b'.base? = b.base?
  isAbstract : b'.isAbstract = b.isAbstract
  isOpen : b'.isOpen = b.isOpen
  key : b'.key = b.key
  properties : List.Forall₂ (T .property) b.properties b'.properties
  navigation : List.Forall₂ (T .navigation) b.navigation b'.navigation

/-- Matching declarations of types, of the same sort. -/
inductive OnBodies : TypeBody → TypeBody → Prop
  | complex {b b' : StructuredEntry} (h : T.OnStructured b b') : OnBodies (.complex b) (.complex b')
  | entity {b b' : StructuredEntry} (h : T.OnStructured b b') : OnBodies (.entity b) (.entity b')
  | enum (b : EnumEntry) : OnBodies (.enum b) (.enum b)

/-- Matching entries of types. -/
structure OnTypes (e e' : TypeEntry) : Prop where
  schema : T .schema e.schema e'.schema
  name : e'.name = e.name
  qualifiedName : e'.qualifiedName = e.qualifiedName
  body : T.OnBodies e.body e'.body
  annotations : List.Forall₂ (T .annot) e.annotations e'.annotations
  location : e'.location = e.location

/-- Matching entries of properties. -/
structure OnProperties (e e' : PropertyEntry) : Prop where
  declaring : T .type e.declaring e'.declaring
  name : e'.name = e.name
  typeName : e'.typeName = e.typeName
  nullable : e'.nullable = e.nullable
  default? : e'.default? = e.default?
  fixedConcurrency : e'.fixedConcurrency = e.fixedConcurrency
  annotations : List.Forall₂ (T .annot) e.annotations e'.annotations
  location : e'.location = e.location

/-- Matching entries of navigation properties. -/
structure OnNavigation (e e' : NavigationEntry) : Prop where
  declaring : T .type e.declaring e'.declaring
  name : e'.name = e.name
  relationship : e'.relationship = e.relationship
  fromRole : e'.fromRole = e.fromRole
  toRole : e'.toRole = e.toRole
  annotations : List.Forall₂ (T .annot) e.annotations e'.annotations
  location : e'.location = e.location

/-- Matching entries of associations. -/
structure OnAssociations (e e' : AssociationEntry) : Prop where
  schema : T .schema e.schema e'.schema
  name : e'.name = e.name
  qualifiedName : e'.qualifiedName = e.qualifiedName
  end1 : e'.end1 = e.end1
  end2 : e'.end2 = e.end2
  annotations : List.Forall₂ (T .annot) e.annotations e'.annotations
  location : e'.location = e.location

/-- Matching entries of terms. -/
structure OnTerms (e e' : TermEntry) : Prop where
  schema : T .schema e.schema e'.schema
  name : e'.name = e.name
  qualifiedName : e'.qualifiedName = e.qualifiedName
  typeName : e'.typeName = e.typeName
  nullable : e'.nullable = e.nullable
  default? : e'.default? = e.default?
  appliesTo? : e'.appliesTo? = e.appliesTo?
  annotations : List.Forall₂ (T .annot) e.annotations e'.annotations
  location : e'.location = e.location

/-- Matching entries of containers. -/
structure OnContainers (e e' : ContainerEntry) : Prop where
  schema : T .schema e.schema e'.schema
  name : e'.name = e.name
  qualifiedName : e'.qualifiedName = e.qualifiedName
  extends? : e'.extends? = e.extends?
  entitySets : List.Forall₂ (T .entitySet) e.entitySets e'.entitySets
  associationSets : List.Forall₂ (T .associationSet) e.associationSets e'.associationSets
  annotations : List.Forall₂ (T .annot) e.annotations e'.annotations
  location : e'.location = e.location

/-- Matching entries of entity sets. -/
structure OnEntitySets (e e' : EntitySetEntry) : Prop where
  container : T .container e.container e'.container
  name : e'.name = e.name
  entityType : e'.entityType = e.entityType
  annotations : List.Forall₂ (T .annot) e.annotations e'.annotations
  location : e'.location = e.location

/-- Matching entries of association sets. -/
structure OnAssociationSets (e e' : AssociationSetEntry) : Prop where
  container : T .container e.container e'.container
  decl : e'.decl = e.decl

/-- Matching entries, by kind. -/
def OnEntries : (k : ElementKind) → Entry k → Entry k → Prop
  | .schema => T.OnSchemas
  | .type => T.OnTypes
  | .property => T.OnProperties
  | .navigation => T.OnNavigation
  | .association => T.OnAssociations
  | .term => T.OnTerms
  | .container => T.OnContainers
  | .entitySet => T.OnEntitySets
  | .associationSet => T.OnAssociationSets
  | .annot => T.OnAnnotations

/-- A declaration and the element that it declares. -/
theorem OnItems.target {i i' : ItemId} (h : T.OnItems i i') : T.OnTargets i.target i'.target := by
  cases h with
  | type h => exact .type h
  | association h => exact .association h
  | term h => exact .term h
  | container h => exact .container h

/-- Where no element is taken for two, no element that can be annotated is. -/
theorem OnTargets.biUnique (hT : ∀ k, Relator.BiUnique (T k)) : Relator.BiUnique T.OnTargets := by
  constructor
  · intro t t' u h h'
    cases h <;> cases h' <;> rename_i h _ h' <;> exact congrArg _ ((hT _).1 h h')
  · intro t u u' h h'
    cases h <;> cases h' <;> rename_i h _ h' <;> exact congrArg _ ((hT _).2 h h')

section bodies

variable {T} {b b' : TypeBody} (h : T.OnBodies b b')
include h

theorem OnBodies.kind : b'.kind = b.kind := by
  cases h <;> rfl

theorem OnBodies.structured? : Option.Rel T.OnStructured b.structured? b'.structured? := by
  cases h with
  | complex h => exact .some h
  | entity h => exact .some h
  | enum => exact .none

theorem OnBodies.enum? : b'.enum? = b.enum? := by
  cases h <;> rfl

end bodies

/-! ### The same numbers -/

theorem same_onItems (i : ItemId) : same.OnItems i i := by
  cases i with
  | type => exact .type rfl
  | association => exact .association rfl
  | term => exact .term rfl
  | container => exact .container rfl

theorem same_onTargets (t : Target) : same.OnTargets t t := by
  cases t with
  | type => exact .type rfl
  | property => exact .property rfl
  | navigation => exact .navigation rfl
  | association => exact .association rfl
  | term => exact .term rfl
  | container => exact .container rfl
  | entitySet => exact .entitySet rfl

theorem same_forall₂ {k : ElementKind} (ids : List (Id k)) : List.Forall₂ (same k) ids ids :=
  List.forall₂_same.2 fun _ _ => rfl

theorem same_onStructured (b : StructuredEntry) : same.OnStructured b b :=
  ⟨rfl, rfl, rfl, rfl, same_forall₂ _, same_forall₂ _⟩

theorem same_onBlocks (b : BlockEntry) : same.OnBlocks b b :=
  ⟨rfl, rfl, same_forall₂ _, optionRel_refl same_onTargets _, rfl⟩

/-- Whatever an entry holds, it matches itself. -/
theorem same_onEntries (k : ElementKind) (e : Entry k) : same.OnEntries k e e := by
  cases k with
  | schema => exact ⟨rfl, rfl, rfl, List.forall₂_same.2 fun i _ => same_onItems i, rfl⟩
  | type =>
    obtain ⟨schema, name, qualifiedName, body, annotations, location⟩ := e
    refine ⟨rfl, rfl, rfl, ?_, same_forall₂ _, rfl⟩
    cases body with
    | complex b => exact .complex (same_onStructured b)
    | entity b => exact .entity (same_onStructured b)
    | enum b => exact .enum b
  | property => exact ⟨rfl, rfl, rfl, rfl, rfl, rfl, same_forall₂ _, rfl⟩
  | navigation => exact ⟨rfl, rfl, rfl, rfl, rfl, same_forall₂ _, rfl⟩
  | association => exact ⟨rfl, rfl, rfl, rfl, rfl, same_forall₂ _, rfl⟩
  | term => exact ⟨rfl, rfl, rfl, rfl, rfl, rfl, rfl, same_forall₂ _, rfl⟩
  | container =>
    exact ⟨rfl, rfl, rfl, rfl, same_forall₂ _, same_forall₂ _, same_forall₂ _, rfl⟩
  | entitySet => exact ⟨rfl, rfl, rfl, same_forall₂ _, rfl⟩
  | associationSet => exact ⟨rfl, rfl⟩
  | annot =>
    exact ⟨rfl, rfl, optionRel_refl same_onTargets _, optionRel_refl (fun _ => rfl) _, rfl, rfl,
      rfl⟩

/-- Each element of one model is taken for one of the other, and each of the other comes up once. -/
def Covers (m m' : Model) : Prop :=
  ∀ k, ∃ ids, List.Forall₂ (T k) (m.ids k) ids ∧ ids.Perm (m'.ids k)

theorem same_covers (m : Model) : same.Covers m m :=
  fun k => ⟨m.ids k, same_forall₂ _, .refl _⟩

end Matching

namespace Model

/-- The annotations that a schema holds, in document order. -/
def annotationsIn (m : Model) (s : Id .schema) : List (Id .annot) :=
  (m.ids .annot).filter fun a => (m.annotated a).schema = s

/-- The models hold the same, where elements are taken for one another as the matching says. -/
structure Matches (T : Matching) (m m' : Model) : Prop where
  biUnique : ∀ k, Relator.BiUnique (T k)
  entry : ∀ {k : ElementKind} {id id' : Id k}, T k id id' →
    T.OnEntries k (m.entry id) (m'.entry id')
  blocksOf : ∀ {s s' : Id .schema}, T .schema s s' →
    List.Forall₂ T.OnBlocks (m.blocksOf s) (m'.blocksOf s')
  annotationsIn : ∀ {s s' : Id .schema}, T .schema s s' →
    List.Forall₂ (T .annot) (m.annotationsIn s) (m'.annotationsIn s')

/-- A model holds what it holds. -/
theorem matches_same (m : Model) : Matches .same m m where
  biUnique _ := ⟨fun _ _ _ h h' => h.trans h'.symm, fun _ _ _ h h' => h.symm.trans h'⟩
  entry := by
    rintro k id _ rfl
    exact Matching.same_onEntries k _
  blocksOf := by
    rintro s _ rfl
    exact List.forall₂_same.2 fun b _ => Matching.same_onBlocks b
  annotationsIn := by
    rintro s _ rfl
    exact Matching.same_forall₂ _

end Model

end Schemata

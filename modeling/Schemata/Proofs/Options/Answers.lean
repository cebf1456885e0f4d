import Schemata.Proofs.Matching.Lookup
import Schemata.Proofs.Matching.Same
import Schemata.Proofs.Model.Options
import Schemata.Session.Query

/-!
# Answers do not depend on options

Options say what is included in a model and what is checked of it.  Once it is settled what a model
references, they have no part in what its names lead to: catalogs that differ in options alone
(`SameButOptions`) hold the same elements and answer every question but that for a report alike
(`SameAnswers`).
-/

namespace Schemata

namespace Catalog

/-! ### Catalogs that differ in options -/

/-- The models hold the same and reference the same; each may have options of its own. -/
structure SameButOptions (c c' : Catalog) : Prop where
  size : c'.models.size = c.models.size
  model : ∀ m, c'.model m = (c.model m).withOptions (c'.model m).options

/-- Whatever is asked but for reports, the answers are the same. -/
structure SameAnswers (c c' : Catalog) : Prop where
  elements : ∀ m k, c'.elements m k = c.elements m k
  entry : ∀ m {k} (id : Id k), (c'.model m).entry id = (c.model m).entry id
  find? : ∀ m k name, c'.find? m k name = c.find? m k name
  resolve? : ∀ s k name, c'.resolve? s k name = c.resolve? s k name
  properties : ∀ t, c'.properties t = c.properties t
  navigation : ∀ t, c'.navigation t = c.navigation t
  findProperty? : ∀ t name, c'.findProperty? t name = c.findProperty? t name
  findNavigation? : ∀ t name, c'.findNavigation? t name = c.findNavigation? t name
  targetOf? : ∀ a, c'.targetOf? a = c.targetOf? a
  contextOf? : ∀ a, c'.contextOf? a = c.contextOf? a
  annotationsOf : ∀ e, c'.annotationsOf e = c.annotationsOf e
  answer : ∀ q : Query, (∀ m, q ≠ .validate m) → c'.answer q = c.answer q

namespace SameButOptions

theorem refl (c : Catalog) : c.SameButOptions c := ⟨rfl, fun _ => rfl⟩

variable {c c' : Catalog} (h : c.SameButOptions c')
include h

/-- The same schemas make models that differ in options, if they reference the same. -/
theorem add (o o' : Options) {given : List ModelId} {schemas : List Decl.Schema}
    (hreferences : c'.allReferences (c'.directReferences o' given schemas) =
      c.allReferences (c.directReferences o given schemas)) :
    (c.add o given schemas).SameButOptions (c'.add o' given schemas) := by
  refine ⟨by rw [size_add, size_add, h.size], fun m => ?_⟩
  by_cases hm : m = c.models.size
  · subst hm
    have hadd := c'.model_add o' given schemas
    rw [h.size] at hadd
    rw [hadd, model_add, Model.options_build, hreferences]
    exact Model.build_eq_withOptions o o' _ _
  · rw [c'.model_add_of_ne _ _ _ (h.size ▸ hm), c.model_add_of_ne _ _ _ hm]
    exact h.model m

theorem references (m : ModelId) : (c'.model m).references = (c.model m).references := by
  rw [h.model m, Model.references_withOptions]

theorem entry (m : ModelId) {k : ElementKind} (id : Id k) :
    (c'.model m).entry id = (c.model m).entry id := by
  rw [h.model m, Model.entry_withOptions]

theorem elements (m : ModelId) (k : ElementKind) : c'.elements m k = c.elements m k := by
  rw [Catalog.elements, h.model m, Model.ids_withOptions, Catalog.elements]

theorem type (t : Declared .type) : c'.type t = c.type t := h.entry t.model t.id

theorem property (p : Declared .property) : c'.property p = c.property p := h.entry p.model p.id

theorem navigationProperty (n : Declared .navigation) :
    c'.navigationProperty n = c.navigationProperty n := h.entry n.model n.id

theorem association (a : Declared .association) : c'.association a = c.association a :=
  h.entry a.model a.id

theorem term (t : Declared .term) : c'.term t = c.term t := h.entry t.model t.id

theorem container (k : Declared .container) : c'.container k = c.container k :=
  h.entry k.model k.id

theorem entitySet (s : Declared .entitySet) : c'.entitySet s = c.entitySet s :=
  h.entry s.model s.id

theorem associationSet (s : Declared .associationSet) : c'.associationSet s = c.associationSet s :=
  h.entry s.model s.id

theorem annotated (a : Declared .annot) : c'.annotated a = c.annotated a := h.entry a.model a.id

theorem blocksOf (s : Declared .schema) :
    (c'.model s.model).blocksOf s.id = (c.model s.model).blocksOf s.id := by
  rw [h.model s.model]
  rfl

theorem expand (s : Declared .schema) : c'.expand s = c.expand s := by
  funext name
  rw [Catalog.expand, h.model s.model, Catalog.expand]
  rfl

theorem rel_first? (m : ModelId) (k : SymbolKind) (name : Name) :
    Option.Rel (allSame m k.element) ((c.model m).first? k name) ((c'.model m).first? k name) := by
  rw [h.model m, Model.first?_withOptions]
  exact optionRel_refl (fun _ => rfl) _

/-- In catalogs that differ in options each number is taken for itself. -/
theorem matches_allSame (hc : c.IsBuilt) : c.Matches allSame c' := by
  constructor
  · exact hc
  · exact h.references
  · exact fun _ _ _ => rfl
  · intro m
    rw [h.model m]
    refine ⟨(c.model m).matches_same.biUnique, ?_, (c.model m).matches_same.blocksOf,
      (c.model m).matches_same.annotationsIn⟩
    intro k id id' hid
    rw [Model.entry_withOptions]
    exact (c.model m).matches_same.entry hid
  · intro s s' hs name
    rw [eq_of_alike hs, h.expand]
  · intro s s' k name hs _
    rw [eq_of_alike hs, Catalog.resolve?, Catalog.resolve?, h.expand]
    exact rel_handle? (h.references _) (fun m _ => h.rel_first? m k _) fun _ _ => rfl

/-! ### Answers -/

theorem find? (m : ModelId) (k : SymbolKind) (name : Name) :
    c'.find? m k name = c.find? m k name :=
  eq_of_optionRel (rel_find? (h.references m) fun r _ => h.rel_first? r k name)
    fun _ _ => eq_of_alike

theorem resolve? (s : Declared .schema) (k : SymbolKind) (name : Name) :
    c'.resolve? s k name = c.resolve? s k name := by
  rw [Catalog.resolve?, Catalog.resolve?, h.expand]
  exact eq_of_optionRel
    (rel_handle? (h.references _) (fun m _ => h.rel_first? m k _) fun _ _ => rfl)
    fun _ _ => OnHandles.eq

theorem inlineAnnotations (e : Annotated) : c'.inlineAnnotations e = c.inlineAnnotations e := by
  have hentry := @SameButOptions.entry c c' h e.model
  obtain ⟨m, t⟩ := e
  refine congrArg (List.map _) ?_
  cases t with
  | type id => exact congrArg (·.annotations) (hentry id)
  | property id => exact congrArg (·.annotations) (hentry id)
  | navigation id => exact congrArg (·.annotations) (hentry id)
  | association id => exact congrArg (·.annotations) (hentry id)
  | term id => exact congrArg (·.annotations) (hentry id)
  | container id => exact congrArg (·.annotations) (hentry id)
  | entitySet id => exact congrArg (·.annotations) (hentry id)

theorem annotationsOf (e : Annotated) : c'.annotationsOf e = c.annotationsOf e := by
  unfold Catalog.annotationsOf attachedAnnotations
  simp only [h.inlineAnnotations, h.elements, h.annotated]

section answers

variable (hc : c.IsBuilt)
include hc

/-- **Every question but that for a report has the same answer** in catalogs that differ in
options. -/
theorem answer (q : Query) (hq : ∀ m, q ≠ .validate m) : c'.answer q = c.answer q := by
  have H := h.matches_allSame hc
  have hview (e : ExprRef) : c'.view e = c.view e := (H.view ⟨alike_allSame _, rfl⟩).eq
  cases q with
  | base t => exact eq_of_optionRel (H.base? (alike_allSame t)) fun _ _ => eq_of_rel_alike
  | ancestry t => exact eq_of_forall₂ (H.ancestry (alike_allSame t)) fun _ _ => eq_of_alike
  | key t => exact eq_of_forall₂ (H.key (alike_allSame t)) fun _ _ => eq_of_rel_alike
  | effectiveKey t =>
    exact eq_of_forall₂ (H.effectiveKey (alike_allSame t)) fun _ _ => eq_of_rel_alike
  | propertyType p => exact (H.propertyType (alike_allSame p)).eq fun _ _ => OnHandles.eq
  | termType t => exact (H.termType (alike_allSame t)).eq fun _ _ => OnHandles.eq
  | endType e => exact eq_of_rel_alike (H.endType ⟨alike_allSame _, rfl⟩)
  | association n => exact eq_of_rel_alike (H.navigationAssociation (alike_allSame n))
  | fromEnd n => exact (H.fromEnd (alike_allSame n)).eq fun _ _ => AlikeEnds.eq
  | toEnd n => exact (H.toEnd (alike_allSame n)).eq fun _ _ => AlikeEnds.eq
  | navigationTarget n => exact eq_of_rel_alike (H.navigationTarget (alike_allSame n))
  | navigationType n => exact (H.navigationType (alike_allSame n)).eq fun _ _ => OnHandles.eq
  | extended k => exact eq_of_optionRel (H.extended? (alike_allSame k)) fun _ _ => eq_of_rel_alike
  | findEntitySet k name =>
    exact eq_of_optionRel (H.findEntitySet? (alike_allSame k) name) fun _ _ => eq_of_alike
  | entityType s => exact eq_of_rel_alike (H.entityType (alike_allSame s))
  | setAssociation s => exact eq_of_rel_alike (H.setAssociation (alike_allSame s))
  | setEnds s =>
    exact eq_of_forall₂ (H.setEnds (alike_allSame s)) fun _ _ he =>
      Prod.ext he.1 (eq_of_rel_alike he.2)
  | applied a =>
    exact (H.applied (alike_allSame a)).eq (fun _ _ => eq_of_alike) fun _ _ => eq_of_alike
  | boundProperty a i => exact eq_of_rel_alike (H.boundProperty (alike_allSame a) i)
  | view e => exact hview e
  | pathTarget e =>
    have hpath (segments : List Name) : c'.pathTarget e segments = c.pathTarget e segments :=
      eq_of_rel_alike (H.pathTarget ⟨alike_allSame _, rfl⟩ segments)
    simp only [Catalog.answer, hview, hpath]
  | exprDiagnostics e => exact H.exprDiagnostics ⟨alike_allSame _, rfl⟩
  | resolveAll => rfl
  | validate m => exact absurd rfl (hq m)
  | declarations m =>
    rw [Catalog.answer, h.model m]
    rfl

theorem sameAnswers : SameAnswers c c' := by
  have H := h.matches_allSame hc
  exact {
    elements := h.elements
    entry := h.entry
    find? := h.find?
    resolve? := h.resolve?
    properties := fun t => eq_of_forall₂ (H.properties (alike_allSame t)) fun _ _ => eq_of_alike
    navigation := fun t => eq_of_forall₂ (H.navigation (alike_allSame t)) fun _ _ => eq_of_alike
    findProperty? := fun t name =>
      eq_of_optionRel (H.findProperty? (alike_allSame t) name) fun _ _ => eq_of_alike
    findNavigation? := fun t name =>
      eq_of_optionRel (H.findNavigation? (alike_allSame t) name) fun _ _ => eq_of_alike
    targetOf? := fun a => by rw [Catalog.targetOf?, h.annotated, Catalog.targetOf?]
    contextOf? := fun a => by rw [Catalog.contextOf?, h.annotated, Catalog.contextOf?]
    annotationsOf := h.annotationsOf
    answer := h.answer hc }

end answers

end SameButOptions

end Catalog

end Schemata

import Schemata.Proofs.Duplicates
import Schemata.Proofs.Matching.Permuted
import Schemata.Proofs.Matching.Renumbered
import Schemata.Proofs.Matching.Validation

/-!
# The order of schemas does not matter

Where no name is declared twice, it makes no difference in which order the schemas of a model come
(`perm_validate_of_perm`).  Elements have other numbers then, and that is all: each is taken for one
with the same path, all names lead to elements that are taken for one another or to the same
placeholder (`SameButNumbers`), and the reports on both models are the same up to their order.
-/

namespace Schemata.Catalog

/-! ### Paths -/

/-- The namespace of a schema, the qualified name of a declaration, that of its owner and its own
name for a member; an annotation is named after its target, its term and its qualifier. -/
def path (c : Catalog) : {k : ElementKind} → Declared k → Name
  | .schema, s => (c.schema s).namespaceName
  | .type, t => (c.type t).qualifiedName
  | .property, p => c.propertyName p
  | .navigation, n => c.navigationName n
  | .association, a => (c.association a).qualifiedName
  | .term, t => (c.term t).qualifiedName
  | .container, k => (c.container k).qualifiedName
  | .entitySet, s => c.entitySetName s
  | .associationSet, s =>
    (c.container (c.containerOfAssociationSet s)).qualifiedName ++ "/" ++
      (c.associationSet s).decl.name
  | .annot, a =>
    let d := (c.annotated a).decl
    (c.targetOf? a).elim "" c.targetName ++ "@" ++ d.term ++ d.qualifier.elim "" ("#" ++ ·)

theorem Matches.path {T : ModelId → Matching} {c c' : Catalog} (H : c.Matches T c')
    {k : ElementKind} {x x' : Declared k} (h : Alike T x x') : c'.path x' = c.path x := by
  cases k with
  | schema => exact (H.entry h).namespaceName
  | type => exact H.qualifiedName h
  | property => exact H.propertyName h
  | navigation => exact H.navigationName h
  | association => exact (H.association h).qualifiedName
  | term => exact (H.term h).qualifiedName
  | container => exact (H.container h).qualifiedName
  | entitySet => exact H.entitySetName h
  | associationSet =>
    rw [Catalog.path, Catalog.path, (H.container (H.containerOfAssociationSet h)).qualifiedName,
      (H.associationSet h).decl]
  | annot =>
    have htarget : (c'.targetOf? x').elim "" c'.targetName =
        (c.targetOf? x).elim "" c.targetName := by
      rcases optionRel_iff.1 (H.targetOf? h) with ⟨hn, hn'⟩ | ⟨_, _, ht, ht', hmatch⟩
      · rw [hn, hn']
        rfl
      · rw [ht, ht']
        exact H.targetName hmatch
    rw [Catalog.path, Catalog.path, htarget, (H.annotated h).decl]

/-! ### What stays the same -/

/-- The models hold the same elements with the same paths, and all names lead to the same elements
or to the same placeholders, where `T m` says which elements of model `m` are taken for one
another. -/
structure SameButNumbers (T : ModelId → Matching) (c c' : Catalog) : Prop where
  models : ∀ m, Model.Matches (T m) (c.model m) (c'.model m)
  covers : ∀ m, (T m).Covers (c.model m) (c'.model m)
  path : ∀ {k} {x x' : Declared k}, Alike T x x' → c'.path x' = c.path x
  find? : ∀ m k name, Option.Rel (Alike T) (c.find? m k name) (c'.find? m k name)
  base? : ∀ {t t'}, Alike T t t' → Option.Rel (Element.Rel (Alike T)) (c.base? t) (c'.base? t')
  propertyType : ∀ {p p'}, Alike T p p' →
    TypeReference.Rel (OnHandles T c p.model) (c.propertyType p) (c'.propertyType p')
  key : ∀ {t t'}, Alike T t t' → List.Forall₂ (Element.Rel (Alike T)) (c.key t) (c'.key t')
  effectiveKey : ∀ {t t'}, Alike T t t' →
    List.Forall₂ (Element.Rel (Alike T)) (c.effectiveKey t) (c'.effectiveKey t')
  navigationAssociation : ∀ {n n'}, Alike T n n' →
    Element.Rel (Alike T) (c.navigationAssociation n) (c'.navigationAssociation n')
  fromEnd : ∀ {n n'}, Alike T n n' → Element.Rel (AlikeEnds T) (c.fromEnd n) (c'.fromEnd n')
  toEnd : ∀ {n n'}, Alike T n n' → Element.Rel (AlikeEnds T) (c.toEnd n) (c'.toEnd n')
  navigationTarget : ∀ {n n'}, Alike T n n' →
    Element.Rel (Alike T) (c.navigationTarget n) (c'.navigationTarget n')
  navigationType : ∀ {n n'}, Alike T n n' →
    TypeReference.Rel (OnHandles T c n.model) (c.navigationType n) (c'.navigationType n')
  endType : ∀ {e e'}, AlikeEnds T e e' → Element.Rel (Alike T) (c.endType e) (c'.endType e')
  termType : ∀ {t t'}, Alike T t t' →
    TypeReference.Rel (OnHandles T c t.model) (c.termType t) (c'.termType t')
  extended? : ∀ {k k'}, Alike T k k' →
    Option.Rel (Element.Rel (Alike T)) (c.extended? k) (c'.extended? k')
  entityType : ∀ {s s'}, Alike T s s' → Element.Rel (Alike T) (c.entityType s) (c'.entityType s')
  setAssociation : ∀ {s s'}, Alike T s s' →
    Element.Rel (Alike T) (c.setAssociation s) (c'.setAssociation s')
  setEnds : ∀ {s s'}, Alike T s s' →
    List.Forall₂ (fun e e' => e'.1 = e.1 ∧ Element.Rel (Alike T) e.2 e'.2) (c.setEnds s)
      (c'.setEnds s')
  targetOf? : ∀ {a a'}, Alike T a a' →
    Option.Rel (AlikeTargets T) (c.targetOf? a) (c'.targetOf? a')
  contextOf? : ∀ {a a'}, Alike T a a' → Option.Rel (Alike T) (c.contextOf? a) (c'.contextOf? a')
  applied : ∀ {a a'}, Alike T a a' →
    AppliedTerm.Rel (Alike T) (Alike T) (c.applied a) (c'.applied a')
  boundProperty : ∀ {a a'}, Alike T a a' → ∀ i,
    Element.Rel (Alike T) (c.boundProperty a i) (c'.boundProperty a' i)
  view : ∀ {e e'}, AlikeExprs T e e' → ViewsMatch T c e.owner.model (c.view e) (c'.view e')
  pathTarget : ∀ {e e'}, AlikeExprs T e e' → ∀ segments,
    Element.Rel (Alike T) (c.pathTarget e segments) (c'.pathTarget e' segments)
  inlineAnnotations : ∀ {e e'}, AlikeTargets T e e' →
    List.Forall₂ (Alike T) (c.inlineAnnotations e) (c'.inlineAnnotations e')
  attachedAnnotations : ∀ {e e'}, AlikeTargets T e e' → ∃ as,
    List.Forall₂ (Alike T) (c.attachedAnnotations e) as ∧ as.Perm (c'.attachedAnnotations e')
  attachedFrom : ∀ {e e'}, AlikeTargets T e e' → ∀ {s s'}, Alike T s s' →
    List.Forall₂ (Alike T) (c.attachedFrom e s) (c'.attachedFrom e' s')

theorem Matches.sameButNumbers {T : ModelId → Matching} {c c' : Catalog} (H : c.Matches T c')
    (hcovers : ∀ m, (T m).Covers (c.model m) (c'.model m))
    (hfind : ∀ m k name, Option.Rel (Alike T) (c.find? m k name) (c'.find? m k name)) :
    SameButNumbers T c c' where
  models := H.models
  covers := hcovers
  path := H.path
  find? := hfind
  base? := H.base?
  propertyType := H.propertyType
  key := H.key
  effectiveKey := H.effectiveKey
  navigationAssociation := H.navigationAssociation
  fromEnd := H.fromEnd
  toEnd := H.toEnd
  navigationTarget := H.navigationTarget
  navigationType := H.navigationType
  endType := H.endType
  termType := H.termType
  extended? := H.extended?
  entityType := H.entityType
  setAssociation := H.setAssociation
  setEnds := H.setEnds
  targetOf? := H.targetOf?
  contextOf? := H.contextOf?
  applied := H.applied
  boundProperty := H.boundProperty
  view := H.view
  pathTarget := H.pathTarget
  inlineAnnotations := H.inlineAnnotations
  attachedAnnotations h := H.attachedAnnotations h (hcovers _)
  attachedFrom := H.attachedFrom

/-! ### One model renumbered -/

section renumbered

variable {c c' : Catalog} {m : ModelId} {T : Matching} (hT : (c.model m).Paired T (c'.model m))
  (hnames : ∀ k, ((c'.model m).names k).Nodup) (hothers : ∀ r, r ≠ m → c'.model r = c.model r)

include hT hothers

theorem covers_onlyIn (r : ModelId) :
    (Matching.onlyIn m T r).Covers (c.model r) (c'.model r) := by
  by_cases hr : r = m
  · rw [hr, Matching.onlyIn_self]
    exact hT.covers
  · rw [Matching.onlyIn_of_ne T hr, hothers r hr]
    exact Matching.same_covers _

include hnames

theorem rel_first? (r : ModelId) (k : SymbolKind) (name : Name) :
    Option.Rel (Matching.onlyIn m T r k.element) ((c.model r).first? k name)
      ((c'.model r).first? k name) := by
  by_cases hr : r = m
  · rw [hr, Matching.onlyIn_self]
    exact hT.first? hnames k name
  · exact rel_first?_of_ne hothers hr k name

/-- Where no other model references it, one model may be renumbered. -/
theorem matches_of_paired (hc : c.IsBuilt)
    (hreferences : (c'.model m).references = (c.model m).references)
    (hunreferenced : ∀ r, m ∉ (c.model r).references) : c.Matches (.onlyIn m T) c' := by
  refine matches_of_embedded hothers hT.toEmbedded hc hreferences hunreferenced ?_ ?_
  · exact fun _ _ _ k => hT.first? hnames k _
  · exact fun {_ k _} _ _ => hT.first? hnames k _

end renumbered

/-! ### Schemas in another order -/

/-- Names that are declared once in their space are listed once. -/
theorem nodup_names_build {schemas : List Decl.Schema}
    (hnames : ((schemas.flatMap (·.symbols)).map fun d => (d.1, d.2.1)).Nodup) (options : Options)
    (references : List ModelId) (k : SymbolKind) :
    ((Model.build options references schemas).names k).Nodup := by
  rw [Model.names_build]
  refine List.Nodup.of_map (Prod.mk k) ?_
  have hpairs : (((schemas.flatMap (·.symbols)).filter (·.1 = k)).map (·.2.1)).map (Prod.mk k) =
      ((schemas.flatMap (·.symbols)).filter (·.1 = k)).map fun d => (d.1, d.2.1) := by
    rw [List.map_map]
    refine List.map_congr_left fun d hd => ?_
    have hk : d.1 = k := of_decide_eq_true (List.mem_filter.1 hd).2
    rw [Function.comp_apply, hk]
  rw [hpairs]
  exact hnames.sublist (List.filter_sublist.map _)

/-- Where no name is declared twice, nothing is reported as a duplicate. -/
theorem duplicateDeclarations_build {schemas : List Decl.Schema}
    (hnames : ((schemas.flatMap (·.symbols)).map fun d => (d.1, d.2.1)).Nodup) (options : Options)
    (references : List ModelId) :
    (Model.build options references schemas).duplicateDeclarations = [] := by
  rw [(Model.isLaidOut_build options references schemas).duplicateDeclarations_eq,
    Model.declarations_build, repeated_eq_nil _ hnames, List.map_nil]

/-- What a new model references does not depend on the order of its schemas. -/
theorem directReferences_of_perm (c : Catalog) (options : Options) (given : List ModelId)
    {schemas schemas' : List Decl.Schema} (hperm : schemas.Perm schemas') :
    c.directReferences options given schemas' = c.directReferences options given schemas := by
  unfold directReferences
  rw [hperm.any_eq]

/-- **The order of schemas does not matter** where no name is declared twice: the reports are the
same up to their order, and the new models hold the same elements, whose names lead to the same,
under other numbers.  All other models keep their numbers. -/
theorem perm_validate_of_perm {c : Catalog} (hc : c.IsBuilt) (options : Options)
    {given : List ModelId} (hgiven : ∀ r ∈ given, r < c.models.size)
    {schemas schemas' : List Decl.Schema}
    (hnames : ((schemas.flatMap (·.symbols)).map fun d => (d.1, d.2.1)).Nodup)
    (hperm : schemas.Perm schemas') :
    let m := c.models.size
    let c₁ := c.add options given schemas
    let c₂ := c.add options given schemas'
    (c₁.validate m).Perm (c₂.validate m) ∧ ∃ T, SameButNumbers (.onlyIn m T) c₁ c₂ := by
  intro m c₁ c₂
  have hnames' : ((schemas'.flatMap (·.symbols)).map fun d => (d.1, d.2.1)).Nodup :=
    ((hperm.flatMap_right _).map _).nodup_iff.1 hnames
  have hc₁ : c₁.IsBuilt := hc.add options hgiven schemas
  let references := c.allReferences (c.directReferences options given schemas)
  have hm₁ : c₁.model m = Model.build options references schemas := c.model_add ..
  -- both models reference the same, so they differ in the order of their schemas alone
  have hm₂ : c₂.model m = Model.build options references schemas' := by
    rw [c.model_add, c.directReferences_of_perm options given hperm]
  have hothers (r : ModelId) (hr : r ≠ m) : c₂.model r = c₁.model r := by
    rw [c.model_add_of_ne _ _ _ hr, c.model_add_of_ne _ _ _ hr]
  obtain ⟨T, hT⟩ : ∃ T, (c₁.model m).Paired T (c₂.model m) := by
    rw [hm₁, hm₂]
    exact Model.exists_paired (Model.isLaidOut_build _ _ _) (Model.isLaidOut_build _ _ _)
      (Model.isConsistent_build _ _ _) (Model.isConsistent_build _ _ _)
      (by rwa [Model.declarations_build, Model.declarations_build])
  have hnodup (k : SymbolKind) : ((c₂.model m).names k).Nodup :=
    hm₂ ▸ nodup_names_build hnames' options references k
  have hreferences : (c₂.model m).references = (c₁.model m).references := by
    rw [hm₁, hm₂, Model.references_build, Model.references_build]
  have hunreferenced := hc₁.notMem_references_of_size_le (c.size_add ..).le
  have hoptions (r : ModelId) : (c₂.model r).options = (c₁.model r).options := by
    by_cases hr : r = m
    · rw [hr, hm₁, hm₂, Model.options_build, Model.options_build]
    · rw [hothers r hr]
  have H := matches_of_paired hT hnodup hothers hc₁ hreferences hunreferenced
  have hcovers := covers_onlyIn hT hothers
  refine ⟨H.perm_validate hoptions (hcovers m) ?_, T, H.sameButNumbers hcovers ?_⟩
  · rw [hm₁, hm₂, duplicateDeclarations_build hnames, duplicateDeclarations_build hnames']
  · exact fun r k name => rel_find? (references_of_others hothers hreferences r)
      fun s _ => rel_first? hT hnodup hothers s k name

/-- A schema with one type, whose base is declared elsewhere and whose property has a type that is
not declared. -/
def dependentSchema (ns base missing : Name) : Decl.Schema :=
  let type := (Decl.Structured.make "T").addProperty (.make "P" missing)
  (Decl.Schema.make ns).addItem (.entityType { type with base? := some base })

/-- Of two schemas the second one declares the base of the first one's type.  In the other order the
reports are in another order, too, and the types have changed places. -/
theorem perm_validate_of_perm_swap :
    let options := { Options.standard with includeCore := false }
    let first := dependentSchema "A" "B.T" "A.U"
    let second := dependentSchema "B" "C.T" "B.U"
    let c₁ := initial.add options [] [first, second]
    let c₂ := initial.add options [] [second, first]
    (c₁.validate 1).Perm (c₂.validate 1) ∧ c₁.validate 1 ≠ c₂.validate 1 ∧
      ∃ T, SameButNumbers (.onlyIn 1 T) c₁ c₂ ∧ T .type ⟨0⟩ ⟨1⟩ ∧ T .type ⟨1⟩ ⟨0⟩ := by
  intro options first second c₁ c₂
  have hgiven : ∀ r ∈ ([] : List ModelId), r < initial.models.size := nofun
  obtain ⟨hreport, T, hT⟩ := perm_validate_of_perm .initial options hgiven (by decide +kernel)
    (.swap second first [])
  have hfound (name : Name) {id id' : Id .type} (h : c₁.find? 1 .type name = some ⟨1, id⟩)
      (h' : c₂.find? 1 .type name = some ⟨1, id'⟩) : T .type id id' := by
    have hmatch := hT.find? 1 .type name
    rw [h, h'] at hmatch
    cases hmatch with
    | some h => exact h.id
  exact ⟨hreport, by decide +kernel, T, hT, hfound "A.T" (by decide +kernel)
    (by decide +kernel), hfound "B.T" (by decide +kernel) (by decide +kernel)⟩

end Schemata.Catalog

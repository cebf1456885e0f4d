import Schemata.Proofs.Matching.Expr
import Schemata.Validation

/-!
# Reports on elements that are alike

In catalogs that hold the same and check the same, elements that are alike have the same report.  So
where each element of a model is taken for one of the other (`Matching.Covers`), the reports on the
two models are the same up to their order, as far as names are not declared twice.
-/

namespace Schemata

/-- The kinds of element, in the order in which they are reported. -/
def ElementKind.all : List ElementKind :=
  [.schema, .type, .property, .navigation, .association, .term, .container, .entitySet,
    .associationSet, .annot]

namespace Catalog

/-! ### Reports by kind -/

/-- What is wrong with an element. -/
def diagnosticsOf (c : Catalog) : {k : ElementKind} → Declared k → List Diagnostic
  | .schema, s => c.schemaDiagnostics s
  | .type, t => c.typeDiagnostics t
  | .property, p => c.propertyDiagnostics p
  | .navigation, n => c.navigationDiagnostics n
  | .association, a => c.associationDiagnostics a
  | .term, t => c.termDiagnostics t
  | .container, k => c.containerDiagnostics k
  | .entitySet, s => c.entitySetDiagnostics s
  | .associationSet, s => c.associationSetDiagnostics s
  | .annot, a => c.annotationDiagnostics a

theorem validate_eq (c : Catalog) (m : ModelId) :
    c.validate m = (c.model m).duplicateDeclarations ++
      ElementKind.all.flatMap fun k => (c.elements m k).flatMap c.diagnosticsOf := by
  simp only [validate, ElementKind.all, List.flatMap_cons, List.flatMap_nil, List.append_nil,
    List.append_assoc]
  rfl

namespace Matches

variable {T : ModelId → Matching} {c c' : Catalog} (H : c.Matches T c')
  (hoptions : ∀ m, (c'.model m).options = (c.model m).options)
include H

/-! ### Elements -/

theorem schemaDiagnostics {s s' : Declared .schema} (h : Alike T s s') :
    c'.schemaDiagnostics s' = c.schemaDiagnostics s := by
  obtain ⟨m, id⟩ := s
  obtain ⟨m', id'⟩ := s'
  obtain ⟨rfl : m' = m, hid⟩ := h
  refine filterMap_eq_of_forall₂ ((H.models m').blocksOf hid) fun b b' hb => ?_
  rw [hb.location, hb.target]
  rcases optionRel_iff.1 hb.attachedTo? with ⟨hn, hn'⟩ | ⟨t, t', ht, ht', -⟩
  · rw [hn, hn']
  · rw [ht, ht']

include hoptions

omit H in
theorem nameDiagnostics {m m' : ModelId} (hm : m' = m) (name : Name) (location : Location) :
    c'.nameDiagnostics m' name location = c.nameDiagnostics m name location := by
  subst hm
  unfold Catalog.nameDiagnostics
  rw [hoptions]

theorem defaultDiagnostics {m m' : ModelId} (hm : m' = m) {type type' : TypeReference}
    (htype : TypeReference.Rel (OnHandles T c m) type type') (default? : Option String)
    (location : Location) :
    c'.defaultDiagnostics m' type' default? location =
      c.defaultDiagnostics m type default? location := by
  have hfault : c'.defaultFault? m' type' = c.defaultFault? m type :=
    funext fun text => H.defaultFault? hm htype text
  subst hm
  unfold Catalog.defaultDiagnostics
  rw [hoptions, hfault]

theorem typeDiagnostics {t t' : Declared .type} (h : Alike T t t') :
    c'.typeDiagnostics t' = c.typeDiagnostics t := by
  have hname (name : Name) (location : Location) :
      c'.nameDiagnostics t'.model name location = c.nameDiagnostics t.model name location :=
    nameDiagnostics hoptions h.model name location
  have hbase := flatMap_eq_of_forall₂ (optionRel_toList (H.base? h)) fun _ _ h => h.diagnostics_eq
  have hkey := flatMap_eq_of_forall₂ (H.key h) fun _ _ h => h.diagnostics_eq
  unfold Catalog.typeDiagnostics typeDiagnosticsWith
  dsimp only
  simp only [hname]
  rw [(H.type h).name, (H.type h).location, H.duplicateMembers h, H.underlying? h,
    H.memberDecls h, H.memberValues h, hbase, hkey]

theorem propertyDiagnostics {p p' : Declared .property} (h : Alike T p p') :
    c'.propertyDiagnostics p' = c.propertyDiagnostics p := by
  have hp := H.property h
  have htype := H.propertyType h
  unfold Catalog.propertyDiagnostics propertyDiagnosticsWith
  dsimp only
  rw [nameDiagnostics hoptions h.model, htype.diagnostics_eq,
    H.defaultDiagnostics hoptions h.model htype, hp.name, hp.location, hp.default?]

theorem termDiagnostics {t t' : Declared .term} (h : Alike T t t') :
    c'.termDiagnostics t' = c.termDiagnostics t := by
  have ht := H.term h
  have htype := H.termType h
  unfold Catalog.termDiagnostics termDiagnosticsWith
  dsimp only
  rw [nameDiagnostics hoptions h.model, htype.diagnostics_eq,
    H.defaultDiagnostics hoptions h.model htype, ht.name, ht.location, ht.default?]

theorem navigationDiagnostics {n n' : Declared .navigation} (h : Alike T n n') :
    c'.navigationDiagnostics n' = c.navigationDiagnostics n := by
  have hn := H.navigationProperty h
  have hassociation := H.navigationAssociation h
  unfold Catalog.navigationDiagnostics navigationDiagnosticsWith
  dsimp only
  rw [nameDiagnostics hoptions h.model, hn.name, hn.location, H.navigationSides h hassociation]
  generalize c.navigationAssociation n = a at hassociation ⊢
  generalize c'.navigationAssociation n' = a' at hassociation ⊢
  cases hassociation <;> rfl

theorem associationDiagnostics {a a' : Declared .association} (h : Alike T a a') :
    c'.associationDiagnostics a' = c.associationDiagnostics a := by
  have ha := H.association h
  have htypes := flatMap_eq_of_forall₂ (forall₂_map (ends h) fun _ _ he => H.endType he)
    fun _ _ h => h.diagnostics_eq
  unfold Catalog.associationDiagnostics associationDiagnosticsWith
  dsimp only
  rw [nameDiagnostics hoptions h.model, ha.name, ha.location, ha.end1, ha.end2, ha.qualifiedName,
    htypes]

theorem containerDiagnostics {k k' : Declared .container} (h : Alike T k k') :
    c'.containerDiagnostics k' = c.containerDiagnostics k := by
  have hextended := flatMap_eq_of_forall₂ (optionRel_toList (H.extended? h))
    fun _ _ h => h.diagnostics_eq
  unfold Catalog.containerDiagnostics containerDiagnosticsWith
  dsimp only
  rw [nameDiagnostics hoptions h.model, (H.container h).name, (H.container h).location,
    H.duplicateSets h, hextended]

theorem entitySetDiagnostics {s s' : Declared .entitySet} (h : Alike T s s') :
    c'.entitySetDiagnostics s' = c.entitySetDiagnostics s := by
  unfold Catalog.entitySetDiagnostics entitySetDiagnosticsWith
  dsimp only
  rw [nameDiagnostics hoptions h.model, (H.entitySet h).name, (H.entitySet h).location,
    (H.entityType h).diagnostics_eq]

theorem associationSetDiagnostics {s s' : Declared .associationSet} (h : Alike T s s') :
    c'.associationSetDiagnostics s' = c.associationSetDiagnostics s := by
  have hassociation := H.setAssociation h
  have hfound {a a' : Declared .association} (ha : Alike T a a') (role : Name) :
      (c'.findEnd? a' role).isSome = (c.findEnd? a role).isSome := by
    rcases optionRel_iff.1 (H.findEnd? ha role) with ⟨hn, hn'⟩ | ⟨_, _, he, he', -⟩
    · rw [hn, hn']
    · rw [he, he']
      rfl
  unfold Catalog.associationSetDiagnostics associationSetDiagnosticsWith
  dsimp only
  rw [nameDiagnostics hoptions h.model, (H.associationSet h).decl, hassociation.diagnostics_eq]
  refine congrArg₂ (· ++ ·) rfl (flatMap_eq_of_forall₂ (H.setEnds h) fun e e' he => ?_)
  rw [he.1, he.2.diagnostics_eq]
  refine congrArg₂ (· ++ ·) rfl
    (flatMap_eq_of_forall₂ (optionRel_toList hassociation.declared?) fun a a' ha => ?_)
  rw [hfound ha, (H.association ha).qualifiedName]

omit hoptions in
theorem annotationDiagnostics {a a' : Declared .annot} (h : Alike T a a') :
    c'.annotationDiagnostics a' = c.annotationDiagnostics a := by
  have hbound := flatMap_eq_of_forall₂ (H.bindingHandles h) fun _ _ h => h.diagnostics_eq
  have hvalues := flatMap_eq_of_forall₂ (H.values h) fun _ _ he => H.exprDiagnostics he
  unfold Catalog.annotationDiagnostics annotationDiagnosticsWith
  rw [(H.appliedHandle h).diagnostics_eq, hbound, hvalues]

theorem diagnosticsOf {k : ElementKind} {x x' : Declared k} (h : Alike T x x') :
    c'.diagnosticsOf x' = c.diagnosticsOf x := by
  cases k with
  | schema => exact H.schemaDiagnostics h
  | type => exact H.typeDiagnostics hoptions h
  | property => exact H.propertyDiagnostics hoptions h
  | navigation => exact H.navigationDiagnostics hoptions h
  | association => exact H.associationDiagnostics hoptions h
  | term => exact H.termDiagnostics hoptions h
  | container => exact H.containerDiagnostics hoptions h
  | entitySet => exact H.entitySetDiagnostics hoptions h
  | associationSet => exact H.associationSetDiagnostics hoptions h
  | annot => exact H.annotationDiagnostics h

/-! ### Models -/

/-- The reports on the elements of a kind are the same up to their order, and to those on the `rest`
if the other model has more elements. -/
theorem perm_flatMap_elements {m : ModelId} {k : ElementKind} {ids rest : List (Id k)}
    (hmatch : List.Forall₂ (T m k) ((c.model m).ids k) ids)
    (hperm : (ids ++ rest).Perm ((c'.model m).ids k)) :
    ((c'.elements m k).flatMap c'.diagnosticsOf).Perm
      ((c.elements m k).flatMap c.diagnosticsOf ++
        rest.flatMap fun id => c'.diagnosticsOf ⟨m, id⟩) := by
  have hsame : (ids.map (⟨m, ·⟩ : Id k → Declared k)).flatMap c'.diagnosticsOf =
      (c.elements m k).flatMap c.diagnosticsOf :=
    flatMap_eq_of_forall₂ (forall₂_alike rfl hmatch) fun _ _ h => H.diagnosticsOf hoptions h
  have hsplit : ((ids ++ rest).map (⟨m, ·⟩ : Id k → Declared k)).flatMap c'.diagnosticsOf =
      (c.elements m k).flatMap c.diagnosticsOf ++
        rest.flatMap fun id => c'.diagnosticsOf ⟨m, id⟩ := by
    rw [List.map_append, List.flatMap_append, hsame, List.flatMap_map]
  rw [← hsplit]
  exact (hperm.symm.map _).flatMap_right _

/-- **Models that hold the same have the same report**, up to its order and to names that are
declared twice. -/
theorem perm_validate {m : ModelId} (hcovers : (T m).Covers (c.model m) (c'.model m))
    (hduplicates : ((c.model m).duplicateDeclarations).Perm (c'.model m).duplicateDeclarations) :
    (c.validate m).Perm (c'.validate m) := by
  have hkinds := List.Perm.flatMap_left ElementKind.all fun k _ => by
    obtain ⟨ids, hmatch, hperm⟩ := hcovers k
    have hall : (ids ++ []).Perm ((c'.model m).ids k) := by rwa [List.append_nil]
    exact H.perm_flatMap_elements hoptions hmatch hall
  simp only [List.flatMap_nil, List.append_nil] at hkinds
  rw [validate_eq, validate_eq]
  exact hduplicates.append hkinds.symm

end Matches

end Catalog

end Schemata

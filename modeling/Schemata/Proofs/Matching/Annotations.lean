import Schemata.Proofs.Matching.Containers

/-!
# Annotations that are alike

In catalogs that hold the same, annotations that are alike are attached to elements that are alike,
apply terms that are alike and bind properties that are alike; and the labels of a schema are found
at the same places.
-/

namespace Schemata

/-- Both are values with related terms, or both are types that are related. -/
inductive AppliedTerm.Rel {τ τ' σ σ' : Type} (R : τ → τ' → Prop) (S : σ → σ' → Prop) :
    AppliedTerm τ σ → AppliedTerm τ' σ' → Prop
  | value {e : Element τ} {e' : Element τ'} (h : Element.Rel R e e') :
    Rel R S (.value e) (.value e')
  | type {e : Element σ} {e' : Element σ'} (h : Element.Rel S e e') : Rel R S (.type e) (.type e')

theorem AppliedTerm.Rel.diagnostics_eq {τ τ' σ σ' : Type} {R : τ → τ' → Prop}
    {S : σ → σ' → Prop} {a : AppliedTerm τ σ} {a' : AppliedTerm τ' σ'} (h : Rel R S a a') :
    a'.diagnostics = a.diagnostics := by
  cases h with
  | value h => exact h.diagnostics_eq
  | type h => exact h.diagnostics_eq

namespace Catalog

variable (T : ModelId → Matching)

/-- Elements that can be annotated and that are alike. -/
structure AlikeTargets (e e' : Annotated) : Prop where
  model : e'.model = e.model
  target : (T e.model).OnTargets e.target e'.target

/-- Expressions at the same place of annotations that are alike. -/
structure AlikeExprs (e e' : ExprRef) : Prop where
  owner : Alike T e.owner e'.owner
  place : e'.place = e.place

/-! ### Annotations of blocks, schema by schema -/

/-- The annotations of the blocks of one schema whose target an element is. -/
def attachedFrom (c : Catalog) (e : Annotated) (s : Declared .schema) : List (Declared .annot) :=
  (c.attachedAnnotations e).filter fun a => c.annotationSchema a = s

theorem attachedFrom_eq (c : Catalog) (m : ModelId) (t : Target) (s : Id .schema) :
    c.attachedFrom ⟨m, t⟩ ⟨m, s⟩ =
      (((c.model m).annotationsIn s).filter fun a => (c.annotated ⟨m, a⟩).outOfLine &&
        decide ((c.annotated ⟨m, a⟩).target? = some t)).map (⟨m, ·⟩) := by
  unfold attachedFrom attachedAnnotations elements Model.annotationsIn
  rw [List.filter_map, List.filter_map, List.filter_filter, List.filter_filter]
  refine congrArg (List.map _) (List.filter_congr fun a _ => ?_)
  rw [Bool.and_comm]
  simp only [annotationSchema, Declared.mk.injEq, true_and, Function.comp_apply]
  rfl

/-- Schemas of other models have no annotations of an element. -/
theorem attachedFrom_of_ne {c : Catalog} {e : Annotated} {s : Declared .schema}
    (h : s.model ≠ e.model) : c.attachedFrom e s = [] := by
  refine List.filter_eq_nil_iff.2 fun a ha hs => h ?_
  obtain ⟨ha, -⟩ := List.mem_filter.1 ha
  rw [← of_decide_eq_true hs]
  exact ((c.mem_elements).1 ha).1

namespace Matches

variable {T} {c c' : Catalog} (H : c.Matches T c')
include H

/-! ### Annotated elements -/

theorem targetName {e e' : Annotated} (h : AlikeTargets T e e') :
    c'.targetName e' = c.targetName e := by
  obtain ⟨m, t⟩ := e
  obtain ⟨m', t'⟩ := e'
  obtain ⟨rfl : m' = m, ht⟩ := h
  cases ht with
  | type h => exact H.qualifiedName (alike_mk h)
  | property h => exact H.propertyName (alike_mk h)
  | navigation h => exact H.navigationName (alike_mk h)
  | association h => exact (H.association (alike_mk h)).qualifiedName
  | term h => exact (H.term (alike_mk h)).qualifiedName
  | container h => exact (H.container (alike_mk h)).qualifiedName
  | entitySet h => exact H.entitySetName (alike_mk h)

theorem inlineAnnotations {e e' : Annotated} (h : AlikeTargets T e e') :
    List.Forall₂ (Alike T) (c.inlineAnnotations e) (c'.inlineAnnotations e') := by
  obtain ⟨m, t⟩ := e
  obtain ⟨m', t'⟩ := e'
  obtain ⟨rfl : m' = m, ht⟩ := h
  refine forall₂_alike rfl ?_
  cases ht with
  | type h => exact (H.type (alike_mk h)).annotations
  | property h => exact (H.property (alike_mk h)).annotations
  | navigation h => exact (H.navigationProperty (alike_mk h)).annotations
  | association h => exact (H.association (alike_mk h)).annotations
  | term h => exact (H.term (alike_mk h)).annotations
  | container h => exact (H.container (alike_mk h)).annotations
  | entitySet h => exact (H.entitySet (alike_mk h)).annotations

/-- An annotation of a block has an element as its target iff the like annotation has the like
element. -/
theorem isAttached_iff {m : ModelId} {t t' : Target} (ht : (T m).OnTargets t t') {a a' : Id .annot}
    (ha : T m .annot a a') :
    ((c.annotated ⟨m, a⟩).outOfLine && decide ((c.annotated ⟨m, a⟩).target? = some t)) = true ↔
      ((c'.annotated ⟨m, a'⟩).outOfLine &&
        decide ((c'.annotated ⟨m, a'⟩).target? = some t')) = true := by
  have ha := H.annotated (alike_mk ha)
  have hunique := Matching.OnTargets.biUnique (T m) (H.models m).biUnique
  rw [ha.outOfLine, Bool.and_eq_true, Bool.and_eq_true, decide_eq_true_iff, decide_eq_true_iff]
  exact and_congr_right fun _ => optionRel_eq_some_iff hunique ha.target? ht

/-- The annotations of blocks are the same up to the order of the schemas that hold them. -/
theorem attachedAnnotations {e e' : Annotated} (h : AlikeTargets T e e')
    (hcovers : (T e.model).Covers (c.model e.model) (c'.model e.model)) :
    ∃ as, List.Forall₂ (Alike T) (c.attachedAnnotations e) as ∧
      as.Perm (c'.attachedAnnotations e') := by
  obtain ⟨m, t⟩ := e
  obtain ⟨m', t'⟩ := e'
  obtain ⟨rfl : m' = m, ht⟩ := h
  obtain ⟨ids, hmatch, hperm⟩ := hcovers .annot
  refine ⟨_, ?_, (hperm.map _).filter _⟩
  unfold Catalog.attachedAnnotations elements
  rw [List.filter_map, List.filter_map]
  exact forall₂_alike rfl (List.rel_filter (fun _ _ ha => H.isAttached_iff ht ha) hmatch)

/-- The annotations of the blocks of one schema are in the same order. -/
theorem attachedFrom {e e' : Annotated} (h : AlikeTargets T e e') {s s' : Declared .schema}
    (hs : Alike T s s') :
    List.Forall₂ (Alike T) (c.attachedFrom e s) (c'.attachedFrom e' s') := by
  obtain ⟨m, t⟩ := e
  obtain ⟨m', t'⟩ := e'
  obtain ⟨rfl : m' = m, ht⟩ := h
  obtain ⟨r, s⟩ := s
  obtain ⟨r', s'⟩ := s'
  obtain ⟨rfl : r' = r, hs⟩ := hs
  by_cases hr : r' = m'
  · subst hr
    rw [attachedFrom_eq, attachedFrom_eq]
    exact forall₂_alike rfl (List.rel_filter (fun _ _ ha => H.isAttached_iff ht ha)
      ((H.models r').annotationsIn hs))
  · rw [attachedFrom_of_ne (e := ⟨m', t⟩) hr, attachedFrom_of_ne (e := ⟨m', t'⟩) hr]
    exact .nil

section annotations

variable {a a' : Declared .annot} (h : Alike T a a')
include h

theorem targetOf? : Option.Rel (AlikeTargets T) (c.targetOf? a) (c'.targetOf? a') :=
  optionRel_map (H.annotated h).target? fun _ _ ht => ⟨h.model, ht⟩

theorem contextOf? : Option.Rel (Alike T) (c.contextOf? a) (c'.contextOf? a') :=
  optionRel_map (H.annotated h).context? fun _ _ ht => ⟨h.model, ht⟩

/-! ### Terms and bindings -/

theorem appliedHandle :
    AppliedTerm.Rel (OnHandles T c a.model) (OnHandles T c a.model) (c.appliedHandle a)
      (c'.appliedHandle a') := by
  have hs := H.annotationSchema h
  unfold Catalog.appliedHandle
  dsimp only
  rw [(H.annotated h).decl]
  cases (c.annotated a).decl.content with
  | value => exact .value (H.resolve hs (.applied ⟨_, h⟩ (.inl rfl)) _)
  | properties => exact .type (H.resolveType hs (.applied ⟨_, h⟩ (.inr rfl)) _ _)

theorem applied : AppliedTerm.Rel (Alike T) (Alike T) (c.applied a) (c'.applied a') := by
  have happlied := H.appliedHandle h
  unfold Catalog.applied
  generalize c.appliedHandle a = x at happlied ⊢
  generalize c'.appliedHandle a' = x' at happlied ⊢
  cases happlied with
  | value h' => exact .value (H.map_locate h.model h')
  | type h' => exact .type (H.map_locate h.model h')

omit H h in
theorem appliedType? {x x' : AppliedTerm (Declared .term) (Declared .type)}
    (h : AppliedTerm.Rel (Alike T) (Alike T) x x') :
    Option.Rel (Alike T) (appliedType? x) (Catalog.appliedType? x') := by
  cases h with
  | value => exact .none
  | type h => exact h.declared?

/-- Where there is no such property, the same owner is named. -/
theorem boundHandle {x x' : AppliedTerm (Declared .term) (Declared .type)}
    (hx : AppliedTerm.Rel (Alike T) (Alike T) x x') (b : Decl.Binding Decl.Expr)
    {p? p?' : Option (Declared .property)} (hp : Option.Rel (Alike T) p? p?') :
    Element.Rel (OnHandles T c a.model) (c.boundHandle a x b p?) (c'.boundHandle a' x' b p?') := by
  have hbound := H.bind_handleFor h.model hp
  unfold Catalog.boundHandle
  dsimp only
  rcases optionRel_iff.1 (appliedType? hx) with ⟨hn, hn'⟩ | ⟨t, t', ht, ht', hmatch⟩
  · rw [hn, hn']
    dsimp only
    rw [H.expand (H.annotationSchema h), (H.annotated h).decl]
    exact Element.rel_ofOption _ hbound
  · rw [ht, ht']
    dsimp only
    rw [H.qualifiedName hmatch]
    exact Element.rel_ofOption _ hbound

theorem bindingDecls : c'.bindingDecls a' = c.bindingDecls a := by
  unfold Catalog.bindingDecls
  rw [(H.annotated h).decl]

theorem bindingHandles :
    List.Forall₂ (Element.Rel (OnHandles T c a.model)) (c.bindingHandles a)
      (c'.bindingHandles a') := by
  have happlied := H.applied h
  unfold Catalog.bindingHandles
  rw [H.bindingDecls h]
  refine forall₂_map_same _ fun b _ => ?_
  exact H.boundHandle h happlied b
    (optionRel_bind (appliedType? happlied) fun _ _ ht => H.findProperty? ht b.property)

theorem boundProperty (i : Nat) :
    Element.Rel (Alike T) (c.boundProperty a i) (c'.boundProperty a' i) := by
  unfold Catalog.boundProperty boundAt
  rw [H.bindingDecls h]
  rcases optionRel_iff.1 (optionRel_getElem? (H.bindingHandles h) i) with
    ⟨hn, hn'⟩ | ⟨b, b', hb, hb', hbound⟩
  · rw [hn, hn']
    exact .placeholder _
  · rw [hb, hb']
    exact H.map_locate h.model hbound

/-! ### Values -/

theorem values : List.Forall₂ (AlikeExprs T) (c.values a) (c'.values a') := by
  have ha := H.annotated h
  have hbindings : c'.bindingDecls a' = c.bindingDecls a := H.bindingDecls h
  refine List.rel_append (optionRel_toList ?_) ?_
  · unfold Catalog.value?
    rw [ha.decl, ha.roots]
    cases (c.annotated a).decl.content with
    | value =>
      exact optionRel_map (optionRel_refl (R := Eq) (fun _ => rfl) _) fun _ _ hp => ⟨h, hp.symm⟩
    | properties => exact .none
  · rw [hbindings]
    refine forall₂_map_same _ fun i _ => ?_
    exact ⟨h, by rw [bindingValue, bindingValue, ha.roots]⟩

end annotations

/-! ### Labels -/

/-- The labels of a schema have the same names, in the same order, at the same places of annotations
that are alike. -/
theorem labels {m : ModelId} {s s' : Id .schema} (hs : T m .schema s s') :
    List.Forall₂ (fun l l' => l'.name = l.name ∧ T m .annot l.owner l'.owner ∧ l'.place = l.place)
      ((c.model m).labels s) ((c'.model m).labels s') := by
  refine forall₂_flatMap ((H.models m).annotationsIn hs) fun a a' ha => ?_
  have hexprs : ((c'.model m).annotated a').exprs = ((c.model m).annotated a).exprs :=
    (H.annotated (alike_mk ha)).exprs
  unfold Model.labelsOf
  rw [hexprs]
  refine forall₂_filterMap (R := Eq) (List.forall₂_same.2 fun _ _ => rfl) ?_
  rintro ⟨node, place⟩ _ rfl
  dsimp only
  split
  · exact .some ⟨rfl, ha, rfl⟩
  · exact .none

theorem label? {m : ModelId} {s s' : Id .schema} (hs : T m .schema s s') (name : Name) :
    Option.Rel
      (fun l l' => l'.name = l.name ∧ T m .annot l.owner l'.owner ∧ l'.place = l.place)
      ((c.model m).label? s name) ((c'.model m).label? s' name) :=
  optionRel_find? (H.labels hs) fun _ _ h => by rw [h.1]

end Matches

end Catalog

end Schemata

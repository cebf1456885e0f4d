import Schemata.Container
import Schemata.Proofs.Matching.Types

/-!
# Associations and containers that are alike

In catalogs that hold the same, navigation properties that are alike lead along the same side of
associations that are alike, and containers that are alike extend, and hold, what is alike.
-/

namespace Schemata.Catalog

/-- The ends are on the same side of associations that are alike. -/
structure AlikeEnds (T : ModelId → Matching) (e e' : AssociationEnd) : Prop where
  association : Alike T e.association e'.association
  side : e'.side = e.side

/-- Past the end there is the default entry, which extends nothing. -/
theorem mem_allElements_of_extended? {c : Catalog} {k : Declared .container}
    (h : ((c.extended? k).bind (·.declared?)).isSome) : k ∈ c.allElements .container := by
  rw [mem_allElements]
  by_contra hid
  have hcontainer : c.container k = default := Model.entry_of_count_le _ (Nat.le_of_not_lt hid)
  have hnone : c.extended? k = none := by
    rw [extended?, extendedHandle?, hcontainer]
    rfl
  rw [hnone] at h
  exact Bool.false_ne_true h

namespace Matches

variable {T : ModelId → Matching} {c c' : Catalog} (H : c.Matches T c')
include H

/-! ### Ends of associations -/

section ends

variable {a a' : Declared .association} (h : Alike T a a')
include h

omit H in
theorem ends : List.Forall₂ (AlikeEnds T) (ends a) (Catalog.ends a') :=
  .cons ⟨h, rfl⟩ (.cons ⟨h, rfl⟩ .nil)

omit h in
theorem endDecl {e e' : AssociationEnd} (h : AlikeEnds T e e') : c'.endDecl e' = c.endDecl e := by
  obtain ⟨a, side⟩ := e
  obtain ⟨a', side'⟩ := e'
  obtain ⟨h, rfl : side' = side⟩ := h
  cases side' with
  | first => exact (H.association h).end1
  | second => exact (H.association h).end2

theorem findEnd? (role : Name) :
    Option.Rel (AlikeEnds T) (c.findEnd? a role) (c'.findEnd? a' role) :=
  optionRel_find? (ends h) fun _ _ h => by rw [H.endDecl h]

omit h in
theorem endType {e e' : AssociationEnd} (h : AlikeEnds T e e') :
    Element.Rel (Alike T) (c.endType e) (c'.endType e') := by
  refine H.map_locate h.association.model ?_
  unfold endTypeHandle
  dsimp only
  rw [H.endDecl h]
  exact H.resolveType (H.associationSchema h.association) (.endType ⟨_, h.association⟩) _ _

end ends

/-! ### Navigation properties -/

section navigation

variable {n n' : Declared .navigation} (h : Alike T n n')
include h

theorem navigationAssociation :
    Element.Rel (Alike T) (c.navigationAssociation n) (c'.navigationAssociation n') := by
  refine H.map_locate h.model ?_
  unfold navigationAssociationHandle
  dsimp only
  rw [(H.navigationProperty h).relationship, (H.navigationProperty h).location]
  exact H.resolve (H.typeSchema (H.navigationDeclaringType h)) (.relationship ⟨_, h⟩) _

theorem missingRole (role : Name) : c'.missingRole n' role = c.missingRole n role := by
  have hn := H.navigationProperty h
  unfold Catalog.missingRole
  dsimp only
  rw [hn.name, hn.relationship, hn.location]

/-- A role is on the same side, or on none. -/
theorem sideOfRole {association association' : Element (Declared .association)}
    (ha : Element.Rel (Alike T) association association') (role : Name) :
    c'.sideOfRole n' association' role = c.sideOfRole n association role := by
  have hside : Option.Rel Eq
      (association.declared?.bind fun a => (c.findEnd? a role).map (·.side))
      (association'.declared?.bind fun a => (c'.findEnd? a role).map (·.side)) :=
    optionRel_bind ha.declared? fun _ _ ha =>
      optionRel_map (H.findEnd? ha role) fun _ _ he => he.side.symm
  unfold Catalog.sideOfRole
  rw [H.missingRole h]
  rcases optionRel_iff.1 hside with ⟨hn, hn'⟩ | ⟨_, _, hs, hs', rfl⟩
  · rw [hn, hn']
  · rw [hs, hs']

theorem navigationSides {association association' : Element (Declared .association)}
    (ha : Element.Rel (Alike T) association association') :
    c'.navigationSides n' association' = c.navigationSides n association := by
  have hn := H.navigationProperty h
  unfold Catalog.navigationSides
  dsimp only
  rw [H.sideOfRole h ha, H.sideOfRole h ha, hn.fromRole, hn.toRole]

omit H h in
theorem endAt {association association' : Element (Declared .association)}
    (ha : Element.Rel (Alike T) association association') (side : Element EndSide) :
    Element.Rel (AlikeEnds T) (endAt association side) (Catalog.endAt association' side) := by
  cases side with
  | declared side => exact ha.map fun _ _ h => ⟨h, rfl⟩
  | placeholder p => exact .placeholder p

theorem fromEnd : Element.Rel (AlikeEnds T) (c.fromEnd n) (c'.fromEnd n') := by
  have ha := H.navigationAssociation h
  unfold Catalog.fromEnd
  dsimp only
  rw [H.navigationSides h ha]
  exact endAt ha _

theorem toEnd : Element.Rel (AlikeEnds T) (c.toEnd n) (c'.toEnd n') := by
  have ha := H.navigationAssociation h
  unfold Catalog.toEnd
  dsimp only
  rw [H.navigationSides h ha]
  exact endAt ha _

theorem navigationTarget :
    Element.Rel (Alike T) (c.navigationTarget n) (c'.navigationTarget n') :=
  (H.toEnd h).bind fun _ _ he => H.endType he

theorem navigationType :
    TypeReference.Rel (OnHandles T c n.model) (c.navigationType n) (c'.navigationType n') := by
  have hto := H.toEnd h
  unfold Catalog.navigationType navigationTypeOf
  generalize c.toEnd n = e at hto ⊢
  generalize c'.toEnd n' = e' at hto ⊢
  cases hto with
  | placeholder p => exact .placeholder p true
  | @declared e e' he =>
    have htype := H.endType he
    dsimp only
    rw [H.endDecl he, H.missingRole h]
    generalize c.endType e = t at htype ⊢
    generalize c'.endType e' = t' at htype ⊢
    -- how the entity is wrapped depends on the multiplicity alone
    cases htype with
    | placeholder p =>
      cases (c.endDecl e).multiplicity with
      | many => exact .collection (.placeholder p false) false
      | zeroOrOne => exact .placeholder p true
      | one => exact .placeholder p false
    | @declared t t' ht =>
      dsimp only
      rcases optionRel_iff.1 (H.handleFor h.model ht) with ⟨hn, hn'⟩ | ⟨_, _, hh, hh', hhandle⟩
      · rw [hn, hn']
        exact .placeholder _ true
      · rw [hh, hh']
        cases (c.endDecl e).multiplicity with
        | many => exact .collection (.declared hhandle false) false
        | zeroOrOne => exact .declared hhandle true
        | one => exact .declared hhandle false

end navigation

/-! ### Containers -/

section containers

variable {k k' : Declared .container} (h : Alike T k k')
include h

theorem extended? : Option.Rel (Element.Rel (Alike T)) (c.extended? k) (c'.extended? k') := by
  refine optionRel_map ?_ fun _ _ => H.map_locate h.model
  unfold extendedHandle?
  rw [(H.container h).extends?, (H.container h).location]
  cases hname : (c.container k).extends? with
  | none => exact .none
  | some name => exact .some (H.resolve (H.containerSchema h) (.extended ⟨_, h⟩ hname) _)

theorem extendedChain : List.Forall₂ (Alike T) (c.extendedChain k) (c'.extendedChain k') :=
  Chain.forall₂_trail_of_isSome
    (fun _ _ h => optionRel_bind (H.extended? h) fun _ _ h => h.declared?) H.biUnique
    (fun _ => mem_allElements_of_extended?) (fun _ => mem_allElements_of_extended?) h

theorem entitySets : List.Forall₂ (Alike T) (c.entitySets k) (c'.entitySets k') :=
  forall₂_alike h.model (H.container h).entitySets

theorem associationSets :
    List.Forall₂ (Alike T) (c.associationSets k) (c'.associationSets k') :=
  forall₂_alike h.model (H.container h).associationSets

theorem findEntitySet? (name : Name) :
    Option.Rel (Alike T) (c.findEntitySet? k name) (c'.findEntitySet? k' name) :=
  optionRel_findSome? (H.extendedChain h) fun _ _ h =>
    optionRel_find? (H.entitySets h) fun _ _ h => by rw [(H.entitySet h).name]

theorem duplicateSets : c'.duplicateSets k' = c.duplicateSets k := by
  have hentities := map_eq_of_forall₂ (H.entitySets h)
    (f := fun s => ("entity set", (c.entitySet s).name, (c.entitySet s).location))
    (g := fun s => ("entity set", (c'.entitySet s).name, (c'.entitySet s).location))
    fun _ _ h => by rw [(H.entitySet h).name, (H.entitySet h).location]
  have hassociations := map_eq_of_forall₂ (H.associationSets h)
    (f := fun s =>
      ("association set", (c.associationSet s).decl.name, (c.associationSet s).decl.location))
    (g := fun s =>
      ("association set", (c'.associationSet s).decl.name, (c'.associationSet s).decl.location))
    fun _ _ h => by rw [(H.associationSet h).decl]
  unfold Catalog.duplicateSets
  rw [hentities, hassociations, (H.container h).qualifiedName]

end containers

/-! ### Sets -/

theorem entityType {s s' : Declared .entitySet} (h : Alike T s s') :
    Element.Rel (Alike T) (c.entityType s) (c'.entityType s') := by
  refine H.map_locate h.model ?_
  unfold entityTypeHandle
  dsimp only
  rw [(H.entitySet h).entityType, (H.entitySet h).location]
  exact H.resolveType (H.containerSchema (H.containerOf h)) (.entityType ⟨_, h⟩) _ _

theorem entitySetName {s s' : Declared .entitySet} (h : Alike T s s') :
    c'.entitySetName s' = c.entitySetName s := by
  unfold Catalog.entitySetName
  rw [(H.container (H.containerOf h)).qualifiedName, (H.entitySet h).name]

section associationSets

variable {s s' : Declared .associationSet} (h : Alike T s s')
include h

theorem setAssociation : Element.Rel (Alike T) (c.setAssociation s) (c'.setAssociation s') := by
  refine H.map_locate h.model ?_
  unfold setAssociationHandle
  dsimp only
  rw [(H.associationSet h).decl]
  exact H.resolve (H.containerSchema (H.containerOfAssociationSet h)) (.setAssociation ⟨_, h⟩) _

/-- The same roles, of entity sets that are alike. -/
theorem setEnds :
    List.Forall₂ (fun e e' => e'.1 = e.1 ∧ Element.Rel (Alike T) e.2 e'.2) (c.setEnds s)
      (c'.setEnds s') := by
  have hdecls : c'.setEndDecls s' = c.setEndDecls s := by
    unfold setEndDecls
    rw [(H.associationSet h).decl]
  unfold Catalog.setEnds
  rw [hdecls]
  refine forall₂_map_same _ fun e _ => ?_
  refine ⟨rfl, H.map_locate h.model (Element.rel_ofOption _ ?_)⟩
  exact H.bind_handleFor h.model (H.findEntitySet? (H.containerOfAssociationSet h) e.entitySet)

end associationSets

end Matches

end Schemata.Catalog

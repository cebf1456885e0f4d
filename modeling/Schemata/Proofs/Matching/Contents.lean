import Schemata.Proofs.Matching.Model
import Schemata.Proofs.Model.Layout
import Schemata.Proofs.Model.Symbols

/-!
# Matching contents

What lies inside two elements matches if it does kind by kind, in order (`Contents.Match`).  Parts
that match make wholes that match.  Of wholes that match, the parts do if they are of the same
size, and elements that are declared alike are: so one gets from schemas that match to all that
they hold.
-/

namespace Schemata

/-- Any element is taken for any other. -/
def Matching.any : Matching := fun _ _ _ => True

section lists

variable {α β γ δ : Type} {R : γ → δ → Prop}

theorem forall₂_of_map_eq {f : α → γ} {g : β → γ} {l : List α} {l' : List β}
    (h : l.map f = l'.map g) : List.Forall₂ (fun a b => f a = g b) l l' := by
  rw [← List.forall₂_map_left_iff (R := fun x b => x = g b), ← List.forall₂_map_right_iff (R := Eq),
    h]
  exact List.forall₂_same.2 fun _ _ => rfl

theorem forall₂_of_append {l₁ l₂ : List γ} {l₁' l₂' : List δ} (hlength : l₁.length = l₁'.length)
    (h : List.Forall₂ R (l₁ ++ l₂) (l₁' ++ l₂')) :
    List.Forall₂ R l₁ l₁' ∧ List.Forall₂ R l₂ l₂' := by
  have htake := List.forall₂_take l₁.length h
  have hdrop := List.forall₂_drop l₁.length h
  rw [List.take_left, hlength, List.take_left] at htake
  rw [List.drop_left, hlength, List.drop_left] at hdrop
  exact ⟨htake, hdrop⟩

theorem forall₂_and {S : γ → δ → Prop} {l : List γ} {l' : List δ} (h : List.Forall₂ R l l')
    (h' : List.Forall₂ S l l') : List.Forall₂ (fun a b => R a b ∧ S a b) l l' := by
  induction h with
  | nil => exact .nil
  | cons hab _ ih =>
    cases h' with
    | cons hab' hrest => exact .cons ⟨hab, hab'⟩ (ih hrest)

theorem forall₂_imp_mem {S : γ → δ → Prop} {l : List γ} {l' : List δ} (h : List.Forall₂ R l l')
    (hS : ∀ a ∈ l, ∀ b ∈ l', R a b → S a b) : List.Forall₂ S l l' := by
  rw [List.forall₂_iff_zip]
  refine ⟨h.length_eq, fun {a b} hab => ?_⟩
  obtain ⟨ha, hb⟩ := List.of_mem_zip hab
  exact hS a ha b hb (List.forall₂_zip h hab)

end lists

namespace Model

namespace Contents

variable {T : Matching} {a a' b b' : Contents} {k : ElementKind} {ids ids' : List (Id k)}

/-- The contents match, kind by kind and in order. -/
def Match (T : Matching) (a b : Contents) : Prop := ∀ k, List.Forall₂ (T k) (a k) (b k)

theorem Match.append (ha : Match T a a') (hb : Match T b b') : Match T (a ++ b) (a' ++ b') :=
  fun k => List.rel_append (ha k) (hb k)

theorem Match.concat {α α' : Type} {l : List α} {l' : List α'} {f : α → Contents}
    {f' : α' → Contents} (h : List.Forall₂ (fun x x' => Match T (f x) (f' x')) l l') :
    Match T (concat l f) (concat l' f') :=
  fun k => forall₂_flatMap h fun _ _ h => h k

theorem match_of (h : List.Forall₂ (T k) ids ids') : Match T (of ids) (of ids') := by
  intro k'
  by_cases hk : k = k'
  · subst hk
    simpa using h
  · simp [hk]

theorem Match.of_of (h : Match T (of ids) (of ids')) : List.Forall₂ (T k) ids ids' := by
  simpa using h k

theorem Match.of_singleton {id id' : Id k} (h : Match T (of [id]) (of [id'])) : T k id id' := by
  have hids := h.of_of
  cases hids with
  | cons h _ => exact h

/-- Of contents that match, the parts match if the first ones are of the same size. -/
theorem Match.of_append (h : Match T (a ++ b) (a' ++ b')) (hsize : Match .any a a') :
    Match T a a' ∧ Match T b b' :=
  ⟨fun k => (forall₂_of_append (hsize k).length_eq (h k)).1,
    fun k => (forall₂_of_append (hsize k).length_eq (h k)).2⟩

theorem Match.of_concat {α α' : Type} {l : List α} {l' : List α'} {f : α → Contents}
    {f' : α' → Contents} (h : Match T (Contents.concat l f) (Contents.concat l' f'))
    (hsize : List.Forall₂ (fun x x' => Match .any (f x) (f' x')) l l') :
    List.Forall₂ (fun x x' => Match T (f x) (f' x')) l l' := by
  induction hsize with
  | nil => exact .nil
  | cons hx _ ih =>
    obtain ⟨hfirst, hrest⟩ := h.of_append hx
    exact .cons hfirst (ih hrest)

end Contents

open Contents (Match)

variable {m m' : Model}

/-! ### What is declared alike is of the same size -/

section size

theorem any_annotations {ids ids' : List (Id .annot)}
    (h : m.annotationDecls ids = m'.annotationDecls ids') : Match .any (.of ids) (.of ids') :=
  Contents.match_of ((forall₂_of_map_eq h).imp fun _ _ _ => trivial)

theorem any_of {k : ElementKind} (id id' : Id k) : Match .any (.of [id]) (.of [id']) :=
  Contents.match_of (.cons trivial .nil)

theorem any_property {p p' : Id .property} (h : m.propertyDecl p = m'.propertyDecl p') :
    Match .any (m.insideProperty p) (m'.insideProperty p') :=
  (any_of p p').append (any_annotations (congrArg (·.annotations) h))

theorem any_navigation {n n' : Id .navigation} (h : m.navigationDecl n = m'.navigationDecl n') :
    Match .any (m.insideNavigation n) (m'.insideNavigation n') :=
  (any_of n n').append (any_annotations (congrArg (·.annotations) h))

theorem any_entitySet {s s' : Id .entitySet} (h : m.entitySetDecl s = m'.entitySetDecl s') :
    Match .any (m.insideEntitySet s) (m'.insideEntitySet s') :=
  (any_of s s').append (any_annotations (congrArg (·.annotations) h))

end size

/-- The types are declared alike. -/
structure SameType (m m' : Model) (t t' : Id .type) : Prop where
  name : (m'.type t').name = (m.type t).name
  location : (m'.type t').location = (m.type t).location
  annotations : m.annotationDecls (m.type t).annotations =
    m'.annotationDecls (m'.type t').annotations
  properties : List.Forall₂ (fun p p' => m.propertyDecl p = m'.propertyDecl p') (m.propertiesOf t)
    (m'.propertiesOf t')
  navigation : List.Forall₂ (fun n n' => m.navigationDecl n = m'.navigationDecl n')
    (m.navigationOf t) (m'.navigationOf t')
  body : ∀ T : Matching, List.Forall₂ (T .property) (m.propertiesOf t) (m'.propertiesOf t') →
    List.Forall₂ (T .navigation) (m.navigationOf t) (m'.navigationOf t') →
    T.OnBodies (m.type t).body (m'.type t').body

theorem sameType_of_structured {t t' : Id .type} {body body' : StructuredEntry}
    (hb : (m.type t).body.structured? = some body)
    (hb' : (m'.type t').body.structured? = some body')
    (hbodies : ∀ T : Matching, T.OnStructured body body' →
      T.OnBodies (m.type t).body (m'.type t').body)
    (h : m.structuredDecl (m.type t) body = m'.structuredDecl (m'.type t') body') :
    m.SameType m' t t' := by
  have hproperties : m.propertiesOf t = body.properties := by rw [propertiesOf, hb]
  have hproperties' : m'.propertiesOf t' = body'.properties := by rw [propertiesOf, hb']
  have hnavigation : m.navigationOf t = body.navigation := by rw [navigationOf, hb]
  have hnavigation' : m'.navigationOf t' = body'.navigation := by rw [navigationOf, hb']
  refine ⟨congrArg (·.name) h.symm, congrArg (·.location) h.symm, congrArg (·.annotations) h, ?_,
    ?_, fun T hp hn => hbodies T ⟨congrArg (·.base?) h.symm, congrArg (·.isAbstract) h.symm,
      congrArg (·.isOpen) h.symm, congrArg (·.key) h.symm, ?_, ?_⟩⟩
  · rw [hproperties, hproperties']
    exact forall₂_of_map_eq (congrArg (·.properties) h)
  · rw [hnavigation, hnavigation']
    exact forall₂_of_map_eq (congrArg (·.navigation) h)
  · rwa [hproperties, hproperties'] at hp
  · rwa [hnavigation, hnavigation'] at hn

theorem sameType {t t' : Id .type} (h : m.typeDecl t = m'.typeDecl t') : m.SameType m' t t' := by
  unfold typeDecl at h
  dsimp only at h
  cases hb : (m.type t).body with
  | complex body =>
    cases hb' : (m'.type t').body with
    | complex body' =>
      rw [hb, hb'] at h
      refine sameType_of_structured (by rw [hb]; rfl) (by rw [hb']; rfl) (fun T hT => ?_)
        (Decl.Item.complexType.inj h)
      rw [hb, hb']
      exact .complex hT
    | entity | enum =>
      rw [hb, hb'] at h
      cases h
  | entity body =>
    cases hb' : (m'.type t').body with
    | entity body' =>
      rw [hb, hb'] at h
      refine sameType_of_structured (by rw [hb]; rfl) (by rw [hb']; rfl) (fun T hT => ?_)
        (Decl.Item.entityType.inj h)
      rw [hb, hb']
      exact .entity hT
    | complex | enum =>
      rw [hb, hb'] at h
      cases h
  | enum body =>
    cases hb' : (m'.type t').body with
    | enum body' =>
      rw [hb, hb'] at h
      have hd := Decl.Item.enumType.inj h
      have hnone : m.propertiesOf t = [] ∧ m.navigationOf t = [] := by
        rw [propertiesOf, navigationOf, hb]
        exact ⟨rfl, rfl⟩
      have hnone' : m'.propertiesOf t' = [] ∧ m'.navigationOf t' = [] := by
        rw [propertiesOf, navigationOf, hb']
        exact ⟨rfl, rfl⟩
      obtain ⟨underlying?, isFlags, members⟩ := body
      obtain ⟨underlying?', isFlags', members'⟩ := body'
      obtain ⟨hname, hunderlying, hflags, hmembers, hannotations, hlocation⟩ :=
        Decl.Enum.mk.inj hd
      refine ⟨hname.symm, hlocation.symm, hannotations, ?_, ?_, fun T _ _ => ?_⟩
      · rw [hnone.1, hnone'.1]
        exact .nil
      · rw [hnone.2, hnone'.2]
        exact .nil
      · rw [hb, hb']
        obtain rfl : underlying? = underlying?' := hunderlying
        obtain rfl : isFlags = isFlags' := hflags
        obtain rfl : members = members' := hmembers
        exact .enum _
    | complex | entity =>
      rw [hb, hb'] at h
      cases h

/-- The declarations of two schemas are declared alike. -/
inductive SameItem (m m' : Model) : ItemId → ItemId → Prop
  | type {t t' : Id .type} (h : m.SameType m' t t') : SameItem m m' (.type t) (.type t')
  | association {a a' : Id .association} (h : m.associationDecl a = m'.associationDecl a') :
    SameItem m m' (.association a) (.association a')
  | term {t t' : Id .term} (h : m.termDecl t = m'.termDecl t') : SameItem m m' (.term t) (.term t')
  | container {k k' : Id .container} (h : m.containerDecl k = m'.containerDecl k') :
    SameItem m m' (.container k) (.container k')

theorem sameItem {i i' : ItemId} (h : m.itemDecl i = m'.itemDecl i') : m.SameItem m' i i' := by
  have htype (m : Model) (t : Id .type) (d : Decl.Item) (hd : m.typeDecl t = d) :
      d.space = .type := by
    subst hd
    unfold typeDecl
    dsimp only
    split <;> rfl
  cases i with
  | type t =>
    cases i' with
    | type t' => exact .type (sameType h)
    | association | term | container => exact SymbolKind.noConfusion (htype m t _ h)
  | association a =>
    cases i' with
    | type t' => exact SymbolKind.noConfusion (htype m' t' _ h.symm)
    | association a' => exact .association (Decl.Item.association.inj h)
    | term | container => cases h
  | term t =>
    cases i' with
    | type t' => exact SymbolKind.noConfusion (htype m' t' _ h.symm)
    | term t' => exact .term (Decl.Item.term.inj h)
    | association | container => cases h
  | container k =>
    cases i' with
    | type t' => exact SymbolKind.noConfusion (htype m' t' _ h.symm)
    | container k' => exact .container (Decl.Item.container.inj h)
    | association | term => cases h

section size

theorem any_type {t t' : Id .type} (h : m.SameType m' t t') :
    Match .any (m.insideType t) (m'.insideType t') := by
  refine (any_of t t').append (((Match.concat ?_).append (Match.concat ?_)).append
    (any_annotations h.annotations))
  · exact h.properties.imp fun _ _ => any_property
  · exact h.navigation.imp fun _ _ => any_navigation

theorem forall₂_entitySets {k k' : Id .container} (h : m.containerDecl k = m'.containerDecl k') :
    List.Forall₂ (fun s s' => m.entitySetDecl s = m'.entitySetDecl s')
      (m.container k).entitySets (m'.container k').entitySets :=
  forall₂_of_map_eq (f := m.entitySetDecl) (g := m'.entitySetDecl) (congrArg (·.entitySets) h)

theorem forall₂_associationSets {k k' : Id .container}
    (h : m.containerDecl k = m'.containerDecl k') :
    List.Forall₂ (fun s s' => (m.associationSet s).decl = (m'.associationSet s').decl)
      (m.container k).associationSets (m'.container k').associationSets :=
  forall₂_of_map_eq (f := fun s => (m.associationSet s).decl)
    (g := fun s => (m'.associationSet s).decl) (congrArg (·.associationSets) h)

theorem any_container {k k' : Id .container} (h : m.containerDecl k = m'.containerDecl k') :
    Match .any (m.insideContainer k) (m'.insideContainer k') := by
  refine (any_of k k').append (((Match.concat ?_).append (Contents.match_of ?_)).append
    (any_annotations (congrArg (·.annotations) h)))
  · exact (forall₂_entitySets h).imp fun _ _ => any_entitySet
  · exact (forall₂_associationSets h).imp fun _ _ _ => trivial

theorem any_item {i i' : ItemId} (h : m.SameItem m' i i') :
    Match .any (m.insideItem i) (m'.insideItem i') := by
  cases h with
  | type h => exact any_type h
  | association h => exact (any_of _ _).append (any_annotations (congrArg (·.annotations) h))
  | term h => exact (any_of _ _).append (any_annotations (congrArg (·.annotations) h))
  | container h => exact any_container h

end size

/-! ### All that a schema holds -/

variable (m) in
/-- What is declared in a schema and the annotations of its blocks. -/
def held (s : Id .schema) : Contents := m.insideSchema s ++ insideBlocks (m.blocksOf s)

/-- The schemas hold declarations and blocks that are declared alike. -/
structure SameSchema (m m' : Model) (s s' : Id .schema) : Prop where
  decl : m.schemaDecl s = m'.schemaDecl s'
  items : List.Forall₂ (m.SameItem m') (m.schema s).items (m'.schema s').items
  blocks : List.Forall₂ (fun b b' => m.blockDecl b = m'.blockDecl b') (m.blocksOf s)
    (m'.blocksOf s')

theorem sameSchema {s s' : Id .schema} (h : m.schemaDecl s = m'.schemaDecl s') :
    m.SameSchema m' s s' where
  decl := h
  items :=
    (forall₂_of_map_eq (f := m.itemDecl) (g := m'.itemDecl) (congrArg (·.items) h)).imp
      fun _ _ => sameItem
  blocks := forall₂_of_map_eq (f := m.blockDecl) (g := m'.blockDecl) (congrArg (·.blocks) h)

theorem any_insideSchema {s s' : Id .schema} (h : m.SameSchema m' s s') :
    Match .any (m.insideSchema s) (m'.insideSchema s') :=
  (any_of s s').append (.concat (h.items.imp fun _ _ => any_item))

theorem any_insideBlocks {s s' : Id .schema} (h : m.SameSchema m' s s') :
    Match .any (insideBlocks (m.blocksOf s)) (insideBlocks (m'.blocksOf s')) := by
  refine Contents.match_of (forall₂_flatMap h.blocks fun b b' hb => ?_)
  exact (any_annotations (congrArg (·.annotations) hb)).of_of

end Model

end Schemata

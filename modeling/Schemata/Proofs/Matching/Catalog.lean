import Schemata.Expr.Basic
import Schemata.Proofs.Catalog.Lookup
import Schemata.Proofs.Matching.Model
import Schemata.Term

/-!
# Catalogs that hold the same under other numbers

`c.Matches T c'` says that each model of `c` holds the same as the one with its number in `c'`,
where `T m` says which elements of model `m` are taken for one another, and that every name that is
written in a schema (`HasReference`) leads to the same element from both.  Elements that are taken
for one another are `Alike`.

Only the newest model may be numbered otherwise: in models that are referenced each number is taken
for itself.  So a handle into such a model is the same handle on both sides (`OnHandles`).
-/

namespace Schemata

/-- The name at the bottom of a written reference. -/
def TypeSyntax.name : TypeSyntax → Name
  | named name => name
  | collection element => element.name
  | ref entity => entity.name

/-- The reference to a type in an expression. -/
def Decl.ExprForm.typeName? {ε : Type} : Decl.ExprForm ε → Option Name
  | cast typeName _ | isType typeName _ => some typeName
  | collection typeName? _ => typeName?
  | record typeName? _ => typeName?
  | _ => none

namespace Catalog

/-- The names that are looked up from a schema, with the space in which they are looked up; only
those that elements `here` have written count. -/
inductive HasReference (c : Catalog) (here : (k : ElementKind) → Declared k → Prop) :
    Declared .schema → SymbolKind → Name → Prop
  | base {t : Declared .type} {name : Name} (ht : here _ t) (h : c.baseName? t = some name) :
    HasReference c here (c.typeSchema t) .type name
  | propertyType {p : Declared .property} {t : TypeSyntax} (hp : here _ p)
    (h : TypeSyntax.parse? (c.property p).typeName = some t) :
    HasReference c here (c.typeSchema (c.declaringType p)) .type t.name
  | endType {e : AssociationEnd} (he : here _ e.association) :
    HasReference c here (c.associationSchema e.association) .type (c.endDecl e).typeName
  | relationship {n : Declared .navigation} (hn : here _ n) :
    HasReference c here (c.typeSchema (c.navigationDeclaringType n)) .association
      (c.navigationProperty n).relationship
  | termType {t : Declared .term} {s : TypeSyntax} (ht : here _ t)
    (h : TypeSyntax.parse? (c.term t).typeName = some s) :
    HasReference c here (c.termSchema t) .type s.name
  | extended {k : Declared .container} {name : Name} (hk : here _ k)
    (h : (c.container k).extends? = some name) :
    HasReference c here (c.containerSchema k) .container name
  | entityType {s : Declared .entitySet} (hs : here _ s) :
    HasReference c here (c.containerSchema (c.containerOf s)) .type (c.entitySet s).entityType
  | setAssociation {s : Declared .associationSet} (hs : here _ s) :
    HasReference c here (c.containerSchema (c.containerOfAssociationSet s)) .association
      (c.associationSet s).decl.association
  | applied {a : Declared .annot} {k : SymbolKind} (ha : here _ a) (hk : k = .term ∨ k = .type) :
    HasReference c here (c.annotationSchema a) k (c.annotated a).decl.term
  | exprType {e : ExprRef} {text : Name} {t : TypeSyntax} (he : here _ e.owner)
    (hform : (c.exprDecl e).form.typeName? = some text) (h : TypeSyntax.parse? text = some t) :
    HasReference c here (c.exprSchema e) .type t.name
  | enumMember {e : ExprRef} {path typeName member : Name} {word : List Char}
    (he : here _ e.owner) (hform : (c.exprDecl e).form = .enumMember path)
    (hword : word ∈ Text.words Text.isBlank path.toList)
    (h : splitPath (String.ofList word) = some (typeName, member)) :
    HasReference c here (c.exprSchema e) .type typeName

/-- Whatever has written a name in a schema belongs to the same model. -/
theorem HasReference.imp {c : Catalog} {here here' : (k : ElementKind) → Declared k → Prop}
    {s : Declared .schema} {k : SymbolKind} {name : Name}
    (himp : ∀ k (x : Declared k), x.model = s.model → here k x → here' k x)
    (h : c.HasReference here s k name) : c.HasReference here' s k name := by
  cases h with
  | base ht h => exact .base (himp _ _ rfl ht) h
  | propertyType hp h => exact .propertyType (himp _ _ rfl hp) h
  | endType he => exact .endType (himp _ _ rfl he)
  | relationship hn => exact .relationship (himp _ _ rfl hn)
  | termType ht h => exact .termType (himp _ _ rfl ht) h
  | extended hk h => exact .extended (himp _ _ rfl hk) h
  | entityType hs => exact .entityType (himp _ _ rfl hs)
  | setAssociation hs => exact .setAssociation (himp _ _ rfl hs)
  | applied ha hk => exact .applied (himp _ _ rfl ha) hk
  | exprType he hform h => exact .exprType (himp _ _ rfl he) hform h
  | enumMember he hform hword h => exact .enumMember (himp _ _ rfl he) hform hword h

section relations

variable (T : ModelId → Matching) {k : ElementKind}

/-- The elements are in models of the same number and taken for one another there. -/
structure Alike (x x' : Declared k) : Prop where
  model : x'.model = x.model
  id : T x.model k x.id x'.id

/-- The element is taken for one of the other catalog. -/
def HasAlike (k : ElementKind) (x : Declared k) : Prop := ∃ x', Alike T x x'

variable {T} in
/-- Elements of one model that are taken for one another. -/
theorem alike_mk {m : ModelId} {id id' : Id k} (h : T m k id id') :
    Alike T (⟨m, id⟩ : Declared k) ⟨m, id'⟩ := ⟨rfl, h⟩

/-- The handles lead from a model to elements that are alike. -/
inductive OnHandles (c : Catalog) (m : ModelId) : Handle k → Handle k → Prop
  | own {id id' : Id k} (h : T m k id id') : OnHandles c m ⟨.self, id⟩ ⟨.self, id'⟩
  | referenced (i : Fin Origin.capacity) (hi : i < (c.model m).references.length) (id : Id k) :
    OnHandles c m ⟨.referenced i, id⟩ ⟨.referenced i, id⟩

/-- The catalogs hold the same, where elements are taken for one another as the matchings say. -/
structure Matches (c c' : Catalog) : Prop where
  isBuilt : c.IsBuilt
  references : ∀ m, (c'.model m).references = (c.model m).references
  same : ∀ m, ∀ r ∈ (c.model m).references, T r = .same
  models : ∀ m, Model.Matches (T m) (c.model m) (c'.model m)
  expand : ∀ {s s' : Declared .schema}, Alike T s s' → ∀ name, c'.expand s' name = c.expand s name
  resolve? : ∀ {s s' : Declared .schema} {k : SymbolKind} {name : Name}, Alike T s s' →
    c.HasReference (HasAlike T) s k name →
    Option.Rel (OnHandles T c s.model) (c.resolve? s k name) (c'.resolve? s' k name)

end relations

namespace Matches

variable {T : ModelId → Matching} {c c' : Catalog} (H : c.Matches T c') {k : ElementKind}
  {m : ModelId} {x x' : Declared k}
include H

/-! ### Entries -/

theorem biUnique : Relator.BiUnique (Alike T (k := k)) := by
  constructor
  · rintro ⟨m, id⟩ ⟨m', id'⟩ ⟨m'', id''⟩ ⟨hm, h⟩ ⟨hm', h'⟩
    obtain rfl : m'' = m := hm
    obtain rfl : m'' = m' := hm'
    exact congrArg _ (((H.models _).biUnique k).1 h h')
  · rintro ⟨m, id⟩ ⟨m', id'⟩ ⟨m'', id''⟩ ⟨hm, h⟩ ⟨hm', h'⟩
    obtain rfl : m' = m := hm
    obtain rfl : m'' = m' := hm'
    exact congrArg _ (((H.models _).biUnique k).2 h h')

theorem entry (h : Alike T x x') :
    (T x.model).OnEntries k ((c.model x.model).entry x.id) ((c'.model x'.model).entry x'.id) := by
  rw [h.model]
  exact (H.models x.model).entry h.id

theorem type {t t' : Declared .type} (h : Alike T t t') :
    (T t.model).OnTypes (c.type t) (c'.type t') := H.entry h

theorem property {p p' : Declared .property} (h : Alike T p p') :
    (T p.model).OnProperties (c.property p) (c'.property p') := H.entry h

theorem navigationProperty {n n' : Declared .navigation} (h : Alike T n n') :
    (T n.model).OnNavigation (c.navigationProperty n) (c'.navigationProperty n') := H.entry h

theorem association {a a' : Declared .association} (h : Alike T a a') :
    (T a.model).OnAssociations (c.association a) (c'.association a') := H.entry h

theorem term {t t' : Declared .term} (h : Alike T t t') :
    (T t.model).OnTerms (c.term t) (c'.term t') := H.entry h

theorem container {k k' : Declared .container} (h : Alike T k k') :
    (T k.model).OnContainers (c.container k) (c'.container k') := H.entry h

theorem entitySet {s s' : Declared .entitySet} (h : Alike T s s') :
    (T s.model).OnEntitySets (c.entitySet s) (c'.entitySet s') := H.entry h

theorem associationSet {s s' : Declared .associationSet} (h : Alike T s s') :
    (T s.model).OnAssociationSets (c.associationSet s) (c'.associationSet s') := H.entry h

theorem annotated {a a' : Declared .annot} (h : Alike T a a') :
    (T a.model).OnAnnotations (c.annotated a) (c'.annotated a') := H.entry h

omit H in
/-- Elements of one model that are listed in the same order. -/
theorem forall₂_alike {ids ids' : List (Id k)} {m' : ModelId} (hm : m' = m)
    (h : List.Forall₂ (T m k) ids ids') :
    List.Forall₂ (Alike T) (ids.map (⟨m, ·⟩ : Id k → Declared k)) (ids'.map (⟨m', ·⟩)) :=
  forall₂_map h fun _ _ h => ⟨hm, h⟩

theorem kind {t t' : Declared .type} (h : Alike T t t') : c'.kind t' = c.kind t :=
  (H.type h).body.kind

/-! ### Schemas and owners -/

theorem typeSchema {t t' : Declared .type} (h : Alike T t t') :
    Alike T (c.typeSchema t) (c'.typeSchema t') := ⟨h.model, (H.type h).schema⟩

theorem associationSchema {a a' : Declared .association} (h : Alike T a a') :
    Alike T (c.associationSchema a) (c'.associationSchema a') :=
  ⟨h.model, (H.association h).schema⟩

theorem termSchema {t t' : Declared .term} (h : Alike T t t') :
    Alike T (c.termSchema t) (c'.termSchema t') := ⟨h.model, (H.term h).schema⟩

theorem containerSchema {k k' : Declared .container} (h : Alike T k k') :
    Alike T (c.containerSchema k) (c'.containerSchema k') := ⟨h.model, (H.container h).schema⟩

theorem annotationSchema {a a' : Declared .annot} (h : Alike T a a') :
    Alike T (c.annotationSchema a) (c'.annotationSchema a') := ⟨h.model, (H.annotated h).schema⟩

theorem declaringType {p p' : Declared .property} (h : Alike T p p') :
    Alike T (c.declaringType p) (c'.declaringType p') := ⟨h.model, (H.property h).declaring⟩

theorem navigationDeclaringType {n n' : Declared .navigation} (h : Alike T n n') :
    Alike T (c.navigationDeclaringType n) (c'.navigationDeclaringType n') :=
  ⟨h.model, (H.navigationProperty h).declaring⟩

theorem containerOf {s s' : Declared .entitySet} (h : Alike T s s') :
    Alike T (c.containerOf s) (c'.containerOf s') := ⟨h.model, (H.entitySet h).container⟩

theorem containerOfAssociationSet {s s' : Declared .associationSet} (h : Alike T s s') :
    Alike T (c.containerOfAssociationSet s) (c'.containerOfAssociationSet s') :=
  ⟨h.model, (H.associationSet h).container⟩

/-! ### Handles -/

/-- Handles that match lead to elements that are alike. -/
theorem locate {m' : ModelId} (hm : m' = m) {h h' : Handle k} (hh : OnHandles T c m h h') :
    Alike T (c.locate m h) (c'.locate m' h') := by
  subst hm
  cases hh with
  | own h => exact ⟨rfl, h⟩
  | referenced i hi id =>
    have hlocate : c'.locate m' ⟨.referenced i, id⟩ = c.locate m' ⟨.referenced i, id⟩ := by
      simp only [Catalog.locate, H.references]
    have hmem : (c.locate m' (⟨.referenced i, id⟩ : Handle k)).model ∈ (c.model m').references := by
      simp [Catalog.locate, List.getD_eq_getElem?_getD, List.getElem?_eq_getElem hi]
    rw [hlocate]
    refine ⟨rfl, ?_⟩
    rw [H.same m' _ hmem]
    exact rfl

/-- A model sees elements that are alike by handles that match. -/
theorem handleFor {m' : ModelId} (hm : m' = m) (h : Alike T x x') :
    Option.Rel (OnHandles T c m) (c.handleFor m x) (c'.handleFor m' x') := by
  subst hm
  obtain ⟨r, id⟩ := x
  obtain ⟨r', id'⟩ := x'
  obtain ⟨rfl : r' = r, h⟩ := h
  unfold Catalog.handleFor
  by_cases hr : r' = m'
  · subst hr
    rw [if_pos rfl, if_pos rfl]
    exact .some (.own h)
  · rw [if_neg hr, if_neg hr, H.references]
    cases hi : (c.model m').references.idxOf? r' with
    | none => exact .none
    | some i =>
      obtain ⟨hlt, hget, -⟩ := List.idxOf?_eq_some_iff.1 hi
      have hsame : T r' = .same := H.same m' r' (hget ▸ List.getElem_mem hlt)
      obtain rfl : id = id' := by
        rw [hsame] at h
        exact h
      exact .some (.referenced _ (Nat.lt_of_le_of_lt (Nat.mod_le _ _) hlt) id)

/-- What is found as an element of a model is seen alike from there. -/
theorem bind_handleFor {m' : ModelId} (hm : m' = m) {x? x?' : Option (Declared k)}
    (h : Option.Rel (Alike T) x? x?') :
    Option.Rel (OnHandles T c m) (x?.bind (c.handleFor m)) (x?'.bind (c'.handleFor m')) :=
  optionRel_bind h fun _ _ h => H.handleFor hm h

/-- Following the handle of an answer. -/
theorem map_locate {m' : ModelId} (hm : m' = m) {e e' : Element (Handle k)}
    (h : Element.Rel (OnHandles T c m) e e') :
    Element.Rel (Alike T) (e.map (c.locate m)) (e'.map (c'.locate m')) :=
  h.map fun _ _ h => H.locate hm h

/-! ### References -/

section references

variable {s s' : Declared .schema} (hs : Alike T s s')
include hs

/-- A name that is written in a schema leads to the same, or to the same placeholder. -/
theorem resolve {k : SymbolKind} {name : Name} (hname : c.HasReference (HasAlike T) s k name)
    (location : Location) :
    Element.Rel (OnHandles T c s.model) (c.resolve s k name location)
      (c'.resolve s' k name location) := by
  unfold Catalog.resolve
  rw [H.expand hs]
  exact Element.rel_ofOption _ (H.resolve? hs hname)

theorem resolveType {name : Name} (hname : c.HasReference (HasAlike T) s .type name)
    (allowed : List TypeKind) (location : Location) :
    Element.Rel (OnHandles T c s.model) (c.resolveType s name allowed location)
      (c'.resolveType s' name allowed location) := by
  refine (H.resolve hs hname location).bind fun h h' hh => ?_
  have hkind : (c'.type (c'.locate s'.model h')).body.kind =
      (c.type (c.locate s.model h)).body.kind := H.kind (H.locate hs.model hh)
  dsimp only
  rw [hkind, H.expand hs]
  split
  · exact .declared hh
  · exact .placeholder _

end references

end Matches

end Catalog

end Schemata

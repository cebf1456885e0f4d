import Schemata.Proofs.Session.Bases

/-!
# What the readings of a session answer

Each reading answers what the function of the same name on the catalog gives, whatever the session
has remembered so far, and it settles cells of low layers only: `reads_key` says so of `key`, and so
on for the others.  The proofs follow the readings step by step.
-/

namespace Schemata.Session

open Catalog

variable {c : Catalog} {n : Nat}

/-! ### Types -/

theorem reads_base? (hn : 0 < n) (t : Declared .type) : Reads c n (base? c t) (c.base? t) :=
  (reads_baseHandle? hn t).map _

theorem reads_ancestryWithin (hn : 0 < n) (steps : Nat) (seen : List (Declared .type))
    (t : Declared .type) :
    Reads c n (ancestryWithin c seen steps t) (Chain.trail c.declaredBase? seen steps t) := by
  induction steps generalizing seen t with
  | zero => exact .pure []
  | succ steps ih =>
    unfold ancestryWithin Chain.trail
    split
    · exact .pure []
    · refine (reads_base? hn t).bind ?_
      rw [declaredBase?]
      cases (c.base? t).bind (·.declared?) with
      | none => exact .pure [t]
      | some base => exact (ih (t :: seen) base).map _

theorem reads_ancestry (hn : 0 < n) (t : Declared .type) :
    Reads c n (ancestry c t) (c.ancestry t) :=
  reads_ancestryWithin hn _ [] t

theorem reads_findProperty? (hn : 0 < n) (t : Declared .type) (name : Name) :
    Reads c n (findProperty? c t name) (c.findProperty? t name) :=
  (reads_ancestry hn t).map _

theorem reads_findNavigation? (hn : 0 < n) (t : Declared .type) (name : Name) :
    Reads c n (findNavigation? c t name) (c.findNavigation? t name) :=
  (reads_ancestry hn t).map _

theorem reads_keyHandles (hn : 1 < n) (t : Declared .type) :
    Reads c n (keyHandles c t) (c.keyHandles t) := by
  refine Reads.remember (s := .key t) hn rfl ?_
  change Reads c 1 _ (c.keyHandles t)
  unfold Catalog.keyHandles
  cases (c.type t).body.structured? with
  | none => exact .pure []
  | some body =>
    exact .mapM fun name _ => (reads_findProperty? Nat.zero_lt_one t name).map _

theorem reads_key (hn : 1 < n) (t : Declared .type) : Reads c n (key c t) (c.key t) :=
  (reads_keyHandles hn t).map _

theorem reads_firstKey (hn : 1 < n) (ts : List (Declared .type)) :
    Reads c n (firstKey c ts) (((ts.map c.key).find? (!·.isEmpty)).getD []) := by
  induction ts with
  | nil => exact .pure []
  | cons t ts ih =>
    refine (reads_key hn t).bind ?_
    rw [List.map_cons, List.find?_cons]
    cases hempty : (c.key t).isEmpty with
    | true => simpa [hempty] using ih
    | false => simpa [hempty] using Reads.pure (c.key t)

theorem reads_effectiveKey (hn : 1 < n) (t : Declared .type) :
    Reads c n (effectiveKey c t) (c.effectiveKey t) :=
  (reads_ancestry (by omega) t).bind (reads_firstKey hn _)

theorem reads_propertyType (hn : 0 < n) (p : Declared .property) :
    Reads c n (propertyType c p) (c.propertyType p) :=
  Reads.remember_pure (s := .propertyType p) hn rfl

theorem reads_propertyElement? (hn : 0 < n) (p : Declared .property) :
    Reads c n (propertyElement? c p) (c.propertyElement? p) :=
  (reads_propertyType hn p).map _

theorem reads_termType (hn : 0 < n) (t : Declared .term) :
    Reads c n (termType c t) (c.termType t) :=
  Reads.remember_pure (s := .termType t) hn rfl

/-! ### Associations and navigation -/

theorem reads_endType (hn : 0 < n) (e : AssociationEnd) :
    Reads c n (endType c e) (c.endType e) :=
  (Reads.remember_pure (s := .endType e) hn rfl).map _

theorem reads_navigationAssociation (hn : 0 < n) (p : Declared .navigation) :
    Reads c n (navigationAssociation c p) (c.navigationAssociation p) :=
  (Reads.remember_pure (s := .association p) hn rfl).map _

theorem reads_navigationSides (hn : 1 < n) (p : Declared .navigation) :
    Reads c n (navigationSides c p) (c.navigationSides p (c.navigationAssociation p)) :=
  Reads.remember (s := .sides p) hn rfl
    ((reads_navigationAssociation Nat.zero_lt_one p).map (c.navigationSides p))

theorem reads_fromEnd (hn : 1 < n) (p : Declared .navigation) :
    Reads c n (fromEnd c p) (c.fromEnd p) :=
  (reads_navigationSides hn p).bind ((reads_navigationAssociation (by omega) p).map _)

theorem reads_toEnd (hn : 1 < n) (p : Declared .navigation) :
    Reads c n (toEnd c p) (c.toEnd p) :=
  (reads_navigationSides hn p).bind ((reads_navigationAssociation (by omega) p).map _)

theorem reads_navigationTarget (hn : 1 < n) (p : Declared .navigation) :
    Reads c n (navigationTarget c p) (c.navigationTarget p) := by
  refine (reads_toEnd hn p).bind ?_
  rw [Catalog.navigationTarget]
  cases c.toEnd p with
  | declared e => exact reads_endType (by omega) e
  | placeholder p => exact .pure _

theorem reads_navigationType (hn : 1 < n) (p : Declared .navigation) :
    Reads c n (navigationType c p) (c.navigationType p) := by
  refine (reads_toEnd hn p).bind ?_
  rw [Catalog.navigationType]
  cases c.toEnd p with
  | declared e => exact (reads_endType (by omega) e).map _
  | placeholder p => exact .pure _

/-! ### Containers -/

theorem reads_extended? (hn : 0 < n) (k : Declared .container) :
    Reads c n (extended? c k) (c.extended? k) :=
  (Reads.remember_pure (s := .extended k) hn rfl).map _

theorem reads_findEntitySetWithin (hn : 0 < n) (name : Name) (steps : Nat)
    (seen : List (Declared .container)) (k : Declared .container) :
    Reads c n (findEntitySetWithin c name seen steps k)
      ((Chain.trail (fun k => (c.extended? k).bind (·.declared?)) seen steps k).findSome? fun k =>
        (c.entitySets k).find? fun s => (c.entitySet s).name = name) := by
  induction steps generalizing seen k with
  | zero => exact .pure none
  | succ steps ih =>
    unfold findEntitySetWithin findEntitySetVia Chain.trail
    split
    · exact .pure none
    · rw [List.findSome?_cons]
      cases (c.entitySets k).find? fun s => (c.entitySet s).name = name with
      | some s => exact .pure (some s)
      | none =>
        refine (reads_extended? hn k).bind ?_
        cases (c.extended? k).bind (·.declared?) with
        | none => exact .pure none
        | some k' => exact ih (k :: seen) k'

theorem reads_findEntitySet? (hn : 0 < n) (k : Declared .container) (name : Name) :
    Reads c n (findEntitySet? c k name) (c.findEntitySet? k name) :=
  reads_findEntitySetWithin hn name _ [] k

theorem reads_entityType (hn : 0 < n) (s : Declared .entitySet) :
    Reads c n (entityType c s) (c.entityType s) :=
  (Reads.remember_pure (s := .entityType s) hn rfl).map _

theorem reads_setAssociation (hn : 0 < n) (s : Declared .associationSet) :
    Reads c n (setAssociation c s) (c.setAssociation s) :=
  (Reads.remember_pure (s := .setAssociation s) hn rfl).map _

theorem reads_setEndHandles (hn : 1 < n) (s : Declared .associationSet) :
    Reads c n
      (remember c (.setEnds s)
        ((c.setEndDecls s).mapM fun e => do
          let set? ← findEntitySet? c (c.containerOfAssociationSet s) e.entitySet
          return .ofOption (.unresolved .unresolvedEntitySet e.entitySet e.location)
            (set?.bind (c.handleFor s.model))))
      ((c.setEndDecls s).map (c.setEndHandle s)) :=
  Reads.remember (s := .setEnds s) hn rfl
    (.mapM fun _ _ => (reads_findEntitySet? Nat.zero_lt_one _ _).map _)

theorem reads_setEnds (hn : 1 < n) (s : Declared .associationSet) :
    Reads c n (setEnds c s) (c.setEnds s) := by
  have hends : c.setEnds s =
      ((c.setEndDecls s).zip ((c.setEndDecls s).map (c.setEndHandle s))).map
        fun p => (p.1.role, p.2.map (c.locate s.model)) := by
    rw [← List.map_prod_left_eq_zip, List.map_map]
    rfl
  rw [hends]
  exact (reads_setEndHandles hn s).map _

/-! ### Annotations -/

theorem reads_appliedHandle {a : Declared .annot} (hn : c.layer (.applied a) < n) :
    Reads c n (appliedHandle c a) (c.appliedHandle a) :=
  Reads.remember_pure (s := .applied a) hn rfl

theorem reads_applied {a : Declared .annot} (hn : c.layer (.applied a) < n) :
    Reads c n (applied c a) (c.applied a) :=
  (reads_appliedHandle hn).map _

theorem layer_applied {a : Declared .annot} (ha : c.appliesType a = true) :
    c.layer (.applied a) = 0 := by
  rw [layer, ha, ite_cond_eq_true _ _ (eq_self true)]

theorem reads_findBinding {a : Declared .annot} (b : Decl.Binding Decl.Expr) :
    Reads c 1
      (do
        let p? ← match appliedType? (c.applied a) with
          | some t => findProperty? c t b.property
          | none => pure none
        return c.boundHandle a (c.applied a) b p?)
      (c.bindingHandle a (c.applied a) b) := by
  rw [bindingHandle]
  cases appliedType? (c.applied a) with
  | none => exact (Reads.pure none).map _
  | some t => exact (reads_findProperty? Nat.zero_lt_one t b.property).map _

theorem reads_findBindings (a : Declared .annot) :
    Reads c 1 (findBindings c a) (c.bindingHandles a) := by
  rw [Catalog.bindingHandles, bindingDecls, findBindings]
  cases hcontent : (c.annotated a).decl.content with
  | value expr => exact .pure []
  | properties bindings =>
    have ha : c.appliesType a = true := by rw [appliesType, hcontent]
    exact (reads_applied (by rw [layer_applied ha]; omega)).bind
      (.mapM fun b _ => reads_findBinding b)

/-- The bindings of a type annotation are found after what it applies. -/
theorem resolves_findBindings {a : Declared .annot} (ha : c.appliesType a = true) :
    Resolves c 1 (findBindings c a) (.applied a) := by
  have hn : c.layer (.applied a) < 1 := by rw [layer_applied ha]; omega
  rw [findBindings]
  cases hcontent : (c.annotated a).decl.content with
  | value expr => simp [appliesType, hcontent] at ha
  | properties bindings =>
    exact ((Resolves.remember (s := .applied a) hn).map (reads_appliedHandle hn) _).bind_left
      (reads_applied hn) (.mapM fun b _ => reads_findBinding b)

theorem reads_bindingHandles (hn : 1 < n) (a : Declared .annot) :
    Reads c n (bindingHandles c a) (c.bindingHandles a) := by
  refine reads_remember_of_resolves (s := .bindings a) hn (reads_findBindings a) ?_
  rintro _ ⟨rfl⟩ ha
  exact resolves_findBindings ha

theorem reads_boundProperty (hn : 1 < n) (a : Declared .annot) (i : Nat) :
    Reads c n (boundProperty c a i) (c.boundProperty a i) :=
  (reads_bindingHandles hn a).map _

/-! ### Expressions -/

theorem reads_references (hn : 1 < n) (e : ExprRef) :
    Reads c n (references c e) (c.references e) := by
  refine Reads.remember (s := .references e) hn rfl ?_
  change Reads c 1 _ (c.references e)
  cases hm : c.malformed? e with
  | some p => exact .pure _
  | none =>
    cases hf : (c.exprDecl e).form with
    | record typeName? properties =>
      rw [Catalog.references, hm, hf]
      refine Reads.map (.mapM fun field _ => ?_) _
      rw [fieldHandle]
      cases ((typeName?.map (c.exprType e)).bind (c.elementOf? e.owner.model)).bind
          (·.declared?) with
      | none => exact (Reads.pure none).map _
      | some t => exact (reads_findProperty? Nat.zero_lt_one t field.property).map _
    | _ => exact .pure _

theorem reads_view (hn : 1 < n) (e : ExprRef) : Reads c n (view c e) (c.view e) :=
  (reads_references hn e).map _

theorem reads_pathStep (hn : 1 < n) (fail : String → Placeholder) (t : Declared .type)
    (segment : Name) : Reads c n (pathStep c fail t segment) (c.pathStep fail t segment) := by
  refine (reads_findProperty? (by omega) t segment).bind ?_
  rw [Catalog.pathStep]
  cases c.findProperty? t segment with
  | some p => exact (reads_propertyElement? (by omega) p).map _
  | none =>
    refine (reads_findNavigation? (by omega) t segment).bind ?_
    cases c.findNavigation? t segment with
    | some p => exact reads_navigationTarget hn p
    | none => exact .pure _

theorem reads_followPath (hn : 1 < n) (m : ModelId) (fail : String → Placeholder)
    (t : Declared .type) (segments : List Name) :
    Reads c n (followPath c m fail t segments) (c.followPath m fail t segments) := by
  induction segments generalizing t with
  | nil => exact .pure _
  | cons segment rest ih =>
    cases rest with
    | nil => exact (reads_findProperty? (by omega) t segment).map _
    | cons next rest =>
      refine (reads_pathStep hn fail t segment).bind ?_
      rw [Catalog.followPath.eq_3 _ _ _ _ _ _ (by simp)]
      cases c.pathStep fail t segment with
      | declared t => exact ih t
      | placeholder p => exact .pure _

theorem reads_pathTargetHandle (hn : 2 < n) {e : ExprRef} {segments : List Name}
    (hpath : c.pathSegments e = segments) :
    Reads c n (pathTargetHandle c e segments) (c.pathTargetHandle e segments) := by
  subst hpath
  refine Reads.remember (s := .pathTarget e) hn rfl ?_
  change Reads c 2 _ (c.pathTargetHandle e (c.pathSegments e))
  rw [Catalog.pathTargetHandle, pathHandle]
  cases pathStart (c.exprContext? e) (c.pathSegments e) (c.exprDecl e).location with
  | declared t => exact reads_followPath (by omega) _ _ t _
  | placeholder p => exact .pure _

theorem reads_pathTarget (hn : 2 < n) {e : ExprRef} {segments : List Name}
    (hpath : c.pathSegments e = segments) :
    Reads c n (pathTarget c e segments) (c.pathTarget e segments) :=
  (reads_pathTargetHandle hn hpath).map _

end Schemata.Session

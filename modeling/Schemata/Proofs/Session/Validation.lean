import Schemata.Proofs.Session.Accessors

/-!
# What validation answers in a session

The reports of a session are those of the catalog, and following all references ahead of time
answers nothing and settles only cells below the third layer: it leaves the terms of value
annotations alone.
-/

namespace Schemata.Session

open Catalog

variable {c : Catalog} {n : Nat}

/-! ### Elements -/

theorem reads_typeDiagnostics (hn : 1 < n) (t : Declared .type) :
    Reads c n (typeDiagnostics c t) (c.typeDiagnostics t) :=
  (reads_base? (by omega) t).bind ((reads_key hn t).map _)

theorem reads_propertyDiagnostics (hn : 0 < n) (p : Declared .property) :
    Reads c n (propertyDiagnostics c p) (c.propertyDiagnostics p) :=
  (reads_propertyType hn p).map _

theorem reads_termDiagnostics (hn : 0 < n) (t : Declared .term) :
    Reads c n (termDiagnostics c t) (c.termDiagnostics t) :=
  (reads_termType hn t).map _

/-- Of a navigation property without an association the sides are not read, and they do not
matter. -/
theorem reads_navigationDiagnostics (hn : 1 < n) (p : Declared .navigation) :
    Reads c n (navigationDiagnostics c p) (c.navigationDiagnostics p) := by
  refine (reads_navigationAssociation (by omega) p).bind ?_
  rw [Catalog.navigationDiagnostics]
  have hsides : Reads c n _ _ := reads_navigationSides hn p
  generalize c.navigationAssociation p = association at hsides ⊢
  cases association with
  | declared a => exact hsides.map _
  | placeholder p => exact .pure _

theorem reads_associationDiagnostics (hn : 0 < n) (a : Declared .association) :
    Reads c n (associationDiagnostics c a) (c.associationDiagnostics a) :=
  Reads.map (.mapM fun e _ => reads_endType hn e) _

theorem reads_containerDiagnostics (hn : 0 < n) (k : Declared .container) :
    Reads c n (containerDiagnostics c k) (c.containerDiagnostics k) :=
  (reads_extended? hn k).map _

theorem reads_entitySetDiagnostics (hn : 0 < n) (s : Declared .entitySet) :
    Reads c n (entitySetDiagnostics c s) (c.entitySetDiagnostics s) :=
  (reads_entityType hn s).map _

theorem reads_associationSetDiagnostics (hn : 1 < n) (s : Declared .associationSet) :
    Reads c n (associationSetDiagnostics c s) (c.associationSetDiagnostics s) :=
  (reads_setAssociation (by omega) s).bind ((reads_setEnds hn s).map _)

theorem reads_exprDiagnostics (hn : 1 < n) (e : ExprRef) :
    Reads c n (exprDiagnostics c e) (c.exprDiagnostics e) := by
  induction h : c.nodesBehind e using Nat.strong_induction_on generalizing e with
  | _ size ih =>
    subst h
    rw [exprDiagnostics, Catalog.exprDiagnostics]
    refine (reads_references hn e).bind ?_
    rw [List.flatMap_def]
    refine Reads.map (.mapM fun ⟨child, hchild⟩ _ => ?_) _
    exact ih _ (c.nodesBehind_lt_of_mem_operands (c.mem_operands_of_mem_children hchild)) child rfl

theorem reads_annotationDiagnostics (hn : 3 < n) (a : Declared .annot) :
    Reads c n (annotationDiagnostics c a) (c.annotationDiagnostics a) := by
  refine (reads_appliedHandle ((c.layer_lt _).trans_le hn)).bind ?_
  refine (reads_bindingHandles (by omega) a).bind ?_
  rw [Catalog.annotationDiagnostics, List.flatMap_def]
  exact Reads.map (.mapM fun e _ => reads_exprDiagnostics (by omega) e) _

/-! ### Following references ahead of time -/

theorem reads_resolveType (hn : 1 < n) (t : Declared .type) :
    Reads c n (resolveType c t) () :=
  (reads_base? (by omega) t).discard.bind (reads_key hn t).discard

theorem reads_resolveAssociation (hn : 0 < n) (a : Declared .association) :
    Reads c n (resolveAssociation c a) () :=
  .forM fun e _ => (reads_endType hn e).discard

theorem reads_resolveAssociationSet (hn : 1 < n) (s : Declared .associationSet) :
    Reads c n (resolveAssociationSet c s) () :=
  (reads_setAssociation (by omega) s).discard.bind (reads_setEnds hn s).discard

/-- A view that is a path shows the segments of the expression. -/
theorem pathSegments_of_view {e : ExprRef} {segments : List Name}
    (h : c.view e = .path segments) : c.pathSegments e = segments := by
  unfold Catalog.view viewWith at h
  dsimp only at h
  split at h <;> simp only [unresolvedView, reduceCtorEq, ExprView.path.injEq] at h
  case h_4 hform _ => rw [pathSegments, hform, h]

theorem reads_resolveExpr (hn : 2 < n) (e : ExprRef) : Reads c n (resolveExpr c e) () := by
  refine (reads_view (by omega) e).bind ?_
  cases h : c.view e with
  | path segments => exact (reads_pathTarget hn (pathSegments_of_view h)).discard
  | _ => exact .pure ()

theorem reads_resolveAnnotated (hn : 2 < n) (a : Declared .annot) :
    Reads c n (resolveAnnotated c a) () :=
  (reads_bindingHandles (by omega) a).discard.bind (.forM fun e _ => reads_resolveExpr hn e)

theorem reads_resolveElement (hn : 2 < n) (k : ElementKind) (e : Declared k) :
    Reads c n (resolveElement c k e) () := by
  cases k with
  | schema => exact .pure ()
  | type => exact reads_resolveType (by omega) e
  | property => exact (reads_propertyType (by omega) e).discard
  | navigation => exact (reads_toEnd (by omega) e).discard
  | association => exact reads_resolveAssociation (by omega) e
  | term => exact (reads_termType (by omega) e).discard
  | container => exact (reads_extended? (by omega) e).discard
  | entitySet => exact (reads_entityType (by omega) e).discard
  | associationSet => exact reads_resolveAssociationSet (by omega) e
  | annot => exact reads_resolveAnnotated hn e

/-- Following all references settles no cell of the third layer or above. -/
theorem reads_resolveAll (hn : 2 < n) (m : ModelId) : Reads c n (resolveAll c m) () :=
  .forM fun k _ => .forM fun e _ => reads_resolveElement hn k e

/-! ### Models -/

theorem reads_reports {k : ElementKind} {m : ModelId}
    {report : Declared k → Session (List Diagnostic)} {answer : Declared k → List Diagnostic}
    (h : ∀ e, Reads c n (report e) (answer e)) :
    Reads c n (reports c m report) ((c.elements m k).flatMap answer) := by
  rw [List.flatMap_def]
  exact Reads.map (.mapM fun e _ => h e) _

theorem reads_reportAll (hn : 3 < n) (m : ModelId) :
    Reads c n (reportAll c m) (c.validate m) :=
  (reads_reports (reads_typeDiagnostics (by omega))).bind <|
  (reads_reports (reads_propertyDiagnostics (by omega))).bind <|
  (reads_reports (reads_navigationDiagnostics (by omega))).bind <|
  (reads_reports (reads_associationDiagnostics (by omega))).bind <|
  (reads_reports (reads_termDiagnostics (by omega))).bind <|
  (reads_reports (reads_containerDiagnostics (by omega))).bind <|
  (reads_reports (reads_entitySetDiagnostics (by omega))).bind <|
  (reads_reports (reads_associationSetDiagnostics (by omega))).bind <|
  (reads_reports (reads_annotationDiagnostics hn)).map _

theorem reads_validate (hn : 3 < n) (m : ModelId) :
    Reads c n (validate c m) (c.validate m) := by
  rw [validate]
  split
  · exact (reads_resolveAll (by omega) m).bind (reads_reportAll hn m)
  · exact reads_reportAll hn m

end Schemata.Session

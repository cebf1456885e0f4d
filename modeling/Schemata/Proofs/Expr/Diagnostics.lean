import Schemata.Proofs.Expr.View
import Schemata.Proofs.Placeholder
import Schemata.Validation

/-!
# Nothing wrong anywhere below

What is wrong with an annotation is found by walking down from its values, and below a node with a
wrong number of operands the walk does not go on.  Where it finds nothing there is no such node, so
it has seen all expressions of the annotation (`IsBuilt.exprDiagnostics_eq_nil`), and in each of
them all names but those of paths and fields lead somewhere (`isResolved_view`).
-/

namespace Schemata

/-- Whatever stands in for something that the names should have led to says what is wrong. -/
def ExprReferences.IsExplained : ExprReferences → Prop
  | none => True
  | malformed p => p.Explains
  | type t => t.IsExplained
  | collection type? | record type? _ => ∀ t ∈ type?, t.IsExplained
  | enumMembers members => ∀ e ∈ members, e.IsExplained
  | label target => target.IsExplained

/-- The expression has as many operands as it should, its constant is a value, and its names lead
somewhere.  Nothing is said of the segments of a path and of the fields of a record. -/
def ExprView.IsResolved : ExprView → Prop
  | constant _ _ value => ∃ v, value = .ok v
  | enumMember members => ∀ e ∈ members, e.placeholder? = none
  | cast type _ | isType type _ => type.placeholder? = none
  | record type? _ | collection type? _ => ∀ t ∈ type?, t.placeholder? = none
  | labelRef target => target.placeholder? = none
  | malformed _ => False
  | null | path _ | cond .. | apply .. | labeled .. => True

namespace Catalog

variable {c : Catalog} {e : ExprRef} {v : ExprView}

/-! ### One expression -/

theorem explains_of_malformed? {p : Placeholder} (hp : c.malformed? e = some p) :
    p.Explains := by
  unfold malformed? at hp
  split at hp
  · cases hp
  · dsimp only at hp
    split at hp
    · cases hp
    · cases hp
      exact Placeholder.explains_bad rfl _

theorem isExplained_references (e : ExprRef) : (c.references e).IsExplained := by
  unfold references
  split
  case h_1 p hp => exact explains_of_malformed? hp
  case h_2 =>
    have htype (name? : Option Name) : ∀ t ∈ name?.map (c.exprType e), t.IsExplained := by
      intro t ht
      obtain ⟨name, -, rfl⟩ := Option.map_eq_some_iff.1 ht
      exact c.isExplained_typeReference _ _ _ _
    split
    · exact c.isExplained_typeReference _ _ _ _
    · exact c.isExplained_typeReference _ _ _ _
    · exact htype _
    · exact htype _
    · intro member hmember
      obtain ⟨word, -, rfl⟩ := List.mem_map.1 hmember
      exact c.isExplained_memberHandle e _
    · exact c.isExplained_labelTarget e _
    all_goals trivial

/-- Where nothing is wrong with an expression itself, its names lead somewhere. -/
theorem isResolved_of_viewWith {references : ExprReferences} (hr : references.IsExplained)
    (hv : c.viewWith e references = v) (hd : v.diagnostics = []) : v.IsResolved := by
  have hoptional {type? : Option TypeReference} (ht : ∀ t ∈ type?, t.IsExplained)
      (hd : type?.toList.flatMap (·.diagnostics) = []) : ∀ t ∈ type?, t.placeholder? = none := by
    intro t hmem
    have htd := List.flatMap_eq_nil_iff.1 hd t (Option.mem_toList.2 hmem)
    exact (ht t hmem).placeholder?_eq_none htd
  unfold viewWith at hv
  dsimp only at hv
  split at hv <;> subst hv
  case h_1 => exact absurd hd hr.1
  case h_2 kind text _ _ =>
    cases hvalue : constantValue kind text (c.exprDecl e).location with
    | ok value => exact ⟨value, rfl⟩
    | error d =>
      rw [hvalue] at hd
      exact absurd hd (List.cons_ne_nil _ _)
  case h_5 members _ =>
    intro member hmember
    have hmd := List.flatMap_eq_nil_iff.1 hd member hmember
    obtain ⟨h, hh, rfl⟩ := List.mem_map.1 hmember
    exact ((hr h hh).map _).placeholder?_eq_none hmd
  case h_7 | h_8 => exact TypeReference.IsExplained.placeholder?_eq_none hr hd
  case h_9 | h_10 => exact hoptional hr hd
  case h_13 => exact Element.IsExplained.placeholder?_eq_none hr hd
  case h_14 => exact absurd hd (List.cons_ne_nil _ _)
  all_goals trivial

theorem isResolved_view (hd : (c.view e).diagnostics = []) : (c.view e).IsResolved :=
  isResolved_of_viewWith (isExplained_references e) rfl hd

/-! ### All expressions of an annotation -/

theorem exprDiagnostics_eq_nil_iff :
    c.exprDiagnostics e = [] ↔ (c.view e).diagnostics = [] ∧
      ∀ child ∈ (c.view e).children, c.exprDiagnostics child = [] := by
  rw [exprDiagnostics]
  simp

variable {a : Declared .annot} {m : ModelId}

namespace IsBuilt

variable (hc : c.IsBuilt) (ha : a ∈ c.elements m .annot)
include hc ha

/-- The roots are the values that the annotation gives, in their order. -/
theorem values_eq : c.values a = (c.annotated a).roots.map (⟨a, ·⟩) := by
  have hroots := (hc.exprs_annotated ha).2
  have hlength := ExprArena.length_places (c.annotated a).decl.roots
  rw [← hroots] at hlength
  unfold values value? bindingDecls
  cases hcontent : (c.annotated a).decl.content with
  | value expr =>
    -- there is one root
    rw [Decl.Annotation.roots, hcontent] at hlength
    obtain ⟨r, hr⟩ := List.length_eq_one_iff.1 hlength
    simp [hr]
  | properties bindings =>
    -- there is a root for each binding, so no value is the default one
    rw [Decl.Annotation.roots, hcontent, List.length_map] at hlength
    refine List.ext_getElem (by simp [hlength]) fun i h h' => ?_
    have hi : i < (c.annotated a).roots.length := by simpa using h'
    simp [bindingValue, List.getElem?_eq_getElem hi]

theorem mem_values_iff : e ∈ c.values a ↔ e.owner = a ∧ e.place ∈ (c.annotated a).roots := by
  obtain ⟨owner, place⟩ := e
  rw [hc.values_eq ha]
  simp only [List.mem_map, ExprRef.mk.injEq]
  constructor
  · rintro ⟨r, hr, rfl, rfl⟩
    exact ⟨rfl, hr⟩
  · rintro ⟨rfl, hplace⟩
    exact ⟨place, hplace, rfl, rfl⟩

theorem mem_nodesOf_of_mem_values (he : e ∈ c.values a) : e ∈ c.nodesOf a := by
  obtain ⟨hexprs, hroots⟩ := hc.exprs_annotated ha
  obtain ⟨howner, hplace⟩ := (hc.mem_values_iff ha).1 he
  rw [hroots] at hplace
  have hrange := (ExprArena.isOrdered_layoutAll 0 (c.annotated a).decl.roots).2 e.place hplace
  refine mem_nodesOf.2 ⟨howner, ?_⟩
  simpa [hexprs, ExprArena.ofRoots] using hrange.2

/-- **Nothing is missed:** an annotation of which nothing is reported has no expression of which
anything would be reported. -/
theorem exprDiagnostics_eq_nil (hd : c.annotationDiagnostics a = []) :
    ∀ e ∈ c.nodesOf a, c.exprDiagnostics e = [] := by
  obtain ⟨hexprs, hroots⟩ := hc.exprs_annotated ha
  have hvalues : ∀ e ∈ c.values a, c.exprDiagnostics e = [] :=
    List.flatMap_eq_nil_iff.1 (List.append_eq_nil_iff.1 hd).2
  suffices h : ∀ i < (ExprArena.ofRoots (c.annotated a).decl.roots).nodes.size,
      c.exprDiagnostics ⟨a, i⟩ = [] by
    intro e he
    obtain ⟨rfl, hplace⟩ := mem_nodesOf.1 he
    rw [hexprs] at hplace
    exact h e.place hplace
  refine ExprArena.forall_node_of_forall_places (fun r hr => ?_) fun i hi j hj => ?_
  · exact hvalues ⟨a, r⟩ ((hc.mem_values_iff ha).2 ⟨rfl, hroots ▸ hr⟩)
  · obtain ⟨hview, hchildren⟩ := exprDiagnostics_eq_nil_iff.1 hi
    -- a node with which nothing is wrong shows all its operands, so the walk goes on to them
    have hshown : (c.view ⟨a, i⟩).children = c.operands ⟨a, i⟩ := by
      refine hc.children_view ha rfl fun p hp => ?_
      have hresolved := isResolved_view hview
      rw [hp] at hresolved
      exact hresolved
    refine hchildren ⟨a, j⟩ ?_
    rw [hshown, operands, arena, hexprs]
    exact List.mem_map_of_mem hj

theorem isResolved_view_of_mem (hd : c.annotationDiagnostics a = []) (he : e ∈ c.nodesOf a) :
    (c.view e).IsResolved :=
  isResolved_view (exprDiagnostics_eq_nil_iff.1 (hc.exprDiagnostics_eq_nil ha hd e he)).1

end IsBuilt

end Catalog

end Schemata

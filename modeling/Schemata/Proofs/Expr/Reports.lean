import Mathlib.Logic.Relation
import Schemata.Proofs.Expr.Diagnostics

/-!
# What an annotation reports of its expressions

A report goes down from the values of an annotation, and it stops at an expression with a wrong
number of operands.  So what is wrong with an expression is reported unless the expression is hidden
(`Catalog.IsHidden`): one that holds it, at any depth, is malformed.  Siblings hide nothing
(`IsBuilt.mem_annotationDiagnostics_iff`).

What is wrong with the fields of a record (`Catalog.fieldDiagnostics`) is not reported at all,
whereas it is reported where a type annotation binds a property that its type does not have.
-/

namespace Schemata.Catalog

variable {c : Catalog} {m : ModelId} {a : Declared .annot} {e e' child : ExprRef} {d : Diagnostic}

variable (c) in
/-- An expression that holds this one, at any depth, is malformed. -/
def IsHidden (e : ExprRef) : Prop :=
  ∃ outer, (∃ p, c.view outer = .malformed p) ∧
    Relation.TransGen (fun outer inner => inner ∈ c.operands outer) outer e

variable (c) in
/-- What is wrong with the fields of a record, if its type is declared. -/
def fieldDiagnostics (m : ModelId) : ExprView → List Diagnostic
  | .record type? fields =>
    match (type?.bind (c.elementOf? m)).bind (·.declared?) with
    | some _ => fields.flatMap (·.property.diagnostics)
    | none => []
  | _ => []

theorem mem_exprDiagnostics_iff :
    d ∈ c.exprDiagnostics e ↔ d ∈ (c.view e).diagnostics ∨
      ∃ child ∈ (c.view e).children, d ∈ c.exprDiagnostics child := by
  rw [exprDiagnostics, List.mem_append]
  simp

namespace IsBuilt

variable (hc : c.IsBuilt) (ha : a ∈ c.elements m .annot)
include hc ha

/-- An expression is an operand of one expression only. -/
theorem eq_of_mem_operands (hchild : child.owner = a) (h : child ∈ c.operands e)
    (h' : child ∈ c.operands e') : e = e' := by
  have howner := (c.owner_of_mem_operands h).symm.trans hchild
  have howner' := (c.owner_of_mem_operands h').symm.trans hchild
  obtain ⟨owner, place⟩ := e
  obtain ⟨owner', place'⟩ := e'
  obtain rfl : owner = a := howner
  obtain rfl : owner' = owner := howner'
  obtain ⟨i, hi, rfl⟩ := List.mem_map.1 h
  obtain ⟨j, hj, hij⟩ := List.mem_map.1 h'
  obtain rfl : j = i := congrArg ExprRef.place hij
  exact congrArg (ExprRef.mk _) ((hc.isImage_exprs ha).eq_of_mem_operands hi hj)

/-! ### What is hidden -/

/-- Nothing holds a value of an annotation. -/
theorem not_isHidden_of_mem_values (he : e ∈ c.values a) : ¬ c.IsHidden e := by
  rintro ⟨outer, -, houter⟩
  obtain ⟨parent, -, hparent⟩ := Relation.TransGen.tail'_iff.1 houter
  obtain ⟨howner, hplace⟩ := (hc.mem_values_iff ha).1 he
  obtain ⟨place, hmem, rfl⟩ := List.mem_map.1 hparent
  obtain rfl : parent.owner = a := howner
  exact (hc.isImage_exprs ha).notMem_operands hplace hmem

/-- An operand is hidden iff its expression is malformed or hidden. -/
theorem isHidden_iff_of_mem_operands (hchild : child.owner = a) (h : child ∈ c.operands e) :
    c.IsHidden child ↔ (∃ p, c.view e = .malformed p) ∨ c.IsHidden e := by
  constructor
  · rintro ⟨outer, hmalformed, houter⟩
    obtain ⟨parent, hpath, hparent⟩ := Relation.TransGen.tail'_iff.1 houter
    obtain rfl := hc.eq_of_mem_operands ha hchild hparent h
    rcases Relation.reflTransGen_iff_eq_or_transGen.1 hpath with rfl | hpath
    · exact .inl hmalformed
    · exact .inr ⟨outer, hmalformed, hpath⟩
  · rintro (hmalformed | ⟨outer, hmalformed, hpath⟩)
    · exact ⟨e, hmalformed, .single h⟩
    · exact ⟨outer, hmalformed, hpath.tail h⟩

/-! ### What is reported -/

/-- What is reported of an expression that is not hidden comes from expressions that are not. -/
theorem exists_of_mem_exprDiagnostics (he : e ∈ c.nodesOf a) (hhidden : ¬ c.IsHidden e)
    (hd : d ∈ c.exprDiagnostics e) :
    ∃ e ∈ c.nodesOf a, ¬ c.IsHidden e ∧ d ∈ (c.view e).diagnostics := by
  induction e using exprDiagnostics.induct c with
  | case1 e _ ih =>
    rcases mem_exprDiagnostics_iff.1 hd with hd | ⟨child, hchild, hd⟩
    · exact ⟨e, he, hhidden, hd⟩
    · have hoperand := c.mem_operands_of_mem_children hchild
      have howner := (c.owner_of_mem_operands hoperand).trans (mem_nodesOf.1 he).1
      have hnode := mem_nodesOf_of_mem_operands hoperand
      rw [howner] at hnode
      refine ih child hchild hnode ?_ hd
      rw [hc.isHidden_iff_of_mem_operands ha howner hoperand, not_or]
      refine ⟨fun ⟨p, hp⟩ => ?_, hhidden⟩
      rw [hp] at hchild
      cases hchild

/-- What is wrong below an expression that is not hidden is reported. -/
theorem exprDiagnostics_subset (he : e ∈ c.nodesOf a) (hhidden : ¬ c.IsHidden e) :
    c.exprDiagnostics e ⊆ (c.values a).flatMap c.exprDiagnostics := by
  obtain ⟨hexprs, hroots⟩ := hc.exprs_annotated ha
  suffices h : ∀ i < (ExprArena.ofRoots (c.annotated a).decl.roots).nodes.size,
      ¬ c.IsHidden ⟨a, i⟩ →
        c.exprDiagnostics ⟨a, i⟩ ⊆ (c.values a).flatMap c.exprDiagnostics by
    obtain ⟨rfl, hplace⟩ := mem_nodesOf.1 he
    rw [hexprs] at hplace
    exact h e.place hplace hhidden
  refine ExprArena.forall_node_of_forall_places (fun r hr _ => ?_) fun i hi j hj hhidden => ?_
  · have hvalue := (hc.mem_values_iff ha (e := ⟨a, r⟩)).2 ⟨rfl, hroots ▸ hr⟩
    exact fun d hd => List.mem_flatMap.2 ⟨_, hvalue, hd⟩
  · have hoperand : (⟨a, j⟩ : ExprRef) ∈ c.operands ⟨a, i⟩ := by
      rw [operands, arena, hexprs]
      exact List.mem_map_of_mem hj
    rw [hc.isHidden_iff_of_mem_operands ha rfl hoperand, not_or] at hhidden
    have hshown := hc.children_view ha (e := ⟨a, i⟩) rfl fun p hp => hhidden.1 ⟨p, hp⟩
    rw [← hshown] at hoperand
    exact fun d hd => hi hhidden.2 (mem_exprDiagnostics_iff.2 (.inr ⟨_, hoperand, hd⟩))

theorem mem_flatMap_values_iff :
    d ∈ (c.values a).flatMap c.exprDiagnostics ↔
      ∃ e ∈ c.nodesOf a, ¬ c.IsHidden e ∧ d ∈ (c.view e).diagnostics := by
  constructor
  · intro hd
    obtain ⟨e, he, hd⟩ := List.mem_flatMap.1 hd
    exact hc.exists_of_mem_exprDiagnostics ha (hc.mem_nodesOf_of_mem_values ha he)
      (hc.not_isHidden_of_mem_values ha he) hd
  · rintro ⟨e, he, hhidden, hd⟩
    exact hc.exprDiagnostics_subset ha he hhidden (mem_exprDiagnostics_iff.2 (.inl hd))

end IsBuilt

/-- **What is reported of an annotation:** what is wrong with the term that it applies, with the
properties that it binds, and with each of its expressions that is not hidden.  Neither the siblings
of an expression nor what else is wrong with those that hold it makes a difference, and nothing else
is reported: not what is wrong with a hidden expression or with the field of a record. -/
theorem mem_annotationDiagnostics_iff (hc : c.IsBuilt) (ha : a ∈ c.elements m .annot)
    (d : Diagnostic) :
    d ∈ c.annotationDiagnostics a ↔
      d ∈ (c.appliedHandle a).diagnostics ∨
        (∃ property ∈ c.bindingHandles a, d ∈ property.diagnostics) ∨
        ∃ e ∈ c.nodesOf a, ¬ c.IsHidden e ∧ d ∈ (c.view e).diagnostics := by
  rw [annotationDiagnostics, annotationDiagnosticsWith, List.mem_append, List.mem_append,
    hc.mem_flatMap_values_iff ha, List.mem_flatMap, or_assoc]

/-! ### What is not reported -/

/-- One more model of one schema, which declares a type without properties and a term of it and
annotates the term with a value. -/
def described (value : Decl.Expr) : Catalog :=
  let term := { Decl.Term.make "T" "NS.C" with annotations := [.value "NS.T" value] }
  initial.add { Options.standard with includeCore := false } []
    [((Decl.Schema.make "NS").addItem (.complexType (.make "C"))).addItem (.term term)]

theorem isBuilt_described (value : Decl.Expr) : (described value).IsBuilt :=
  .add_nil .initial _ _

/-- A choice with one operand, which is no literal. -/
def wrongChoice : Decl.Expr := .ofForm (.cond [.ofForm (.constant .int "twelve")])

/-- Beside a choice with one operand a wrong literal is reported, in the choice it is hidden. -/
theorem mem_annotationDiagnostics_iff_wrongChoice :
    let c := described (.collection [wrongChoice, .ofForm (.constant .int "twelve")])
    let a : Declared .annot := ⟨1, ⟨0⟩⟩
    c.IsBuilt ∧ a ∈ c.elements 1 .annot ∧ c.IsHidden ⟨a, 2⟩ ∧ ¬ c.IsHidden ⟨a, 3⟩ ∧
      (c.view ⟨a, 3⟩).diagnostics ≠ [] ∧
      ∀ d ∈ (c.view ⟨a, 3⟩).diagnostics, d ∈ c.annotationDiagnostics a := by
  intro c a
  have hc : c.IsBuilt := isBuilt_described _
  have ha : a ∈ c.elements 1 .annot := by decide +kernel
  have hroot : (⟨a, 0⟩ : ExprRef) ∈ c.values a := by decide +kernel
  have hshown : (c.view ⟨a, 0⟩).children ≠ [] := by decide +kernel
  have hchoice : ∃ p, c.view ⟨a, 1⟩ = .malformed p := by
    have hdecl : c.exprDecl ⟨a, 1⟩ = wrongChoice := by decide +kernel
    refine ((hc.shows_view_of_owner ha rfl).isMalformed_iff (hc.length_operands ha rfl)).2 ?_
    rw [hdecl]
    show 1 ≠ 3
    decide
  have hhidden : c.IsHidden ⟨a, 2⟩ :=
    (hc.isHidden_iff_of_mem_operands ha rfl (e := ⟨a, 1⟩) (by decide +kernel)).2 (.inl hchoice)
  have hvisible : ¬ c.IsHidden ⟨a, 3⟩ := by
    rw [hc.isHidden_iff_of_mem_operands ha rfl (e := ⟨a, 0⟩) (by decide +kernel), not_or]
    refine ⟨fun ⟨p, hp⟩ => ?_, hc.not_isHidden_of_mem_values ha hroot⟩
    rw [hp] at hshown
    exact hshown rfl
  exact ⟨hc, ha, hhidden, hvisible, by decide +kernel, fun d hd =>
    (mem_annotationDiagnostics_iff hc ha d).2 (.inr (.inr ⟨_, by decide +kernel, hvisible, hd⟩))⟩

/-- **Not all that is wrong is reported.**  What is wrong with an operand of a malformed expression
is not, and neither is a field that the declared type of a record does not have. -/
theorem not_forall_mem_annotationDiagnostics :
    (¬ ∀ c : Catalog, c.IsBuilt → ∀ m, ∀ a ∈ c.elements m .annot, ∀ e ∈ c.nodesOf a,
        ∀ d ∈ (c.view e).diagnostics, d ∈ c.annotationDiagnostics a) ∧
      ¬ ∀ c : Catalog, c.IsBuilt → ∀ m, ∀ a ∈ c.elements m .annot, ∀ e ∈ c.nodesOf a,
        ∀ d ∈ c.fieldDiagnostics m (c.view e), d ∈ c.annotationDiagnostics a := by
  constructor
  · intro h
    let c := described wrongChoice
    let a : Declared .annot := ⟨1, ⟨0⟩⟩
    have hview : (c.view ⟨a, 1⟩).diagnostics.map (·.code) = [.invalidConstant] := by
      decide +kernel
    have hreport : (c.annotationDiagnostics a).map (·.code) = [.malformedExpression] := by
      decide +kernel
    have hsubset : (c.view ⟨a, 1⟩).diagnostics ⊆ c.annotationDiagnostics a :=
      fun d => h c (isBuilt_described _) 1 a (by decide +kernel) _ (by decide +kernel) d
    have hcodes := List.map_subset (·.code) hsubset
    rw [hview, hreport] at hcodes
    exact absurd (hcodes List.mem_cons_self) (by decide)
  · intro h
    let c := described (.ofForm (.record (some "NS.C") [.make "Missing" .null]))
    let a : Declared .annot := ⟨1, ⟨0⟩⟩
    have hfield : c.fieldDiagnostics 1 (c.view ⟨a, 0⟩) ≠ [] := by decide +kernel
    have hreport : c.annotationDiagnostics a = [] := by decide +kernel
    obtain ⟨d, hd⟩ := List.exists_mem_of_ne_nil _ hfield
    have hmem := h c (isBuilt_described _) 1 a (by decide +kernel) _ (by decide +kernel) d hd
    rw [hreport] at hmem
    cases hmem

end Schemata.Catalog

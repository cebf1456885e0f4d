import Schemata.Expr.Basic

/-!
# Labels on the way of an evaluation

A reference to a label leads to any labeled expression of the schema, so evaluation does not only
descend.  It ends all the same, if a label is not evaluated while one of its name is being
evaluated: there are finitely many labels in a schema.

`Catalog.evalMeasure` makes this a measure.  It gets smaller below an expression without a label
(`evalLt_of_mem_children`), below a label that is not being evaluated yet
(`evalLt_of_view_labeled`), and from a reference to what it refers to (`evalLt_of_view_labelRef`).
-/

namespace Schemata.Catalog

variable (c : Catalog)

/-! ### Labels -/

/-- How many labels of a schema have names that are not among `stack`. -/
def labelsLeft (schema : Declared .schema) (stack : List Name) : Nat :=
  ((c.model schema.model).labels schema.id).countP (·.name ∉ stack)

/-- Whether an expression has a label. -/
def isLabeled (e : ExprRef) : Bool :=
  match (c.exprDecl e).form with
  | .labeled .. => true
  | _ => false

/-- The label of a labeled expression is one of its schema. -/
theorem mem_labels {e : ExprRef} {name : Name} {ops : List Decl.Expr}
    (h : (c.exprDecl e).form = .labeled name ops) :
    ⟨name, e.owner.id, e.place⟩ ∈
      (c.model (c.exprSchema e).model).labels (c.exprSchema e).id := by
  obtain ⟨⟨model, ⟨index⟩⟩, place⟩ := e
  have hp : place < ((c.model model).annotated ⟨index⟩).exprs.nodes.size := by
    refine Decidable.byContradiction fun hp => ?_
    simp [exprDecl, arena, annotated, ExprArena.node, Array.getD, hp, default,
      instInhabitedExprNode.default, Decl.Expr.form] at h
  have hi : index < (c.model model).annotations.size := by
    refine Decidable.byContradiction fun hi => ?_
    simp [Model.annotated, Array.getD, hi, default, instInhabitedAnnotationEntry.default] at hp
  refine List.mem_flatMap.2 ⟨⟨index⟩, ?_, ?_⟩
  · simp [Model.ids, Id.upTo, Model.count, Model.entries, exprSchema, annotationSchema, annotated,
      hi]
  · refine List.mem_filterMap.2
      ⟨(((c.model model).annotated ⟨index⟩).exprs.nodes[place], place), ?_, ?_⟩
    · exact List.mem_zipIdx_iff_getElem?.2 (by simp [exprSchema, annotationSchema, hp])
    · have hn : ((c.model model).annotated ⟨index⟩).exprs.nodes[place].decl.form =
          .labeled name ops := by
        simpa [exprDecl, arena, annotated, ExprArena.node, Array.getD, hp] using h
      simp [hn]

/-- Counting less than `q` does and not `a`, which `q` counts, gives fewer. -/
theorem countP_lt {α : Type} {p q : α → Bool} (hpq : ∀ a, p a → q a) {a : α} {as : List α}
    (ha : a ∈ as) (hq : q a) (hp : ¬ p a) : as.countP p < as.countP q := by
  induction as with
  | nil => simp at ha
  | cons b bs ih =>
    have hle : bs.countP p ≤ bs.countP q := List.countP_mono_left fun x _ => hpq x
    have hb := hpq b
    rcases List.mem_cons.1 ha with rfl | ha
    · simp only [List.countP_cons, hq, hp]
      simp
      omega
    · have := ih ha
      simp only [List.countP_cons]
      split <;> split <;> grind

/-- A label that is not being evaluated yet leaves fewer labels. -/
theorem labelsLeft_cons_lt {e : ExprRef} {name : Name} {ops : List Decl.Expr} {stack : List Name}
    (h : (c.exprDecl e).form = .labeled name ops) (hn : name ∉ stack) :
    c.labelsLeft (c.exprSchema e) (name :: stack) < c.labelsLeft (c.exprSchema e) stack :=
  countP_lt (by simp) (c.mem_labels h) (by simpa using hn) (by simp)

/-- Of expressions with a label the views show nothing else, unless they are malformed. -/
theorem view_of_isLabeled {e : ExprRef} (h : c.isLabeled e = true) :
    (∃ name operand, c.view e = .labeled name operand) ∨ ∃ p, c.view e = .malformed p := by
  unfold isLabeled at h
  split at h
  case h_2 => simp at h
  case h_1 name ops hf =>
    unfold view viewWith
    rw [hf]
    cases c.references e <;> simp only [unresolvedView]
    case malformed p => exact .inr ⟨p, rfl⟩
    all_goals
      rcases c.operands e with _ | ⟨operand, _ | ⟨_, _⟩⟩
      · exact .inr ⟨_, rfl⟩
      · exact .inl ⟨name, operand, rfl⟩
      · exact .inr ⟨_, rfl⟩

/-- An expression whose view shows a label has that label. -/
theorem form_of_view_labeled {e operand : ExprRef} {name : Name}
    (h : c.view e = .labeled name operand) :
    ∃ ops, (c.exprDecl e).form = .labeled name ops := by
  unfold view viewWith at h
  dsimp only at h
  split at h <;> simp_all [unresolvedView]

/-- Where labels of a schema are found: on labeled expressions of its annotations. -/
theorem of_mem_labels {schema : Declared .schema} {l : Model.Label}
    (h : l ∈ (c.model schema.model).labels schema.id) :
    let target : ExprRef := ⟨⟨schema.model, l.owner⟩, l.place⟩
    c.exprSchema target = schema ∧ ∃ ops, (c.exprDecl target).form = .labeled l.name ops := by
  obtain ⟨owner, ho, hl⟩ := List.mem_flatMap.1 h
  obtain ⟨⟨node, place⟩, hz, hl⟩ := List.mem_filterMap.1 hl
  have hs : ((c.model schema.model).annotated owner).schema = schema.id := by
    simpa using (List.mem_filter.1 ho).2
  dsimp only at hl
  split at hl
  case h_2 => simp at hl
  case h_1 name ops hf =>
    obtain rfl := Option.some.inj hl
    refine ⟨by simp [exprSchema, annotationSchema, annotated, hs], ops, ?_⟩
    have hz := List.mem_zipIdx_iff_getElem?.1 hz
    rw [Array.getElem?_toList] at hz
    simp only [exprDecl, arena, annotated, ExprArena.node, Array.getD_eq_getD_getElem?, hz]
    exact hf

/-- A reference leads to an expression of the same schema that has a label. -/
theorem of_view_labelRef {e target : ExprRef} (h : c.view e = .labelRef (.declared target)) :
    c.exprSchema target = c.exprSchema e ∧ c.isLabeled target = true := by
  have hr : c.references e = .label (.declared target) := by
    unfold view viewWith at h
    dsimp only at h
    split at h <;> simp_all [unresolvedView]
  unfold references at hr
  split at hr
  · simp at hr
  · split at hr <;> simp only [reduceCtorEq, ExprReferences.label.injEq] at hr
    rename_i name _
    unfold labelTarget Element.ofOption at hr
    cases hl : (c.model (c.exprSchema e).model).label? (c.exprSchema e).id name with
    | none => simp [hl] at hr
    | some l =>
      simp only [hl, Option.map_some, Element.declared.injEq] at hr
      obtain ⟨hs, ops, hf⟩ := c.of_mem_labels (List.mem_of_find?_eq_some hl)
      rw [← hr]
      exact ⟨hs, by simp [isLabeled, hf]⟩

/-- The schema of an operand is that of its expression. -/
theorem exprSchema_of_mem_operands {e child : ExprRef} (h : child ∈ c.operands e) :
    c.exprSchema child = c.exprSchema e := by
  simp only [exprSchema, c.owner_of_mem_operands h]

/-! ### What gets smaller -/

/-- What gets smaller as evaluation goes on: first the labels that are left, then whether the
expression has no label, then the nodes behind it. -/
def evalMeasure (stack : List Name) (e : ExprRef) : Nat × Nat × Nat :=
  (c.labelsLeft (c.exprSchema e) stack, if c.isLabeled e then 0 else 1, c.nodesBehind e)

/-- The order in which measures get smaller. -/
abbrev EvalLt : Nat × Nat × Nat → Nat × Nat × Nat → Prop :=
  Prod.Lex (· < ·) (Prod.Lex (· < ·) (· < ·))

/-- Descending to an operand of an expression without a label gets smaller. -/
theorem evalLt_of_mem_children {e child : ExprRef} {stack : List Name}
    (hv : ∀ name operand, c.view e ≠ .labeled name operand) (h : child ∈ (c.view e).children) :
    EvalLt (c.evalMeasure stack child) (c.evalMeasure stack e) := by
  have hl : c.isLabeled e = false := by
    cases hl : c.isLabeled e
    · rfl
    · rcases c.view_of_isLabeled hl with ⟨name, operand, hv'⟩ | ⟨_, hv'⟩
      · exact absurd hv' (hv name operand)
      · simp [hv', ExprView.children] at h
  have ho := c.mem_operands_of_mem_children h
  have hn := c.nodesBehind_lt_of_mem_operands ho
  unfold evalMeasure
  rw [c.exprSchema_of_mem_operands ho, hl]
  refine .right _ ?_
  cases c.isLabeled child
  · exact .right _ hn
  · exact .left _ _ (by simp)

/-- Descending below a label that is not being evaluated yet gets smaller. -/
theorem evalLt_of_view_labeled {e operand : ExprRef} {name : Name} {stack : List Name}
    (h : c.view e = .labeled name operand) (hn : name ∉ stack) :
    EvalLt (c.evalMeasure (name :: stack) operand) (c.evalMeasure stack e) := by
  obtain ⟨ops, hf⟩ := c.form_of_view_labeled h
  have ho : operand ∈ c.operands e := by
    have hc : operand ∈ (c.view e).children := by simp [h, ExprView.children]
    exact c.mem_operands_of_mem_children hc
  unfold evalMeasure
  rw [c.exprSchema_of_mem_operands ho]
  exact .left _ _ (c.labelsLeft_cons_lt hf hn)

/-- Following a reference to a label gets smaller. -/
theorem evalLt_of_view_labelRef {e target : ExprRef} {stack : List Name}
    (h : c.view e = .labelRef (.declared target)) :
    EvalLt (c.evalMeasure stack target) (c.evalMeasure stack e) := by
  obtain ⟨hs, ht⟩ := c.of_view_labelRef h
  have he : c.isLabeled e = false := by
    cases hl : c.isLabeled e
    · rfl
    · rcases c.view_of_isLabeled hl with ⟨_, _, hv⟩ | ⟨_, hv⟩ <;> simp [hv] at h
  unfold evalMeasure
  rw [hs, ht, he]
  exact .right _ (.left _ _ (by simp))

end Schemata.Catalog

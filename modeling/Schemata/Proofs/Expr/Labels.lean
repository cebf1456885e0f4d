import Schemata.Proofs.Document.Order
import Schemata.Proofs.Expr.View
import Schemata.Proofs.Matching.Entries
import Schemata.Proofs.Model.Symbols

/-!
# Labels in document order

The table of the labels of a schema is filled from all annotations of the model, as they are
numbered: the inline ones of all schemas come first and then those of all blocks.  Of one schema the
expressions are in document order all the same (`Catalog.map_exprDecl_exprsIn`).  So a reference to
a label leads to the first expression in the document of the schema that has the label
(`Catalog.view_labelRef_of_build`).
-/

namespace Schemata

/-- The label of an expression, if it has one. -/
def Decl.Expr.label? (e : Decl.Expr) : Option Name :=
  match e.form with
  | .labeled name _ => some name
  | _ => none

namespace Element

variable {α : Type} {p : Placeholder} {a? : Option α} {a : α}

theorem ofOption_eq_declared_iff : ofOption p a? = declared a ↔ a? = some a := by
  cases a? <;> simp [ofOption]

theorem ofOption_eq_placeholder_iff : ofOption p a? = placeholder p ↔ a? = none := by
  cases a? <;> simp [ofOption]

end Element

/-! ### Trees in arrays -/

namespace ExprArena

open Decl (Expr)

mutual

theorem map_decl_layout (start : Nat) (e : Expr) :
    (layout start e).map (·.decl) = e.preorder := by
  have hbelow := map_decl_layoutAll (start + 1) e.children
  unfold layout
  rw [List.map_cons, hbelow, Expr.preorder_eq]
termination_by sizeOf e
decreasing_by exact sizeOf_children_lt e

/-- The array holds the expressions of the trees in document order. -/
theorem map_decl_layoutAll (start : Nat) (es : List Expr) :
    (layoutAll start es).2.map (·.decl) = es.flatMap (·.preorder) := by
  cases es with
  | nil => simp [layoutAll]
  | cons e es =>
    have hfirst := map_decl_layout start e
    have hrest := map_decl_layoutAll (start + (layout start e).length) es
    unfold layoutAll
    rw [List.map_append, hfirst, hrest, List.flatMap_cons]
termination_by sizeOf es

end

/-- The nodes with their places. -/
theorem zipIdx_nodes (a : ExprArena) :
    a.nodes.toList.zipIdx = (List.range a.nodes.size).map fun i => (a.node i, i) := by
  refine List.ext_getElem (by simp) fun i h h' => ?_
  have hi : i < a.nodes.size := by simpa using h
  simp [node, Array.getD, hi]

theorem map_node_range (a : ExprArena) : (List.range a.nodes.size).map a.node = a.nodes.toList := by
  rw [← List.zipIdx_map_fst 0 a.nodes.toList, zipIdx_nodes, List.map_map]
  rfl

end ExprArena

/-! ### Annotations of a schema -/

namespace Model

variable {m : Model} {s : Id .schema} {a : Id .annot}

variable (m) in
/-- The annotations of a schema in document order: item by item, those of what is declared inside an
item before its own, and then those of the blocks. -/
def documentAnnotations (s : Id .schema) : List (Id .annot) :=
  (m.targetsIn s).flatMap m.annotationsAt ++ (m.blocksOf s).flatMap (·.annotations)

/-- The annotations of a schema are numbered in document order. -/
theorem IsLaidOut.annotationsIn_eq_documentAnnotations (hm : m.IsLaidOut)
    (hs : s ∈ m.ids .schema) : m.annotationsIn s = m.documentAnnotations s := by
  rw [hm.annotationsIn_eq hs, held, Contents.append_apply, insideSchema_annot, insideBlocks,
    Contents.of_self]
  rfl

theorem annotationDecls_documentAnnotations (s : Id .schema) :
    m.annotationDecls (m.documentAnnotations s) =
      (m.schemaDecl s).inlineAnnotations ++ (m.schemaDecl s).outOfLineAnnotations := by
  rw [inlineAnnotations_schemaDecl, outOfLineAnnotations_schemaDecl, documentAnnotations,
    annotationDecls, List.map_append]
  rfl

theorem mem_annotationsIn :
    a ∈ m.annotationsIn s ↔ a ∈ m.ids .annot ∧ (m.annotated a).schema = s := by
  rw [annotationsIn, List.mem_filter, decide_eq_true_eq]

end Model

namespace Catalog

variable {c : Catalog} {m : ModelId} {s : Declared .schema} {a : Declared .annot} {e : ExprRef}
  {name : Name}

/-! ### Expressions of a schema -/

variable (c) in
/-- The expressions in the annotations of a schema, in document order. -/
def exprsIn (s : Declared .schema) : List ExprRef :=
  ((c.model s.model).documentAnnotations s.id).flatMap fun a => c.nodesOf ⟨s.model, a⟩

variable (c) in
/-- The label of an expression with the place where it stands. -/
def labelAt? (e : ExprRef) : Option Model.Label :=
  (c.exprDecl e).label?.map fun name => ⟨name, e.owner.id, e.place⟩

theorem map_exprDecl_nodesOf (a : Declared .annot) :
    (c.nodesOf a).map c.exprDecl = (c.annotated a).exprs.nodes.toList.map (·.decl) := by
  rw [nodesOf, List.map_map, ← ExprArena.map_node_range, List.map_map]
  rfl

theorem labelsOf_eq (a : Id .annot) :
    (c.model m).labelsOf a = (c.nodesOf ⟨m, a⟩).filterMap c.labelAt? := by
  unfold Model.labelsOf nodesOf
  dsimp only
  rw [ExprArena.zipIdx_nodes, List.filterMap_map, List.filterMap_map]
  refine List.filterMap_congr fun place _ => ?_
  show _ = (((c.model m).annotated a).exprs.node place).decl.label?.map _
  unfold Decl.Expr.label?
  dsimp only [Function.comp_apply]
  cases (((c.model m).annotated a).exprs.node place).decl.form <;> rfl

section

variable (hm : (c.model s.model).IsLaidOut) (hs : s.id ∈ (c.model s.model).ids .schema)
include hm hs

/-- The labels of a schema are those of its expressions, in document order. -/
theorem labels_eq : (c.model s.model).labels s.id = (c.exprsIn s).filterMap c.labelAt? := by
  have hlabels : (c.model s.model).labels s.id =
      ((c.model s.model).annotationsIn s.id).flatMap (c.model s.model).labelsOf := rfl
  rw [hlabels, hm.annotationsIn_eq_documentAnnotations hs, exprsIn, List.filterMap_flatMap]
  exact List.flatMap_congr fun a _ => labelsOf_eq a

theorem mem_exprsIn :
    e ∈ c.exprsIn s ↔ e.owner ∈ c.elements s.model .annot ∧ e ∈ c.nodesOf e.owner ∧
      c.exprSchema e = s := by
  rw [exprsIn, ← hm.annotationsIn_eq_documentAnnotations hs, List.mem_flatMap]
  constructor
  · rintro ⟨a, ha, he⟩
    obtain ⟨ha, hschema⟩ := Model.mem_annotationsIn.1 ha
    obtain ⟨howner, hplace⟩ := mem_nodesOf.1 he
    refine ⟨howner ▸ List.mem_map_of_mem ha, howner.symm ▸ he, ?_⟩
    rw [exprSchema, howner, annotationSchema, annotated, hschema]
  · rintro ⟨howner, he, rfl⟩
    obtain ⟨a, ha, howner⟩ := List.mem_map.1 howner
    refine ⟨a, Model.mem_annotationsIn.2 ⟨ha, ?_⟩, howner.symm ▸ he⟩
    rw [exprSchema, ← howner]
    rfl

theorem nodup_exprsIn : (c.exprsIn s).Nodup := by
  rw [exprsIn, ← hm.annotationsIn_eq_documentAnnotations hs]
  refine List.nodup_flatMap.2 ⟨fun a _ => ?_, ?_⟩
  · exact List.nodup_range.map fun i j h => congrArg ExprRef.place h
  · refine ((Id.nodup_upTo _ _).filter _).imp fun hne e he he' => ?_
    have howner := (mem_nodesOf.1 he).1.symm.trans (mem_nodesOf.1 he').1
    exact hne (congrArg Declared.id howner)

/-- A label leads to the first expression of the schema that has it. -/
theorem labelTarget_eq (he : c.exprSchema e = s) (name : Name) :
    c.labelTarget e name =
      .ofOption (.unresolved .unresolvedLabel name (c.exprDecl e).location)
        ((c.exprsIn s).find? fun x => (c.exprDecl x).label? = some name) := by
  have hsearch : ((c.exprsIn s).find? fun x => (c.labelAt? x).any (·.name = name)) =
      (c.exprsIn s).find? fun x => (c.exprDecl x).label? = some name := by
    refine congrArg (List.find? · _) (funext fun x => ?_)
    unfold labelAt?
    cases (c.exprDecl x).label? <;> simp
  unfold labelTarget
  dsimp only
  rw [he, Model.label?, labels_eq hm hs, List.find?_filterMap, hsearch]
  refine congrArg _ ?_
  cases hfind : (c.exprsIn s).find? fun x => (c.exprDecl x).label? = some name with
  | none => rfl
  | some x =>
    -- what is found has the label, and the place in the table is its own
    have hlabel : (c.exprDecl x).label? = some name := by simpa using List.find?_some hfind
    have howner : x.owner.model = s.model :=
      (c.mem_elements.1 ((mem_exprsIn hm hs).1 (List.mem_of_find?_eq_some hfind)).1).1
    rw [Option.bind_some, labelAt?, hlabel, Option.map_some, Option.map_some, ← howner]

end

/-- The expressions of a schema are in document order. -/
theorem map_exprDecl_exprsIn (hm : (c.model s.model).IsLaidOut)
    (hconsistent : (c.model s.model).IsConsistent) (hs : s.id ∈ (c.model s.model).ids .schema) :
    (c.exprsIn s).map c.exprDecl = ((c.model s.model).schemaDecl s.id).expressions := by
  have hannotation : ∀ a ∈ (c.model s.model).documentAnnotations s.id,
      (c.nodesOf ⟨s.model, a⟩).map c.exprDecl =
        ((c.model s.model).annotated a).decl.expressions := by
    intro a ha
    rw [← hm.annotationsIn_eq_documentAnnotations hs] at ha
    have hfits := hconsistent .annot a (Id.mem_upTo.1 (Model.mem_annotationsIn.1 ha).1)
    have hexprs : (c.annotated ⟨s.model, a⟩).exprs =
        .ofRoots ((c.model s.model).annotated a).decl.roots := hfits.1
    rw [map_exprDecl_nodesOf, hexprs]
    exact ExprArena.map_decl_layoutAll 0 _
  rw [exprsIn, List.map_flatMap, List.flatMap_congr hannotation, Decl.Schema.expressions,
    ← Model.annotationDecls_documentAnnotations, Model.annotationDecls, List.flatMap_map]

/-! ### References to labels -/

theorem view_labelRef (hform : (c.exprDecl e).form = .labelRef name) :
    c.view e = .labelRef (c.labelTarget e name) := by
  have hreferences : c.references e = .label (c.labelTarget e name) := by
    unfold references malformed?
    rw [hform]
    rfl
  unfold view viewWith
  rw [hform, hreferences]

/-- **A label leads to the first expression that has it,** in the order in which the expressions of
the schema are written.  It leads to nothing if no expression in an annotation of the schema has it;
those of other schemas do not count. -/
theorem view_labelRef_of_build {options : Options} {references : List ModelId}
    {schemas : List Decl.Schema} {i : Nat} {d : Decl.Schema}
    (hm : c.model m = Model.build options references schemas) (hd : schemas[i]? = some d) :
    let s : Declared .schema := ⟨m, ⟨i⟩⟩
    (c.exprsIn s).map (fun e => Csdl.expr (c.exprDecl e)) =
        (Csdl.schema d).select Csdl.expressionTags ∧
      (c.exprsIn s).Nodup ∧
      (∀ e, e ∈ c.exprsIn s ↔
        e.owner ∈ c.elements m .annot ∧ e ∈ c.nodesOf e.owner ∧ c.exprSchema e = s) ∧
      ∀ e ∈ c.exprsIn s, ∀ name, (c.exprDecl e).form = .labelRef name →
        ∃ target, c.view e = .labelRef target ∧
          (∀ x, target = .declared x ↔ (c.exprDecl x).label? = some name ∧
            ∃ before after, c.exprsIn s = before ++ x :: after ∧
              ∀ y ∈ before, (c.exprDecl y).label? ≠ some name) ∧
          (target = .placeholder (.unresolved .unresolvedLabel name (c.exprDecl e).location) ↔
            ∀ y ∈ c.exprsIn s, (c.exprDecl y).label? ≠ some name) := by
  intro s
  have hlaid : (c.model s.model).IsLaidOut := hm ▸ Model.isLaidOut_build _ _ _
  have hconsistent : (c.model s.model).IsConsistent := hm ▸ Model.isConsistent_build _ _ _
  have hdecl : (c.model s.model).schemaDecl s.id = d := hm ▸ Model.schemaDecl_build hd
  have hs : s.id ∈ (c.model s.model).ids .schema := by
    refine Id.mem_upTo.2 ?_
    rw [hm, Model.count_schema_build]
    exact (List.getElem?_eq_some_iff.1 hd).1
  refine ⟨?_, nodup_exprsIn hlaid hs, fun e => mem_exprsIn hlaid hs, fun e he name hform =>
    ⟨_, view_labelRef hform, fun x => ?_, ?_⟩⟩
  · rw [Csdl.select_schema, ← hdecl, ← map_exprDecl_exprsIn hlaid hconsistent hs, List.map_map]
    rfl
  all_goals rw [labelTarget_eq hlaid hs ((mem_exprsIn hlaid hs).1 he).2.2]
  · rw [Element.ofOption_eq_declared_iff, List.find?_eq_some_iff_append]
    simp only [decide_eq_true_eq, Bool.not_eq_true', decide_eq_false_iff_not, ne_eq]
  · rw [Element.ofOption_eq_placeholder_iff, List.find?_eq_none]
    simp only [decide_eq_true_eq, ne_eq]

/-- Two schemas.  In the first one a term refers to two labels, of which one is on a type and on a
property of that type, and the other one is in the second schema only. -/
def labeledSchemas : List Decl.Schema :=
  let note (e : Decl.Expr) := Decl.Annotation.value "NS.T" e
  let references : Decl.Expr := .collection [.ofForm (.labelRef "L"), .ofForm (.labelRef "M")]
  let term := { Decl.Term.make "T" "Edm.Int32" with annotations := [note references] }
  let property := { Decl.Property.make "P" "Edm.Int32" with
    annotations := [note (.labeled "L" (.int 1))] }
  let type := ((Decl.Structured.make "C").addProperty property).annotate
    (note (.labeled "L" (.int 2)))
  [((Decl.Schema.make "NS").addItem (.term term)).addItem (.complexType type),
    (Decl.Schema.make "Lib").addBlock ⟨"NS.C", none, [note (.labeled "M" (.int 3))], .unknown⟩]

/-- The label of the property comes first, and that of the other schema is not found. -/
theorem view_labelRef_of_build_labeledSchemas :
    let c := initial.add { Options.standard with includeCore := false } [] labeledSchemas
    let a : Declared .annot := ⟨1, ⟨0⟩⟩
    c.view ⟨a, 1⟩ = .labelRef (.declared ⟨⟨1, ⟨1⟩⟩, 0⟩) ∧
      c.view ⟨a, 2⟩ = .labelRef (.placeholder (.unresolved .unresolvedLabel "M" .unknown)) := by
  intro c a
  have hm : c.model 1 = _ := initial.model_add _ _ _
  have hexprs : c.exprsIn ⟨1, ⟨0⟩⟩ =
      [⟨a, 0⟩, ⟨a, 1⟩, ⟨a, 2⟩] ++
        ⟨⟨1, ⟨1⟩⟩, 0⟩ :: [⟨⟨1, ⟨1⟩⟩, 1⟩, ⟨⟨1, ⟨2⟩⟩, 0⟩, ⟨⟨1, ⟨2⟩⟩, 1⟩] := by
    decide +kernel
  obtain ⟨-, -, -, hview⟩ := view_labelRef_of_build (i := 0) hm rfl
  constructor
  · obtain ⟨target, htarget, hfirst, -⟩ := hview ⟨a, 1⟩ (by decide +kernel) "L" (by decide +kernel)
    rw [htarget, (hfirst ⟨⟨1, ⟨1⟩⟩, 0⟩).2 ⟨by decide +kernel, _, _, hexprs, by decide +kernel⟩]
  · obtain ⟨target, htarget, -, hnone⟩ := hview ⟨a, 2⟩ (by decide +kernel) "M" (by decide +kernel)
    have hlocation : (c.exprDecl ⟨a, 2⟩).location = .unknown := by decide +kernel
    rw [htarget, hnone.2 (by decide +kernel), hlocation]

end Catalog

end Schemata

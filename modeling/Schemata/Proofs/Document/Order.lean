import Mathlib.Data.List.Forall2
import Schemata.Proofs.Annotation
import Schemata.Proofs.Document.Csdl

/-!
# Document order

The elements of a document are ordered by where they begin: an element comes before its children,
and these with all that is in them one after another (`Markup.preorder`).  This is the order in
which their first lines are written (`Markup.exists_sublist_lines`).

Expressions have a like order, each before its operands (`Decl.Expr.preorder`).  The annotations of
a schema are ordered item by item, those inside an item before its own, and the blocks come last.
Of the elements of a schema those that stand for expressions are in just this order
(`Csdl.select_schema`).
-/

namespace Schemata

/-! ### Elements -/

namespace Markup

variable {tags : List String}

mutual

/-- An element and all that are in it, each before its children. -/
def preorder : Markup → List Markup
  | empty name attributes => [empty name attributes]
  | element name attributes children => element name attributes children :: preorderAll children
  | text name content => [text name content]

/-- Several elements and all that are in them. -/
def preorderAll : List Markup → List Markup
  | [] => []
  | m :: ms => preorder m ++ preorderAll ms

end

theorem preorderAll_eq (ms : List Markup) : preorderAll ms = ms.flatMap preorder := by
  induction ms with
  | nil => rfl
  | cons m ms ih => rw [preorderAll, ih, List.flatMap_cons]

/-- The line with which an element begins. -/
def firstLine (level : Nat) : Markup → String
  | empty name attributes => indent level ++ "<" ++ header name attributes ++ "/>"
  | element name attributes _ => indent level ++ "<" ++ header name attributes ++ ">"
  | text name content =>
    indent level ++ "<" ++ name ++ ">" ++ escape content ++ "</" ++ name ++ ">"

/-- At some indentation the line is the one with which the element begins. -/
def Begins (line : String) (m : Markup) : Prop := ∃ level, line = firstLine level m

mutual

/-- Elements begin in the text in the order of the document. -/
theorem exists_sublist_lines (level : Nat) :
    (m : Markup) → ∃ ls, List.Forall₂ Begins ls m.preorder ∧ ls.Sublist (lines level m)
  | empty name attributes => ⟨_, .cons ⟨level, rfl⟩ .nil, .refl _⟩
  | text name content => ⟨_, .cons ⟨level, rfl⟩ .nil, .refl _⟩
  | element name attributes children => by
    obtain ⟨ls, hls, hsub⟩ := exists_sublist_linesOfAll (level + 1) children
    exact ⟨_, .cons ⟨level, rfl⟩ hls,
      (hsub.trans (List.sublist_append_left _ _)).cons_cons _⟩

theorem exists_sublist_linesOfAll (level : Nat) : (ms : List Markup) →
    ∃ ls, List.Forall₂ Begins ls (preorderAll ms) ∧ ls.Sublist (linesOfAll level ms)
  | [] => ⟨[], .nil, .refl _⟩
  | m :: ms => by
    obtain ⟨ls, hls, hsub⟩ := exists_sublist_lines level m
    obtain ⟨ls', hls', hsub'⟩ := exists_sublist_linesOfAll level ms
    exact ⟨ls ++ ls', List.rel_append hls hls', hsub.append hsub'⟩

end

/-- The elements with some tags that are in an element or are the element, in document order. -/
def select (tags : List String) (m : Markup) : List Markup := m.preorder.filter (·.name ∈ tags)

theorem select_element (name : String) (attributes : List (String × String)) (ms : List Markup) :
    select tags (.element name attributes ms) =
      (if name ∈ tags then [.element name attributes ms] else []) ++ ms.flatMap (select tags) := by
  have hbelow : (preorderAll ms).filter (·.name ∈ tags) = ms.flatMap (select tags) := by
    rw [preorderAll_eq, List.filter_flatMap]
    rfl
  rw [select, preorder, List.filter_cons, hbelow]
  by_cases h : name ∈ tags <;> simp [Markup.name, h]

theorem select_element_of_notMem {name : String} (h : name ∉ tags)
    (attributes : List (String × String)) (ms : List Markup) :
    select tags (.element name attributes ms) = ms.flatMap (select tags) := by
  rw [select_element, if_neg h, List.nil_append]

theorem select_empty (name : String) (attributes : List (String × String)) :
    select tags (.empty name attributes) =
      if name ∈ tags then [.empty name attributes] else [] := by
  by_cases h : name ∈ tags <;> simp [select, preorder, Markup.name, h]

theorem select_text {name : String} (h : name ∈ tags) (content : String) :
    select tags (.text name content) = [.text name content] := by
  simp [select, preorder, Markup.name, h]

theorem select_node_of_mem {name : String} (h : name ∈ tags)
    (attributes : List (String × String)) (ms : List Markup) :
    select tags (.node name attributes ms) =
      .node name attributes ms :: ms.flatMap (select tags) := by
  cases ms with
  | nil => exact (select_empty name attributes).trans (if_pos h)
  | cons m ms => exact (select_element _ _ _).trans (congrArg (· ++ _) (if_pos h))

theorem select_node_of_notMem {name : String} (h : name ∉ tags)
    (attributes : List (String × String)) (ms : List Markup) :
    select tags (.node name attributes ms) = ms.flatMap (select tags) := by
  cases ms with
  | nil => exact (select_empty name attributes).trans (if_neg h)
  | cons m ms => exact select_element_of_notMem h attributes (m :: ms)

end Markup

/-! ### Expressions -/

namespace Decl

/-- An expression and all that are below it, each before its operands. -/
def Expr.preorder (e : Expr) : List Expr :=
  e :: e.children.attach.flatMap fun ⟨child, _⟩ => preorder child
termination_by sizeOf e
decreasing_by exact sizeOf_lt_of_mem_children ‹_›

theorem Expr.preorder_eq (e : Expr) : e.preorder = e :: e.children.flatMap preorder := by
  rw [preorder]
  simp

/-- The expressions of an annotation, in document order. -/
def Annotation.expressions (a : Annotation) : List Expr := a.roots.flatMap (·.preorder)

/-- The expressions of a schema, in document order. -/
def Schema.expressions (d : Schema) : List Expr :=
  (d.inlineAnnotations ++ d.outOfLineAnnotations).flatMap (·.expressions)

end Decl

/-! ### Expressions as elements -/

namespace Csdl

open Decl Markup

/-- The tags of expressions. -/
def expressionTags : List String :=
  ["Null", "If", "Cast", "IsType", "Record", "Collection", "Apply", "LabeledElement"] ++ textTags

theorem elementName_mem_expressionTags (kind : ConstantKind) :
    kind.elementName ∈ expressionTags := by
  cases kind <;> decide

mutual

theorem select_expr : (e : Expr) → (expr e).select expressionTags = e.preorder.map expr
  | .node form location => by
    rw [Expr.preorder_eq, List.map_cons, List.map_flatMap]
    cases form with
    | constant kind text => exact select_text (elementName_mem_expressionTags kind) text
    | path | enumMember | labelRef => exact select_text (by decide) _
    | null => exact (select_empty _ _).trans (if_pos (by decide))
    | cond es | cast _ es | isType _ es | collection _ es | apply _ es | labeled _ es =>
      refine (select_node_of_mem (by decide) _ _).trans (congrArg _ ?_)
      exact flatMap_select_exprs es
    | record _ bs =>
      refine (select_node_of_mem (by decide) _ _).trans (congrArg _ ?_)
      exact flatMap_select_bindings bs

theorem flatMap_select_exprs : (es : List Expr) →
    (exprs es).flatMap (select expressionTags) = es.flatMap fun e => e.preorder.map expr
  | [] => rfl
  | e :: es => by
    rw [exprs, List.flatMap_cons, List.flatMap_cons, select_expr e, flatMap_select_exprs es]

theorem flatMap_select_bindings : (bs : List (Binding Expr)) →
    (bindings bs).flatMap (select expressionTags) =
      (bs.map (·.value)).flatMap fun e => e.preorder.map expr
  | [] => rfl
  | ⟨property, value, _⟩ :: bs => by
    rw [bindings, List.flatMap_cons, List.map_cons, List.flatMap_cons,
      select_element_of_notMem (by decide), List.flatMap_singleton, select_expr value,
      flatMap_select_bindings bs]

end

theorem select_annot (a : Annotation) :
    (annot a).select expressionTags = a.expressions.map expr := by
  obtain ⟨term, qualifier, content, location⟩ := a
  unfold Annotation.expressions
  rw [List.map_flatMap]
  cases content with
  | value e =>
    refine (select_element_of_notMem (by decide) _ _).trans ?_
    simp only [List.flatMap_singleton, select_expr, Annotation.roots]
  | properties bs =>
    refine (select_node_of_notMem (by decide) _ _).trans ?_
    exact flatMap_select_bindings bs

/-- Where each of some elements holds its expressions in order, they do together. -/
theorem flatMap_select_map {α : Type} {f : α → Markup} {g : α → List Expr}
    (h : ∀ a, (f a).select expressionTags = (g a).map expr) (l : List α) :
    (l.map f).flatMap (select expressionTags) = (l.flatMap g).map expr := by
  rw [List.flatMap_map, List.map_flatMap]
  exact List.flatMap_congr fun a _ => h a

theorem flatMap_select_annotations (as : List Annotation) :
    (as.map annot).flatMap (select expressionTags) =
      (as.flatMap (·.expressions)).map expr :=
  flatMap_select_map select_annot as

/-- Elements without children that are no expressions hold none. -/
theorem flatMap_select_empties {α : Type} {tag : String} (htag : tag ∉ expressionTags)
    (attributes : α → List (String × String)) (l : List α) :
    (l.map fun a => Markup.empty tag (attributes a)).flatMap (select expressionTags) = [] := by
  refine (flatMap_select_map (g := fun _ => []) (fun a => ?_) l).trans ?_
  · exact (select_empty _ _).trans (if_neg htag)
  · simp

theorem flatMap_select_key (names : List Name) :
    (key names).flatMap (select expressionTags) = [] := by
  unfold key
  split
  · rfl
  · rw [List.flatMap_singleton, select_element_of_notMem (by decide),
      flatMap_select_empties (by decide)]

theorem select_property (p : Property) : (property p).select expressionTags =
    (p.annotations.flatMap (·.expressions)).map expr :=
  (select_node_of_notMem (by decide) _ _).trans (flatMap_select_annotations _)

theorem select_navigation (n : Navigation) : (navigation n).select expressionTags =
    (n.annotations.flatMap (·.expressions)).map expr :=
  (select_node_of_notMem (by decide) _ _).trans (flatMap_select_annotations _)

theorem select_entitySet (e : EntitySet) : (entitySet e).select expressionTags =
    (e.annotations.flatMap (·.expressions)).map expr :=
  (select_node_of_notMem (by decide) _ _).trans (flatMap_select_annotations _)

theorem select_associationSet (a : AssociationSet) :
    (associationSet a).select expressionTags = [] :=
  (select_node_of_notMem (by decide) _ _).trans (flatMap_select_empties (by decide) _ _)

theorem select_structured {tag : String} (htag : tag ∉ expressionTags) (t : Structured) :
    (structured tag t).select expressionTags =
      ((t.properties.flatMap (·.annotations) ++ t.navigation.flatMap (·.annotations) ++
        t.annotations).flatMap (·.expressions)).map expr := by
  refine (select_node_of_notMem htag _ _).trans ?_
  simp only [List.flatMap_append, flatMap_select_key, flatMap_select_map select_property,
    flatMap_select_map select_navigation, flatMap_select_annotations, List.map_append,
    List.flatMap_assoc, List.nil_append]

theorem select_item (i : Item) : (item i).select expressionTags =
    (i.inlineAnnotations.flatMap (·.expressions)).map expr := by
  cases i with
  | complexType t | entityType t => exact select_structured (by decide) t
  | enumType e =>
    refine (select_node_of_notMem (by decide) _ _).trans ?_
    rw [List.flatMap_append, flatMap_select_empties (by decide), List.nil_append]
    exact flatMap_select_annotations _
  | association a =>
    refine (select_element_of_notMem (by decide) _ _).trans ?_
    rw [List.flatMap_cons, List.flatMap_cons, associationEnd, associationEnd, select_empty,
      select_empty, if_neg (by decide)]
    exact flatMap_select_annotations _
  | term t =>
    exact (select_node_of_notMem (by decide) _ _).trans (flatMap_select_annotations _)
  | container k =>
    refine (select_node_of_notMem (by decide) _ _).trans ?_
    simp only [List.flatMap_append, flatMap_select_map select_entitySet,
      flatMap_select_map (g := fun _ => []) select_associationSet, flatMap_select_annotations,
      Item.inlineAnnotations, List.map_append, List.flatMap_assoc]
    simp

theorem select_block (b : Block) : (block b).select expressionTags =
    (b.annotations.flatMap (·.expressions)).map expr :=
  (select_node_of_notMem (by decide) _ _).trans (flatMap_select_annotations _)

/-- **The elements of a schema that stand for expressions are in document order.** -/
theorem select_schema (d : Schema) :
    (schema d).select expressionTags = d.expressions.map expr := by
  have husing : "Using" ∉ expressionTags := by decide
  refine (select_node_of_notMem (by decide) _ _).trans ?_
  simp only [List.flatMap_append, flatMap_select_empties husing,
    flatMap_select_map select_item, flatMap_select_map select_block, Schema.expressions,
    Schema.inlineAnnotations, Schema.outOfLineAnnotations, List.flatMap_assoc, List.map_append,
    List.nil_append]

end Csdl

end Schemata

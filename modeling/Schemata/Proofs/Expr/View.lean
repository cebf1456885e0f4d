import Schemata.Expr.Basic
import Schemata.Proofs.Catalog.Built
import Schemata.Proofs.Expr.Preorder

/-!
# What the view of an expression shows

`Catalog.Shows` says of each form of declaration what an expression of that form shows: its operands
one by one, and what each of its names leads to.  An expression is malformed if its form has a fixed
number of operands and the declaration has another (`Decl.ExprForm.IsMalformed`), and then its view
says that and nothing else.

The view of an expression that has as many operands as its declaration is what `Shows` says
(`shows_view`), so it is never the view of an expression that could not be resolved.  In a catalog
that is built all expressions of annotations are of this sort (`IsBuilt.length_operands`).
-/

namespace Schemata

/-- The form has a fixed number of operands, and there is another number of them. -/
def Decl.ExprForm.IsMalformed {ε : Type} : Decl.ExprForm ε → Prop
  | cond ops => ops.length ≠ 3
  | cast _ ops | isType _ ops | labeled _ ops => ops.length ≠ 1
  | _ => False

namespace Catalog

variable {c : Catalog} {e : ExprRef} {v : ExprView} {form : Decl.ExprForm Decl.Expr}

/-! ### Views, form by form -/

variable (c e) in
/-- What an expression shows if it is declared with a form. -/
inductive Shows : Decl.ExprForm Decl.Expr → ExprView → Prop
  | constant (kind : ConstantKind) (text : String) :
    Shows (.constant kind text)
      (.constant kind text (constantValue kind text (c.exprDecl e).location))
  | null : Shows .null .null
  | path (segments : List Name) : Shows (.path segments) (.path segments)
  | enumMember (path : Name) :
    Shows (.enumMember path) (.enumMember ((Text.words Text.isBlank path.toList).map fun word =>
      (c.memberHandle e (String.ofList word)).map fun (h, place) =>
        ⟨c.locate e.owner.model h, place⟩))
  | cond {ops : List Decl.Expr} {test ifTrue ifFalse : ExprRef}
    (h : c.operands e = [test, ifTrue, ifFalse]) : Shows (.cond ops) (.cond test ifTrue ifFalse)
  | cast {typeName : Name} {ops : List Decl.Expr} {operand : ExprRef}
    (h : c.operands e = [operand]) :
    Shows (.cast typeName ops) (.cast (c.exprType e typeName) operand)
  | isType {typeName : Name} {ops : List Decl.Expr} {operand : ExprRef}
    (h : c.operands e = [operand]) :
    Shows (.isType typeName ops) (.isType (c.exprType e typeName) operand)
  /-- The fields have the names, the values and the properties in the same order. -/
  | record {typeName? : Option Name} {properties : List (Decl.Binding Decl.Expr)}
    {fields : List RecordField} (hnames : fields.map (·.name) = properties.map (·.property))
    (hvalues : fields.map (·.value) = c.operands e)
    (hproperties : fields.map (·.property) = properties.map fun b =>
      (c.fieldHandle e ((typeName?.map (c.exprType e)).bind (c.elementOf? e.owner.model)) b).map
        (c.locate e.owner.model)) :
    Shows (.record typeName? properties) (.record (typeName?.map (c.exprType e)) fields)
  | collection (typeName? : Option Name) (elements : List Decl.Expr) :
    Shows (.collection typeName? elements)
      (.collection (typeName?.map (c.exprType e)) (c.operands e))
  | apply (function : Name) (arguments : List Decl.Expr) :
    Shows (.apply function arguments)
      (.apply (c.expand (c.exprSchema e) function) (c.operands e))
  | labeled {name : Name} {ops : List Decl.Expr} {operand : ExprRef}
    (h : c.operands e = [operand]) : Shows (.labeled name ops) (.labeled name operand)
  | labelRef (name : Name) : Shows (.labelRef name) (.labelRef (c.labelTarget e name))
  /-- The number of operands is wrong. -/
  | malformed {form : Decl.ExprForm Decl.Expr} {name : Name} {expected : Nat}
    (harity : arity? form = some (name, expected)) (h : (c.operands e).length ≠ expected) :
    Shows form (.malformed (.bad name (.error .malformedExpression (c.exprDecl e).location
      s!"{name} expression expects {expected} operand(s), found {(c.operands e).length}")))

theorem malformed?_eq_some {p : Placeholder} (h : c.malformed? e = some p) :
    c.Shows e (c.exprDecl e).form (.malformed p) := by
  unfold malformed? at h
  split at h
  case h_1 => cases h
  case h_2 name expected harity =>
    dsimp only at h
    split at h
    · cases h
    · cases h
      exact .malformed harity ‹_›

theorem length_operands_of_malformed?_eq_none {name : Name} {expected : Nat}
    (h : c.malformed? e = none) (harity : arity? (c.exprDecl e).form = some (name, expected)) :
    (c.operands e).length = expected := by
  unfold malformed? at h
  rw [harity] at h
  dsimp only at h
  split at h
  · assumption
  · cases h

/-- **A view shows what is declared.** -/
theorem shows_view (hlength : (c.operands e).length = (c.exprDecl e).children.length) :
    c.Shows e (c.exprDecl e).form (c.view e) := by
  unfold view references
  cases hm : c.malformed? e with
  | some p => exact malformed?_eq_some hm
  | none =>
    have harity {name : Name} {expected : Nat}
        (h : arity? (c.exprDecl e).form = some (name, expected)) :
        (c.operands e).length = expected := length_operands_of_malformed?_eq_none hm h
    unfold viewWith
    cases hf : (c.exprDecl e).form with
    | constant kind text => exact .constant kind text
    | null => exact .null
    | path segments => exact .path segments
    | enumMember path =>
      have hviews := Shows.enumMember (c := c) (e := e) path
      rw [← Function.comp_def, ← List.map_map] at hviews
      exact hviews
    | cond ops =>
      rw [hf] at harity
      obtain ⟨test, ifTrue, ifFalse, hops⟩ := List.length_eq_three.1 (harity rfl)
      dsimp only
      rw [hops]
      exact .cond hops
    | cast typeName ops =>
      rw [hf] at harity
      obtain ⟨operand, hops⟩ := List.length_eq_one_iff.1 (harity rfl)
      dsimp only
      rw [hops]
      exact .cast hops
    | isType typeName ops =>
      rw [hf] at harity
      obtain ⟨operand, hops⟩ := List.length_eq_one_iff.1 (harity rfl)
      dsimp only
      rw [hops]
      exact .isType hops
    | labeled name ops =>
      rw [hf] at harity
      obtain ⟨operand, hops⟩ := List.length_eq_one_iff.1 (harity rfl)
      dsimp only
      rw [hops]
      exact .labeled hops
    | record typeName? properties =>
      rw [Decl.Expr.children, hf, Decl.ExprForm.operands, List.length_map] at hlength
      -- there are as many operands and as many properties as there are fields
      refine .record ?_ ?_ ?_
      · calc _ = ((properties.zip ((c.operands e).zip _)).map Prod.fst).map (·.property) := by
              rw [List.map_map, List.map_map]
              rfl
          _ = properties.map (·.property) := by
              rw [List.map_fst_zip]
              simp [hlength]
      · calc _ = ((properties.zip ((c.operands e).zip _)).map Prod.snd).map Prod.fst := by
              rw [List.map_map, List.map_map]
              rfl
          _ = c.operands e := by
              rw [List.map_snd_zip, List.map_fst_zip] <;> simp [hlength]
      · calc _ = (((properties.zip ((c.operands e).zip _)).map Prod.snd).map Prod.snd).map
                (Element.map (c.locate e.owner.model)) := by
              rw [List.map_map, List.map_map, List.map_map]
              rfl
          _ = _ := by
              rw [List.map_snd_zip, List.map_snd_zip, List.map_map] <;> simp [hlength]
    | collection typeName? elements => exact .collection typeName? elements
    | apply function arguments => exact .apply function arguments
    | labelRef name => exact .labelRef name

/-! ### Operands -/

/-- A view that is not malformed shows all operands. -/
theorem Shows.children (h : c.Shows e form v)
    (hlength : (c.operands e).length = form.operands.length) (hv : ∀ p, v ≠ .malformed p) :
    v.children = c.operands e := by
  -- forms without operands
  have hnone (hform : form.operands = []) : [] = c.operands e := by
    rw [hform] at hlength
    exact (List.eq_nil_of_length_eq_zero hlength).symm
  cases h with
  | constant | null | path | enumMember | labelRef => exact hnone rfl
  | cond hops | cast hops | isType hops | labeled hops => exact hops.symm
  | record _ hvalues => exact hvalues
  | collection | apply => rfl
  | malformed => exact absurd rfl (hv _)

/-- A view is malformed iff the form is. -/
theorem Shows.isMalformed_iff (h : c.Shows e form v)
    (hlength : (c.operands e).length = form.operands.length) :
    (∃ p, v = .malformed p) ↔ form.IsMalformed := by
  cases h with
  | constant | null | path | enumMember | labelRef | record | collection | apply =>
    exact iff_of_false (fun ⟨p, hp⟩ => by cases hp) id
  | cond hops | cast hops | isType hops | labeled hops =>
    rw [hops] at hlength
    exact iff_of_false (fun ⟨p, hp⟩ => by cases hp) fun hne => hne hlength.symm
  | @malformed form name expected harity hne =>
    refine iff_of_true ⟨_, rfl⟩ ?_
    rw [hlength] at hne
    cases form with
    | cond | cast | isType | labeled =>
      cases harity
      exact hne
    | _ => cases harity

/-- No view is that of an expression that could not be resolved. -/
theorem Shows.ne_unresolvedView (h : c.Shows e form v) : v ≠ c.unresolvedView e := by
  cases h with
  | @malformed form name expected harity =>
    -- the names of forms are other words
    intro heq
    have hname : name = "expression" := congrArg Placeholder.name (ExprView.malformed.inj heq)
    cases form <;> cases harity <;> exact absurd hname (by decide)
  | _ => exact fun heq => by cases heq

/-! ### The expressions of an annotation -/

variable {a : Declared .annot} {m : ModelId}

theorem mem_nodesOf :
    e ∈ c.nodesOf a ↔ e.owner = a ∧ e.place < (c.annotated a).exprs.nodes.size := by
  obtain ⟨owner, place⟩ := e
  simp only [nodesOf, List.mem_map, List.mem_range, ExprRef.mk.injEq]
  constructor
  · rintro ⟨place, hplace, rfl, rfl⟩
    exact ⟨rfl, hplace⟩
  · rintro ⟨rfl, hplace⟩
    exact ⟨place, hplace, rfl, rfl⟩

theorem mem_nodesOf_of_mem_operands {child : ExprRef} (h : child ∈ c.operands e) :
    child ∈ c.nodesOf child.owner := by
  obtain ⟨place, hplace, rfl⟩ := List.mem_map.1 h
  exact mem_nodesOf.2 ⟨rfl, (ExprArena.lt_of_mem_operands hplace).2⟩

namespace IsBuilt

variable (hc : c.IsBuilt) (ha : a ∈ c.elements m .annot)
include hc ha

/-- The expressions of an annotation are laid out from what it declares. -/
theorem exprs_annotated :
    (c.annotated a).exprs = .ofRoots (c.annotated a).decl.roots ∧
      (c.annotated a).roots = ExprArena.places (c.annotated a).decl.roots := by
  obtain ⟨rfl, hid⟩ := c.mem_elements.1 ha
  exact hc.isConsistent a.model .annot a.id hid

/-- The array of an annotation's expressions is an image of the declared trees. -/
theorem isImage_exprs :
    (c.annotated a).exprs.IsImage (c.annotated a).roots (c.annotated a).decl.roots := by
  obtain ⟨hexprs, hroots⟩ := hc.exprs_annotated ha
  rw [hexprs, hroots]
  exact ExprArena.isImage_ofRoots _

theorem length_operands (he : e.owner = a) :
    (c.operands e).length = (c.exprDecl e).children.length := by
  have hexprs := (hc.exprs_annotated ha).1
  rw [operands, exprDecl, List.length_map, arena, he, hexprs]
  exact ExprArena.length_operands_node _ _

theorem shows_view_of_owner (he : e.owner = a) : c.Shows e (c.exprDecl e).form (c.view e) :=
  shows_view (hc.length_operands ha he)

theorem children_view (he : e.owner = a) (hv : ∀ p, c.view e ≠ .malformed p) :
    (c.view e).children = c.operands e :=
  (hc.shows_view_of_owner ha he).children (hc.length_operands ha he) hv

end IsBuilt

end Catalog

end Schemata

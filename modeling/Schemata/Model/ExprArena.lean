import Schemata.Decl.Annotation

/-!
# Expression trees in an array

The expression trees of an annotation lie in one array, each node before its operands and each
operand with all that is below it before the next one.  A node knows the places of its operands.

An `ExprArena` carries the fact that every operand lies behind its node (`ExprArena.ordered`), so
whoever walks down the trees comes to an end.  `ExprArena.ofRoots` lays out a list of trees.
-/

namespace Schemata

open Decl (Expr)

/-- A node of an expression tree. -/
structure ExprNode where
  /-- The declaration of the node, with all that is below it. -/
  decl : Expr
  /-- The places of the operands. -/
  operands : List Nat
deriving Inhabited

/-- The nodes of expression trees, each before its operands. -/
structure ExprArena where
  nodes : Array ExprNode
  ordered : ∀ (i : Nat) (h : i < nodes.size), ∀ j ∈ nodes[i].operands, i < j ∧ j < nodes.size

namespace ExprArena

instance : Inhabited ExprArena := ⟨#[], fun _ h => absurd h (Nat.not_lt_zero _)⟩

/-- The node at a place. -/
def node (a : ExprArena) (i : Nat) : ExprNode := a.nodes.getD i default

/-- An operand lies behind its node and in the array. -/
theorem lt_of_mem_operands {a : ExprArena} {i j : Nat} (h : j ∈ (a.node i).operands) :
    i < j ∧ j < a.nodes.size := by
  unfold node at h
  by_cases hi : i < a.nodes.size
  · exact a.ordered i hi j (by simpa [Array.getD, hi] using h)
  · simp [Array.getD, hi, default, instInhabitedExprNode.default] at h

/-! ### Laying out trees -/

theorem sizeOf_children_lt (e : Expr) : sizeOf e.children < sizeOf e := by
  have values (bs : List (Decl.Binding Expr)) : sizeOf (bs.map (·.value)) ≤ sizeOf bs := by
    induction bs with
    | nil => simp
    | cons b bs ih => cases b; simp; omega
  cases e with
  | node form location =>
    cases form
    case record typeName bs =>
      have := values bs
      simp [Decl.Expr.children, Decl.Expr.form, Decl.ExprForm.operands]
      omega
    all_goals
      simp [Decl.Expr.children, Decl.Expr.form, Decl.ExprForm.operands]
      omega

mutual

/-- The nodes of a tree whose root comes to lie at `start`. -/
def layout (start : Nat) (e : Expr) : List ExprNode :=
  let below := layoutAll (start + 1) e.children
  ⟨e, below.1⟩ :: below.2
termination_by sizeOf e
decreasing_by exact sizeOf_children_lt e

/-- The roots and the nodes of trees of which the first comes to lie at `start`. -/
def layoutAll (start : Nat) : List Expr → List Nat × List ExprNode
  | [] => ([], [])
  | e :: es =>
    let first := layout start e
    let rest := layoutAll (start + first.length) es
    (start :: rest.1, first ++ rest.2)
termination_by es => sizeOf es

end

/-- Whether operands lie behind their nodes, for nodes that lie at `start` and after. -/
def IsOrdered (start : Nat) (nodes : List ExprNode) : Prop :=
  ∀ (i : Nat) (h : i < nodes.length), ∀ j ∈ nodes[i].operands,
    start + i < j ∧ j < start + nodes.length

mutual

theorem isOrdered_layout (start : Nat) (e : Expr) : IsOrdered start (layout start e) := by
  obtain ⟨ordered, roots⟩ := isOrdered_layoutAll (start + 1) e.children
  unfold layout
  intro i h j hj
  cases i with
  | zero =>
    have := roots j hj
    simp only [List.length_cons]
    omega
  | succ i =>
    have := ordered i (by simpa using h) j (by simpa using hj)
    simp only [List.length_cons]
    omega
termination_by sizeOf e
decreasing_by exact sizeOf_children_lt e

theorem isOrdered_layoutAll (start : Nat) (es : List Expr) :
    IsOrdered start (layoutAll start es).2 ∧
      ∀ r ∈ (layoutAll start es).1, start ≤ r ∧ r < start + (layoutAll start es).2.length := by
  cases es with
  | nil => simp [layoutAll, IsOrdered]
  | cons e es =>
    have first := isOrdered_layout start e
    obtain ⟨rest, roots⟩ := isOrdered_layoutAll (start + (layout start e).length) es
    have pos : 0 < (layout start e).length := by unfold layout; simp
    unfold layoutAll
    constructor
    · intro i h j hj
      simp only [List.length_append]
      by_cases hi : i < (layout start e).length
      · have := first i hi j (by simpa [List.getElem_append, hi] using hj)
        omega
      · have hlen : i - (layout start e).length <
            (layoutAll (start + (layout start e).length) es).2.length := by
          simp only [List.length_append] at h
          omega
        have := rest (i - (layout start e).length) hlen j
          (by simpa [List.getElem_append, hi] using hj)
        omega
    · intro r hr
      simp only [List.length_append]
      rcases List.mem_cons.1 hr with rfl | hr
      · omega
      · have := roots r hr
        omega
termination_by sizeOf es

end

/-- The trees with the given roots, one after another. -/
def ofRoots (roots : List Expr) : ExprArena where
  nodes := (layoutAll 0 roots).2.toArray
  ordered := by
    intro i h j hj
    have := (isOrdered_layoutAll 0 roots).1 i (by simpa using h) j (by simpa using hj)
    simpa using this

/-- Where the roots of these trees come to lie. -/
def places (roots : List Expr) : List Nat := (layoutAll 0 roots).1

end ExprArena

end Schemata

import Mathlib.Data.List.GetD
import Schemata.Model.ExprArena

/-!
# What is in a layout of trees

The nodes that `ExprArena.ofRoots` lays out are those of the trees and no others: each is a root or
an operand of a node before it.  So what holds of the roots and is handed down to operands holds of
all nodes (`forall_node_of_forall_places`).

A node has as many operands as its declaration (`length_operands_node`).
-/

namespace Schemata.ExprArena

open Decl (Expr)

variable {start : Nat} {roots roots' : List Nat} {nodes nodes' : List ExprNode}

/-! ### Roots and operands -/

/-- Each of the nodes that lie at `start` and after is one of `roots` or an operand of a node before
it. -/
def IsRooted (start : Nat) (roots : List Nat) (nodes : List ExprNode) : Prop :=
  ∀ i < nodes.length, start + i ∈ roots ∨
    ∃ k, ∃ h : k < nodes.length, k < i ∧ start + i ∈ nodes[k].operands

theorem IsRooted.cons {node : ExprNode} (h : IsRooted (start + 1) node.operands nodes) :
    IsRooted start [start] (node :: nodes) := by
  intro i hi
  cases i with
  | zero => exact .inl (by simp)
  | succ i =>
    have hshift : start + (i + 1) = start + 1 + i := by omega
    rw [List.length_cons] at hi
    right
    rcases h i (by omega) with hroot | ⟨k, hk, hki, hmem⟩
    · exact ⟨0, by simp, by omega, by simpa [hshift] using hroot⟩
    · exact ⟨k + 1, by simpa using hk, by omega, by simpa [hshift] using hmem⟩

theorem IsRooted.append (h : IsRooted start roots nodes)
    (h' : IsRooted (start + nodes.length) roots' nodes') :
    IsRooted start (roots ++ roots') (nodes ++ nodes') := by
  intro i hi
  rw [List.length_append] at hi
  by_cases hlt : i < nodes.length
  · rcases h i hlt with hroot | ⟨k, hk, hki, hmem⟩
    · exact .inl (List.mem_append_left _ hroot)
    · refine .inr ⟨k, by rw [List.length_append]; omega, hki, ?_⟩
      rwa [List.getElem_append_left hk]
  · have hshift : start + i = start + nodes.length + (i - nodes.length) := by omega
    rw [hshift]
    rcases h' (i - nodes.length) (by omega) with hroot | ⟨k, hk, hki, hmem⟩
    · exact .inl (List.mem_append_right _ hroot)
    · refine .inr ⟨nodes.length + k, by rw [List.length_append]; omega, by omega, ?_⟩
      rw [List.getElem_append_right (Nat.le_add_right _ _)]
      simpa using hmem

mutual

theorem isRooted_layout (start : Nat) (e : Expr) : IsRooted start [start] (layout start e) := by
  have hbelow := isRooted_layoutAll (start + 1) e.children
  unfold layout
  exact .cons hbelow
termination_by sizeOf e
decreasing_by exact sizeOf_children_lt e

theorem isRooted_layoutAll (start : Nat) (es : List Expr) :
    IsRooted start (layoutAll start es).1 (layoutAll start es).2 := by
  cases es with
  | nil =>
    intro i hi
    simp [layoutAll] at hi
  | cons e es =>
    have hfirst := isRooted_layout start e
    have hrest := isRooted_layoutAll (start + (layout start e).length) es
    unfold layoutAll
    exact hfirst.append hrest
termination_by sizeOf es

end

theorem node_ofRoots (roots : List Expr) (i : Nat) :
    (ofRoots roots).node i = (layoutAll 0 roots).2.getD i default := by
  simp [node, ofRoots, Array.getD_eq_getD_getElem?]

/-- What holds of the roots and of the operands of nodes of which it holds, holds of all nodes. -/
theorem forall_node_of_forall_places {roots : List Expr} {p : Nat → Prop}
    (hroots : ∀ r ∈ places roots, p r)
    (hstep : ∀ i, p i → ∀ j ∈ ((ofRoots roots).node i).operands, p j) :
    ∀ i < (ofRoots roots).nodes.size, p i := by
  intro i
  induction i using Nat.strongRecOn with
  | ind i ih =>
    intro hi
    have hi' : i < (layoutAll 0 roots).2.length := by simpa [ofRoots] using hi
    have hparent := isRooted_layoutAll 0 roots i hi'
    rw [Nat.zero_add] at hparent
    -- the node of which it is an operand comes first, so it is known of that one
    rcases hparent with hroot | ⟨k, hk, hki, hmem⟩
    · exact hroots i hroot
    · refine hstep k (ih k hki (by simpa [ofRoots] using hk)) i ?_
      rwa [node_ofRoots, List.getD_eq_getElem _ _ hk]

/-! ### Numbers of operands -/

theorem length_fst_layoutAll (start : Nat) (es : List Expr) :
    (layoutAll start es).1.length = es.length := by
  induction es generalizing start with
  | nil => simp [layoutAll]
  | cons e es ih =>
    unfold layoutAll
    simp only [List.length_cons, ih]

theorem length_places (roots : List Expr) : (places roots).length = roots.length :=
  length_fst_layoutAll 0 roots

mutual

theorem length_operands_of_mem_layout (start : Nat) (e : Expr) :
    ∀ node ∈ layout start e, node.operands.length = node.decl.children.length := by
  have hbelow := length_operands_of_mem_layoutAll (start + 1) e.children
  unfold layout
  intro node hnode
  rcases List.mem_cons.1 hnode with rfl | hnode
  · exact length_fst_layoutAll _ _
  · exact hbelow node hnode
termination_by sizeOf e
decreasing_by exact sizeOf_children_lt e

theorem length_operands_of_mem_layoutAll (start : Nat) (es : List Expr) :
    ∀ node ∈ (layoutAll start es).2, node.operands.length = node.decl.children.length := by
  cases es with
  | nil => simp [layoutAll]
  | cons e es =>
    have hfirst := length_operands_of_mem_layout start e
    have hrest := length_operands_of_mem_layoutAll (start + (layout start e).length) es
    unfold layoutAll
    intro node hnode
    exact (List.mem_append.1 hnode).elim (hfirst node) (hrest node)
termination_by sizeOf es

end

theorem length_operands_node (roots : List Expr) (i : Nat) :
    ((ofRoots roots).node i).operands.length =
      ((ofRoots roots).node i).decl.children.length := by
  rw [node_ofRoots]
  by_cases hi : i < (layoutAll 0 roots).2.length
  · rw [List.getD_eq_getElem _ _ hi]
    exact length_operands_of_mem_layoutAll 0 roots _ (List.getElem_mem hi)
  · rw [List.getD_eq_default _ _ (Nat.le_of_not_lt hi)]
    rfl

end Schemata.ExprArena

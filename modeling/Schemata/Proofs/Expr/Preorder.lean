import Mathlib.Data.List.Forall2
import Mathlib.Data.List.Nodup
import Schemata.Proofs.Expr.Arena

/-!
# A layout is an image of its trees

`ExprArena.IsImage` says what it takes for nodes in an array to stand for trees: the roots and the
operands of a node are declared as the trees say, each place is a root or an operand of one node,
once, and who walks through the trees comes to the places in their order.  The array that
`ExprArena.ofRoots` lays out is such an image (`isImage_ofRoots`).

All of it comes from one fact: behind each node the layout of its own declaration goes on
(`liesAt_layout`), and so each tree lies where its root does (`LiesAt`).
-/

namespace Schemata.ExprArena

open Decl (Expr)

variable {start p : Nat} {e : Expr} {nodes nodes' : List ExprNode} {trees : List Expr}

/-! ### What an image is -/

/-- The places that one comes to from a node: the node, then what is below each of its operands, one
operand after another. -/
def walk (a : ExprArena) (i : Nat) : List Nat :=
  i :: (a.node i).operands.attach.flatMap fun ⟨j, _⟩ => walk a j
termination_by a.nodes.size - i
decreasing_by
  have := lt_of_mem_operands ‹_›
  omega

theorem walk_eq (a : ExprArena) (i : Nat) :
    a.walk i = i :: (a.node i).operands.flatMap a.walk := by
  rw [walk]
  simp

/-- The nodes stand for the trees, of which the roots lie at `places`. -/
structure IsImage (a : ExprArena) (places : List Nat) (trees : List Expr) : Prop where
  root_lt : ∀ r ∈ places, r < a.nodes.size
  operand_lt : ∀ i < a.nodes.size, ∀ j ∈ (a.node i).operands, j < a.nodes.size
  /-- Each node is a root or an operand of one node, and is so once. -/
  once : (places ++ a.nodes.toList.flatMap (·.operands)).Perm (List.range a.nodes.size)
  /-- The places are numbered in the order in which one comes to them. -/
  preorder : places.flatMap a.walk = List.range a.nodes.size
  decl_roots : places.map (fun r => (a.node r).decl) = trees
  decl_operands : ∀ i < a.nodes.size,
    (a.node i).operands.map (fun j => (a.node j).decl) = (a.node i).decl.children

/-! ### Where trees lie -/

/-- Among nodes that lie at `start` and after, the layout of a tree begins at `p`. -/
def LiesAt (start : Nat) (nodes : List ExprNode) (p : Nat) (e : Expr) : Prop :=
  start ≤ p ∧ layout p e <+: nodes.drop (p - start)

namespace LiesAt

theorem append_left (h : LiesAt start nodes p e) (nodes' : List ExprNode) :
    LiesAt start (nodes ++ nodes') p e := by
  refine ⟨h.1, h.2.trans ?_⟩
  rw [List.drop_append]
  exact List.prefix_append _ _

theorem append_right (h : LiesAt (start + nodes.length) nodes' p e) :
    LiesAt start (nodes ++ nodes') p e := by
  obtain ⟨hle, hlayout⟩ := h
  have hpast : nodes.length ≤ p - start := by omega
  have hshift : p - start - nodes.length = p - (start + nodes.length) := by omega
  refine ⟨by omega, ?_⟩
  rwa [List.drop_append, List.drop_eq_nil_of_le hpast, List.nil_append, hshift]

theorem cons {node : ExprNode} (h : LiesAt (start + 1) nodes p e) :
    LiesAt start (node :: nodes) p e := by
  have h' : LiesAt (start + [node].length) nodes p e := h
  exact h'.append_right

end LiesAt

theorem liesAt_layoutAll (start : Nat) (es : List Expr) :
    List.Forall₂ (LiesAt start (layoutAll start es).2) (layoutAll start es).1 es := by
  induction es generalizing start with
  | nil =>
    unfold layoutAll
    exact .nil
  | cons e es ih =>
    unfold layoutAll
    refine .cons ⟨Nat.le_refl _, ?_⟩ ?_
    · rw [Nat.sub_self, List.drop_zero]
      exact List.prefix_append _ _
    · exact (ih _).imp fun _ _ h => h.append_right

/-- Below a tree that lies somewhere its operands lie. -/
theorem LiesAt.children (h : LiesAt start nodes p e) :
    List.Forall₂ (LiesAt start nodes) (layoutAll (p + 1) e.children).1 e.children := by
  obtain ⟨hle, rest, hrest⟩ := h
  unfold layout at hrest
  refine (liesAt_layoutAll (p + 1) e.children).imp fun r child hchild => ?_
  have hlength : (nodes.take (p - start)).length = p - start := by
    have hpos : 0 < (nodes.drop (p - start)).length := by
      rw [← hrest]
      exact Nat.succ_pos _
    rw [List.length_drop] at hpos
    rw [List.length_take]
    omega
  have hbelow : LiesAt p (nodes.drop (p - start)) r child := by
    rw [← hrest]
    exact (hchild.append_left rest).cons
  rw [← List.take_append_drop (p - start) nodes]
  refine append_right ?_
  rwa [hlength, Nat.add_sub_cancel' hle]

mutual

/-- Behind each node the layout of its declaration goes on. -/
theorem liesAt_layout (start : Nat) (e : Expr) :
    ∀ (i : Nat) (h : i < (layout start e).length),
      LiesAt start (layout start e) (start + i) (layout start e)[i].decl := by
  intro i h
  cases i with
  | zero =>
    have hdecl : (layout start e)[0].decl = e := by
      simp only [layout, List.getElem_cons_zero]
    refine ⟨Nat.le_refl _, ?_⟩
    simpa only [Nat.add_zero, Nat.sub_self, List.drop_zero, hdecl] using List.prefix_rfl
  | succ i =>
    unfold layout at h ⊢
    have hbelow := liesAt_node_layoutAll (start + 1) e.children i (by simpa using h)
    rw [Nat.add_right_comm, Nat.add_assoc] at hbelow
    exact hbelow.cons
termination_by sizeOf e
decreasing_by exact sizeOf_children_lt e

theorem liesAt_node_layoutAll (start : Nat) (es : List Expr) :
    ∀ (i : Nat) (h : i < (layoutAll start es).2.length),
      LiesAt start (layoutAll start es).2 (start + i) (layoutAll start es).2[i].decl := by
  cases es with
  | nil =>
    intro i h
    simp [layoutAll] at h
  | cons e es =>
    have hfirst := liesAt_layout start e
    have hrest := liesAt_node_layoutAll (start + (layout start e).length) es
    unfold layoutAll
    intro i h
    rw [List.length_append] at h
    rcases Nat.lt_or_ge i (layout start e).length with hi | hi
    · rw [List.getElem_append_left hi]
      exact (hfirst i hi).append_left _
    · have hplace :
          start + i = start + (layout start e).length + (i - (layout start e).length) := by
        omega
      rw [List.getElem_append_right hi, hplace]
      exact (hrest _ (by omega)).append_right
termination_by sizeOf es

end

/-! ### The nodes of an array -/

theorem node_of_liesAt (h : LiesAt 0 (layoutAll 0 trees).2 p e) :
    p < (ofRoots trees).nodes.size ∧
      (ofRoots trees).node p = ⟨e, (layoutAll (p + 1) e.children).1⟩ := by
  obtain ⟨-, rest, hrest⟩ := h
  unfold layout at hrest
  rw [Nat.sub_zero, List.cons_append] at hrest
  have hnode : (layoutAll 0 trees).2[p]? = some ⟨e, (layoutAll (p + 1) e.children).1⟩ := by
    rw [← List.head?_drop, ← hrest]
    rfl
  refine ⟨?_, ?_⟩
  · simpa [ofRoots] using (List.getElem?_eq_some_iff.1 hnode).1
  · rw [node_ofRoots, List.getD_eq_getElem?_getD, hnode, Option.getD_some]

theorem liesAt_node {i : Nat} (hi : i < (ofRoots trees).nodes.size) :
    LiesAt 0 (layoutAll 0 trees).2 i ((ofRoots trees).node i).decl := by
  have hi' : i < (layoutAll 0 trees).2.length := by simpa [ofRoots] using hi
  rw [node_ofRoots, List.getD_eq_getElem _ _ hi']
  simpa using liesAt_node_layoutAll 0 trees i hi'

/-- Where trees lie, the nodes are declared as these say. -/
theorem map_decl_of_forall₂ {places : List Nat} {es : List Expr}
    (h : List.Forall₂ (LiesAt 0 (layoutAll 0 trees).2) places es) :
    places.map (fun r => ((ofRoots trees).node r).decl) = es := by
  induction h with
  | nil => rfl
  | cons hlies _ ih => rw [List.map_cons, ih, (node_of_liesAt hlies).2]

/-! ### The order of the places -/

mutual

/-- Who walks through a tree comes to all its places, one after another. -/
theorem walk_of_liesAt (p : Nat) (e : Expr) (h : LiesAt 0 (layoutAll 0 trees).2 p e) :
    (ofRoots trees).walk p = List.range' p (layout p e).length := by
  have hbelow := flatMap_walk_of_forall₂ (p + 1) e.children h.children
  rw [walk_eq, (node_of_liesAt h).2]
  unfold layout
  dsimp only
  rw [hbelow, List.length_cons, List.range'_succ]
termination_by sizeOf e
decreasing_by exact sizeOf_children_lt e

theorem flatMap_walk_of_forall₂ (p : Nat) (es : List Expr)
    (h : List.Forall₂ (LiesAt 0 (layoutAll 0 trees).2) (layoutAll p es).1 es) :
    (layoutAll p es).1.flatMap (ofRoots trees).walk = List.range' p (layoutAll p es).2.length := by
  cases es with
  | nil => simp [layoutAll]
  | cons e es =>
    have hroots : (layoutAll p (e :: es)).1 = p :: (layoutAll (p + (layout p e).length) es).1 := by
      rw [layoutAll]
    rw [hroots] at h ⊢
    obtain ⟨hfirst, hrest⟩ := List.forall₂_cons.1 h
    rw [layoutAll, List.flatMap_cons, List.length_append, walk_of_liesAt p e hfirst,
      flatMap_walk_of_forall₂ _ es hrest, List.range'_append_1]
termination_by sizeOf es

end

/-! ### One parent -/

mutual

theorem perm_layout (start : Nat) (e : Expr) :
    (start :: (layout start e).flatMap (·.operands)).Perm
      (List.range' start (layout start e).length) := by
  have hbelow := perm_layoutAll (start + 1) e.children
  unfold layout
  rw [List.flatMap_cons, List.length_cons, List.range'_succ]
  exact hbelow.cons start
termination_by sizeOf e
decreasing_by exact sizeOf_children_lt e

/-- Each place is a root or an operand of one node, and is so once. -/
theorem perm_layoutAll (start : Nat) (es : List Expr) :
    ((layoutAll start es).1 ++ (layoutAll start es).2.flatMap (·.operands)).Perm
      (List.range' start (layoutAll start es).2.length) := by
  cases es with
  | nil => simp [layoutAll]
  | cons e es =>
    have hfirst := perm_layout start e
    have hrest := perm_layoutAll (start + (layout start e).length) es
    unfold layoutAll
    rw [List.flatMap_append, List.length_append, ← List.range'_append_1, List.cons_append]
    exact ((List.perm_append_comm_assoc _ _ _).cons start).trans (hfirst.append hrest)
termination_by sizeOf es

end

/-- **The array is an image of the trees.** -/
theorem isImage_ofRoots (trees : List Expr) : (ofRoots trees).IsImage (places trees) trees := by
  have hroots : List.Forall₂ (LiesAt 0 (layoutAll 0 trees).2) (places trees) trees :=
    liesAt_layoutAll 0 trees
  have hsize : (ofRoots trees).nodes.size = (layoutAll 0 trees).2.length := by simp [ofRoots]
  constructor
  case root_lt =>
    intro r hr
    rw [hsize]
    simpa using ((isOrdered_layoutAll 0 trees).2 r hr).2
  case operand_lt => exact fun i _ j hj => (lt_of_mem_operands hj).2
  case once =>
    rw [hsize, List.range_eq_range']
    exact perm_layoutAll 0 trees
  case preorder =>
    rw [hsize, List.range_eq_range']
    exact flatMap_walk_of_forall₂ 0 trees hroots
  case decl_roots => exact map_decl_of_forall₂ hroots
  case decl_operands =>
    intro i hi
    have hlies := liesAt_node hi
    rw [(node_of_liesAt hlies).2]
    exact map_decl_of_forall₂ hlies.children

namespace IsImage

variable {a : ExprArena} {places : List Nat} {i j k : Nat} (h : a.IsImage places trees)
include h

theorem nodup_append_operands : (places ++ a.nodes.toList.flatMap (·.operands)).Nodup :=
  h.once.nodup_iff.2 List.nodup_range

omit h in
theorem node_eq_getElem (hj : j ∈ (a.node i).operands) :
    ∃ hi : i < a.nodes.toList.length, a.node i = a.nodes.toList[i] := by
  by_cases hi : i < a.nodes.size
  · exact ⟨by simpa using hi, by simp [node, Array.getD, hi]⟩
  · simp [node, Array.getD, hi, default, instInhabitedExprNode.default] at hj

/-- A root is an operand of no node. -/
theorem notMem_operands (hj : j ∈ places) : j ∉ (a.node i).operands := by
  intro hmem
  obtain ⟨hi, hnode⟩ := node_eq_getElem hmem
  rw [hnode] at hmem
  have hdisjoint := List.disjoint_of_nodup_append h.nodup_append_operands
  exact hdisjoint hj (List.mem_flatMap.2 ⟨_, List.getElem_mem hi, hmem⟩)

/-- A node is an operand of one node only. -/
theorem eq_of_mem_operands (hi : j ∈ (a.node i).operands) (hk : j ∈ (a.node k).operands) :
    i = k := by
  obtain ⟨hi', hnode⟩ := node_eq_getElem hi
  obtain ⟨hk', hnode'⟩ := node_eq_getElem hk
  rw [hnode] at hi
  rw [hnode'] at hk
  have hpairwise := (List.nodup_flatMap.1 (List.nodup_append.1 h.nodup_append_operands).2.1).2
  rw [List.pairwise_iff_getElem] at hpairwise
  rcases Nat.lt_trichotomy i k with hlt | heq | hlt
  · exact absurd hk (hpairwise i k hi' hk' hlt hi)
  · exact heq
  · exact absurd hi (hpairwise k i hk' hi' hlt hk)

end IsImage

end Schemata.ExprArena

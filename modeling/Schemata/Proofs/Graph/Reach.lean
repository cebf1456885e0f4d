import Mathlib.Data.Finset.Card
import Mathlib.Logic.Relation
import Schemata.Graph.Reach

/-!
# What can be reached

`Graph.reach` grows a list layer by layer for a bounded number of rounds.  Where all successors lie
in a list, as many rounds as that list is long and one more are enough: what is collected then is
closed under successors (`mem_grow_of_mem_next`), so it is all that can be reached
(`mem_reach_iff`).

Where there are no circles, going from an element to a successor comes to an end
(`wellFounded_of_acyclic`): ever fewer elements can be reached.
-/

namespace Schemata.Graph

variable {α : Type} [BEq α] [LawfulBEq α] {next : α → List α} {layer seen : List α} {x y : α}

/-- One element is a successor of another. -/
def Leads (next : α → List α) (x y : α) : Prop := y ∈ next x

theorem mem_fresh : y ∈ fresh next layer seen ↔ (∃ x ∈ layer, y ∈ next x) ∧ y ∉ seen := by
  simp [fresh, List.mem_flatMap]

/-- What is collected has whatever the elements at the start have and hand on to successors. -/
theorem forall_mem_grow {p : α → Prop} (hstep : ∀ x, p x → ∀ y ∈ next x, p y) {n : Nat}
    (hlayer : ∀ x ∈ layer, p x) (hseen : ∀ x ∈ seen, p x) :
    ∀ x ∈ grow next n layer seen, p x := by
  induction n generalizing layer seen with
  | zero => exact hseen
  | succ n ih =>
    have hfresh (y : α) (hy : y ∈ fresh next layer seen) : p y := by
      obtain ⟨⟨x, hx, hxy⟩, -⟩ := mem_fresh.1 hy
      exact hstep x (hlayer x hx) y hxy
    unfold grow
    split
    case h_1 => exact hseen
    case h_2 a as heq =>
      rw [heq] at hfresh
      refine ih hfresh fun x hx => ?_
      exact (List.mem_append.1 hx).elim (hseen x) (hfresh x)

section saturation

variable {l : List α} (hl : ∀ x, next x ⊆ l)
include hl

/-- **Enough rounds.**  If of all that has been seen only the last layer has successors that are
new, and there are more rounds than elements that have not been seen, no successor is missed. -/
theorem mem_grow_of_mem_next [DecidableEq α] {n : Nat} (hseen : seen ⊆ l)
    (hrounds : l.toFinset.card < n + seen.toFinset.card)
    (hclosed : ∀ x ∈ seen, x ∈ layer ∨ next x ⊆ seen) (hx : x ∈ grow next n layer seen)
    (hy : y ∈ next x) : y ∈ grow next n layer seen := by
  induction n generalizing layer seen with
  | zero =>
    have hle : seen.toFinset.card ≤ l.toFinset.card :=
      Finset.card_le_card fun z hz => List.mem_toFinset.2 (hseen (List.mem_toFinset.1 hz))
    omega
  | succ n ih =>
    unfold grow at hx ⊢
    split at hx
    case h_1 heq =>
      rcases hclosed x hx with hlayer | hnext
      · by_contra hnew
        have : y ∈ fresh next layer seen := mem_fresh.2 ⟨⟨x, hlayer, hy⟩, hnew⟩
        rw [heq] at this
        exact List.not_mem_nil this
      · exact hnext hy
    case h_2 a as heq =>
      have hfresh {z : α} : z ∈ a :: as ↔ (∃ x ∈ layer, z ∈ next x) ∧ z ∉ seen := by
        rw [← heq]
        exact mem_fresh
      have hcard : seen.toFinset.card < (seen ++ a :: as).toFinset.card := by
        have ha : a ∉ seen := (hfresh.1 List.mem_cons_self).2
        rw [List.toFinset_append]
        refine Finset.card_lt_card ((Finset.ssubset_iff_of_subset Finset.subset_union_left).2 ?_)
        exact ⟨a, by simp, by simpa using ha⟩
      refine ih ?_ (by omega) ?_ hx
      · refine List.append_subset.2 ⟨hseen, fun z hz => ?_⟩
        obtain ⟨⟨x, -, hxz⟩, -⟩ := hfresh.1 hz
        exact hl x hxz
      · intro z hz
        rcases List.mem_append.1 hz with hz | hz
        · refine .inr fun w hw => ?_
          rcases hclosed z hz with hlayer | hnext
          -- a successor of the last layer is in the new one unless it had been seen before
          · by_cases hwseen : w ∈ seen
            · exact List.mem_append_left _ hwseen
            · exact List.mem_append_right _ (hfresh.2 ⟨⟨z, hlayer, hw⟩, hwseen⟩)
          · exact List.mem_append_left _ (hnext hw)
        · exact .inl hz

end saturation

omit [LawfulBEq α] in
theorem subset_grow (n : Nat) : seen ⊆ grow next n layer seen := by
  induction n generalizing layer seen with
  | zero => exact List.Subset.refl _
  | succ n ih =>
    unfold grow
    split
    · exact List.Subset.refl _
    · exact fun x hx => ih (List.mem_append_left _ hx)

/-- **Reaching all.**  Where all successors lie in a list, one round more than the list is long
collects all that can be reached. -/
theorem mem_reach_iff [DecidableEq α] {l : List α} (hl : ∀ x, next x ⊆ l) {a b : α} :
    b ∈ reach next (l.length + 1) a ↔ Relation.ReflTransGen (Leads next) a b := by
  constructor
  · refine forall_mem_grow (fun x hx y hxy => hx.tail hxy) ?_ ?_ b <;>
      exact fun x hx => List.mem_singleton.1 hx ▸ .refl
  · intro h
    have hl' (x : α) : next x ⊆ a :: l := fun y hy => List.mem_cons_of_mem a (hl x hy)
    induction h with
    | refl => exact subset_grow _ List.mem_cons_self
    | tail _ hxy ih =>
      refine mem_grow_of_mem_next hl' (by simp) ?_ (fun x hx => .inl hx) ih hxy
      have hcard : (a :: l).toFinset.card ≤ l.length + 1 := List.toFinset_card_le (a :: l)
      have hone : [a].toFinset.card = 1 := rfl
      omega

/-- Where all elements with a successor lie in a list and no element can be reached from itself, one
cannot go on from successor to successor for ever. -/
theorem wellFounded_of_acyclic {α : Type} [DecidableEq α] {r : α → α → Prop} {l : List α}
    (hl : ∀ x y, r x y → x ∈ l) (hr : ∀ x, ¬ Relation.TransGen r x x) :
    WellFounded fun y x => r x y := by
  classical
  let reachable (x : α) : Finset α := {z ∈ l.toFinset | Relation.ReflTransGen r x z}
  have hlt (y x : α) (hxy : r x y) : (reachable y).card < (reachable x).card := by
    refine Finset.card_lt_card ((Finset.ssubset_iff_of_subset fun z hz => ?_).2 ⟨x, ?_, ?_⟩)
    · obtain ⟨hz, hyz⟩ := Finset.mem_filter.1 hz
      exact Finset.mem_filter.2 ⟨hz, .head hxy hyz⟩
    · exact Finset.mem_filter.2 ⟨List.mem_toFinset.2 (hl x y hxy), .refl⟩
    · exact fun hx => hr x (.head' hxy (Finset.mem_filter.1 hx).2)
  exact Subrelation.wf (hlt _ _) (measure fun x => (reachable x).card).wf

end Schemata.Graph

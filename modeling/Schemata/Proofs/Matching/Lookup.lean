import Schemata.Proofs.Matching.Catalog
import Schemata.Proofs.Model.Symbols

/-!
# Lookups in one model that is renumbered

In a row of models one may be numbered otherwise while all others stay as they are
(`Matching.onlyIn`).  If a name leads to elements that match in each model that is searched, then it
leads to elements that are alike from outside (`rel_find?`) and from within (`rel_handle?`).
-/

namespace Schemata

/-- In one model the elements are taken for one another as the matching says, in all others each for
itself. -/
def Matching.onlyIn (m : ModelId) (T : Matching) : ModelId → Matching :=
  fun r => if r = m then T else .same

@[simp]
theorem Matching.onlyIn_self (m : ModelId) (T : Matching) : Matching.onlyIn m T m = T := if_pos rfl

theorem Matching.onlyIn_of_ne {m r : ModelId} (T : Matching) (h : r ≠ m) :
    Matching.onlyIn m T r = .same := if_neg h

namespace Catalog

variable {T : ModelId → Matching} {c c' : Catalog} {m : ModelId} {k : SymbolKind} {name : Name}
  (hreferences : (c'.model m).references = (c.model m).references)
  (hfirst : ∀ r, c.Sees m r → Option.Rel (T r k.element) ((c.model r).first? k name)
    ((c'.model r).first? k name))
include hreferences hfirst

/-- Searching the same models in the same order. -/
theorem rel_find? : Option.Rel (Alike T) (c.find? m k name) (c'.find? m k name) := by
  unfold find?
  rw [hreferences]
  refine optionRel_findSome? (R := fun r r' => r = r' ∧ r ∈ m :: (c.model m).references)
    (List.forall₂_same.2 fun _ hr => ⟨rfl, hr⟩) ?_
  rintro r _ ⟨rfl, hr⟩
  exact optionRel_map (hfirst r (List.mem_cons.1 hr)) fun _ _ h => ⟨rfl, h⟩

theorem rel_handle? (hsame : ∀ r ∈ (c.model m).references, T r = .same) :
    Option.Rel (OnHandles T c m) (c.handle? m k name) (c'.handle? m k name) := by
  unfold handle?
  rcases optionRel_iff.1 (hfirst m (.inl rfl)) with ⟨hn, hn'⟩ | ⟨id, id', hid, hid', h⟩
  · rw [hn, hn', hreferences]
    refine optionRel_findSome? (R := fun p p' => p = p' ∧ p ∈ (c.model m).references.zipIdx)
      (List.forall₂_same.2 fun _ hp => ⟨rfl, hp⟩) ?_
    rintro ⟨r, i⟩ _ ⟨rfl, hp⟩
    obtain ⟨-, hi, hr⟩ := List.mem_zipIdx hp
    rw [Nat.zero_add] at hi
    have hmem : r ∈ (c.model m).references := hr ▸ List.getElem_mem _
    refine optionRel_map (hfirst r (.inr hmem)) fun id id' h => ?_
    -- whatever a model references is not renumbered
    rw [hsame r hmem] at h
    obtain rfl : id = id' := h
    exact .referenced _ (Nat.lt_of_le_of_lt (Nat.mod_le _ _) hi) id
  · rw [hid, hid']
    exact .some (.own h)

end Catalog

end Schemata

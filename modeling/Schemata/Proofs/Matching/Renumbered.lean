import Schemata.Proofs.Matching.Entries
import Schemata.Proofs.Matching.Lookup

/-!
# One model renumbered

A model that no other one references may be exchanged for one that holds the same elements under
other numbers, and perhaps more (`matches_of_embedded`).  Catalogs that differ in it alone hold the
same, as far as the names that are written in its schemas lead to the same.
-/

namespace Schemata.Catalog

variable {c c' : Catalog} {m : ModelId} {T : Matching}
  (hothers : ∀ r, r ≠ m → c'.model r = c.model r)
include hothers

theorem references_of_others (hreferences : (c'.model m).references = (c.model m).references)
    (r : ModelId) : (c'.model r).references = (c.model r).references := by
  by_cases hr : r = m
  · rw [hr, hreferences]
  · rw [hothers r hr]

theorem rel_first?_of_ne {r : ModelId} (hr : r ≠ m) (k : SymbolKind) (name : Name) :
    Option.Rel (Matching.onlyIn m T r k.element) ((c.model r).first? k name)
      ((c'.model r).first? k name) := by
  rw [Matching.onlyIn_of_ne T hr, hothers r hr]
  exact optionRel_refl (fun _ => rfl) _

/-- Where no other model references it, one model may be renumbered. -/
theorem matches_of_embedded (hT : (c.model m).Embedded T (c'.model m)) (hc : c.IsBuilt)
    (hreferences : (c'.model m).references = (c.model m).references)
    (hunreferenced : ∀ r, m ∉ (c.model r).references)
    (htargets : (c.model m).TargetsMatch T (c'.model m))
    (hwritten : ∀ {s : Declared .schema} {k : SymbolKind} {name : Name}, s.model = m →
      c.HasReference (HasAlike (.onlyIn m T)) s k name →
      Option.Rel (T k.element) ((c.model m).first? k (c.expand s name))
        ((c'.model m).first? k (c.expand s name))) : c.Matches (.onlyIn m T) c' := by
  have hreferences := references_of_others hothers hreferences
  have hsame (r : ModelId) : ∀ s ∈ (c.model r).references, Matching.onlyIn m T s = .same :=
    fun s hs => Matching.onlyIn_of_ne T fun h => hunreferenced r (h ▸ hs)
  have hexpand {s s' : Declared .schema} (hs : Alike (.onlyIn m T) s s') (name : Name) :
      c'.expand s' name = c.expand s name := by
    obtain ⟨r, id⟩ := s
    obtain ⟨r', id'⟩ := s'
    obtain ⟨rfl : r' = r, hid⟩ := hs
    by_cases hr : r' = m
    · subst hr
      rw [Matching.onlyIn_self] at hid
      exact (Model.expand_congr (hT.same hid).decl name).symm
    · rw [Matching.onlyIn_of_ne T hr] at hid
      obtain rfl : id = id' := hid
      rw [expand, expand, hothers r' hr]
  constructor
  · exact hc
  · exact hreferences
  · exact hsame
  · intro r
    by_cases hr : r = m
    · rw [hr, Matching.onlyIn_self]
      exact hT.matches_of_targets htargets
    · rw [Matching.onlyIn_of_ne T hr, hothers r hr]
      exact Model.matches_same _
  · exact hexpand
  · intro s s' k name hs hname
    have hm : s'.model = s.model := hs.model
    rw [resolve?, resolve?, hexpand hs, hm]
    refine rel_handle? (hreferences _) (fun r hsees => ?_) (hsame _)
    by_cases hr : r = m
    · -- the model is searched for names from its own schemas alone
      subst hr
      rcases hsees with hown | hreferenced
      · rw [Matching.onlyIn_self]
        exact hwritten hown.symm hname
      · exact absurd hreferenced (hunreferenced _)
    · exact rel_first?_of_ne hothers hr k _

end Schemata.Catalog

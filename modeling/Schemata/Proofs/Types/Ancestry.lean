import Mathlib.Order.Defs.Unbundled
import Schemata.Proofs.Types.Members

/-!
# Chains of declared bases

A declared base is one that the type names, where the chain of the bases that are named comes to an
end (`declaredBase?_eq_some_iff`).  So the chain of declared bases always comes to one, and
`Catalog.ancestry` lists it as a whole (`isWhole_ancestry`): its walk neither comes to a type for a
second time nor runs out of steps.  To derive from another type is thereby a partial order
(`isPartialOrder_derivesFrom`).
-/

namespace Schemata.Catalog

variable {c : Catalog} {t u : Declared .type} {lower upper : List (Declared .type)}

/-- The chain of declared bases comes to an end. -/
theorem not_isEndless_declaredBase? (t : Declared .type) : ¬ Chain.IsEndless c.declaredBase? t := by
  rintro ⟨chain, rfl, hchain⟩
  -- each base in it is named, so there would be a chain of named bases without an end
  exact (declaredBase?_eq_some_iff.1 (hchain 0)).2
    ⟨chain, rfl, fun n => (declaredBase?_eq_some_iff.1 (hchain n)).1⟩

/-- **All bases are listed**, from a type to its base until a type has none. -/
theorem isWhole_ancestry (c : Catalog) (t : Declared .type) :
    Chain.IsWhole c.declaredBase? t (c.ancestry t) :=
  Chain.isWhole_trail (fun _ => mem_allElements_of_declaredBase?) (not_isEndless_declaredBase? t)

theorem head?_ancestry (t : Declared .type) : (c.ancestry t).head? = some t :=
  (c.isWhole_ancestry t).head?_eq

theorem nodup_ancestry (t : Declared .type) : (c.ancestry t).Nodup :=
  (c.isWhole_ancestry t).nodup

/-- The bases of a base are listed after it. -/
theorem ancestry_eq_of_append (h : c.ancestry t = lower ++ u :: upper) :
    c.ancestry u = u :: upper :=
  (c.isWhole_ancestry u).unique (Chain.IsWhole.of_append (h ▸ c.isWhole_ancestry t))

/-! ### Deriving -/

theorem derivesFrom_iff_mem : c.derivesFrom t u = true ↔ u ∈ c.ancestry t := by
  rw [derivesFrom, List.contains_iff_mem]

theorem derivesFrom_iff :
    c.derivesFrom t u = true ↔ Relation.ReflTransGen (Chain.Follows c.declaredBase?) t u := by
  rw [derivesFrom_iff_mem, mem_ancestry_iff]

theorem isPartialOrder_derivesFrom (c : Catalog) :
    IsPartialOrder (Declared .type) fun t u => c.derivesFrom t u = true where
  refl _ := derivesFrom_iff.2 .refl
  trans _ _ _ ht hu := derivesFrom_iff.2 ((derivesFrom_iff.1 ht).trans (derivesFrom_iff.1 hu))
  antisymm t _ ht hu :=
    Chain.eq_of_reflTransGen (not_isEndless_declaredBase? t) (derivesFrom_iff.1 ht)
      (derivesFrom_iff.1 hu)

end Schemata.Catalog

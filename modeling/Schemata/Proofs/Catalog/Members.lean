import Schemata.Proofs.Catalog

/-!
# Elements that name the one that declares them

A property names the type that declares it, an entity set the container.  Where what an element
declares is what names it, in order (`hdeclared`), a search by name among it gives the first element
of the model that has the name and that owner (`find?_declared_eq_some_iff`).
-/

namespace Schemata.Catalog

variable {c : Catalog} {k o : ElementKind} {p q : Declared k}

theorem pairwise_lt_elements (m : ModelId) (k : ElementKind) :
    (c.elements m k).Pairwise fun p q => p.id.index < q.id.index := by
  simp only [elements, Model.ids, Id.upTo, List.map_map, List.pairwise_map, Function.comp_apply]
  exact List.pairwise_lt_range

/-- Of members in order the first one is found. -/
theorem index_le_of_find? {l : List (Declared k)} {P : Declared k → Bool}
    (hl : l.Pairwise fun p q => p.id.index < q.id.index) (hp : l.find? P = some p) (hq : q ∈ l)
    (hP : P q = true) : p.id.index ≤ q.id.index := by
  obtain ⟨-, before, after, rfl, hbefore⟩ := List.find?_eq_some_iff_append.1 hp
  rcases List.mem_append.1 hq with hq | hq
  · simpa [hP] using hbefore q hq
  · rcases List.mem_cons.1 hq with rfl | hq
    · exact Nat.le_refl _
    · exact Nat.le_of_lt (List.rel_of_pairwise_cons (List.pairwise_append.1 hl).2.1 hq)

theorem eq_of_index_eq (hm : p.model = q.model) (hi : p.id.index = q.id.index) : p = q := by
  obtain ⟨_, ⟨_⟩⟩ := p
  obtain ⟨_, ⟨_⟩⟩ := q
  cases hm
  cases hi
  rfl

section

variable {declaring : Declared k → Declared o} {declared : Declared o → List (Declared k)}
  {name : Declared k → Name} {n : Name} {u : Declared o}
  (hdeclared : ∀ u, declared u = (c.elements u.model k).filter (declaring · = u))
include hdeclared

theorem pairwise_lt_declared (u : Declared o) :
    (declared u).Pairwise fun p q => p.id.index < q.id.index := by
  rw [hdeclared]
  exact (pairwise_lt_elements _ _).filter _

variable (hmodel : ∀ p, (declaring p).model = p.model)
include hmodel

theorem mem_declared_iff : p ∈ declared u ↔ p ∈ c.allElements k ∧ declaring p = u := by
  rw [hdeclared, List.mem_filter, mem_elements, mem_allElements, decide_eq_true_iff]
  constructor
  · rintro ⟨⟨hm, hid⟩, hu⟩
    exact ⟨hm ▸ hid, hu⟩
  · rintro ⟨hid, rfl⟩
    exact ⟨⟨(hmodel p).symm, hmodel p ▸ hid⟩, rfl⟩

theorem declaring_of_mem (h : p ∈ declared u) : declaring p = u :=
  ((mem_declared_iff hdeclared hmodel).1 h).2

theorem find?_declared_eq_none_iff :
    (declared u).find? (name · = n) = none ↔
      ∀ p ∈ c.allElements k, declaring p = u → name p ≠ n := by
  simp only [List.find?_eq_none, mem_declared_iff hdeclared hmodel, decide_eq_true_eq, and_imp,
    ne_eq]

/-- A search by name gives the first element that has the name and is declared there. -/
theorem find?_declared_eq_some_iff :
    (declared u).find? (name · = n) = some p ↔ p ∈ c.allElements k ∧ declaring p = u ∧ name p = n ∧
      ∀ q ∈ c.allElements k, declaring q = u → name q = n → p.id.index ≤ q.id.index := by
  have hfirst {p : Declared k} (hp : (declared u).find? (name · = n) = some p) (q : Declared k)
      (hq : q ∈ c.allElements k) (hqu : declaring q = u) (hqn : name q = n) :
      p.id.index ≤ q.id.index :=
    index_le_of_find? (pairwise_lt_declared hdeclared u) hp
      ((mem_declared_iff hdeclared hmodel).2 ⟨hq, hqu⟩) (decide_eq_true hqn)
  have hmem {p : Declared k} (hp : (declared u).find? (name · = n) = some p) :
      p ∈ c.allElements k ∧ declaring p = u :=
    (mem_declared_iff hdeclared hmodel).1 (List.mem_of_find?_eq_some hp)
  have hname {p : Declared k} (hp : (declared u).find? (name · = n) = some p) : name p = n := by
    simpa using List.find?_some hp
  constructor
  · exact fun hp => ⟨(hmem hp).1, (hmem hp).2, hname hp, hfirst hp⟩
  · rintro ⟨hp, hpu, hpn, hleast⟩
    cases hq : (declared u).find? (name · = n) with
    | none => exact absurd hpn ((find?_declared_eq_none_iff hdeclared hmodel).1 hq p hp hpu)
    | some q =>
      -- both are the first one, and they are of the same model
      obtain ⟨hqc, hqu⟩ := hmem hq
      have hmodels : q.model = p.model := by rw [← hmodel q, ← hmodel p, hqu, hpu]
      rw [eq_of_index_eq hmodels (Nat.le_antisymm (hfirst hq p hp hpu hpn)
        (hleast q hqc hqu (hname hq)))]

end

end Schemata.Catalog

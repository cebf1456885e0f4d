import Mathlib.Data.List.Nodup
import Schemata.Catalog.Basic

/-!
# Which elements a catalog has

A `Declared` may point past the end of an array.  What is there then is the default entry, which
declares nothing; so whatever declares something is among `Catalog.allElements`.
-/

namespace Schemata

@[simp]
theorem Id.mem_upTo {k : ElementKind} {id : Id k} {n : Nat} : id ∈ Id.upTo k n ↔ id.index < n := by
  obtain ⟨i⟩ := id
  simp [Id.upTo]

theorem Id.nodup_upTo (k : ElementKind) (n : Nat) : (Id.upTo k n).Nodup :=
  List.Nodup.map (fun _ _ => Id.mk.inj) List.nodup_range

/-- Past the end there is the default entry. -/
theorem Model.entry_of_count_le (m : Model) {k : ElementKind} {id : Id k}
    (h : m.count k ≤ id.index) : m.entry id = default := by
  have hsize : ¬ id.index < (m.entries k).size := Nat.not_lt.2 h
  simp [entry, Array.getD, hsize]

namespace Catalog

variable (c : Catalog)

theorem mem_elements {k : ElementKind} {m : ModelId} {e : Declared k} :
    e ∈ c.elements m k ↔ e.model = m ∧ e.id.index < (c.model m).count k := by
  obtain ⟨m', id⟩ := e
  simp only [elements, Model.ids, List.mem_map, Id.mem_upTo, Declared.mk.injEq]
  constructor
  · rintro ⟨id', hid, rfl, rfl⟩
    exact ⟨rfl, hid⟩
  · rintro ⟨rfl, hid⟩
    exact ⟨id, hid, rfl, rfl⟩

theorem count_model_of_size_le {m : ModelId} (h : c.models.size ≤ m) (k : ElementKind) :
    (c.model m).count k = 0 := by
  have hm : c.model m = default := by simp [model, Array.getD, Nat.not_lt.2 h]
  rw [hm]
  cases k <;> rfl

theorem mem_allElements {k : ElementKind} {e : Declared k} :
    e ∈ c.allElements k ↔ e.id.index < (c.model e.model).count k := by
  simp only [allElements, List.mem_flatMap, List.mem_range, mem_elements]
  constructor
  · rintro ⟨m, -, rfl, hid⟩
    exact hid
  · intro hid
    refine ⟨e.model, Nat.lt_of_not_le fun hm => ?_, rfl, hid⟩
    rw [c.count_model_of_size_le hm] at hid
    exact Nat.not_lt_zero _ hid

/-- A model that is added gets the next number. -/
theorem model_add (options : Options) (given : List ModelId) (schemas : List Decl.Schema) :
    (c.add options given schemas).model c.models.size =
      Model.build options (c.allReferences (c.directReferences options given schemas)) schemas := by
  simp [add, model, Array.getD]

end Catalog

end Schemata

import Schemata.Proofs.Catalog
import Schemata.Proofs.Model.Consistency
import Schemata.Proofs.Model.Layout

/-!
# Catalogs that are built

Nothing in the type of a catalog keeps its models from referencing one another in a circle.
`Catalog.IsBuilt` says that a catalog comes about as catalogs do: beginning with the core
vocabulary, models are added one after another, and each references models that are there.

Then a model references earlier models only (`IsBuilt.lt_of_mem_references`), it references whatever
a referenced model references (`IsBuilt.mem_references_trans`), its entries agree with one another
(`IsBuilt.isConsistent`) and are laid out in order (`IsBuilt.isLaidOut`).  What a model *sees*
(`Catalog.Sees`) is itself and the models that it references; this is transitive.
-/

namespace Schemata

namespace Catalog

variable {c : Catalog} {m r s : ModelId}

/-- The catalog comes about by adding models, each of which references models that are there. -/
inductive IsBuilt : Catalog → Prop
  | initial : IsBuilt initial
  | add {c : Catalog} (hc : IsBuilt c) (options : Options) {given : List ModelId}
    (hgiven : ∀ r ∈ given, r < c.models.size) (schemas : List Decl.Schema) :
    IsBuilt (c.add options given schemas)

theorem IsBuilt.add_nil (hc : c.IsBuilt) (options : Options) (schemas : List Decl.Schema) :
    (c.add options [] schemas).IsBuilt :=
  .add hc options (fun _ h => absurd h List.not_mem_nil) schemas

/-! ### Models without repeats -/

theorem mem_distinct {seen rs : List ModelId} : r ∈ distinct seen rs ↔ r ∈ seen ∨ r ∈ rs := by
  induction rs generalizing seen with
  | nil => simp [distinct]
  | cons s rs ih =>
    unfold distinct
    split
    case isTrue hs =>
      have hs : s ∈ seen := by simpa using hs
      rw [ih, List.mem_cons]
      constructor
      · exact Or.imp_right .inr
      · rintro (hr | rfl | hr)
        · exact .inl hr
        · exact .inl hs
        · exact .inr hr
    case isFalse => rw [ih, List.mem_cons, List.mem_cons, or_assoc, or_left_comm]

theorem nodup_distinct {seen rs : List ModelId} (h : seen.Nodup) : (distinct seen rs).Nodup := by
  induction rs generalizing seen with
  | nil => exact List.nodup_reverse.2 h
  | cons s rs ih =>
    unfold distinct
    split
    case isTrue => exact ih h
    case isFalse hs => exact ih (List.nodup_cons.2 ⟨by simpa using hs, h⟩)

/-- Of models without repeats each comes first. -/
theorem distinct_of_nodup {seen rs : List ModelId} (h : (seen.reverse ++ rs).Nodup) :
    distinct seen rs = seen.reverse ++ rs := by
  induction rs generalizing seen with
  | nil => exact (List.append_nil _).symm
  | cons s rs ih =>
    have hcons : seen.reverse ++ s :: rs = (s :: seen).reverse ++ rs := by simp
    have hs : s ∉ seen := fun hs =>
      (List.nodup_append.1 h).2.2 s (List.mem_reverse.2 hs) s (List.mem_cons_self ..) rfl
    have hany : ¬ seen.any (· == s) = true := by simpa using hs
    rw [distinct, if_neg hany, hcons]
    exact ih (hcons ▸ h)

/-! ### Models by number -/

theorem model_of_size_le (h : c.models.size ≤ m) : c.model m = default := by
  simp [model, Array.getD, Nat.not_lt.2 h]

theorem model_initial : Catalog.initial.model core =
    Model.build { Options.standard with includeCore := false } [] [Core.schema] := rfl

/-- At the beginning there is no model but the core vocabulary. -/
theorem model_initial_cases (m : ModelId) :
    m = core ∨ Catalog.initial.model m = default := by
  rcases Nat.eq_zero_or_pos m with hm | hm
  · exact .inl hm
  · exact .inr (model_of_size_le hm)

section add

variable (c) (options : Options) (given : List ModelId) (schemas : List Decl.Schema)

theorem size_add : (c.add options given schemas).models.size = c.models.size + 1 := by
  simp [add]

theorem model_add_of_lt (h : m < c.models.size) :
    (c.add options given schemas).model m = c.model m := by
  have h' : m < c.models.size + 1 := Nat.lt_succ_of_lt h
  simp [add, model, Array.getD, h, h', Array.getElem_push_lt]

/-- Adding a model changes no other. -/
theorem model_add_of_ne (h : m ≠ c.models.size) :
    (c.add options given schemas).model m = c.model m := by
  rcases Nat.lt_or_gt_of_ne h with hlt | hgt
  · exact model_add_of_lt c options given schemas hlt
  · have hsize : (c.add options given schemas).models.size ≤ m := by
      rw [size_add]
      exact hgt
    rw [model_of_size_le hsize, model_of_size_le (Nat.le_of_lt hgt)]

/-- A model that is added references the given models and what these reference, and perhaps the
core vocabulary. -/
theorem mem_references_add :
    r ∈ ((c.add options given schemas).model c.models.size).references ↔
      r ∈ c.directReferences options given schemas ∨
        ∃ d ∈ c.directReferences options given schemas, r ∈ (c.model d).references := by
  rw [model_add, Model.references_build, allReferences, mem_distinct, List.mem_append,
    List.mem_flatMap]
  simp only [List.not_mem_nil, false_or]

end add

/-- The core vocabulary is there from the beginning. -/
theorem IsBuilt.core_lt_size (hc : c.IsBuilt) : core < c.models.size := by
  induction hc with
  | initial => exact Nat.zero_lt_one
  | add _ options _ schemas ih =>
    rw [size_add]
    exact Nat.lt_succ_of_lt ih

theorem IsBuilt.lt_size_of_mem_directReferences (hc : c.IsBuilt) {options : Options}
    {given : List ModelId} (hgiven : ∀ r ∈ given, r < c.models.size) {schemas : List Decl.Schema}
    (hr : r ∈ c.directReferences options given schemas) : r < c.models.size := by
  unfold directReferences at hr
  split at hr
  · rcases List.mem_append.1 hr with hr | hr
    · exact hgiven r hr
    · rw [List.mem_singleton.1 hr]
      exact hc.core_lt_size
  · exact hgiven r hr

/-! ### What models reference -/

theorem references_model_of_size_le (h : c.models.size ≤ m) : (c.model m).references = [] := by
  rw [model_of_size_le h]
  rfl

theorem references_initial (m : ModelId) : (Catalog.initial.model m).references = [] := by
  rcases model_initial_cases m with rfl | hm
  · rw [model_initial, Model.references_build]
  · rw [hm]
    rfl

/-- A model references earlier models only, and whatever these reference. -/
theorem IsBuilt.references_spec (hc : c.IsBuilt) (m : ModelId) :
    ∀ r ∈ (c.model m).references, r < m ∧ (c.model r).references ⊆ (c.model m).references := by
  induction hc generalizing m with
  | initial =>
    intro r hr
    rw [references_initial] at hr
    exact absurd hr List.not_mem_nil
  | @add c hc options given hgiven schemas ih =>
    intro r hr
    have hold {d : ModelId} (hd : d < c.models.size) := c.model_add_of_lt options given schemas hd
    have hdirect {d : ModelId} (hd : d ∈ c.directReferences options given schemas) :=
      hc.lt_size_of_mem_directReferences hgiven hd
    rcases Nat.lt_trichotomy m c.models.size with hm | rfl | hm
    · rw [hold hm] at hr ⊢
      obtain ⟨hlt, hsub⟩ := ih m r hr
      rw [hold (Nat.lt_trans hlt hm)]
      exact ⟨hlt, hsub⟩
    · -- the new model: each reference is a direct one or that of a direct one
      rcases (c.mem_references_add options given schemas).1 hr with hr | ⟨d, hd, hr⟩
      · refine ⟨hdirect hr, fun s hs => (c.mem_references_add options given schemas).2 ?_⟩
        rw [hold (hdirect hr)] at hs
        exact .inr ⟨r, hr, hs⟩
      · obtain ⟨hlt, hsub⟩ := ih d r hr
        have hr' : r < c.models.size := Nat.lt_trans hlt (hdirect hd)
        refine ⟨hr', fun s hs => (c.mem_references_add options given schemas).2 ?_⟩
        rw [hold hr'] at hs
        exact .inr ⟨d, hd, hsub hs⟩
    · rw [references_model_of_size_le (by rw [size_add]; exact hm)] at hr
      exact absurd hr List.not_mem_nil

theorem IsBuilt.lt_of_mem_references (hc : c.IsBuilt) (hr : r ∈ (c.model m).references) : r < m :=
  (hc.references_spec m r hr).1

/-- No model references the last one. -/
theorem IsBuilt.notMem_references_of_size_le (hc : c.IsBuilt) (hm : c.models.size ≤ m + 1)
    (r : ModelId) : m ∉ (c.model r).references := by
  intro hr
  have hlt := hc.lt_of_mem_references hr
  rw [references_model_of_size_le (Nat.le_trans hm hlt)] at hr
  exact absurd hr List.not_mem_nil

theorem IsBuilt.mem_references_trans (hc : c.IsBuilt) (hr : r ∈ (c.model m).references)
    (hs : s ∈ (c.model r).references) : s ∈ (c.model m).references :=
  (hc.references_spec m r hr).2 hs

theorem IsBuilt.nodup_references (hc : c.IsBuilt) (m : ModelId) :
    (c.model m).references.Nodup := by
  induction hc with
  | initial =>
    rw [references_initial]
    exact .nil
  | @add c _ options given _ schemas ih =>
    rcases Nat.lt_trichotomy m c.models.size with hm | rfl | hm
    · rw [c.model_add_of_lt options given schemas hm]
      exact ih
    · rw [model_add, Model.references_build]
      exact nodup_distinct .nil
    · rw [references_model_of_size_le (by rw [size_add]; exact hm)]
      exact .nil

variable (c) in
/-- A model sees itself and the models that it references. -/
def Sees (m r : ModelId) : Prop := r = m ∨ r ∈ (c.model m).references

theorem IsBuilt.sees_trans (hc : c.IsBuilt) (hr : c.Sees m r) (hs : c.Sees r s) : c.Sees m s := by
  rcases hr with rfl | hr
  · exact hs
  · rcases hs with rfl | hs
    · exact .inr hr
    · exact .inr (hc.mem_references_trans hr hs)

theorem IsBuilt.le_of_sees (hc : c.IsBuilt) (hr : c.Sees m r) : r ≤ m := by
  rcases hr with rfl | hr
  · exact Nat.le_refl r
  · exact Nat.le_of_lt (hc.lt_of_mem_references hr)

/-- What a model sees references no more models than it does. -/
theorem IsBuilt.length_references_le (hc : c.IsBuilt) (hr : c.Sees m r) :
    (c.model r).references.length ≤ (c.model m).references.length := by
  rcases hr with rfl | hr
  · exact Nat.le_refl _
  · exact (hc.nodup_references r).length_le_of_subset fun s hs => hc.mem_references_trans hr hs

/-- What holds of all models that are built from schemas, and of the default model, holds of each
model. -/
theorem IsBuilt.of_build (hc : c.IsBuilt) {P : Model → Prop} (hdefault : P default)
    (hbuild : ∀ options references schemas, P (Model.build options references schemas))
    (m : ModelId) : P (c.model m) := by
  induction hc generalizing m with
  | initial =>
    rcases model_initial_cases m with rfl | hm
    · rw [model_initial]
      exact hbuild _ _ _
    · rw [hm]
      exact hdefault
  | @add c hc options given hgiven schemas ih =>
    rcases Nat.lt_trichotomy m c.models.size with hm | rfl | hm
    · rw [c.model_add_of_lt options given schemas hm]
      exact ih m
    · rw [model_add]
      exact hbuild _ _ _
    · rw [model_of_size_le (by rw [size_add]; exact hm)]
      exact hdefault

/-- The entries of each model agree with one another. -/
theorem IsBuilt.isConsistent (hc : c.IsBuilt) (m : ModelId) : (c.model m).IsConsistent :=
  hc.of_build (Model.isConsistent_of_count_eq_zero fun k => by cases k <;> rfl)
    Model.isConsistent_build m

/-- Each model is laid out in order. -/
theorem IsBuilt.isLaidOut (hc : c.IsBuilt) (m : ModelId) : (c.model m).IsLaidOut :=
  hc.of_build (Model.isLaidOut_of_count_eq_zero (fun k => by cases k <;> rfl) rfl)
    Model.isLaidOut_build m

end Catalog

end Schemata

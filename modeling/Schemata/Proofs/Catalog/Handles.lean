import Schemata.Proofs.Catalog.Lookup
import Schemata.Proofs.Model.Symbols

/-!
# How far handles reach

The two ways to look up a name agree on what they find: first in the model itself, then in the
models that it references, in their order.  But a handle numbers a referenced model with 16 bits.
So following the handle leads to what is found, except where the first model that has the name
stands too far down the list (`Catalog.IsFar`); then it leads into an earlier model.  Likewise for
the handles by which a model sees elements.

No name is far where a model can tell its references apart
(`Catalog.TellsReferencesApart.not_isFar`), and with one reference more there can be one
(`not_forall_locate_resolve?_eq_find`).
-/

namespace Schemata

/-! ### Searching for the first match -/

section search

variable {α β γ : Type} (f : α → Option β)

theorem findSome?_map_eq_bind (g : α → β → γ) (l : List α) :
    l.findSome? (fun a => (f a).map (g a)) =
      (l.findIdx? fun a => (f a).isSome).bind fun i => l[i]?.bind fun a => (f a).map (g a) := by
  induction l with
  | nil => rfl
  | cons a l ih =>
    rw [List.findSome?_cons, List.findIdx?_cons]
    cases ha : f a with
    | some b => simp [ha]
    | none => simpa [Option.bind_map, Function.comp_def] using ih

theorem findSome?_zipIdx_eq_bind (g : Nat → β → γ) (l : List α) (n : Nat) :
    (l.zipIdx n).findSome? (fun (a, i) => (f a).map (g i)) =
      (l.findIdx? fun a => (f a).isSome).bind fun i => (l[i]?.bind f).map (g (n + i)) := by
  induction l generalizing n with
  | nil => rfl
  | cons a l ih =>
    rw [List.zipIdx_cons, List.findSome?_cons, List.findIdx?_cons]
    cases ha : f a with
    | some b => simp [ha]
    | none =>
      simp only [ha, Option.map_none]
      simpa [Option.bind_map, Function.comp_def, Nat.add_assoc, Nat.add_comm 1] using ih (n + 1)

end search

namespace Catalog

variable {c : Catalog} {m r : ModelId} {k : SymbolKind} {name : Name}

section positions

variable (c m k name)

/-- The position of the first referenced model that has a name. -/
def position? : Option Nat :=
  (c.model m).references.findIdx? fun r => ((c.model r).first? k name).isSome

/-- The name is not found in the model itself, and the first referenced model that has it stands too
far down the list to be told apart from an earlier one. -/
def IsFar : Prop :=
  (c.model m).first? k name = none ∧ ∃ i, c.position? m k name = some i ∧ Origin.capacity ≤ i

end positions

/-- Where a model can tell its references apart, nothing is far. -/
theorem TellsReferencesApart.not_isFar (hm : c.TellsReferencesApart m) : ¬ c.IsFar m k name := by
  rintro ⟨-, i, hi, hcapacity⟩
  obtain ⟨hlt, -⟩ := List.findIdx?_eq_some_iff_getElem.1 hi
  have hm : (c.model m).references.length ≤ Origin.capacity := hm
  omega

theorem find?_of_first?_eq_none (h : (c.model m).first? k name = none) :
    c.find? m k name = (c.position? m k name).bind fun i =>
      (c.model m).references[i]?.bind fun r => ((c.model r).first? k name).map (⟨r, ·⟩) := by
  rw [find?, List.findSome?_cons, h]
  exact findSome?_map_eq_bind _ _ _

theorem handle?_of_first?_eq_none (h : (c.model m).first? k name = none) :
    c.handle? m k name = (c.position? m k name).bind fun i =>
      ((c.model m).references[i]?.bind fun r => (c.model r).first? k name).map (.referenced i) := by
  rw [handle?, h]
  simpa only [Nat.zero_add, position?] using
    findSome?_zipIdx_eq_bind (fun r => (c.model r).first? k name) Handle.referenced _ 0

/-- The handle for a position leads to the model there iff the position can be told apart. -/
theorem locate_referenced_eq_iff {k : ElementKind} (hm : (c.model m).references.Nodup) {i : Nat}
    (hi : (c.model m).references[i]? = some r) (id : Id k) :
    c.locate m (.referenced i id) = ⟨r, id⟩ ↔ i < Origin.capacity := by
  refine ⟨fun h => ?_, fun h => locate_referenced_of_lt hi h id⟩
  obtain ⟨hlt, hr⟩ := List.getElem?_eq_some_iff.1 hi
  have hmod : i % Origin.capacity < (c.model m).references.length :=
    Nat.lt_of_le_of_lt (Nat.mod_le _ _) hlt
  rw [locate_referenced, List.getD_eq_getElem?_getD, List.getElem?_eq_getElem hmod,
    Option.getD_some, ← hr, Declared.mk.injEq, hm.getElem_inj_iff] at h
  exact Nat.mod_eq_iff_lt (Nat.ne_of_gt (Nat.two_pow_pos 16)) |>.1 h.1

/-- What is found is where the handle leads, unless the name is far. -/
theorem locate_handle?_eq_find?_iff (hm : (c.model m).references.Nodup) :
    (c.handle? m k name).map (c.locate m) = c.find? m k name ↔ ¬ c.IsFar m k name := by
  cases hself : (c.model m).first? k name with
  | some id =>
    have hfar : ¬ c.IsFar m k name := fun h => by cases hself.symm.trans h.1
    have hfound : (c.handle? m k name).map (c.locate m) = c.find? m k name := by
      rw [handle?, find?, List.findSome?_cons, hself]
      rfl
    exact iff_of_true hfound hfar
  | none =>
    rw [handle?_of_first?_eq_none hself, find?_of_first?_eq_none hself]
    cases hi : c.position? m k name with
    | none => exact iff_of_true rfl fun ⟨_, i, hi', _⟩ => by cases hi.symm.trans hi'
    | some i =>
      have hfar : c.IsFar m k name ↔ Origin.capacity ≤ i := by
        constructor
        · rintro ⟨-, j, hj, hcapacity⟩
          rwa [Option.some.inj (hi.symm.trans hj)]
        · exact fun hcapacity => ⟨hself, i, hi, hcapacity⟩
      obtain ⟨hlt, hsome, -⟩ := List.findIdx?_eq_some_iff_getElem.1 hi
      obtain ⟨id, hid⟩ := Option.isSome_iff_exists.1 hsome
      have hr := List.getElem?_eq_getElem hlt
      rw [hfar, Nat.not_le, ← locate_referenced_eq_iff hm hr id]
      simp only [Option.bind_some, hr, hid, Option.map_some, Option.some.injEq]

theorem handle?_eq_none_iff : c.handle? m k name = none ↔ c.find? m k name = none := by
  cases hself : (c.model m).first? k name with
  | some id =>
    rw [handle?, find?, List.findSome?_cons, hself]
    exact iff_of_false nofun nofun
  | none =>
    rw [handle?_of_first?_eq_none hself, find?_of_first?_eq_none hself]
    cases c.position? m k name with
    | none => exact iff_of_true rfl rfl
    | some i => cases (c.model m).references[i]? <;> simp

/-! ### Schemas and elements -/

/-- The handle for an element of a referenced model leads there iff the model's position can be told
apart. -/
theorem locate_handleFor_eq_iff (hc : c.IsBuilt) {k : ElementKind} {x : Declared k}
    (hx : x.model ∈ (c.model m).references) :
    (c.handleFor m x).map (c.locate m) = some x ↔
      (c.model m).references.idxOf x.model < Origin.capacity := by
  have hself : x.model ≠ m := Nat.ne_of_lt (hc.lt_of_mem_references hx)
  obtain ⟨i, hi⟩ := Option.isSome_iff_exists.1 (List.isSome_idxOf?.2 hx)
  obtain ⟨hlt, hr, -⟩ := List.idxOf?_eq_some_iff.1 hi
  have hidx : (c.model m).references.idxOf x.model = i := by
    rw [← hr]
    exact (hc.nodup_references m).idxOf_getElem i hlt
  rw [handleFor, if_neg hself, hi, hidx, Option.map_some, Option.map_some, Option.some.injEq]
  exact locate_referenced_eq_iff (hc.nodup_references m) (List.getElem?_eq_some_iff.2 ⟨hlt, hr⟩)
    x.id

/-- **Handles reach as far as positions can be told apart.**  The reference of a schema leads
nowhere iff nothing is found under the name that it stands for.  Where its handle leads is what is
found, unless the name is far.  And of each model that is referenced: the handles for its elements
lead to them iff its position can be told apart. -/
theorem locate_resolve?_eq_find_iff (hc : c.IsBuilt) (m : ModelId) :
    (∀ (s : Declared .schema) (k : SymbolKind) (reference : Name), s.model = m →
      (c.resolve? s k reference = none ↔
        (c.find m k (c.expand s reference)).isPlaceholder = true) ∧
      ((c.resolve? s k reference).map (c.locate m) =
          (c.find m k (c.expand s reference)).declared? ↔
        ¬ c.IsFar m k (c.expand s reference))) ∧
      ∀ r ∈ (c.model m).references, ∀ (k : ElementKind) (id : Id k),
        (c.handleFor m ⟨r, id⟩).map (c.locate m) = some ⟨r, id⟩ ↔
          (c.model m).references.idxOf r < Origin.capacity := by
  refine ⟨?_, fun r hr k id => locate_handleFor_eq_iff hc hr⟩
  rintro s k reference rfl
  have hdeclared : (c.find s.model k (c.expand s reference)).declared? =
      c.find? s.model k (c.expand s reference) := by
    rw [find]
    cases c.find? s.model k (c.expand s reference) <;> rfl
  have hplaceholder : (c.find s.model k (c.expand s reference)).isPlaceholder = true ↔
      c.find? s.model k (c.expand s reference) = none := by
    rw [find]
    cases c.find? s.model k (c.expand s reference) <;>
      simp [Element.ofOption, Element.isPlaceholder, Element.placeholder?]
  rw [hdeclared, hplaceholder]
  exact ⟨handle?_eq_none_iff, locate_handle?_eq_find?_iff (hc.nodup_references _)⟩

/-! ### One reference too many -/

/-- Models that reference nothing: one with a type `Z.Other`, and empty ones. -/
def crowd : Nat → Catalog
  | 0 => initial.add { Options.standard with includeCore := false } []
      [(Decl.Schema.make "Z").addItem (.complexType (.make "Other"))]
  | n + 1 => (crowd n).add { Options.standard with includeCore := false } [] []

/-- The crowd and behind it a model with a type `A.T`. -/
def crowdBeforeType (n : Nat) : Catalog :=
  (crowd n).add { Options.standard with includeCore := false } []
    [(Decl.Schema.make "A").addItem (.complexType (.make "T"))]

/-- A schema with a type that has the base `A.T`. -/
def referringSchema : Decl.Schema :=
  (Decl.Schema.make "B").addItem
    (.complexType { Decl.Structured.make "X" with base? := some "A.T" })

/-- One more model, which references all of these in their order and refers to that type. -/
def beyondCrowd (n : Nat) : Catalog :=
  (crowdBeforeType n).add { Options.standard with includeCore := false } (List.range' 1 (n + 2))
    [referringSchema]

section crowd

variable (n : Nat)

theorem size_crowd : (crowd n).models.size = n + 2 := by
  induction n with
  | zero => rfl
  | succ n ih => rw [crowd, size_add, ih]

theorem size_crowdBeforeType : (crowdBeforeType n).models.size = n + 3 := by
  rw [crowdBeforeType, size_add, size_crowd]

theorem isBuilt_crowd : (crowd n).IsBuilt := by
  induction n with
  | zero => exact .add_nil .initial _ _
  | succ n ih => exact .add_nil ih _ _

theorem isBuilt_beyondCrowd : (beyondCrowd n).IsBuilt := by
  refine .add (.add_nil (isBuilt_crowd n) _ _) _ ?_ _
  intro r hr
  have hlt : r < 1 + (n + 2) := (List.mem_range'_1.1 hr).2
  rw [← crowdBeforeType, size_crowdBeforeType]
  exact Nat.lt_of_lt_of_eq hlt (Nat.add_comm 1 (n + 2))

/-- The models of the crowd reference nothing and do not have the type. -/
theorem model_crowd {r : Nat} (hr : 1 ≤ r) (hrn : r < n + 2) :
    ((crowd n).model r).references = [] ∧ ((crowd n).model r).first? .type "A.T" = none := by
  induction n with
  | zero =>
    obtain rfl : r = initial.models.size := Nat.le_antisymm (Nat.le_of_lt_succ hrn) hr
    rw [crowd, model_add, Model.references_build, Model.first?_build]
    exact ⟨rfl, by decide +kernel⟩
  | succ n ih =>
    rcases Nat.lt_or_ge r (n + 2) with h | h
    · rw [crowd, model_add_of_lt _ _ _ _ (by rw [size_crowd]; exact h)]
      exact ih h
    · obtain rfl : r = (crowd n).models.size := by rw [size_crowd]; omega
      rw [crowd, model_add, Model.references_build, Model.first?_build]
      exact ⟨rfl, by decide +kernel⟩

/-- The models before the last one reference nothing, and only the last of them has the type. -/
theorem model_crowdBeforeType {r : Nat} (hr : 1 ≤ r) (hrn : r < n + 3) :
    ((crowdBeforeType n).model r).references = [] ∧
      ((crowdBeforeType n).model r).first? .type "A.T" = if r = n + 2 then some ⟨0⟩ else none := by
  rcases Nat.lt_or_ge r (n + 2) with h | h
  · rw [crowdBeforeType, model_add_of_lt _ _ _ _ (by rw [size_crowd]; exact h),
      if_neg (Nat.ne_of_lt h)]
    exact model_crowd n hr h
  · obtain rfl : r = n + 2 := Nat.le_antisymm (Nat.le_of_lt_succ hrn) h
    rw [if_pos rfl, ← size_crowd n, crowdBeforeType, model_add, Model.references_build,
      Model.first?_build]
    exact ⟨rfl, by decide +kernel⟩

theorem first?_beyondCrowd {r : Nat} (hr : 1 ≤ r) (hrn : r < n + 3) :
    ((beyondCrowd n).model r).first? .type "A.T" = if r = n + 2 then some ⟨0⟩ else none := by
  rw [beyondCrowd, model_add_of_lt _ _ _ _ (by rw [size_crowdBeforeType]; exact hrn)]
  exact (model_crowdBeforeType n hr hrn).2

theorem model_beyondCrowd :
    (beyondCrowd n).model (n + 3) =
      Model.build { Options.standard with includeCore := false } (List.range' 1 (n + 2))
        [referringSchema] := by
  have hnone : ((List.range' 1 (n + 2)).flatMap fun r => ((crowdBeforeType n).model r).references) =
      [] := by
    refine List.flatMap_eq_nil_iff.2 fun r hr => ?_
    obtain ⟨hr, hrn⟩ := List.mem_range'_1.1 hr
    exact (model_crowdBeforeType n hr (by omega)).1
  have hreferences : (crowdBeforeType n).allReferences (List.range' 1 (n + 2)) =
      List.range' 1 (n + 2) := by
    rw [allReferences, hnone, List.append_nil]
    exact distinct_of_nodup List.nodup_range'
  rw [← size_crowdBeforeType n, beyondCrowd, model_add]
  exact congrArg (Model.build _ · _) hreferences

/-- The last model finds the type in the last one before it. -/
theorem position?_beyondCrowd : (beyondCrowd n).position? (n + 3) .type "A.T" = some (n + 1) := by
  rw [position?, model_beyondCrowd, Model.references_build, List.findIdx?_eq_some_iff_getElem]
  refine ⟨by simp, ?_, fun j hj => ?_⟩
  · rw [List.getElem_range', first?_beyondCrowd n (by omega) (by omega), if_pos (by omega)]
    rfl
  · rw [List.getElem_range', first?_beyondCrowd n (by omega) (by omega), if_neg (by omega)]
    decide

theorem expand_beyondCrowd : (beyondCrowd n).expand ⟨n + 3, ⟨0⟩⟩ "A.T" = "A.T" := by
  rw [expand, model_beyondCrowd]
  have hdecl : (Model.build { Options.standard with includeCore := false } (List.range' 1 (n + 2))
      [referringSchema]).schemaDecl ⟨0⟩ =
      (Model.build Options.standard [] [referringSchema]).schemaDecl ⟨0⟩ :=
    (Model.schemaDecl_build (i := 0) rfl).trans (Model.schemaDecl_build (i := 0) rfl).symm
  exact (Model.expand_congr hdecl "A.T").trans (by decide +kernel)

/-- The type is far as soon as the crowd is large enough. -/
theorem isFar_beyondCrowd_iff :
    (beyondCrowd n).IsFar (n + 3) .type "A.T" ↔ Origin.capacity ≤ n + 1 := by
  have hself : ((beyondCrowd n).model (n + 3)).first? .type "A.T" = none := by
    rw [model_beyondCrowd, Model.first?_build]
    decide +kernel
  rw [IsFar, position?_beyondCrowd]
  constructor
  · rintro ⟨-, i, hi, hcapacity⟩
    rwa [Option.some.inj hi]
  · exact fun hcapacity => ⟨hself, _, rfl, hcapacity⟩

end crowd

/-- Where the crowd is one empty model, the handle leads to the type. -/
theorem locate_resolve?_eq_find_iff_beyondCrowd :
    ((beyondCrowd 1).resolve? ⟨4, ⟨0⟩⟩ .type "A.T").map ((beyondCrowd 1).locate 4) =
        ((beyondCrowd 1).find 4 .type ((beyondCrowd 1).expand ⟨4, ⟨0⟩⟩ "A.T")).declared? ∧
      ((beyondCrowd 1).handleFor 4 (⟨3, ⟨0⟩⟩ : Declared .type)).map ((beyondCrowd 1).locate 4) =
        some ⟨3, ⟨0⟩⟩ := by
  obtain ⟨hresolve, hhandle⟩ := locate_resolve?_eq_find_iff (isBuilt_beyondCrowd 1) 4
  have hreferences : ((beyondCrowd 1).model 4).references = [1, 2, 3] := by
    rw [model_beyondCrowd, Model.references_build]
    rfl
  refine ⟨((hresolve _ _ _ rfl).2).2 ?_, (hhandle 3 ?_ _ _).2 ?_⟩
  · rw [expand_beyondCrowd, isFar_beyondCrowd_iff]
    decide
  · rw [hreferences]
    decide
  · rw [hreferences]
    decide

/-- **Handles do not lead to all that is found**: with 65537 references they lead astray. -/
theorem not_forall_locate_resolve?_eq_find :
    ¬ ∀ c : Catalog, c.IsBuilt → ∀ (m : ModelId), ∀ s ∈ c.elements m .schema,
      ∀ (k : SymbolKind) (reference : Name),
        (c.resolve? s k reference).map (c.locate m) =
          (c.find m k (c.expand s reference)).declared? := by
  intro hall
  let n := Origin.capacity - 1
  have hs : (⟨n + 3, ⟨0⟩⟩ : Declared .schema) ∈ (beyondCrowd n).elements (n + 3) .schema := by
    rw [mem_elements, model_beyondCrowd, Model.count_schema_build]
    exact ⟨rfl, Nat.zero_lt_one⟩
  have hiff := ((locate_resolve?_eq_find_iff (isBuilt_beyondCrowd n) (n + 3)).1
    ⟨n + 3, ⟨0⟩⟩ .type "A.T" rfl).2
  rw [expand_beyondCrowd, isFar_beyondCrowd_iff] at hiff
  refine hiff.1 ?_ (by decide)
  have hfind := hall _ (isBuilt_beyondCrowd n) _ _ hs .type "A.T"
  rwa [expand_beyondCrowd] at hfind

end Catalog

end Schemata

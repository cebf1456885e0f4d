import Schemata.Catalog.Lookup
import Schemata.Proofs.Catalog.Built

/-!
# What a name leads to

A name is found in the model that asks or in one that it references (`FoundAt`).  Where the model
can tell its references apart by number (`TellsReferencesApart`), `Catalog.locate` leads to what is
found, and that is an element of its model (`mem_elements_of_resolve?`).  In any case it leads to
the model itself or to one that it references (`sees_locate`).

In a catalog that is built no model references itself, so one sees from the model of an element
whether it was found at home (`IsBuilt.eq_self_of_locate`).
-/

namespace Schemata

theorem Model.length_names (m : Model) (k : SymbolKind) :
    (m.names k).length = m.count k.element := by
  cases k <;> simp [names, count, entries]

theorem Model.lt_count_of_first? {m : Model} {k : SymbolKind} {name : Name} {id : Id k.element}
    (h : m.first? k name = some id) : id.index < m.count k.element := by
  obtain ⟨i, hi, rfl⟩ := Option.map_eq_some_iff.1 h
  obtain ⟨hlt, -⟩ := List.idxOf?_eq_some_iff.1 hi
  rwa [length_names] at hlt

namespace Catalog

variable {c : Catalog} {m : ModelId} {k : SymbolKind} {name reference : Name}
  {h : Handle k.element} {s : Declared .schema}

/-- Where a name is found, as the model that asks sees it. -/
inductive FoundAt (c : Catalog) (m : ModelId) (k : SymbolKind) (name : Name) :
    Handle k.element → Prop
  /-- In the model itself. -/
  | here {id : Id k.element} (hid : (c.model m).first? k name = some id) :
    FoundAt c m k name ⟨.self, id⟩
  /-- In a model that it references. -/
  | there {i : Nat} {r : ModelId} {id : Id k.element} (hr : (c.model m).references[i]? = some r)
    (hid : (c.model r).first? k name = some id) : FoundAt c m k name (.referenced i id)

theorem foundAt_of_handle? (hh : c.handle? m k name = some h) : FoundAt c m k name h := by
  unfold handle? at hh
  split at hh
  case h_1 id hid =>
    obtain rfl := Option.some.inj hh
    exact .here hid
  case h_2 =>
    obtain ⟨⟨r, i⟩, hri, hfirst⟩ := List.exists_of_findSome?_eq_some hh
    obtain ⟨id, hid, rfl⟩ := Option.map_eq_some_iff.1 hfirst
    exact .there (List.mem_zipIdx_iff_getElem?.1 hri) hid

/-! ### Where handles lead -/

/-- The handle for a position leads as far as positions can be told apart. -/
theorem locate_referenced {k : ElementKind} (position : Nat) (id : Id k) :
    c.locate m (.referenced position id) =
      ⟨(c.model m).references.getD (position % Origin.capacity) m, id⟩ := rfl

variable (c) in
/-- A model references no more models than can be told apart by number. -/
def TellsReferencesApart (m : ModelId) : Prop :=
  (c.model m).references.length ≤ Origin.capacity

instance : Decidable (c.TellsReferencesApart m) := inferInstanceAs (Decidable (_ ≤ _))

theorem locate_referenced_of_lt {k : ElementKind} {i : Nat} {r : ModelId}
    (hr : (c.model m).references[i]? = some r) (hi : i < Origin.capacity) (id : Id k) :
    c.locate m (.referenced i id) = ⟨r, id⟩ := by
  rw [locate_referenced, Nat.mod_eq_of_lt hi, List.getD_eq_getElem?_getD, hr, Option.getD_some]

theorem TellsReferencesApart.locate_referenced (hm : c.TellsReferencesApart m) {k : ElementKind}
    {i : Nat} {r : ModelId} (hr : (c.model m).references[i]? = some r) (id : Id k) :
    c.locate m (.referenced i id) = ⟨r, id⟩ :=
  locate_referenced_of_lt hr
    (Nat.lt_of_lt_of_le (List.getElem?_eq_some_iff.1 hr).1 hm) id

theorem IsBuilt.tellsReferencesApart_of_sees (hc : c.IsBuilt) {r : ModelId}
    (hm : c.TellsReferencesApart m) (hr : c.Sees m r) : c.TellsReferencesApart r :=
  Nat.le_trans (hc.length_references_le hr) hm

/-- A handle leads to the model itself or to one that it references. -/
theorem sees_locate {k : ElementKind} (m : ModelId) (h : Handle k) :
    c.Sees m (c.locate m h).model := by
  obtain ⟨origin, id⟩ := h
  cases origin with
  | self => exact .inl rfl
  | referenced i =>
    rcases Nat.lt_or_ge i (c.model m).references.length with hi | hi
    · refine .inr ?_
      simp [locate, List.getD_eq_getElem?_getD, List.getElem?_eq_getElem hi]
    · simp [locate, Sees, List.getD_eq_getElem?_getD, List.getElem?_eq_none hi]

/-- What is found is an element of its model. -/
theorem FoundAt.mem_elements (hm : c.TellsReferencesApart m) (hf : FoundAt c m k name h) :
    c.locate m h ∈ c.elements (c.locate m h).model k.element := by
  cases hf with
  | here hid => exact c.mem_elements.2 ⟨rfl, Model.lt_count_of_first? hid⟩
  | there hr hid =>
    rw [hm.locate_referenced hr]
    exact c.mem_elements.2 ⟨rfl, Model.lt_count_of_first? hid⟩

/-- What is found in the model that asks is found as its own. -/
theorem FoundAt.eq_self (hc : c.IsBuilt) (hf : FoundAt c m k name h)
    (hm : (c.locate m h).model = m) : h = ⟨.self, h.id⟩ := by
  cases hf with
  | here => rfl
  | @there i r id hr =>
    -- there is a first reference, so the number is that of one
    have hlt : i % Origin.capacity < (c.model m).references.length :=
      Nat.lt_of_le_of_lt (Nat.mod_le _ _) (List.getElem?_eq_some_iff.1 hr).1
    rw [locate_referenced, List.getD_eq_getElem?_getD, List.getElem?_eq_getElem hlt,
      Option.getD_some] at hm
    exact absurd hm (Nat.ne_of_lt (hc.lt_of_mem_references (List.getElem_mem hlt)))

/-! ### References from a schema -/

theorem mem_elements_of_resolve? (hm : c.TellsReferencesApart s.model)
    (hh : c.resolve? s k reference = some h) :
    c.locate s.model h ∈ c.elements (c.locate s.model h).model k.element :=
  (foundAt_of_handle? hh).mem_elements hm

theorem IsBuilt.model_locate_le (hc : c.IsBuilt) {k : ElementKind} (m : ModelId) (h : Handle k) :
    (c.locate m h).model ≤ m :=
  hc.le_of_sees (sees_locate m h)

theorem IsBuilt.eq_self_of_locate (hc : c.IsBuilt) (hh : c.resolve? s k reference = some h)
    (hm : (c.locate s.model h).model = s.model) : h = ⟨.self, h.id⟩ :=
  (foundAt_of_handle? hh).eq_self hc hm

theorem resolve_eq_declared_iff {location : Location} :
    c.resolve s k reference location = .declared h ↔ c.resolve? s k reference = some h := by
  unfold resolve
  cases c.resolve? s k reference <;> simp [Element.ofOption]

theorem resolve?_of_resolveType {allowed : List TypeKind} {location : Location} {h : Handle .type}
    (hr : c.resolveType s reference allowed location = .declared h) :
    c.resolve? s .type reference = some h := by
  obtain ⟨h', hd, hkind⟩ := Element.bind_eq_declared_iff.1 hr
  dsimp only at hkind
  split at hkind
  · cases hkind
    exact resolve_eq_declared_iff.1 hd
  · cases hkind

/-! ### Handles -/

/-- There is a handle for each element of a model that is seen. -/
theorem exists_handleFor {k : ElementKind} {x : Declared k} (hx : c.Sees m x.model) :
    ∃ h, c.handleFor m x = some h := by
  unfold handleFor
  split
  · exact ⟨_, rfl⟩
  · obtain ⟨i, hi⟩ := Option.isSome_iff_exists.1
      (List.isSome_idxOf?.2 (hx.resolve_left ‹_›))
    exact ⟨_, by rw [hi]; rfl⟩

end Catalog

end Schemata

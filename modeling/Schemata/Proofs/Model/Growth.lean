import Mathlib.Data.List.Forall2
import Schemata.Model.Build

/-!
# How a model grows

A model is built by adding elements, and an element that has been added stays where it is:
`m.IsStartOf later` says that the entries of `m` are the first ones of `later`.

While an element is added, only elements that are declared inside it are added as well; these lie at
a lower level (`ElementKind.level`).  So the number that the element gets is still free when its
entry is written.  `Adds n x P` is the rule by which such computations are followed: `x` adds
elements below level `n`, and of what it answers `P` holds in every model that `x` has begun.
-/

namespace Schemata

/-- How far out an element lies: outside of all that is declared inside it. -/
def ElementKind.level : ElementKind → Nat
  | .annot => 0
  | .property | .navigation | .entitySet | .associationSet => 1
  | .type | .association | .term | .container => 2
  | .schema => 3

namespace Model

variable {m later final : Model} {k k' : ElementKind} {n : Nat}

/-! ### One more entry -/

@[simp]
theorem entries_push_self (m : Model) (e : Entry k) :
    (m.push k e).entries k = (m.entries k).push e := by
  cases k <;> rfl

theorem entries_push_of_ne (m : Model) (e : Entry k) (h : k' ≠ k) :
    (m.push k e).entries k' = m.entries k' := by
  cases k <;> cases k' <;> first | rfl | exact absurd rfl h

@[simp]
theorem blocks_push (m : Model) (e : Entry k) : (m.push k e).blocks = m.blocks := by
  cases k <;> rfl

theorem count_push_self (m : Model) (e : Entry k) : (m.push k e).count k = m.count k + 1 := by
  rw [count, entries_push_self, Array.size_push, count]

/-- The entry that has been added is the last one. -/
theorem entry_push_self (m : Model) (e : Entry k) : (m.push k e).entry ⟨m.count k⟩ = e := by
  simp [entry, count, Array.getD]

/-! ### Models that begin others -/

/-- The entries of one model are the first ones of another. -/
def IsStartOf (m later : Model) : Prop := ∀ k, (m.entries k).toList <+: (later.entries k).toList

theorem IsStartOf.refl (m : Model) : m.IsStartOf m := fun _ => List.prefix_rfl

theorem IsStartOf.trans (h : m.IsStartOf later) (h' : later.IsStartOf final) :
    m.IsStartOf final := fun k => (h k).trans (h' k)

theorem isStartOf_push (m : Model) (e : Entry k) : m.IsStartOf (m.push k e) := by
  intro k'
  by_cases h : k' = k
  · subst h
    rw [entries_push_self, Array.toList_push]
    exact List.prefix_append _ _
  · simp only [entries_push_of_ne m e h, List.prefix_rfl]

/-- An entry stays what it is. -/
theorem IsStartOf.entry_eq (h : m.IsStartOf later) (id : Id k) (hid : id.index < m.count k) :
    later.entry id = m.entry id := by
  obtain ⟨l, hl⟩ := h k
  have hsize : id.index < (m.entries k).toList.length := hid
  have hget : (later.entries k).toList[id.index]? = (m.entries k).toList[id.index]? := by
    rw [← hl, List.getElem?_append_left hsize]
  simp only [entry, Array.getD_eq_getD_getElem?, ← Array.getElem?_toList, hget]

/-- Elements below a level have been added, and no others. -/
structure Grows (n : Nat) (m later : Model) : Prop where
  isStartOf : m.IsStartOf later
  entries_eq : ∀ k, n ≤ k.level → later.entries k = m.entries k

theorem Grows.refl (n : Nat) (m : Model) : Grows n m m := ⟨.refl m, fun _ _ => rfl⟩

theorem Grows.trans (h : Grows n m later) (h' : Grows n later final) : Grows n m final :=
  ⟨h.isStartOf.trans h'.isStartOf, fun k hk => (h'.entries_eq k hk).trans (h.entries_eq k hk)⟩

theorem Grows.mono {n' : Nat} (hn : n ≤ n') (h : Grows n m later) : Grows n' m later :=
  ⟨h.isStartOf, fun k hk => h.entries_eq k (by omega)⟩

theorem Grows.count_eq (h : Grows n m later) (hk : n ≤ k.level) : later.count k = m.count k := by
  rw [count, h.entries_eq k hk, count]

theorem grows_push (m : Model) (e : Entry k) (hk : k.level < n) : Grows n m (m.push k e) := by
  refine ⟨isStartOf_push m e, fun k' hk' => entries_push_of_ne m e ?_⟩
  rintro rfl
  omega

/-! ### Computations that add elements -/

/-- A computation adds elements below a level and no blocks, and what is said of its answer holds
of every model that it has begun. -/
def Adds {α : Type} (n : Nat) (x : StateM Model α) (P : α → Model → Prop) : Prop :=
  ∀ m, Grows n m (x.run m).2 ∧ (x.run m).2.blocks = m.blocks ∧
    ∀ final, (x.run m).2.IsStartOf final → P (x.run m).1 final

section Adds

variable {α β : Type} {x : StateM Model α} {f : α → StateM Model β} {P : α → Model → Prop}
  {Q : β → Model → Prop}

namespace Adds

protected theorem pure {a : α} (h : ∀ m, P a m) : Adds n (pure a) P :=
  fun m => ⟨.refl n m, rfl, fun final _ => h final⟩

/-- What the first of two computations says of its answer the second one may use. -/
protected theorem bind (hx : Adds n x P) (hf : ∀ a, Adds n (f a) fun b m => P a m → Q b m) :
    Adds n (x >>= f) Q := by
  intro m
  obtain ⟨hgrows₁, hblocks₁, hP⟩ := hx m
  obtain ⟨hgrows₂, hblocks₂, hQ⟩ := hf (x.run m).1 (x.run m).2
  refine ⟨hgrows₁.trans hgrows₂, hblocks₂.trans hblocks₁, fun final hfinal => ?_⟩
  exact hQ final hfinal (hP final (hgrows₂.isStartOf.trans hfinal))

protected theorem imp {P' : α → Model → Prop} (hx : Adds n x P) (h : ∀ a m, P a m → P' a m) :
    Adds n x P' := by
  intro m
  obtain ⟨hgrows, hblocks, hP⟩ := hx m
  exact ⟨hgrows, hblocks, fun final hfinal => h _ final (hP final hfinal)⟩

protected theorem map {g : α → β} (hx : Adds n x fun a m => Q (g a) m) : Adds n (g <$> x) Q := by
  intro m
  exact hx m

/-- The elements of a list are added one after another. -/
protected theorem mapM {ι : Type} {x : ι → StateM Model α} {P : ι → α → Model → Prop}
    (hx : ∀ i, Adds n (x i) (P i)) (l : List ι) :
    Adds n (l.mapM x) fun as m => List.Forall₂ (fun a i => P i a m) as l := by
  induction l with
  | nil => exact .pure fun m => .nil
  | cons i l ih =>
    rw [List.mapM_cons]
    refine (hx i).bind fun a => ih.bind fun as => .pure fun m => ?_
    intro has ha
    exact .cons ha has

/-- What is said of each answer alone holds of all of them. -/
protected theorem mapM_forall {ι : Type} {x : ι → StateM Model α} (hx : ∀ i, Adds n (x i) P)
    (l : List ι) : Adds n (l.mapM x) fun as m => ∀ a ∈ as, P a m := by
  refine (Adds.mapM hx l).imp fun as m h => ?_
  induction h with
  | nil => exact fun a ha => absurd ha List.not_mem_nil
  | cons ha _ ih => exact List.forall_mem_cons.2 ⟨ha, ih⟩

/-- What is put together again from the elements of a list is the list. -/
protected theorem mapM_decl {ι : Type} {x : ι → StateM Model α} {decl : Model → α → ι}
    (hx : ∀ i, Adds n (x i) fun a m => decl m a = i) (l : List ι) :
    Adds n (l.mapM x) fun as m => as.map (decl m) = l := by
  refine (Adds.mapM hx l).imp fun as m h => ?_
  rw [← List.forall₂_eq_eq_eq, List.forall₂_map_left_iff]
  exact h

end Adds

/-- What adding an element does to the model that is there. -/
theorem run_addElement {make : Id k → StateM Model (Entry k)} (m : Model) :
    (addElement k make).run m =
      (⟨m.count k⟩, ((make ⟨m.count k⟩).run m).2.push k ((make ⟨m.count k⟩).run m).1) := rfl

/-- A number that is taken stays taken. -/
theorem IsStartOf.count_le (h : m.IsStartOf later) (k : ElementKind) : m.count k ≤ later.count k :=
  (h k).length_le

/-- **Adding an element.**  If the entry is made by adding elements of lower levels, the number that
is the answer is taken, and the entry is found under it. -/
theorem adds_addElement_of_lt {make : Id k → StateM Model (Entry k)} {Q : Id k → Model → Prop}
    (hk : k.level < n)
    (hmake : ∀ id, Adds k.level (make id) fun e m =>
      id.index < m.count k → m.entry id = e → Q id m) :
    Adds n (addElement k make) Q := by
  intro m
  obtain ⟨hgrows, hblocks, hQ⟩ := hmake ⟨m.count k⟩ m
  rw [run_addElement]
  generalize hrun : (make ⟨m.count k⟩).run m = r at hgrows hblocks hQ
  obtain ⟨e, later⟩ := r
  -- what has been added meanwhile lies at lower levels, so the number is still free
  have hcount : later.count k = m.count k := hgrows.count_eq (Nat.le_refl _)
  refine ⟨(hgrows.mono (Nat.le_of_lt hk)).trans (grows_push later e hk), ?_, fun final hfinal => ?_⟩
  · rw [blocks_push]
    exact hblocks
  · have hid : m.count k < (later.push k e).count k := by
      rw [count_push_self, hcount]
      exact Nat.lt_succ_self _
    refine hQ final ((isStartOf_push later e).trans hfinal) ?_ ?_
    · exact Nat.lt_of_lt_of_le hid (hfinal.count_le k)
    · rw [hfinal.entry_eq ⟨m.count k⟩ hid, ← hcount, entry_push_self]

theorem adds_addElement {make : Id k → StateM Model (Entry k)} {Q : Id k → Model → Prop}
    (hk : k.level < n)
    (hmake : ∀ id, Adds k.level (make id) fun e m => m.entry id = e → Q id m) :
    Adds n (addElement k make) Q :=
  adds_addElement_of_lt hk fun id => (hmake id).imp fun _ _ h _ => h

/-- An element gets the first number that is free. -/
theorem count_addElement {make : Id k → StateM Model (Entry k)}
    (hmake : ∀ id, ∃ P, Adds k.level (make id) P) (m : Model) :
    ((addElement k make).run m).2.count k = m.count k + 1 := by
  obtain ⟨P, hP⟩ := hmake ⟨m.count k⟩
  rw [run_addElement, count_push_self, (hP m).1.count_eq (Nat.le_refl _)]

end Adds

end Model

end Schemata

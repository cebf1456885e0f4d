import Schemata.Proofs.Types.Base
import Schemata.Session.Query

/-!
# What a session remembers

A cell comes to hold one value, whatever is read before it and whatever is being computed when it is
read: `Catalog.value`, which the catalog gives alone.  A memory is `Sound` if no resolved cell holds
anything else, and one memory `Settles` into another if cells that nobody had read have got their
values and nothing else has changed.

The computation of a cell reads only cells of lower layers (`Catalog.layer`), the base of a type
apart: that one reads the base of the base.  So `Reads n x a`, which says that `x` answers `a` where
no cell below layer `n` is being computed and settles nothing but such cells, goes through for one
computation after another and for a cell whose computation is known (`Reads.remember`).
-/

namespace Schemata

/-- What a session remembers. -/
abbrev Memory := Cells Slot Slot.Answer

/-- The cell has its value. -/
def CellState.isResolved {α : Type} : CellState α → Bool
  | .resolved _ => true
  | .unevaluated | .inProgress => false

@[simp]
theorem CellState.isResolved_resolved {α : Type} (v : α) :
    (CellState.resolved v).isResolved = true := rfl

/-- The cell is about the bindings of an annotation. -/
def Slot.isBindings : Slot → Bool
  | .bindings _ => true
  | _ => false

namespace Catalog

variable (c : Catalog)

/-- Whether an annotation uses a type as a term. -/
def appliesType (a : Declared .annot) : Bool :=
  match (c.annotated a).decl.content with
  | .value _ => false
  | .properties _ => true

/-- What a cell comes to hold. -/
def value : (s : Slot) → s.Answer
  | .base t => c.baseHandle? t
  | .key t => c.keyHandles t
  | .propertyType p => c.propertyType p
  | .association n => c.navigationAssociationHandle n
  | .sides n => c.navigationSides n (c.navigationAssociation n)
  | .endType e => c.endTypeHandle e
  | .termType t => c.termType t
  | .extended k => c.extendedHandle? k
  | .entityType s => c.entityTypeHandle s
  | .setAssociation s => c.setAssociationHandle s
  | .setEnds s => (c.setEndDecls s).map (c.setEndHandle s)
  | .applied a => c.appliedHandle a
  | .bindings a => c.bindingHandles a
  | .references e => c.references e
  | .pathTarget e => c.pathTargetHandle e (c.pathSegments e)

/-- How high a cell lies: above all cells that its computation reads.  The term of a value
annotation lies above all others, since no computation reads it. -/
def layer : Slot → Nat
  | .base _ | .propertyType _ | .association _ | .endType _ | .termType _ | .extended _
  | .entityType _ | .setAssociation _ => 0
  | .key _ | .sides _ | .setEnds _ | .bindings _ | .references _ => 1
  | .pathTarget _ => 2
  | .applied a => if c.appliesType a then 0 else 3

theorem layer_lt (s : Slot) : c.layer s < 4 := by
  unfold layer
  split <;> first | omega | (split <;> omega)

/-- Resolved cells hold their values, and what a type annotation applies is found before the
properties it binds are. -/
structure Sound (cells : Memory) : Prop where
  value_of_resolved : ∀ {s v}, cells s = .resolved v → v = c.value s
  applied_of_bindings : ∀ {a}, c.appliesType a = true →
    (cells (.bindings a)).isResolved = true → (cells (.applied a)).isResolved = true

/-- No cell below a layer is being computed. -/
def Quiet (n : Nat) (cells : Memory) : Prop := ∀ s, c.layer s < n → cells s ≠ .inProgress

/-- Some cells below a layer that nobody had read have got their values, and no other cell has
changed. -/
def Settles (n : Nat) (before later : Memory) : Prop :=
  ∀ s, later s = before s ∨
    c.layer s < n ∧ before s = .unevaluated ∧ later s = .resolved (c.value s)

variable {c}

/-! ### Settling -/

theorem Settles.refl (n : Nat) (cells : Memory) : c.Settles n cells cells := fun _ => .inl rfl

theorem Settles.trans {n : Nat} {cells₁ cells₂ cells₃ : Memory} (h₁ : c.Settles n cells₁ cells₂)
    (h₂ : c.Settles n cells₂ cells₃) : c.Settles n cells₁ cells₃ := by
  intro s
  rcases h₂ s with h | ⟨hn, hu, hr⟩
  · rw [h]
    exact h₁ s
  · rcases h₁ s with h | ⟨-, -, hr'⟩
    · exact .inr ⟨hn, h ▸ hu, hr⟩
    · rw [hr'] at hu
      exact absurd hu (by simp)

theorem Settles.mono {m n : Nat} (hmn : m ≤ n) {before later : Memory}
    (h : c.Settles m before later) : c.Settles n before later := by
  intro s
  rcases h s with h | ⟨hm, h⟩
  · exact .inl h
  · exact .inr ⟨by omega, h⟩

theorem Settles.isResolved {n : Nat} {before later : Memory} (h : c.Settles n before later)
    {s : Slot} (hs : (before s).isResolved = true) : (later s).isResolved = true := by
  rcases h s with h | ⟨-, -, h⟩
  · rwa [h]
  · rw [h, CellState.isResolved_resolved]

theorem Settles.quiet {m n : Nat} {before later : Memory} (h : c.Settles n before later)
    (hq : c.Quiet m before) : c.Quiet m later := by
  intro s hs
  rcases h s with h | ⟨-, -, h⟩
  · rw [h]
    exact hq s hs
  · simp [h]

/-! ### Soundness -/

/-- A cell that has a value has its value. -/
theorem Sound.eq_resolved {cells : Memory} (h : c.Sound cells) {s : Slot}
    (hs : (cells s).isResolved = true) : cells s = .resolved (c.value s) := by
  cases hv : cells s with
  | resolved v => rw [h.value_of_resolved hv]
  | unevaluated | inProgress =>
    rw [hv] at hs
    exact absurd hs Bool.false_ne_true

/-- A cell that nobody has read may be put in progress. -/
theorem Sound.set_inProgress {cells : Memory} (h : c.Sound cells) {s : Slot}
    (hs : cells s = .unevaluated) : c.Sound (cells.set s .inProgress) := by
  constructor
  · intro s' v hv
    by_cases he : s = s'
    · subst he
      rw [Cells.set_self] at hv
      exact absurd hv (by simp)
    · rw [Cells.set_of_ne _ _ he] at hv
      exact h.value_of_resolved hv
  · intro a ha hb
    by_cases he : s = .bindings a
    · rw [he, Cells.set_self] at hb
      exact absurd hb Bool.false_ne_true
    · rw [Cells.set_of_ne _ _ he] at hb
      have happlied := h.applied_of_bindings ha hb
      by_cases he' : s = .applied a
      · rw [← he', hs] at happlied
        exact absurd happlied Bool.false_ne_true
      · rwa [Cells.set_of_ne _ _ he']

theorem Quiet.set_inProgress {cells : Memory} {s : Slot} (h : c.Quiet (c.layer s) cells) :
    c.Quiet (c.layer s) (cells.set s .inProgress) := by
  intro s' hs'
  rw [Cells.set_of_ne _ _ (by rintro rfl; exact Nat.lt_irrefl _ hs')]
  exact h s' hs'

/-- A cell may get its value; the bindings of a type annotation get theirs last. -/
theorem Sound.set_resolved {cells : Memory} (h : c.Sound cells) {s : Slot}
    (hlast : ∀ a, s = .bindings a → c.appliesType a = true →
      (cells (.applied a)).isResolved = true) :
    c.Sound (cells.set s (.resolved (c.value s))) := by
  constructor
  · intro s' v hv
    by_cases he : s = s'
    · subst he
      rw [Cells.set_self, CellState.resolved.injEq] at hv
      exact hv.symm
    · rw [Cells.set_of_ne _ _ he] at hv
      exact h.value_of_resolved hv
  · intro a ha hb
    by_cases he' : s = .applied a
    · rw [he', Cells.set_self, CellState.isResolved_resolved]
    · rw [Cells.set_of_ne _ _ he']
      by_cases he : s = .bindings a
      · exact hlast a he ha
      · rw [Cells.set_of_ne _ _ he] at hb
        exact h.applied_of_bindings ha hb

theorem sound_fresh : c.Sound Cells.fresh :=
  ⟨fun h => absurd h (by simp [Cells.fresh]), fun _ h => absurd h (by simp [Cells.fresh,
    CellState.isResolved])⟩

theorem quiet_fresh (n : Nat) : c.Quiet n Cells.fresh := by
  intro s _
  simp [Cells.fresh]

end Catalog

end Schemata

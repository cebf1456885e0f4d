/-!
# Cells that are computed once

A cell holds a value that is computed on the first read and kept for ever.  While the computation
runs the cell is in progress, and a read of it from within gets a value for the cycle instead, which
is not kept.

A family of cells is a store `Cells ι α`, one cell for each index.  `Cells.getOrCompute` is the
reading of a cell, in any monad with such a store; the computation it is given may itself read any
cell of the family.
-/

namespace Schemata

/-- How far a cell has come. -/
inductive CellState (α : Type) where
  | unevaluated
  | inProgress
  | resolved (value : α)
deriving DecidableEq, Repr

namespace CellState

variable {α : Type}

/-- The value, once there is one. -/
def value? : CellState α → Option α
  | resolved v => some v
  | _ => none

/-- The word for the state. -/
def name : CellState α → String
  | unevaluated => "Unevaluated"
  | inProgress => "InProgress"
  | resolved _ => "Resolved"

/-- The cell for people to read. -/
def display (displayValue : α → String) : CellState α → String
  | unevaluated => "ResolutionCell(<unevaluated>)"
  | inProgress => "ResolutionCell(<in progress>)"
  | resolved v => "ResolutionCell(" ++ displayValue v ++ ")"

end CellState

/-- One cell for each index. -/
def Cells (ι : Type) (α : ι → Type) : Type := (i : ι) → CellState (α i)

namespace Cells

variable {ι : Type} {α : ι → Type}

/-- No cell has been read. -/
def fresh : Cells ι α := fun _ => .unevaluated

variable [DecidableEq ι]

/-- The store with one cell changed. -/
def set (cells : Cells ι α) (i : ι) (s : CellState (α i)) : Cells ι α :=
  fun j => if h : i = j then h ▸ s else cells j

@[simp]
theorem set_self (cells : Cells ι α) (i : ι) (s : CellState (α i)) : cells.set i s i = s := by
  simp [set]

theorem set_of_ne (cells : Cells ι α) {i j : ι} (s : CellState (α i)) (h : i ≠ j) :
    cells.set i s j = cells j := by
  simp [set, h]

/-- Reads a cell.  A resolved cell gives its value.  One in progress gives the value for the cycle
and stays as it is.  Any other is put in progress, computed and resolved. -/
def getOrCompute {m : Type → Type} [Monad m] [MonadStateOf (Cells ι α) m] (i : ι)
    (compute : m (α i)) (onCycle : α i) : m (α i) := do
  let cells ← getThe (Cells ι α)
  match cells i with
  | .resolved v => pure v
  | .inProgress => pure onCycle
  | .unevaluated =>
    modifyThe (Cells ι α) (·.set i .inProgress)
    let v ← compute
    modifyThe (Cells ι α) (·.set i (.resolved v))
    pure v

end Cells

end Schemata

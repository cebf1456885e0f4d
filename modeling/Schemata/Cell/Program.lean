import Schemata.Cell

/-!
# Programs that read cells

A `Cells.Program` reads cells of a family one after another.  Which cell it reads next may depend on
all that has been answered before, and the computation that it gives with a read is such a program
too, so reads are made within one another to any depth.

`Program.run` runs a program and keeps a history.  At each moment at which a program is in control
the history says what has just happened, which computations are running and what the cells hold.
-/

namespace Schemata.Cells

variable {ι : Type}

/-- A program that reads cells and ends with a result. -/
inductive Program (α : ι → Type) : Type → Type 1 where
  | done {β : Type} (result : β) : Program α β
  /-- Looks whether a cell has a value. -/
  | get {β : Type} (i : ι) (next : Option (α i) → Program α β) : Program α β
  /-- Reads a cell, with what to compute if nobody has read it yet and the value for the cycle. -/
  | getOrCompute {β : Type} (i : ι) (compute : Program α (α i)) (onCycle : α i)
    (next : α i → Program α β) : Program α β

/-- What happens in a run. -/
inductive Event (α : ι → Type) where
  /-- It was looked whether a cell has a value. -/
  | got (i : ι) (answer : Option (α i))
  /-- The computation of a cell has begun. -/
  | entered (i : ι)
  /-- The computation of a cell has come to its value. -/
  | returned (i : ι) (value : α i)
  /-- A cell has been read.  Before that the cells were as in `before`. -/
  | answered (i : ι) (onCycle value : α i) (before : Cells ι α)

/-- A moment in a run, right after something has happened. -/
structure Moment (α : ι → Type) where
  event : Event α
  /-- The cells whose computations are running, the innermost first. -/
  chain : List ι
  cells : Cells ι α

/-- A run changes the cells and adds to its history. -/
abbrev Run (α : ι → Type) := StateT (Cells ι α) (StateM (List (Moment α)))

/-- Adds a moment to the history. -/
def record {α : ι → Type} (chain : List ι) (event : Event α) : Run α Unit := do
  let cells ← getThe (Cells ι α)
  modifyThe (List (Moment α)) (· ++ [⟨event, chain, cells⟩])

namespace Program

variable [DecidableEq ι] {α : ι → Type}

/-- Runs a program while the computations of a chain of cells are running. -/
def run {β : Type} (chain : List ι) : Program α β → Run α β
  | done result => pure result
  | get i next => do
    let cells ← getThe (Cells ι α)
    record chain (.got i (cells i).value?)
    (next (cells i).value?).run chain
  | getOrCompute i compute onCycle next => do
    let before ← getThe (Cells ι α)
    let value ← Cells.getOrCompute i
      (do record (i :: chain) (.entered i)
          let value ← compute.run (i :: chain)
          record (i :: chain) (.returned i value)
          pure value)
      onCycle
    record chain (.answered i onCycle value before)
    (next value).run chain

/-- The history of a program on cells that have not been read. -/
def history {β : Type} (p : Program α β) : List (Moment α) :=
  ((p.run []).run Cells.fresh |>.run []).2

/-- What the cells hold when the program has come to its end. -/
def cellsAfter {β : Type} (p : Program α β) : Cells ι α :=
  ((p.run []).run Cells.fresh |>.run []).1.2

end Program

end Schemata.Cells

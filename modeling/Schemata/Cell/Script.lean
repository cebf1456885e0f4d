import Schemata.Cell

/-!
# Scripts of cell reads

A `Step` reads one of a family of numbered cells, either without computing it or with a
computation that itself runs steps.  `Step.run` runs a step and keeps a trace: which computation
is entered, what each read answered and how far the cell had come by then.
-/

namespace Schemata.Script

/-- A family of numbered cells that hold 64-bit numbers. -/
abbrev Store := Cells Nat fun _ => Int64

/-- A read of a cell. -/
inductive Step where
  /-- Looks whether the cell has a value. -/
  | get (cell : Nat)
  /-- Reads the cell; a first read runs the inner steps and adds what they answer to `value`. -/
  | getOrCompute (cell : Nat) (value onCycle : Int64) (inner : List Step)

/-- What happens in a run. -/
inductive Event where
  /-- A computation has begun. -/
  | enter (cell : Nat) (state : CellState Int64)
  /-- A read has been answered. -/
  | answer (cell : Nat) (value : Option Int64) (state : CellState Int64)

/-- A run changes the store and leaves a trace. -/
abbrev Run := StateT Store (StateM (List Event))

/-- Adds an event to the trace, together with the state of its cell. -/
def record (event : CellState Int64 → Event) (cell : Nat) : Run Unit := do
  let store ← getThe Store
  modifyThe (List Event) (· ++ [event (store cell)])

mutual

/-- Runs one step.  A computing read gives what it answered, any other gives zero. -/
def Step.run : Step → Run Int64
  | .get cell => do
    let store ← getThe Store
    record (.answer cell (store cell).value?) cell
    pure 0
  | .getOrCompute cell value onCycle inner => do
    let result ← Cells.getOrCompute (α := fun _ => Int64) cell
      (do record (.enter cell) cell
          let total ← Step.runAll inner
          pure (value + total))
      onCycle
    record (.answer cell (some result)) cell
    pure result

/-- Runs the steps one after another and gives the sum of what they give. -/
def Step.runAll : List Step → Run Int64
  | [] => pure 0
  | s :: steps => do
    let first ← s.run
    let rest ← Step.runAll steps
    pure (first + rest)

end

/-- The trace of a script on cells that have not been read. -/
def trace (steps : List Step) : List Event :=
  ((Step.runAll steps).run Cells.fresh |>.run []).2

end Schemata.Script

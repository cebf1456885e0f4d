import Schemata.Cell.Script
import Schemata.Proofs.Cell

/-!
# Scripts are programs

A `Script.Step` reads cells in an order that is written down.  It is a program that does not look at
the answers but for adding them up (`Step.program`), and the trace of a script is what can be seen
of the history of that program (`trace_eq_filterMap_history`).  So what holds of the histories of
all programs holds of the traces of scripts.
-/

namespace Schemata.Script

open Cells

/-- Programs that read numbered cells. -/
abbrev NumberProgram (β : Type) := Program (fun _ : Nat => Int64) β

mutual

/-- Runs a step and goes on with what the step gives. -/
def Step.program {β : Type} (s : Step) (next : Int64 → NumberProgram β) : NumberProgram β :=
  match s with
  | .get cell => .get cell fun _ => next 0
  | .getOrCompute cell value onCycle inner =>
    .getOrCompute cell (Step.programAll inner fun total => .done (value + total)) onCycle next

/-- Runs the steps one after another and goes on with the sum of what they give. -/
def Step.programAll {β : Type} (steps : List Step) (next : Int64 → NumberProgram β) :
    NumberProgram β :=
  match steps with
  | [] => next 0
  | s :: steps => s.program fun first => Step.programAll steps fun rest => next (first + rest)

end

/-- What the trace of a script shows of a moment: all but the end of a computation, with the state
of the one cell that the event is about. -/
def Event.ofMoment? (m : Moment fun _ : Nat => Int64) : Option Event :=
  match m.event with
  | .got i value => some (.answer i value (m.cells i))
  | .entered i => some (.enter i (m.cells i))
  | .returned .. => none
  | .answered i _ value _ => some (.answer i (some value) (m.cells i))

/-- A program does what a step does and goes on with what the step gives. -/
def Simulates {β : Type} (step : Run Int64) (p : NumberProgram β)
    (next : Int64 → NumberProgram β) : Prop :=
  ∀ chain cells past, ∃ a later history,
    ((p.run chain).run cells).run past = (((next a).run chain).run later).run history ∧
      (step.run cells).run (past.filterMap Event.ofMoment?) =
        ((a, later), history.filterMap Event.ofMoment?)

mutual

theorem simulates {β : Type} (s : Step) (next : Int64 → NumberProgram β) :
    Simulates s.run (s.program next) next := by
  intro chain cells past
  match s with
  | .get cell =>
    refine ⟨0, cells, past ++ [⟨.got cell (cells cell).value?, chain, cells⟩], ?_, ?_⟩
    · rw [Step.program, Program.run, run_bind rfl, run_bind rfl]
    · rw [Step.run, run_bind rfl, run_bind rfl, List.filterMap_append]
      rfl
  | .getOrCompute cell value onCycle inner =>
    rw [Step.program, Step.run]
    cases h : cells cell with
    | resolved v =>
      refine ⟨v, cells, _, run_of_resolved h, ?_⟩
      rw [run_bind (run_getOrCompute_of_resolved _ onCycle h), run_bind rfl,
        List.filterMap_append]
      rfl
    | inProgress =>
      refine ⟨onCycle, cells, _, run_of_inProgress h, ?_⟩
      rw [run_bind (run_getOrCompute_of_inProgress _ onCycle h), run_bind rfl,
        List.filterMap_append]
      rfl
    | unevaluated =>
      obtain ⟨total, later, history, hprogram, hstep⟩ :=
        simulatesAll inner (fun total => Program.done (value + total)) (cell :: chain)
          (cells.set cell .inProgress)
          (past ++ [⟨.entered cell, cell :: chain, cells.set cell .inProgress⟩])
      refine ⟨value + total, _, _, run_of_unevaluated h hprogram, ?_⟩
      rw [List.filterMap_append] at hstep
      have hcomputed : ((do
          record (.enter cell) cell
          let total ← Step.runAll inner
          pure (value + total) : Run Int64).run (cells.set cell .inProgress)).run
          (past.filterMap Event.ofMoment?) =
          ((value + total, later), history.filterMap Event.ofMoment?) := by
        rw [run_bind rfl]
        exact run_bind hstep _
      have hreturned : Event.ofMoment?
          ⟨.returned cell (value + total), cell :: chain, later⟩ = none := rfl
      rw [run_bind (run_getOrCompute_of_unevaluated onCycle h hcomputed), run_bind rfl,
        List.filterMap_append, List.filterMap_append, List.filterMap_cons_none hreturned,
        List.filterMap_nil, List.append_nil]
      rfl

theorem simulatesAll {β : Type} (steps : List Step) (next : Int64 → NumberProgram β) :
    Simulates (Step.runAll steps) (Step.programAll steps next) next := by
  intro chain cells past
  match steps with
  | [] => exact ⟨0, cells, past, rfl, rfl⟩
  | s :: steps =>
    obtain ⟨first, cells₁, past₁, hprogram, hstep⟩ :=
      simulates s (fun first => Step.programAll steps fun rest => next (first + rest)) chain cells
        past
    obtain ⟨rest, later, history, hprograms, hsteps⟩ :=
      simulatesAll steps (fun rest => next (first + rest)) chain cells₁ past₁
    refine ⟨first + rest, later, history, ?_, ?_⟩
    · rw [Step.programAll, hprogram, hprograms]
    · rw [Step.runAll, run_bind hstep, run_bind hsteps]
      rfl

end

/-- **The trace of a script is the history of its program,** as far as traces show it. -/
theorem trace_eq_filterMap_history (steps : List Step) :
    trace steps = (Step.programAll steps .done).history.filterMap Event.ofMoment? := by
  obtain ⟨total, later, history, hprogram, hstep⟩ :=
    simulatesAll steps Program.done [] Cells.fresh []
  have htrace : trace steps = history.filterMap Event.ofMoment? := congrArg Prod.snd hstep
  have hhistory : (Step.programAll steps .done).history = history := congrArg Prod.snd hprogram
  rw [htrace, hhistory]

end Schemata.Script

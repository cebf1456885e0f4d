import Mathlib.Data.List.Nodup
import Schemata.Cell.Program

/-!
# Cells are computed once

A run of a program on a family of cells goes through few kinds of steps (`Cells.Reached`): an answer
that changes no cell, the beginning of a computation and its end.  That a run takes no others is
`Cells.exists_reached_run`; all the rest is said of those steps.

`Cells.Program.computesOnce` puts it together: at every moment the cells in progress are those whose
computations are running, a read from within its own computation gets the value for the cycle and
changes nothing, no cell is computed twice, and each keeps the value that its computation came to.
-/

namespace Schemata.Cells

variable {ι : Type} {α : ι → Type} {chain : List ι} {cells later : Cells ι α}
  {past history : List (Moment α)} {i : ι} {v onCycle : α i}

/-! ### Running -/

section run

variable {β γ τ : Type} {a : γ} {log log' : τ}

theorem run_bind {x : StateT (Cells ι α) (StateM τ) γ}
    (h : (x.run cells).run log = ((a, later), log')) (f : γ → StateT (Cells ι α) (StateM τ) β) :
    ((x >>= f).run cells).run log = ((f a).run later).run log' := by
  have hbind : ((x >>= f).run cells).run log =
      ((f ((x.run cells).run log).1.1).run ((x.run cells).run log).1.2).run
        ((x.run cells).run log).2 := rfl
  rw [hbind, h]

variable [DecidableEq ι]

theorem run_getOrCompute_of_resolved (compute : StateT (Cells ι α) (StateM τ) (α i))
    (onCycle : α i) (h : cells i = .resolved v) :
    ((getOrCompute i compute onCycle).run cells).run log = ((v, cells), log) := by
  rw [getOrCompute, run_bind rfl, h]
  rfl

theorem run_getOrCompute_of_inProgress (compute : StateT (Cells ι α) (StateM τ) (α i))
    (onCycle : α i) (h : cells i = .inProgress) :
    ((getOrCompute i compute onCycle).run cells).run log = ((onCycle, cells), log) := by
  rw [getOrCompute, run_bind rfl, h]
  rfl

theorem run_getOrCompute_of_unevaluated {compute : StateT (Cells ι α) (StateM τ) (α i)}
    (onCycle : α i) (h : cells i = .unevaluated)
    (hcompute : (compute.run (cells.set i .inProgress)).run log = ((v, later), log')) :
    ((getOrCompute i compute onCycle).run cells).run log =
      ((v, later.set i (.resolved v)), log') := by
  rw [getOrCompute, run_bind rfl, h]
  dsimp only
  rw [run_bind rfl, run_bind hcompute]
  rfl

variable {next : α i → Program α β}

theorem run_of_resolved {compute : Program α (α i)} (h : cells i = .resolved v) :
    (((Program.getOrCompute i compute onCycle next).run chain).run cells).run past =
      (((next v).run chain).run cells).run
        (past ++ [⟨.answered i onCycle v cells, chain, cells⟩]) := by
  rw [Program.run, run_bind rfl, run_bind (run_getOrCompute_of_resolved _ onCycle h), run_bind rfl]

theorem run_of_inProgress {compute : Program α (α i)} (h : cells i = .inProgress) :
    (((Program.getOrCompute i compute onCycle next).run chain).run cells).run past =
      (((next onCycle).run chain).run cells).run
        (past ++ [⟨.answered i onCycle onCycle cells, chain, cells⟩]) := by
  rw [Program.run, run_bind rfl, run_bind (run_getOrCompute_of_inProgress _ onCycle h),
    run_bind rfl]

theorem run_of_unevaluated {compute : Program α (α i)} (h : cells i = .unevaluated)
    (hcompute : ((compute.run (i :: chain)).run (cells.set i .inProgress)).run
      (past ++ [⟨.entered i, i :: chain, cells.set i .inProgress⟩]) = ((v, later), history)) :
    (((Program.getOrCompute i compute onCycle next).run chain).run cells).run past =
      (((next v).run chain).run (later.set i (.resolved v))).run
        (history ++ [⟨.returned i v, i :: chain, later⟩] ++
          [⟨.answered i onCycle v cells, chain, later.set i (.resolved v)⟩]) := by
  have hcomputed : ((do
      record (i :: chain) (.entered i)
      let value ← compute.run (i :: chain)
      record (i :: chain) (.returned i value)
      pure value : Run α (α i)).run (cells.set i .inProgress)).run past =
      ((v, later), history ++ [⟨.returned i v, i :: chain, later⟩]) := by
    rw [run_bind rfl, run_bind hcompute]
    rfl
  rw [Program.run, run_bind rfl,
    run_bind (run_getOrCompute_of_unevaluated onCycle h hcomputed), run_bind rfl]

end run

/-! ### The steps of a run -/

/-- An answer that is given without a computation, and by what the cells hold. -/
inductive IsLook (cells : Cells ι α) : Event α → Prop
  | got (i : ι) : IsLook cells (.got i (cells i).value?)
  | cached {i : ι} {v : α i} (h : cells i = .resolved v) (onCycle : α i) :
    IsLook cells (.answered i onCycle v cells)
  | cycle {i : ι} (h : cells i = .inProgress) (onCycle : α i) :
    IsLook cells (.answered i onCycle onCycle cells)

theorem IsLook.ne_entered {event : Event α} (hlook : IsLook cells event) (i : ι) :
    event ≠ .entered i := by
  rintro rfl
  cases hlook

theorem IsLook.ne_returned {event : Event α} (hlook : IsLook cells event) (i : ι) (v : α i) :
    event ≠ .returned i v := by
  rintro rfl
  cases hlook

variable [DecidableEq ι]

/-- What a run can come to: the running computations, the cells and the history. -/
inductive Reached : List ι → Cells ι α → List (Moment α) → Prop
  | start : Reached [] fresh []
  /-- An answer without a computation. -/
  | look {chain : List ι} {cells : Cells ι α} {past : List (Moment α)} {event : Event α}
    (h : Reached chain cells past) (hlook : IsLook cells event) :
    Reached chain cells (past ++ [⟨event, chain, cells⟩])
  /-- The computation of a cell that nobody has read begins. -/
  | enter {chain : List ι} {cells : Cells ι α} {past : List (Moment α)} {i : ι}
    (h : Reached chain cells past) (hi : cells i = .unevaluated) :
    Reached (i :: chain) (cells.set i .inProgress)
      (past ++ [⟨.entered i, i :: chain, cells.set i .inProgress⟩])
  /-- The innermost computation comes to its value, and the read that began it is answered. -/
  | leave {chain : List ι} {cells before : Cells ι α} {past : List (Moment α)} {i : ι}
    (h : Reached (i :: chain) cells past) (hbefore : before i = .unevaluated)
    (onCycle value : α i) :
    Reached chain (cells.set i (.resolved value))
      (past ++ [⟨.returned i value, i :: chain, cells⟩] ++
        [⟨.answered i onCycle value before, chain, cells.set i (.resolved value)⟩])

/-- **A run takes no other steps**, and it comes back to the computations that were running. -/
theorem exists_reached_run {β : Type} (p : Program α β) (h : Reached chain cells past) :
    ∃ result later history, ((p.run chain).run cells).run past = ((result, later), history) ∧
      Reached chain later history := by
  induction p generalizing chain cells past with
  | done result => exact ⟨result, cells, past, rfl, h⟩
  | get i next ih => exact ih _ (h.look (.got i))
  | getOrCompute i compute onCycle next ihCompute ihNext =>
    cases hi : cells i with
    | resolved v =>
      rw [run_of_resolved hi]
      exact ihNext v (h.look (.cached hi onCycle))
    | inProgress =>
      rw [run_of_inProgress hi]
      exact ihNext onCycle (h.look (.cycle hi onCycle))
    | unevaluated =>
      obtain ⟨v, later, history, hrun, hreached⟩ := ihCompute (h.enter hi)
      rw [run_of_unevaluated hi hrun]
      exact ihNext v (hreached.leave hi onCycle v)

/-! ### The chain of computations -/

namespace Reached

/-- **The cells in progress are those on the chain,** and each is on it once. -/
theorem nodup_and_inProgress_iff (h : Reached chain cells past) :
    chain.Nodup ∧ ∀ i, cells i = .inProgress ↔ i ∈ chain := by
  induction h with
  | start => simp [fresh]
  | look _ _ ih => exact ih
  | @enter chain cells past i _ hi ih =>
    obtain ⟨hnodup, hiff⟩ := ih
    have hnew : i ∉ chain := by
      rw [← hiff, hi]
      simp
    refine ⟨List.nodup_cons.2 ⟨hnew, hnodup⟩, fun j => ?_⟩
    by_cases hij : i = j
    · subst hij
      simp
    · rw [set_of_ne _ _ hij, hiff, List.mem_cons, or_iff_right (Ne.symm hij)]
  | @leave chain cells before past i _ _ onCycle value ih =>
    obtain ⟨hnodup, hiff⟩ := ih
    obtain ⟨hout, hrest⟩ := List.nodup_cons.1 hnodup
    refine ⟨hrest, fun j => ?_⟩
    by_cases hij : i = j
    · subst hij
      simp [hout]
    · rw [set_of_ne _ _ hij, hiff, List.mem_cons, or_iff_right (Ne.symm hij)]

theorem inProgress_iff (h : Reached chain cells past) (i : ι) :
    cells i = .inProgress ↔ i ∈ chain := h.nodup_and_inProgress_iff.2 i

end Reached

/-! ### Each moment by itself -/

/-- How the read of a cell is answered, where the cells were as in `before` when it was made. -/
structure IsAnswer (chain : List ι) (cells : Cells ι α) (i : ι) (onCycle value : α i)
    (before : Cells ι α) : Prop where
  /-- The cell was in progress if and only if the read was made from within its computation. -/
  inProgress_iff : before i = .inProgress ↔ i ∈ chain
  /-- From within the computation the value for the cycle is answered, and no cell changes. -/
  cycle : i ∈ chain → value = onCycle ∧ cells = before
  /-- Otherwise the cell has the value that is answered, … -/
  value : i ∉ chain → cells i = .resolved value
  /-- … and nothing would have been different with another value for the cycle. -/
  unused : i ∉ chain → ∀ (compute : Run α (α i)) (other : α i) (past : List (Moment α)),
    ((getOrCompute i compute other).run before).run past =
      ((getOrCompute i compute onCycle).run before).run past

/-- What is said of a moment without regard to the others. -/
structure Moment.IsRight (m : Moment α) : Prop where
  inProgress_iff : ∀ i, m.cells i = .inProgress ↔ i ∈ m.chain
  got : ∀ i answer, m.event = .got i answer → answer = (m.cells i).value?
  answered : ∀ i onCycle value before, m.event = .answered i onCycle value before →
    IsAnswer m.chain m.cells i onCycle value before

/-- The value for the cycle plays no part in reads of other cells. -/
theorem run_getOrCompute_eq (h : cells i ≠ .inProgress) (compute : Run α (α i))
    (onCycle other : α i) (past : List (Moment α)) :
    ((getOrCompute i compute other).run cells).run past =
      ((getOrCompute i compute onCycle).run cells).run past := by
  cases hi : cells i with
  | inProgress => exact absurd hi h
  | resolved v =>
    rw [run_getOrCompute_of_resolved compute other hi,
      run_getOrCompute_of_resolved compute onCycle hi]
  | unevaluated =>
    rw [run_getOrCompute_of_unevaluated other hi rfl,
      run_getOrCompute_of_unevaluated onCycle hi rfl]

theorem isAnswer_of_notMem {before : Cells ι α} (hbefore : before i ≠ .inProgress)
    (hi : i ∉ chain) (hv : cells i = .resolved v) (onCycle : α i) :
    IsAnswer chain cells i onCycle v before where
  inProgress_iff := iff_of_false hbefore hi
  cycle hmem := absurd hmem hi
  value _ := hv
  unused _ compute other past := run_getOrCompute_eq hbefore compute onCycle other past

theorem IsLook.isRight {event : Event α} (hlook : IsLook cells event)
    (hiff : ∀ i, cells i = .inProgress ↔ i ∈ chain) :
    Moment.IsRight ⟨event, chain, cells⟩ where
  inProgress_iff := hiff
  got i answer he := by
    cases hlook <;> cases he
    rfl
  answered i onCycle value before he := by
    cases hlook with
    | got => cases he
    | cached h =>
      cases he
      have hne : cells i ≠ .inProgress := by simp [h]
      exact isAnswer_of_notMem hne (mt (hiff i).2 hne) h onCycle
    | cycle h =>
      cases he
      have hi : i ∈ chain := (hiff i).1 h
      exact ⟨hiff i, fun _ => ⟨rfl, rfl⟩, fun hout => absurd hi hout, fun hout => absurd hi hout⟩

namespace Reached

theorem forall_isRight (h : Reached chain cells past) : ∀ m ∈ past, m.IsRight := by
  induction h with
  | start => exact fun m hm => absurd hm List.not_mem_nil
  | look h hlook ih =>
    intro m hm
    rcases List.mem_append.1 hm with hm | hm
    · exact ih m hm
    · rw [List.mem_singleton.1 hm]
      exact hlook.isRight h.inProgress_iff
  | enter h hi ih =>
    intro m hm
    rcases List.mem_append.1 hm with hm | hm
    · exact ih m hm
    · rw [List.mem_singleton.1 hm]
      exact ⟨(h.enter hi).inProgress_iff, nofun, nofun⟩
  | @leave chain cells before past i h hbefore onCycle value ih =>
    intro m hm
    have hiff := (h.leave hbefore onCycle value).inProgress_iff
    rw [List.mem_append, List.mem_append, List.mem_singleton, List.mem_singleton] at hm
    rcases hm with (hm | rfl) | rfl
    · exact ih m hm
    · exact ⟨h.inProgress_iff, nofun, nofun⟩
    · refine ⟨hiff, nofun, ?_⟩
      rintro j other v before' he
      cases he
      have hout : i ∉ chain := (List.nodup_cons.1 h.nodup_and_inProgress_iff.1).1
      exact isAnswer_of_notMem (by simp [hbefore]) hout (set_self _ _ _) onCycle

end Reached

/-! ### One moment after another -/

/-- A cell that has its value keeps it, and one that has been read stays read. -/
structure Advances (before later : Cells ι α) : Prop where
  kept : ∀ i v, before i = .resolved v → later i = .resolved v
  read : ∀ i, before i ≠ .unevaluated → later i ≠ .unevaluated

theorem advances_set {state : CellState (α i)} (hkept : ∀ v, cells i ≠ .resolved v)
    (hread : state ≠ .unevaluated) : Advances cells (cells.set i state) := by
  constructor
  · intro j v hj
    by_cases hij : i = j
    · subst hij
      exact absurd hj (hkept v)
    · rwa [set_of_ne _ _ hij]
  · intro j hj
    by_cases hij : i = j
    · subst hij
      rwa [set_self]
    · rwa [set_of_ne _ _ hij]

/-- What a moment leaves behind in the cells. -/
structure Moment.IsBehind (m : Moment α) (cells : Cells ι α) : Prop where
  kept : ∀ i v, m.cells i = .resolved v → cells i = .resolved v
  entered : ∀ i, m.event = .entered i → cells i ≠ .unevaluated
  returned : ∀ i v, m.event = .returned i v → cells i = .resolved v

omit [DecidableEq ι] in
theorem Moment.IsBehind.mono {m : Moment α} (h : m.IsBehind cells) (hle : Advances cells later) :
    m.IsBehind later where
  kept i v hv := hle.kept i v (h.kept i v hv)
  entered i he := hle.read i (h.entered i he)
  returned i v he := hle.kept i v (h.returned i v he)

/-- What is said of two moments, one before the other. -/
structure Moment.Precedes (m m' : Moment α) : Prop where
  /-- A cell keeps its value. -/
  kept : ∀ i v, m.cells i = .resolved v → m'.cells i = .resolved v
  /-- No computation begins twice, … -/
  entered : ∀ i, m.event = .entered i → m'.event ≠ .entered i
  /-- … and none comes to a value twice. -/
  returned : ∀ i v w, m.event = .returned i v → m'.event ≠ .returned i w

namespace Reached

theorem advances_enter (hi : cells i = .unevaluated) :
    Advances cells (cells.set i .inProgress) :=
  advances_set (by simp [hi]) (by simp)

/-- The end of a computation changes a cell that is in progress. -/
theorem advances_leave (h : Reached (i :: chain) cells past) (v : α i) :
    Advances cells (cells.set i (.resolved v)) := by
  have hi : cells i = .inProgress := (h.inProgress_iff i).2 List.mem_cons_self
  exact advances_set (by simp [hi]) (by simp)

theorem forall_isBehind (h : Reached chain cells past) : ∀ m ∈ past, m.IsBehind cells := by
  induction h with
  | start => exact fun m hm => absurd hm List.not_mem_nil
  | look h hlook ih =>
    intro m hm
    rcases List.mem_append.1 hm with hm | hm
    · exact ih m hm
    · rw [List.mem_singleton.1 hm]
      refine ⟨fun _ _ hv => hv, ?_, ?_⟩
      · intro i he
        exact absurd he (hlook.ne_entered i)
      · intro i v he
        exact absurd he (hlook.ne_returned i v)
  | @enter chain cells past i h hi ih =>
    intro m hm
    rcases List.mem_append.1 hm with hm | hm
    · exact (ih m hm).mono (advances_enter hi)
    · rw [List.mem_singleton.1 hm]
      refine ⟨fun _ _ hv => hv, fun j he => ?_, nofun⟩
      cases he
      simp
  | @leave chain cells before past i h hbefore onCycle value ih =>
    intro m hm
    have hle := h.advances_leave value
    rw [List.mem_append, List.mem_append, List.mem_singleton, List.mem_singleton] at hm
    rcases hm with (hm | rfl) | rfl
    · exact (ih m hm).mono hle
    · refine ⟨hle.kept, nofun, fun j v he => ?_⟩
      cases he
      exact set_self _ _ _
    · exact ⟨fun _ _ hv => hv, nofun, nofun⟩

/-- **What has happened once does not happen again,** and values are kept. -/
theorem pairwise_precedes (h : Reached chain cells past) : past.Pairwise Moment.Precedes := by
  induction h with
  | start => exact .nil
  | @look chain cells past event h hlook ih =>
    refine List.pairwise_append.2 ⟨ih, List.pairwise_singleton _ _, ?_⟩
    intro m hm m' hm'
    rw [List.mem_singleton.1 hm']
    refine ⟨(h.forall_isBehind m hm).kept, ?_, ?_⟩
    · intro i _
      exact hlook.ne_entered i
    · intro i _ w _
      exact hlook.ne_returned i w
  | @enter chain cells past i h hi ih =>
    refine List.pairwise_append.2 ⟨ih, List.pairwise_singleton _ _, ?_⟩
    intro m hm m' hm'
    rw [List.mem_singleton.1 hm']
    have hm := h.forall_isBehind m hm
    refine ⟨(hm.mono (advances_enter hi)).kept, ?_, nofun⟩
    intro j hj he
    cases he
    -- whoever has begun the computation before has read the cell
    exact hm.entered i hj hi
  | @leave chain cells before past i h hbefore onCycle value ih =>
    have hle := h.advances_leave value
    have hi : cells i = .inProgress := (h.inProgress_iff i).2 List.mem_cons_self
    refine List.pairwise_append.2 ⟨List.pairwise_append.2
      ⟨ih, List.pairwise_singleton _ _, ?_⟩, List.pairwise_singleton _ _, ?_⟩
    · intro m hm m' hm'
      rw [List.mem_singleton.1 hm']
      have hm := h.forall_isBehind m hm
      refine ⟨hm.kept, nofun, ?_⟩
      intro j v w hj he
      cases he
      -- a computation that has come to its value before has left it in the cell
      have hresolved : cells i = .resolved v := hm.returned i v hj
      rw [hi] at hresolved
      cases hresolved
    · intro m hm m' hm'
      rw [List.mem_singleton.1 hm']
      have hkept : ∀ j v, m.cells j = .resolved v →
          cells.set i (.resolved value) j = .resolved v := by
        rcases List.mem_append.1 hm with hm | hm
        · exact ((h.forall_isBehind m hm).mono hle).kept
        · rw [List.mem_singleton.1 hm]
          exact hle.kept
      exact ⟨hkept, nofun, nofun⟩

/-- **A value comes from the computation of its cell.** -/
theorem exists_returned (h : Reached chain cells past) {i : ι} {v : α i}
    (hv : cells i = .resolved v) : ∃ m ∈ past, m.event = .returned i v := by
  induction h generalizing i with
  | start => cases hv
  | look _ _ ih =>
    obtain ⟨m, hm, he⟩ := ih hv
    exact ⟨m, List.mem_append_left _ hm, he⟩
  | @enter chain cells past j _ hj ih =>
    by_cases hij : j = i
    · subst hij
      rw [set_self] at hv
      cases hv
    · rw [set_of_ne _ _ hij] at hv
      obtain ⟨m, hm, he⟩ := ih hv
      exact ⟨m, List.mem_append_left _ hm, he⟩
  | @leave chain cells before past j _ _ onCycle value ih =>
    by_cases hij : j = i
    · subst hij
      rw [set_self] at hv
      cases hv
      exact ⟨_, List.mem_append_left _ (List.mem_append_right _ List.mem_cons_self), rfl⟩
    · rw [set_of_ne _ _ hij] at hv
      obtain ⟨m, hm, he⟩ := ih hv
      exact ⟨m, List.mem_append_left _ (List.mem_append_left _ hm), he⟩

omit [DecidableEq ι] in
/-- A moment of a history with one moment more is that moment, or it was there before. -/
theorem prefix_concat_cases {before : List (Moment α)} {m m' : Moment α}
    (hm : before ++ [m] <+: past ++ [m']) : before = past ∧ m = m' ∨ before ++ [m] <+: past := by
  rcases List.prefix_concat_iff.1 hm with heq | hm
  · exact .inl (List.append_singleton_inj.1 heq)
  · exact .inr hm

/-- At each moment the values of the cells come from what has happened before. -/
theorem exists_returned_of_prefix (h : Reached chain cells past) {before : List (Moment α)}
    {m : Moment α} (hm : before ++ [m] <+: past) {i : ι} {v : α i}
    (hv : m.cells i = .resolved v) : ∃ e ∈ before, e.event = .returned i v := by
  induction h generalizing i with
  | start => simp at hm
  | look h _ ih =>
    rcases prefix_concat_cases hm with ⟨rfl, rfl⟩ | hm
    · exact h.exists_returned hv
    · exact ih hm hv
  | enter h hj ih =>
    rcases prefix_concat_cases hm with ⟨rfl, rfl⟩ | hm
    · obtain ⟨e, he, hreturned⟩ := (h.enter hj).exists_returned hv
      rcases List.mem_append.1 he with he | he
      · exact ⟨e, he, hreturned⟩
      · rw [List.mem_singleton.1 he] at hreturned
        cases hreturned
    · exact ih hm hv
  | leave h hbefore onCycle value ih =>
    rcases prefix_concat_cases hm with ⟨rfl, rfl⟩ | hm
    · obtain ⟨e, he, hreturned⟩ := (h.leave hbefore onCycle value).exists_returned hv
      rcases List.mem_append.1 he with he | he
      · exact ⟨e, he, hreturned⟩
      · rw [List.mem_singleton.1 he] at hreturned
        cases hreturned
    · rcases prefix_concat_cases hm with ⟨rfl, rfl⟩ | hm
      · exact h.exists_returned hv
      · exact ih hm hv

end Reached

/-! ### Whole runs -/

/-- A cell that has its value gives it when it is looked at or read. -/
theorem Moment.IsRight.eq_of_resolved {m : Moment α} (hm : m.IsRight)
    (hv : m.cells i = .resolved v) :
    (∀ answer, m.event = .got i answer → answer = some v) ∧
      ∀ onCycle value before, m.event = .answered i onCycle value before → value = v := by
  constructor
  · intro answer he
    rw [hm.got i answer he, hv]
    rfl
  · intro onCycle value before he
    have hout : i ∉ m.chain := by
      rw [← hm.inProgress_iff, hv]
      simp
    have hvalue := (hm.answered i onCycle value before he).value hout
    rw [hv] at hvalue
    exact (CellState.resolved.inj hvalue).symm

/-- What holds of the history of a run that began with cells that nobody had read, and of the cells
when it has come to its end. -/
structure ComputesOnce (history : List (Moment α)) (last : Cells ι α) : Prop where
  /-- At every moment the cells in progress are those on the chain of running computations, and what
  is answered then is right. -/
  isRight : ∀ m ∈ history, m.IsRight
  /-- Between calls that are made from within no computation no cell is in progress, … -/
  idle : ∀ m ∈ history, m.chain = [] → ∀ i, m.cells i ≠ .inProgress
  /-- … nor is one at the end. -/
  last_idle : ∀ i, last i ≠ .inProgress
  /-- The computation of a cell begins once at most and comes to a value once at most, and cells
  keep their values. -/
  precedes : history.Pairwise Moment.Precedes
  /-- The values are there at the end. -/
  last_kept : ∀ m ∈ history, ∀ i v, m.cells i = .resolved v → last i = .resolved v
  /-- A cell that has its value answers with it. -/
  answers : history.Pairwise fun m m' => ∀ i v, m.cells i = .resolved v →
    (∀ answer, m'.event = .got i answer → answer = some v) ∧
      ∀ onCycle value before, m'.event = .answered i onCycle value before → value = v
  /-- The value of a cell is the one to which its computation has come before. -/
  returned : ∀ before m, before ++ [m] <+: history → ∀ i v, m.cells i = .resolved v →
    ∃ e ∈ before, e.event = .returned i v

theorem computesOnce_of_reached (h : Reached [] cells history) : ComputesOnce history cells where
  isRight := h.forall_isRight
  idle m hm hchain i hi := by
    have hmem := ((h.forall_isRight m hm).inProgress_iff i).1 hi
    rw [hchain] at hmem
    exact List.not_mem_nil hmem
  last_idle i hi := List.not_mem_nil ((h.inProgress_iff i).1 hi)
  precedes := h.pairwise_precedes
  last_kept m hm := (h.forall_isBehind m hm).kept
  answers := h.pairwise_precedes.imp_of_mem fun _ hm' hle i v hv =>
    (h.forall_isRight _ hm').eq_of_resolved (hle.kept i v hv)
  returned _ _ hm _ _ hv := h.exists_returned_of_prefix hm hv

/-- **Cells are computed once.**  Whatever cells a program reads, with computations that read cells
to any depth: at every moment the cells in progress are exactly those whose computations are
running; a read from within the computation of its own cell is answered with the value for the
cycle and changes no cell, and only such a read is; the computation of a cell begins at most once;
the value to which it comes is the one that the cell has from then on; and no cell is left in
progress. -/
theorem Program.computesOnce {β : Type} (p : Program α β) :
    ComputesOnce p.history p.cellsAfter := by
  obtain ⟨result, later, history, hrun, hreached⟩ := exists_reached_run p (.start (α := α))
  have hhistory : p.history = history := congrArg Prod.snd hrun
  have hcells : p.cellsAfter = later := congrArg (fun r => r.1.2) hrun
  rw [hhistory, hcells]
  exact computesOnce_of_reached hreached

/-- A cell that is read from within its own computation. -/
example :
    let p : Program (fun _ : Nat => Int) (Int × Option Int) :=
      .getOrCompute 0 (.getOrCompute 0 (.done 7) (-1) fun v => .done (v + 10)) (-1) fun v =>
        .get 0 fun w => .done (v, w)
    ((p.run []).run Cells.fresh |>.run []).1.1 = (9, some 9) := rfl

end Schemata.Cells

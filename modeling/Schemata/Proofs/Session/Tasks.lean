import Schemata.Proofs.Expr.Diagnostics
import Schemata.Proofs.Matching.Validation
import Schemata.Proofs.Session.Resolution

/-!
# Elements that are checked side by side

Where the options of a model ask for its elements to be checked side by side, a session follows all
references of the model first.  The memory is warm then (`IsWarm`): whatever a report reads has its
value, but for what value annotations apply.  So the report of an element changes no cell, and that
of an annotation none but the cell for what this annotation applies; what the reports say does not
depend on whether such a cell has been read (`IsWarm.run_task`).  Hence it does not matter in which
order the elements are checked: each has its own report, and the memory is the same in the end
(`run_tasks_of_perm`).
-/

namespace Schemata.Session

open Catalog

variable {c : Catalog} {m : ModelId} {cells : Memory}

/-! ### Computations that change nothing -/

section leaves

variable {α β : Type} {x : Session α} {f : α → Session β}

/-- A computation leaves the memory as it is. -/
def Leaves (cells : Memory) (x : Session α) : Prop := (x.run cells).2 = cells

namespace Leaves

protected theorem pure (a : α) : Leaves cells (pure a) := rfl

protected theorem bind (hx : Leaves cells x) (hf : ∀ a, Leaves cells (f a)) :
    Leaves cells (x >>= f) := by
  rw [Leaves, run_bind, hx]
  exact hf _

protected theorem map (hx : Leaves cells x) (g : α → β) : Leaves cells (do return g (← x)) :=
  hx.bind fun a => .pure (g a)

protected theorem mapM {ι : Type} {x : ι → Session α} {l : List ι}
    (hx : ∀ i ∈ l, Leaves cells (x i)) : Leaves cells (l.mapM x) := by
  induction l with
  | nil => exact .pure []
  | cons i l ih =>
    rw [List.mapM_cons]
    exact (hx i (by simp)).bind fun a => (ih fun j hj => hx j (by simp [hj])).map (a :: ·)

/-- Reading a cell that has its value changes nothing. -/
protected theorem remember {s : Slot} (hs : (cells s).isResolved = true)
    (compute : Session s.Answer) : Leaves cells (remember c s compute) := by
  rw [Leaves, run_remember]
  cases h : cells s with
  | resolved v => rfl
  | inProgress => rfl
  | unevaluated =>
    rw [h] at hs
    exact absurd hs Bool.false_ne_true

end Leaves

end leaves

/-- Keeping what is known changes no other cell. -/
theorem run_remember_pure_of_ne {s s' : Slot} (hs : s' ≠ s) (v : s.Answer) (cells : Memory) :
    ((remember c s (pure v)).run cells).2 s' = cells s' := by
  rw [run_remember]
  cases cells s with
  | resolved v => rfl
  | inProgress => rfl
  | unevaluated =>
    change ((cells.set s .inProgress).set s (.resolved v)) s' = cells s'
    rw [Cells.set_of_ne _ _ (Ne.symm hs), Cells.set_of_ne _ _ (Ne.symm hs)]

/-! ### When all references have been followed -/

/-- The cells of a model have their values, those apart that hold what annotations apply, and no
cell is being computed. -/
structure IsWarm (c : Catalog) (m : ModelId) (cells : Memory) : Prop where
  sound : c.Sound cells
  quiet : c.Quiet 4 cells
  resolved : ∀ s, HasCell c m s → (∀ a, s ≠ .applied a) → (cells s).isResolved = true

theorem isWarm_after_resolveAll (m : ModelId) (qs : List Query) :
    IsWarm c m (after c (qs ++ [.resolveAll m])) where
  sound := sound_after _
  quiet := quiet_after _ 4
  resolved _ hs happlied :=
    (isResolved_after_resolveAll_iff qs hs).2 fun a ha => absurd ha (happlied a)

namespace IsWarm

/-- A warm memory stays warm. -/
theorem of_reads {α : Type} {x : Session α} {a : α} (h : IsWarm c m cells) (hx : Reads c 4 x a) :
    IsWarm c m (x.run cells).2 := by
  obtain ⟨later, hrun, hsound, hset⟩ := hx cells h.sound h.quiet
  rw [hrun]
  exact ⟨hsound, hset.quiet h.quiet,
    fun s hs happlied => hset.isResolved (h.resolved s hs happlied)⟩

variable (h : IsWarm c m cells)
include h

theorem leaves_remember {s : Slot} (hs : HasCell c m s) (happlied : ∀ a, s ≠ .applied a)
    (compute : Session s.Answer) : Leaves cells (remember c s compute) :=
  .remember (h.resolved s hs happlied) compute

/-! ### The report of an element -/

theorem leaves_typeDiagnostics {t : Declared .type} (ht : t ∈ c.elements m .type) :
    Leaves cells (typeDiagnostics c t) := by
  have hbase : Leaves cells (base? c t) :=
    (h.leaves_remember (s := .base t) ht (by simp) _).map _
  have hkey : Leaves cells (key c t) := (h.leaves_remember (s := .key t) ht (by simp) _).map _
  exact hbase.bind fun _ => hkey.map _

theorem leaves_propertyDiagnostics {p : Declared .property} (hp : p ∈ c.elements m .property) :
    Leaves cells (propertyDiagnostics c p) :=
  (h.leaves_remember (s := .propertyType p) hp (by simp) _).map _

theorem leaves_termDiagnostics {t : Declared .term} (ht : t ∈ c.elements m .term) :
    Leaves cells (termDiagnostics c t) :=
  (h.leaves_remember (s := .termType t) ht (by simp) _).map _

theorem leaves_navigationDiagnostics {n : Declared .navigation}
    (hn : n ∈ c.elements m .navigation) : Leaves cells (navigationDiagnostics c n) := by
  have hassociation : Leaves cells (navigationAssociation c n) :=
    (h.leaves_remember (s := .association n) hn (by simp) _).map _
  have hsides : Leaves cells (navigationSides c n) :=
    h.leaves_remember (s := .sides n) hn (by simp) _
  refine hassociation.bind fun association => ?_
  cases association with
  | declared a => exact hsides.map _
  | placeholder p => exact .pure _

theorem leaves_associationDiagnostics {a : Declared .association}
    (ha : a ∈ c.elements m .association) : Leaves cells (associationDiagnostics c a) := by
  refine Leaves.map (.mapM fun e he => ?_) _
  have howner : e.association = a := by
    simp only [Catalog.ends, List.mem_cons, List.not_mem_nil, or_false] at he
    rcases he with rfl | rfl <;> rfl
  have hcell : HasCell c m (.endType e) := by
    rw [← howner] at ha
    exact ha
  exact (h.leaves_remember hcell (by simp) _).map _

theorem leaves_containerDiagnostics {k : Declared .container} (hk : k ∈ c.elements m .container) :
    Leaves cells (containerDiagnostics c k) := by
  have hextended : Leaves cells (extended? c k) :=
    (h.leaves_remember (s := .extended k) hk (by simp) _).map _
  exact hextended.map _

theorem leaves_entitySetDiagnostics {s : Declared .entitySet} (hs : s ∈ c.elements m .entitySet) :
    Leaves cells (entitySetDiagnostics c s) := by
  have htype : Leaves cells (entityType c s) :=
    (h.leaves_remember (s := .entityType s) hs (by simp) _).map _
  exact htype.map _

theorem leaves_associationSetDiagnostics {s : Declared .associationSet}
    (hs : s ∈ c.elements m .associationSet) : Leaves cells (associationSetDiagnostics c s) := by
  have hassociation : Leaves cells (setAssociation c s) :=
    (h.leaves_remember (s := .setAssociation s) hs (by simp) _).map _
  have hends : Leaves cells (setEnds c s) :=
    (h.leaves_remember (s := .setEnds s) hs (by simp) _).map _
  exact hassociation.bind fun _ => hends.map _

/-- The expressions below one that belongs to an annotation belong to it too. -/
theorem leaves_exprDiagnostics {e : ExprRef} (howner : e.owner ∈ c.elements m .annot)
    (he : e ∈ c.nodesOf e.owner) : Leaves cells (exprDiagnostics c e) := by
  induction hsize : c.nodesBehind e using Nat.strong_induction_on generalizing e with
  | _ size ih =>
    subst hsize
    rw [exprDiagnostics]
    have hreferences : Leaves cells (references c e) :=
      h.leaves_remember (s := .references e) ⟨howner, he⟩ (by simp) _
    refine hreferences.bind fun r => Leaves.map (.mapM fun child _ => ?_) _
    have hoperand : child.1 ∈ c.operands e := c.mem_operands_of_mem_children child.2
    have hsame : child.1.owner = e.owner := c.owner_of_mem_operands hoperand
    exact ih _ (c.nodesBehind_lt_of_mem_operands hoperand) (by rwa [hsame])
      (mem_nodesOf_of_mem_operands hoperand) rfl

/-- Finding out what an annotation applies changes the cell for that and no other. -/
theorem run_appliedHandle (a : Declared .annot) :
    ∃ later, (appliedHandle c a).run cells = (c.appliedHandle a, later) ∧ IsWarm c m later ∧
      ∀ s, later s = if s = .applied a then .resolved (c.value s) else cells s := by
  have hreads : Reads c 4 (appliedHandle c a) (c.appliedHandle a) :=
    reads_appliedHandle (c.layer_lt _)
  have hresolves : Resolves c 4 (appliedHandle c a) (.applied a) := .remember (c.layer_lt _)
  obtain ⟨later, hrun, hsound, -⟩ := hreads cells h.sound h.quiet
  have hwarm := h.of_reads hreads
  have hresolved := hresolves cells h.sound h.quiet
  have hother (s : Slot) (hs : s ≠ .applied a) : ((appliedHandle c a).run cells).2 s = cells s :=
    run_remember_pure_of_ne hs _ _
  rw [hrun] at hwarm hresolved hother
  refine ⟨later, hrun, hwarm, fun s => ?_⟩
  split
  case isTrue hs =>
    rw [hs]
    exact hsound.eq_resolved hresolved
  case isFalse hs => exact hother s hs

/-- The report of an annotation changes the cell for what it applies and no other. -/
theorem run_annotationDiagnostics (hc : c.IsBuilt) {a : Declared .annot}
    (ha : a ∈ c.elements m .annot) :
    ∃ later, (annotationDiagnostics c a).run cells = (c.annotationDiagnostics a, later) ∧
      ∀ s, later s = if s = .applied a then .resolved (c.value s) else cells s := by
  obtain ⟨later, hrun, hwarm, hlater⟩ := h.run_appliedHandle a
  -- The memory is still warm, so what is read after this changes nothing.
  have hbindings : Leaves later (bindingHandles c a) :=
    hwarm.leaves_remember (s := .bindings a) ha (by simp) _
  have hvalues : Leaves later ((c.values a).mapM (exprDiagnostics c)) := by
    refine .mapM fun e he => ?_
    have howner : e.owner = a := ((hc.mem_values_iff ha).1 he).1
    have hnode : e ∈ c.nodesOf e.owner := by
      rw [howner]
      exact hc.mem_nodesOf_of_mem_values ha he
    exact hwarm.leaves_exprDiagnostics (by rwa [howner]) hnode
  obtain ⟨_, hanswer, -⟩ :=
    reads_annotationDiagnostics (Nat.lt_succ_self 3) a cells h.sound h.quiet
  refine ⟨later, ?_, hlater⟩
  have hleaves : ((annotationDiagnostics c a).run cells).2 = later := by
    rw [annotationDiagnostics, run_bind, hrun]
    exact hbindings.bind fun _ => hvalues.map _
  rw [hanswer] at hleaves ⊢
  rw [← hleaves]

end IsWarm

/-! ### Tasks -/

/-- An element to be checked. -/
abbrev Task := (k : ElementKind) × Declared k

namespace Task

/-- Checks the element. -/
def run (c : Catalog) : Task → Session (List Diagnostic)
  | ⟨.schema, s⟩ => pure (c.schemaDiagnostics s)
  | ⟨.type, t⟩ => typeDiagnostics c t
  | ⟨.property, p⟩ => propertyDiagnostics c p
  | ⟨.navigation, n⟩ => navigationDiagnostics c n
  | ⟨.association, a⟩ => associationDiagnostics c a
  | ⟨.term, t⟩ => termDiagnostics c t
  | ⟨.container, k⟩ => containerDiagnostics c k
  | ⟨.entitySet, s⟩ => entitySetDiagnostics c s
  | ⟨.associationSet, s⟩ => associationSetDiagnostics c s
  | ⟨.annot, a⟩ => annotationDiagnostics c a

/-- The cell that the check may change when all references have been followed. -/
def ownCell? : Task → Option Slot
  | ⟨.annot, a⟩ => some (.applied a)
  | _ => none

theorem reads_run (t : Task) : Reads c 4 (t.run c) (c.diagnosticsOf t.2) := by
  obtain ⟨k, e⟩ := t
  cases k with
  | schema => exact .pure _
  | type => exact reads_typeDiagnostics (by omega) e
  | property => exact reads_propertyDiagnostics (by omega) e
  | navigation => exact reads_navigationDiagnostics (by omega) e
  | association => exact reads_associationDiagnostics (by omega) e
  | term => exact reads_termDiagnostics (by omega) e
  | container => exact reads_containerDiagnostics (by omega) e
  | entitySet => exact reads_entitySetDiagnostics (by omega) e
  | associationSet => exact reads_associationSetDiagnostics (by omega) e
  | annot => exact reads_annotationDiagnostics (by omega) e

end Task

/-- Of all elements but annotations the report changes nothing. -/
theorem IsWarm.leaves_run (h : IsWarm c m cells) {t : Task} (ht : t.2 ∈ c.elements m t.1)
    (hcell : t.ownCell? = none) : Leaves cells (t.run c) := by
  obtain ⟨k, e⟩ := t
  cases k with
  | schema => exact .pure _
  | type => exact h.leaves_typeDiagnostics ht
  | property => exact h.leaves_propertyDiagnostics ht
  | navigation => exact h.leaves_navigationDiagnostics ht
  | association => exact h.leaves_associationDiagnostics ht
  | term => exact h.leaves_termDiagnostics ht
  | container => exact h.leaves_containerDiagnostics ht
  | entitySet => exact h.leaves_entitySetDiagnostics ht
  | associationSet => exact h.leaves_associationSetDiagnostics ht
  | annot => cases hcell

/-- **A check changes no cell but its own.** -/
theorem IsWarm.run_task (h : IsWarm c m cells) (hc : c.IsBuilt) {t : Task}
    (ht : t.2 ∈ c.elements m t.1) :
    ∃ later, (t.run c).run cells = (c.diagnosticsOf t.2, later) ∧ IsWarm c m later ∧
      ∀ s, later s = if t.ownCell? = some s then .resolved (c.value s) else cells s := by
  obtain ⟨later, hrun, -⟩ := t.reads_run cells h.sound h.quiet
  have hwarm : IsWarm c m later := by
    have hwarm := h.of_reads t.reads_run
    rwa [hrun] at hwarm
  refine ⟨later, hrun, hwarm, ?_⟩
  cases hcell : t.ownCell? with
  | none =>
    have hleaves := h.leaves_run ht hcell
    rw [Leaves, hrun] at hleaves
    simp [← hleaves]
  | some s =>
    obtain ⟨k, a⟩ := t
    cases k <;> cases hcell
    obtain ⟨later', hrun', hlater⟩ := h.run_annotationDiagnostics hc ht
    obtain rfl : later' = later := congrArg Prod.snd (hrun'.symm.trans hrun)
    intro s
    simpa [eq_comm] using hlater s

/-- Checks one after another change the cells of the elements that are checked and no others. -/
theorem IsWarm.run_tasks (h : IsWarm c m cells) (hc : c.IsBuilt) {ts : List Task}
    (hts : ∀ t ∈ ts, t.2 ∈ c.elements m t.1) :
    ∃ later, (ts.mapM (Task.run c)).run cells = (ts.map (c.diagnosticsOf ·.2), later) ∧
      IsWarm c m later ∧
      ∀ s, later s = if s ∈ ts.filterMap Task.ownCell? then .resolved (c.value s) else cells s := by
  induction ts generalizing cells with
  | nil => exact ⟨cells, rfl, h, fun s => by simp⟩
  | cons t ts ih =>
    obtain ⟨hthis, hrest⟩ := List.forall_mem_cons.1 hts
    obtain ⟨cells₁, hrun₁, hwarm₁, hcells₁⟩ := h.run_task hc hthis
    obtain ⟨later, hrun, hwarm, hlater⟩ := ih hwarm₁ hrest
    refine ⟨later, ?_, hwarm, fun s => ?_⟩
    · rw [List.mapM_cons, run_bind, hrun₁]
      simp only [run_bind, hrun]
      rfl
    · -- A cell that two checks may change gets the same value from either.
      rw [hlater s, hcells₁ s, List.filterMap_cons]
      cases t.ownCell? with
      | none => simp
      | some s' =>
        have hmem : s ∈ s' :: ts.filterMap Task.ownCell? ↔
            s = s' ∨ s ∈ ts.filterMap Task.ownCell? := List.mem_cons
        by_cases hs : s = s'
        · subst hs
          simp
        · rw [if_neg (fun hsome : some s' = some s => hs (Option.some.inj hsome).symm)]
          simp only [hmem, hs, false_or]

/-! ### The elements of a model -/

/-- The elements of a model, in the order in which they are reported. -/
def tasks (c : Catalog) (m : ModelId) : List Task :=
  ElementKind.all.flatMap fun k => (c.elements m k).map (Sigma.mk k)

theorem mem_elements_of_mem_tasks {t : Task} (ht : t ∈ tasks c m) : t.2 ∈ c.elements m t.1 := by
  obtain ⟨k, -, ht⟩ := List.mem_flatMap.1 ht
  obtain ⟨e, he, rfl⟩ := List.mem_map.1 ht
  exact he

theorem reportAll_eq (c : Catalog) (m : ModelId) :
    reportAll c m = do
      let ds ← (tasks c m).mapM (Task.run c)
      return (c.model m).duplicateDeclarations ++ ds.flatten := by
  have hschemas : (c.elements m .schema).mapM (fun s => Task.run c ⟨.schema, s⟩)
      = (pure ((c.elements m .schema).map c.schemaDiagnostics) : Session _) := List.mapM_pure
  simp only [reportAll, reports, tasks, ElementKind.all, List.flatMap_cons, List.flatMap_nil,
    List.append_nil, List.mapM_append, List.mapM_map, Function.comp_def, hschemas, bind_assoc,
    pure_bind, List.flatten_append, List.append_assoc]
  rfl

/-- Where elements are checked side by side, a check of the model follows all references and then
checks the elements. -/
theorem after_validate_of_parallel (hparallel : (c.model m).options.parallel = true)
    (qs : List Query) :
    after c (qs ++ [.validate m]) = ((reportAll c m).run (after c (qs ++ [.resolveAll m]))).2 := by
  rw [after_concat, after_concat]
  simp only [ask, validate, hparallel, if_true, run_bind]

/-- **The order in which elements are checked is immaterial.**  When all references have been
followed, the elements have their own reports in whatever order they are checked, and what is
remembered in the end is what a check of the model leaves. -/
theorem run_tasks_of_perm (hc : c.IsBuilt) (hparallel : (c.model m).options.parallel = true)
    (qs : List Query) {ts : List Task} (hperm : ts.Perm (tasks c m)) :
    (ts.mapM (Task.run c)).run (after c (qs ++ [.resolveAll m]))
      = (ts.map (c.diagnosticsOf ·.2), after c (qs ++ [.validate m])) := by
  have hwarm : IsWarm c m (after c (qs ++ [.resolveAll m])) := isWarm_after_resolveAll m qs
  obtain ⟨later, hrun, -, hlater⟩ :=
    hwarm.run_tasks hc fun t ht => mem_elements_of_mem_tasks (hperm.mem_iff.1 ht)
  obtain ⟨later', hrun', -, hlater'⟩ :=
    hwarm.run_tasks hc fun t (ht : t ∈ tasks c m) => mem_elements_of_mem_tasks ht
  have hall : after c (qs ++ [.validate m]) = later' := by
    rw [after_validate_of_parallel hparallel, reportAll_eq, run_bind, hrun']
    rfl
  have hmem (s : Slot) :
      s ∈ ts.filterMap Task.ownCell? ↔ s ∈ (tasks c m).filterMap Task.ownCell? :=
    (hperm.filterMap Task.ownCell?).mem_iff
  rw [hrun, hall]
  congr 1
  funext s
  rw [hlater s, hlater' s]
  simp only [hmem s]

end Schemata.Session

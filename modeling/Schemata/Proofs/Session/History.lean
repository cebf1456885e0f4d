import Schemata.Proofs.Model.Declarations
import Schemata.Proofs.Session.Validation
import Schemata.Proofs.Types.Ancestry

/-!
# Answers do not depend on what was asked before

`Session.after c qs` is what a session remembers when the questions `qs` have been asked.  No cell
is being computed then, and every resolved one holds its value; so each question has the same answer
after any others as in a session that has just begun, and a cell holds the same value whatever it
was that resolved it (`answer_after`).  What is known of the catalog's own functions thus holds of a
session at any time: of bases (`base_after_iff`), of the chains that these make (`ancestry_after`)
and of the schemas that a model was built from (`declarations_after_add`).
-/

namespace Schemata.Session

open Catalog

variable {c : Catalog}

/-- What a session remembers when some questions have been asked, one after another. -/
def after (c : Catalog) (qs : List Query) : Memory := ((askAll c qs).run Cells.fresh).2

/-- Every question has its answer from the catalog alone. -/
theorem reads_ask (q : Query) : Reads c 4 (ask c q) (c.answer q) := by
  cases q with
  | base t => exact reads_base? (by omega) t
  | ancestry t => exact reads_ancestry (by omega) t
  | key t => exact reads_key (by omega) t
  | effectiveKey t => exact reads_effectiveKey (by omega) t
  | propertyType p => exact reads_propertyType (by omega) p
  | termType t => exact reads_termType (by omega) t
  | endType e => exact reads_endType (by omega) e
  | association p => exact reads_navigationAssociation (by omega) p
  | fromEnd p => exact reads_fromEnd (by omega) p
  | toEnd p => exact reads_toEnd (by omega) p
  | navigationTarget p => exact reads_navigationTarget (by omega) p
  | navigationType p => exact reads_navigationType (by omega) p
  | extended k => exact reads_extended? (by omega) k
  | findEntitySet k name => exact reads_findEntitySet? (by omega) k name
  | entityType s => exact reads_entityType (by omega) s
  | setAssociation s => exact reads_setAssociation (by omega) s
  | setEnds s => exact reads_setEnds (by omega) s
  | applied a => exact reads_applied (c.layer_lt _)
  | boundProperty a i => exact reads_boundProperty (by omega) a i
  | view e => exact reads_view (by omega) e
  | pathTarget e =>
    refine (reads_view (by omega) e).bind ?_
    rw [Catalog.answer]
    cases h : c.view e with
    | path segments => exact (reads_pathTarget (by omega) (pathSegments_of_view h)).map _
    | _ => exact .pure none
  | exprDiagnostics e => exact reads_exprDiagnostics (by omega) e
  | resolveAll m => exact reads_resolveAll (by omega) m
  | validate m => exact reads_validate (by omega) m
  | declarations m => exact .pure _

theorem reads_askAll (qs : List Query) : Reads c 4 (askAll c qs) () :=
  .forM fun q _ => (reads_ask q).discard

theorem sound_after (qs : List Query) : c.Sound (after c qs) := by
  obtain ⟨later, hrun, hsound, -⟩ := reads_askAll qs _ c.sound_fresh (c.quiet_fresh 4)
  rwa [after, hrun]

/-- Between questions no cell is being computed. -/
theorem quiet_after (qs : List Query) (n : Nat) : c.Quiet n (after c qs) := by
  obtain ⟨later, hrun, -, hset⟩ := reads_askAll qs _ c.sound_fresh (c.quiet_fresh 4)
  rw [after, hrun]
  exact hset.quiet (c.quiet_fresh n)

/-- After any questions, every question has its answer from the catalog alone. -/
theorem run_ask_after (qs : List Query) (q : Query) :
    ((ask c q).run (after c qs)).1 = c.answer q := by
  obtain ⟨_, hrun, -, -⟩ := reads_ask q _ (sound_after qs) (quiet_after qs 4)
  rw [hrun]

/-- Between questions a cell has not been read or holds its value. -/
theorem after_eq (qs : List Query) (s : Slot) :
    after c qs s = .unevaluated ∨ after c qs s = .resolved (c.value s) := by
  cases hs : after c qs s with
  | unevaluated => exact .inl rfl
  | inProgress => exact absurd hs (quiet_after qs 4 s (c.layer_lt s))
  | resolved v => exact .inr (by rw [(sound_after qs).value_of_resolved hs])

/-- **Answers do not depend on what was asked before.**  After any questions every question has the
answer that it has in a session that has just begun; and each cell has not been read or holds a
value that is the same whatever was asked. -/
theorem answer_after (c : Catalog) (qs : List Query) :
    (∀ q, ((ask c q).run (after c qs)).1 = ((ask c q).run Cells.fresh).1) ∧
    (∀ s, after c qs s = .unevaluated ∨ after c qs s = .resolved (c.value s)) := by
  constructor
  · intro q
    have hfresh : ((ask c q).run Cells.fresh).1 = c.answer q := run_ask_after [] q
    rw [run_ask_after, hfresh]
  · exact after_eq qs

/-- **Which base a type has.**  Whichever types have been asked about before, the answer for a type
is what `Catalog.HasBase` says of it: a placeholder for a cycle iff the chain of bases has no
end. -/
theorem base_after_iff (c : Catalog) (qs : List Query) (t : Declared .type)
    (answer : Option (Element (Declared .type))) :
    ((ask c (.base t)).run (after c qs)).1 = answer ↔ c.HasBase t answer := by
  rw [run_ask_after]
  exact c.base?_eq_iff

/-- **The bases above a type.**  Whatever has been asked before, and whatever the bases are like,
the walk from a type along the bases that the session gives comes to a type without a declared base:
it is never broken off at a type that it has passed, nor for lack of steps.  It begins at the type,
no type comes twice in it, all are of one kind, and from each of them on it is that type's own.  So
to derive from another type is a partial order. -/
theorem ancestry_after (c : Catalog) (qs : List Query) :
    let above (t : Declared .type) := ((ask c (.ancestry t)).run (after c qs)).1
    let base? (t : Declared .type) :=
      (((ask c (.base t)).run (after c qs)).1).bind (·.declared?)
    (∀ t, Chain.IsWhole base? t (above t) ∧ (above t).head? = some t ∧ (above t).Nodup ∧
      (∀ u ∈ above t, c.kind u = c.kind t) ∧
      ∀ lower u upper, above t = lower ++ u :: upper → above u = u :: upper) ∧
    (∀ t u, c.derivesFrom t u = true ↔ u ∈ above t) ∧
    IsPartialOrder (Declared .type) fun t u => c.derivesFrom t u = true := by
  intro above base?
  have habove (t : Declared .type) : above t = c.ancestry t := run_ask_after qs (.ancestry t)
  have hbase : base? = c.declaredBase? := funext fun t =>
    congrArg (Option.bind · _) (run_ask_after qs (.base t))
  refine ⟨fun t => ?_, fun t u => ?_, c.isPartialOrder_derivesFrom⟩
  · simp only [habove, hbase]
    exact ⟨c.isWhole_ancestry t, head?_ancestry t, nodup_ancestry t,
      fun u hu => kind_of_mem_ancestry hu, fun _ _ _ => ancestry_eq_of_append⟩
  · rw [habove, derivesFrom_iff_mem]

/-- **A model keeps what it was built from.**  Whatever the schemas say and whatever has been asked
before, the model that is built from them gives them back. -/
theorem declarations_after_add (c : Catalog) (options : Options) (given : List ModelId)
    (schemas : List Decl.Schema) (qs : List Query) :
    ((ask (c.add options given schemas) (.declarations c.models.size)).run
      (after (c.add options given schemas) qs)).1 = schemas := by
  rw [run_ask_after]
  show ((c.add options given schemas).model c.models.size).declarations = schemas
  rw [c.model_add]
  exact Model.declarations_build _ _ _

end Schemata.Session

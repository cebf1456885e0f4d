import Mathlib.Data.List.Perm.Subperm
import Schemata.Proofs.Session.Reads

/-!
# Bases that are computed within one another

The base of a type is found by way of the base of the base.  Meanwhile the cells of the types that
have been passed are in progress: they are those of a path that leads to the type (`IsClimbing`).  A
read that comes back to the path gets a placeholder for a cycle, and there is one: the path and the
last step make a circle.  A read of any other type answers its base, so the answer does not depend
on the path (`run_baseHandleWithin`).

The path never has the same type twice, so the number of readings that are allowed is never used up.
What `baseHandleWithin` gives at zero readings thus plays no part: a read that comes back gets the
placeholder from the cell (`run_eq_of_climbing`, `run_eq_run_baseHandle?`).
-/

namespace Schemata.Session

open Catalog

variable {c : Catalog} {path : List (Declared .type)} {t base : Declared .type} {cells : Memory}

/-- The bases of the types in `path` are being computed, and each of these types has `t` above
it. -/
structure IsClimbing (c : Catalog) (path : List (Declared .type)) (t : Declared .type)
    (cells : Memory) : Prop where
  sound : c.Sound cells
  inProgress_iff : ∀ u, cells (.base u) = .inProgress ↔ u ∈ path
  leads : ∀ u ∈ path, Relation.TransGen (Chain.Follows c.namedBase?) u t
  nodup : path.Nodup

namespace IsClimbing

/-- A type whose base is being computed again is on a circle. -/
theorem isEndless (h : IsClimbing c path t cells) (ht : t ∈ path) :
    Chain.IsEndless c.namedBase? t :=
  Chain.isEndless_of_circle (h.leads t ht)

theorem length_le (h : IsClimbing c path t cells) : path.length ≤ c.count .type := by
  refine (List.subperm_of_subset h.nodup fun u hu => ?_).length_le
  obtain ⟨b, hub, -⟩ := Relation.TransGen.head'_iff.1 (h.leads u hu)
  exact c.mem_allElements_of_namedBase? (by rw [hub, Option.isSome_some])

/-- One step up. -/
theorem step (h : IsClimbing c path t cells) (ht : t ∉ path)
    (hs : cells (.base t) = .unevaluated) (hbase : c.namedBase? t = some base) :
    IsClimbing c (t :: path) base (cells.set (.base t) .inProgress) where
  sound := h.sound.set_inProgress hs
  inProgress_iff u := by
    by_cases hu : t = u
    · subst hu
      simp
    · rw [Cells.set_of_ne _ _ (by simpa using hu), h.inProgress_iff, List.mem_cons]
      simp [Ne.symm hu]
  leads u hu := by
    rcases List.mem_cons.1 hu with rfl | hu
    · exact .single hbase
    · exact (h.leads u hu).tail hbase
  nodup := List.nodup_cons.2 ⟨ht, h.nodup⟩

end IsClimbing

/-- Where no base is being computed, no type has been passed. -/
theorem isClimbing_nil (hs : c.Sound cells) (hq : c.Quiet 1 cells) (t : Declared .type) :
    IsClimbing c [] t cells where
  sound := hs
  inProgress_iff u := iff_of_false (hq (.base u) Nat.zero_lt_one) List.not_mem_nil
  leads _ hu := absurd hu List.not_mem_nil
  nodup := .nil

/-- The base of a type is its base for the catalog, if `read` finds out of the base that the type
names whether the chain of bases from there on has no end. -/
theorem run_baseVia {read : Declared .type → Session (Option (Element (Handle .type)))}
    (hs : c.Sound cells)
    (hread : ∀ base, c.namedBase? t = some base → ∃ answer later,
      (read base).run cells = (answer, later) ∧ c.Sound later ∧ c.Settles 1 cells later ∧
      (isCyclicAnswer answer = true ↔ Chain.IsEndless c.namedBase? base)) :
    ∃ later, (baseVia c read t).run cells = (c.baseHandle? t, later) ∧ c.Sound later ∧
      c.Settles 1 cells later := by
  unfold baseVia
  cases hn : c.baseName? t with
  | none => exact ⟨cells, by rw [c.baseHandle?_of_noName hn]; rfl, hs, .refl 1 cells⟩
  | some reference =>
    simp only [resolve]
    cases hr : c.resolve? (c.typeSchema t) .type reference with
    | none => exact ⟨cells, by rw [c.baseHandle?_of_unresolved hn hr]; rfl, hs, .refl 1 cells⟩
    | some h =>
      simp only [Element.ofOption]
      by_cases hk : c.kind (c.locate t.model h) = c.kind t
      · have hbase : c.namedBase? t = some (c.locate t.model h) :=
          c.namedBase?_eq_some_iff.2 ⟨reference, h, hn, hr, rfl, hk⟩
        obtain ⟨answer, later, hrun, hsound, hset, hcyclic⟩ := hread _ hbase
        refine ⟨later, ?_, hsound, hset⟩
        rw [c.baseHandle?_of_kind_eq hn hr hk]
        rw [← Chain.isEndless_iff_of_next hbase, ← c.hasEndlessBases_iff t] at hcyclic
        simp only [hk, ne_eq, not_true_eq_false, ↓reduceIte, run_bind, hrun]
        rcases answer with _ | _ | p
        · rw [ite_cond_eq_false _ _ (eq_false (hcyclic.not.1 Bool.false_ne_true))]
          rfl
        · rw [ite_cond_eq_false _ _ (eq_false (hcyclic.not.1 Bool.false_ne_true))]
          rfl
        · have hp : p.kind.isCyclic = c.hasEndlessBases t := Bool.eq_iff_iff.2 hcyclic
          simp only [hp]
          split <;> rfl
      · refine ⟨cells, ?_, hs, .refl 1 cells⟩
        rw [c.baseHandle?_of_kind_ne hn hr hk]
        simp only [ne_eq, hk, not_false_eq_true, ↓reduceIte]
        rfl

/-- What is found by way of a reading depends on nothing but what it reads of the base that the type
names. -/
theorem run_baseVia_congr {read read' : Declared .type → Session (Option (Element (Handle .type)))}
    (h : ∀ base, c.namedBase? t = some base → (read base).run cells = (read' base).run cells) :
    (baseVia c read t).run cells = (baseVia c read' t).run cells := by
  unfold baseVia
  cases hn : c.baseName? t with
  | none => rfl
  | some reference =>
    simp only [resolve]
    cases hr : c.resolve? (c.typeSchema t) .type reference with
    | none => rfl
    | some handle =>
      simp only [Element.ofOption]
      by_cases hk : c.kind (c.locate t.model handle) = c.kind t
      · have hbase : c.namedBase? t = some (c.locate t.model handle) :=
          c.namedBase?_eq_some_iff.2 ⟨reference, handle, hn, hr, rfl, hk⟩
        simp only [hk, ne_eq, not_true_eq_false, ↓reduceIte, run_bind, h _ hbase]
      · simp only [ne_eq, hk, not_false_eq_true, ↓reduceIte]

/-- **The base of a type is found whatever is in progress.**  A read that comes back to the path
gets the value for the cycle; any other answers the base. -/
theorem run_baseHandleWithin (n : Nat) (h : IsClimbing c path t cells)
    (hn : c.count .type < n + path.length) :
    (t ∈ path → (baseHandleWithin c n t).run cells = (c.onCycle (.base t), cells)) ∧
    (t ∉ path → ∃ later, (baseHandleWithin c n t).run cells = (c.baseHandle? t, later) ∧
      c.Sound later ∧ c.Settles 1 cells later) := by
  -- with each step the path gets longer, and it is never longer than there are types
  induction n generalizing path t cells with
  | zero =>
    have := h.length_le
    omega
  | succ n ih =>
    constructor
    · intro ht
      rw [baseHandleWithin, run_remember, (h.inProgress_iff t).2 ht]
    · intro ht
      cases hs : cells (.base t) with
      | resolved v =>
        obtain rfl := h.sound.value_of_resolved hs
        exact ⟨cells, by rw [baseHandleWithin, run_remember, hs]; rfl, h.sound, .refl 1 cells⟩
      | inProgress => exact absurd ((h.inProgress_iff t).1 hs) ht
      | unevaluated =>
        have hread (base : Declared .type) (hbase : c.namedBase? t = some base) :
            ∃ answer later,
              (baseHandleWithin c n base).run (cells.set (.base t) .inProgress) = (answer, later) ∧
              c.Sound later ∧ c.Settles 1 (cells.set (.base t) .inProgress) later ∧
              (isCyclicAnswer answer = true ↔ Chain.IsEndless c.namedBase? base) := by
          have hstep := h.step ht hs hbase
          obtain ⟨hon, hoff⟩ := ih hstep (by simp only [List.length_cons]; omega)
          by_cases hmem : base ∈ t :: path
          · refine ⟨_, _, hon hmem, hstep.sound, .refl 1 _, ?_⟩
            exact iff_of_true (c.isCyclic_cyclicBase base _) (hstep.isEndless hmem)
          · obtain ⟨later, hrun, hsound, hset⟩ := hoff hmem
            exact ⟨_, later, hrun, hsound, hset, c.isCyclicAnswer_baseHandle? base⟩
        obtain ⟨later, hrun, hsound, hset⟩ := run_baseVia (h.sound.set_inProgress hs) hread
        refine ⟨later.set (.base t) (.resolved (c.baseHandle? t)), ?_, ?_, ?_⟩
        · rw [baseHandleWithin, run_remember, hs]
          simp only [hrun]
        · exact hsound.set_resolved (s := .base t) fun _ ha => by cases ha
        · exact settles_set_resolved (s := .base t) Nat.zero_lt_one hs hset

/-! ### Readings to spare -/

section steps

variable {n n' : Nat}
  {read read' : Nat → Declared .type → Session (Option (Element (Handle .type)))}

/-- Each of the readings but the first finds bases by way of the one before.  Nothing is said of the
first one. -/
def GoesByBases (c : Catalog)
    (read : Nat → Declared .type → Session (Option (Element (Handle .type)))) : Prop :=
  ∀ n t, read (n + 1) t = remember c (.base t) (baseVia c (read n) t)

theorem goesByBases_baseHandleWithin : GoesByBases c (baseHandleWithin c) := fun _ _ => rfl

/-- **The readings are never used up.**  Whatever path has led to a type, two readings of its base
give the same and leave the same memory if both have more steps to go than there are types off the
path, whatever either of them would give after its last step. -/
theorem run_eq_of_climbing (hread : GoesByBases c read) (hread' : GoesByBases c read')
    (h : IsClimbing c path t cells) (hn : c.count .type < n + path.length)
    (hn' : c.count .type < n' + path.length) :
    (read n t).run cells = (read' n' t).run cells := by
  -- with each step the path gets longer, so neither number comes to zero
  induction n generalizing n' path t cells with
  | zero =>
    have := h.length_le
    omega
  | succ n ih =>
    cases n' with
    | zero =>
      have := h.length_le
      omega
    | succ n' =>
      rw [hread n t, hread' n' t, run_remember, run_remember]
      cases hs : cells (.base t) with
      | resolved v => rfl
      | inProgress => rfl
      | unevaluated =>
        have ht : t ∉ path := by
          rw [← h.inProgress_iff, hs]
          simp
        have hvia : (baseVia c (read n) t).run (cells.set (.base t) .inProgress) =
            (baseVia c (read' n') t).run (cells.set (.base t) .inProgress) := by
          apply run_baseVia_congr
          intro base hbase
          exact ih (h.step ht hs hbase) (by rw [List.length_cons]; omega)
            (by rw [List.length_cons]; omega)
        simp only [hvia]

/-- Where no base is being computed, any number of readings that is greater than that of the types
is enough to read a base. -/
theorem run_eq_run_baseHandle? (hread : GoesByBases c read) (hn : c.count .type < n)
    (hs : c.Sound cells) (hq : c.Quiet 1 cells) (t : Declared .type) :
    (read n t).run cells = (baseHandle? c t).run cells := by
  have hclimb : IsClimbing c [] t cells := isClimbing_nil hs hq t
  exact run_eq_of_climbing hread goesByBases_baseHandleWithin hclimb (by simpa using hn) (by simp)

end steps

/-! ### Bases by themselves -/

/-- Where no base is being computed, the base of a type is read. -/
theorem reads_baseHandle? {n : Nat} (hn : 0 < n) (t : Declared .type) :
    Reads c n (baseHandle? c t) (c.baseHandle? t) := by
  intro cells hs hq
  have hclimb : IsClimbing c [] t cells := isClimbing_nil hs (fun s hs => hq s (by omega)) t
  obtain ⟨later, hrun, hsound, hset⟩ :=
    (run_baseHandleWithin (c.count .type + 1) hclimb (by simp)).2 (by simp)
  exact ⟨later, hrun, hsound, hset.mono hn⟩

theorem resolves_baseHandle? {n : Nat} (hn : 0 < n) (t : Declared .type) :
    Resolves c n (baseHandle? c t) (.base t) :=
  Resolves.remember (s := .base t) hn

end Schemata.Session

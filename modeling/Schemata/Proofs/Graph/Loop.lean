import Mathlib.Data.Prod.Lex
import Schemata.Proofs.Graph.Chain
import Schemata.Proofs.Graph.Reach

/-!
# Walks without a bound

`Chain.trail` and `Graph.reach` count their steps.  A walk that keeps a record of where it has been
needs no count: it is a loop, given by what one round does (`Loop.Ends`), and it comes to an end
since there is always something left that it has not passed.

Three loops are treated.  `Chain.climbRound` goes up a chain to see whether it comes by an element,
`Chain.gatherRound` collects what the elements of a chain have, and `Graph.searchRound` is a depth
first search with a stack.  The first two answer what the trail answers (`ends_climbRound`,
`ends_gatherRound`); the third one finds out whether an accepted element can be reached
(`exists_ends_searchRound`).
-/

namespace Schemata

/-! ### Loops -/

namespace Loop

variable {σ β : Type} {round : σ → σ ⊕ β} {s : σ} {b : β}

/-- A loop that starts from a state comes to an end with an answer. -/
inductive Ends (round : σ → σ ⊕ β) : σ → β → Prop
  | done {s : σ} {b : β} (h : round s = .inr b) : Ends round s b
  | again {s s' : σ} {b : β} (h : round s = .inl s') (hrest : Ends round s' b) : Ends round s b

/-- **The rule for loops:** what every round keeps holds in the last round. -/
theorem Ends.exists_last {I : σ → Prop} (hround : ∀ s s', I s → round s = .inl s' → I s')
    (h : Ends round s b) (hs : I s) : ∃ last, I last ∧ round last = .inr b := by
  induction h with
  | done h => exact ⟨_, hs, h⟩
  | again h _ ih => exact ih (hround _ _ hs h)

/-- A loop whose rounds go down in a well-founded order comes to an end. -/
theorem exists_ends {r : σ → σ → Prop} (hr : WellFounded r) {I : σ → Prop}
    (hround : ∀ s s', I s → round s = .inl s' → I s' ∧ r s' s) (hs : I s) :
    ∃ b, Ends round s b := by
  induction s using hr.induction with
  | _ s ih =>
    cases h : round s with
    | inr b => exact ⟨b, .done h⟩
    | inl s' =>
      obtain ⟨hs', hlt⟩ := hround s s' hs h
      obtain ⟨b, hb⟩ := ih s' hlt hs'
      exact ⟨b, .again h hb⟩

end Loop

/-! ### Up a chain -/

namespace Chain

variable {α β : Type} [DecidableEq α]

/-- How far a climb has come. -/
structure Climb (α : Type) where
  seen : List α
  current : α

/-- One step up: the climb ends at the goal, at an element that has been seen or at the last one. -/
def climbRound (next : α → Option α) (goal : α) (s : Climb α) : Climb α ⊕ Bool :=
  if s.current = goal then .inr true
  else if s.current ∈ s.seen then .inr false
  else
    match next s.current with
    | some b => .inl ⟨s.current :: s.seen, b⟩
    | none => .inr false

/-- What has been collected on the way up a chain. -/
structure Gathering (α β : Type) where
  gathered : List β
  seen : List α
  current : Option α

/-- One step up: what the element has is added to what has been collected. -/
def gatherRound (next : α → Option α) (f : α → List β) (s : Gathering α β) :
    Gathering α β ⊕ List β :=
  match s.current with
  | none => .inr s.gathered
  | some a =>
    if a ∈ s.seen then .inr s.gathered
    else .inl ⟨s.gathered ++ f a, a :: s.seen, next a⟩

variable {next : α → Option α} {l seen : List α} {a goal : α}

theorem ends_climbRound_of_subset (hl : ∀ b, (next b).isSome → b ∈ l) {n : Nat}
    (hnodup : seen.Nodup) (hseen : seen ⊆ l) (hsteps : l.length < n + seen.length)
    (hgoal : goal ∉ seen) :
    Loop.Ends (climbRound next goal) ⟨seen, a⟩ ((trail next seen n a).contains goal) := by
  induction n generalizing seen a with
  | zero =>
    -- more would have been seen than there is
    have hle := hnodup.length_le_of_subset hseen
    omega
  | succ n ih =>
    unfold trail
    by_cases hat : a = goal
    · subst hat
      exact .done (by simp [climbRound, hgoal])
    · by_cases ha : a ∈ seen
      · exact .done (by simp [climbRound, hat, ha])
      · rw [if_neg ha]
        cases hd : next a with
        | none => exact .done (by simp [climbRound, hat, ha, hd, Ne.symm hat])
        | some d =>
          have hround : climbRound next goal ⟨seen, a⟩ = .inl ⟨a :: seen, d⟩ := by
            simp [climbRound, hat, ha, hd]
          have hrest := @ih (a :: seen) d (List.nodup_cons.2 ⟨ha, hnodup⟩)
            (List.cons_subset.2 ⟨hl a (by rw [hd, Option.isSome_some]), hseen⟩)
            (by rw [List.length_cons]; omega) (by simp [hgoal, Ne.symm hat])
          refine .again hround ?_
          simpa [Ne.symm hat] using hrest

/-- **A climb comes to an end**, and it comes by an element if and only if the trail does. -/
theorem ends_climbRound (hl : ∀ b, (next b).isSome → b ∈ l) (a goal : α) :
    Loop.Ends (climbRound next goal) ⟨[], a⟩
      ((trail next [] (l.length + 1) a).contains goal) :=
  ends_climbRound_of_subset hl .nil (List.nil_subset l) (by simp) List.not_mem_nil

theorem ends_gatherRound_of_subset (hl : ∀ b, (next b).isSome → b ∈ l) {f : α → List β} {n : Nat}
    (hnodup : seen.Nodup) (hseen : seen ⊆ l) (hsteps : l.length < n + seen.length)
    (gathered : List β) :
    Loop.Ends (gatherRound next f) ⟨gathered, seen, some a⟩
      (gathered ++ (trail next seen n a).flatMap f) := by
  induction n generalizing seen a gathered with
  | zero =>
    have hle := hnodup.length_le_of_subset hseen
    omega
  | succ n ih =>
    unfold trail
    by_cases ha : a ∈ seen
    · exact .done (by simp [gatherRound, ha])
    · have hround : gatherRound next f ⟨gathered, seen, some a⟩ =
          .inl ⟨gathered ++ f a, a :: seen, next a⟩ := by
        simp [gatherRound, ha]
      rw [if_neg ha, List.flatMap_cons, ← List.append_assoc]
      refine .again hround ?_
      cases hd : next a with
      | none => exact .done (by simp [gatherRound])
      | some d =>
        exact ih (List.nodup_cons.2 ⟨ha, hnodup⟩)
          (List.cons_subset.2 ⟨hl a (by rw [hd, Option.isSome_some]), hseen⟩)
          (by rw [List.length_cons]; omega) (gathered ++ f a)

/-- **Collecting comes to an end**, and it gives what the elements of the trail have. -/
theorem ends_gatherRound (hl : ∀ b, (next b).isSome → b ∈ l) (f : α → List β) (a : α) :
    Loop.Ends (gatherRound next f) ⟨[], [], some a⟩
      ((trail next [] (l.length + 1) a).flatMap f) :=
  ends_gatherRound_of_subset (n := l.length + 1) hl .nil (List.nil_subset l) (by simp) []

end Chain

/-! ### Depth first -/

namespace Graph

variable {α : Type} [DecidableEq α]

/-- How far a search has come: what it has visited, and what it still has to look at, the next
element first. -/
structure Search (α : Type) where
  visited : List α
  stack : List α

/-- One round of a search looks at one element.  It ends there if the element is accepted, else it
goes on with the successors that have not been visited, the last one first. -/
def searchRound (next : α → List α) (accepts : α → Bool) (s : Search α) : Search α ⊕ Bool :=
  match s.stack with
  | [] => .inr false
  | a :: stack =>
    if accepts a then .inr true
    else if a ∈ s.visited then .inl ⟨s.visited, stack⟩
    else .inl ⟨a :: s.visited, ((next a).filter (· ∉ a :: s.visited)).reverse ++ stack⟩

variable {next : α → List α} {accepts : α → Bool} {start : α} {s s' : Search α} {b : Bool}

/-- **What a round can do** when the search goes on. -/
theorem searchRound_eq_inl (h : searchRound next accepts s = .inl s') :
    ∃ a stack, s.stack = a :: stack ∧ accepts a = false ∧
      (a ∈ s.visited ∧ s' = ⟨s.visited, stack⟩ ∨
        a ∉ s.visited ∧
          s' = ⟨a :: s.visited, ((next a).filter (· ∉ a :: s.visited)).reverse ++ stack⟩) := by
  unfold searchRound at h
  split at h
  case h_1 => cases h
  case h_2 a stack hstack =>
    split at h
    case isTrue => cases h
    case isFalse hno =>
      refine ⟨a, stack, hstack, by simpa using hno, ?_⟩
      split at h
      case isTrue hmem => exact .inl ⟨hmem, (Sum.inl.inj h).symm⟩
      case isFalse hnew => exact .inr ⟨hnew, (Sum.inl.inj h).symm⟩

/-- What a round can do when the search ends. -/
theorem searchRound_eq_inr (h : searchRound next accepts s = .inr b) :
    s.stack = [] ∧ b = false ∨ ∃ a ∈ s.stack, accepts a = true ∧ b = true := by
  unfold searchRound at h
  split at h
  case h_1 hstack => exact .inl ⟨hstack, (Sum.inr.inj h).symm⟩
  case h_2 a stack hstack =>
    split at h
    case isTrue hyes =>
      refine .inr ⟨a, ?_, hyes, (Sum.inr.inj h).symm⟩
      rw [hstack]
      exact List.mem_cons_self
    case isFalse => split at h <;> cases h

/-- What holds of a search at every moment. -/
structure Search.IsFrom (next : α → List α) (accepts : α → Bool) (start : α) (s : Search α) :
    Prop where
  /-- What is looked at can be reached. -/
  reachable : ∀ x ∈ s.stack, Relation.ReflTransGen (Leads next) start x
  /-- What has been visited has been looked at and not accepted. -/
  rejected : ∀ x ∈ s.visited, accepts x = false
  /-- The start is not lost, … -/
  start_mem : start ∈ s.visited ∨ start ∈ s.stack
  /-- … and neither is a successor of what has been visited. -/
  successors : ∀ x ∈ s.visited, ∀ y ∈ next x, y ∈ s.visited ∨ y ∈ s.stack

namespace Search

omit [DecidableEq α] in
theorem isFrom_start (next : α → List α) (accepts : α → Bool) (start : α) :
    IsFrom next accepts start ⟨[], [start]⟩ where
  reachable _ hx := List.mem_singleton.1 hx ▸ .refl
  rejected _ hx := absurd hx List.not_mem_nil
  start_mem := .inr List.mem_cons_self
  successors _ hx := absurd hx List.not_mem_nil

/-- **A round keeps the invariant.** -/
theorem IsFrom.round (hs : s.IsFrom next accepts start)
    (h : searchRound next accepts s = .inl s') : s'.IsFrom next accepts start := by
  obtain ⟨a, stack, hstack, hno, ⟨hmem, rfl⟩ | ⟨hnew, rfl⟩⟩ := searchRound_eq_inl h
  · -- an element that has been visited is only taken from the stack
    have hkeep : ∀ x, x ∈ s.visited ∨ x ∈ s.stack → x ∈ s.visited ∨ x ∈ stack := by
      intro x hx
      rw [hstack, List.mem_cons] at hx
      rcases hx with hx | rfl | hx
      · exact .inl hx
      · exact .inl hmem
      · exact .inr hx
    refine ⟨fun x hx => hs.reachable x ?_, hs.rejected, hkeep start hs.start_mem, ?_⟩
    · rw [hstack]
      exact List.mem_cons_of_mem a hx
    · intro x hx y hy
      exact hkeep y (hs.successors x hx y hy)
  · have ha : Relation.ReflTransGen (Leads next) start a :=
      hs.reachable a (by rw [hstack]; exact List.mem_cons_self)
    have hpushed : ∀ y, y ∈ ((next a).filter (· ∉ a :: s.visited)).reverse ++ stack ↔
        (y ∈ next a ∧ y ∉ a :: s.visited) ∨ y ∈ stack := by
      simp
    have hkeep : ∀ x, x ∈ s.visited ∨ x ∈ s.stack → x ∈ a :: s.visited ∨
        x ∈ ((next a).filter (· ∉ a :: s.visited)).reverse ++ stack := by
      intro x hx
      rw [hstack, List.mem_cons] at hx
      rw [hpushed, List.mem_cons]
      tauto
    refine ⟨?_, ?_, hkeep start hs.start_mem, ?_⟩
    · intro x hx
      rcases (hpushed x).1 hx with ⟨hx, -⟩ | hx
      · exact ha.tail hx
      · exact hs.reachable x (by rw [hstack]; exact List.mem_cons_of_mem a hx)
    · intro x hx
      rcases List.mem_cons.1 hx with rfl | hx
      · exact hno
      · exact hs.rejected x hx
    · intro x hx y hy
      rcases List.mem_cons.1 hx with rfl | hx
      · -- a successor is on the stack unless it has been visited
        by_cases hy' : y ∈ x :: s.visited
        · exact .inl hy'
        · exact .inr ((hpushed y).2 (.inl ⟨hy, hy'⟩))
      · exact hkeep y (hs.successors x hx y hy)

/-- How much a search has still to do: the elements of `l` that have not been visited, and for
searches that have visited the same, what is on the stack. -/
def rank (l : List α) (s : Search α) : ℕ ×ₗ ℕ :=
  toLex ((l.toFinset \ s.visited.toFinset).card, s.stack.length)

/-- **A round has less to do** than the one before. -/
theorem rank_lt {l : List α} (hl : ∀ x ∈ s.stack, x ∈ l)
    (h : searchRound next accepts s = .inl s') : s'.rank l < s.rank l := by
  rw [rank, rank, Prod.Lex.toLex_lt_toLex]
  obtain ⟨a, stack, hstack, -, ⟨-, rfl⟩ | ⟨hnew, rfl⟩⟩ := searchRound_eq_inl h
  · refine .inr ⟨rfl, ?_⟩
    rw [hstack, List.length_cons]
    exact Nat.lt_succ_self _
  · have ha : a ∈ l := hl a (by rw [hstack]; exact List.mem_cons_self)
    have hsubset : l.toFinset \ (a :: s.visited).toFinset ⊂ l.toFinset \ s.visited.toFinset := by
      rw [Finset.ssubset_iff_of_subset]
      · exact ⟨a, by simp [ha, hnew], by simp⟩
      · exact Finset.sdiff_subset_sdiff (Finset.Subset.refl _) (by simp)
    exact .inl (Finset.card_lt_card hsubset)

omit [DecidableEq α] in
/-- When nothing is left to look at, all that can be reached has been visited. -/
theorem IsFrom.mem_visited (hs : s.IsFrom next accepts start) (hempty : s.stack = []) {x : α}
    (hx : Relation.ReflTransGen (Leads next) start x) : x ∈ s.visited := by
  have hnone : ∀ {y}, y ∈ s.visited ∨ y ∈ s.stack → y ∈ s.visited := by
    intro y hy
    rw [hempty] at hy
    exact hy.resolve_right List.not_mem_nil
  induction hx with
  | refl => exact hnone hs.start_mem
  | tail _ hstep ih => exact hnone (hs.successors _ ih _ hstep)

end Search

/-- **A search comes to an end** where all successors lie in a list, and then it says whether an
accepted element can be reached. -/
theorem exists_ends_searchRound {l : List α} (hl : ∀ x, next x ⊆ l) (accepts : α → Bool)
    (start : α) :
    ∃ b, Loop.Ends (searchRound next accepts) ⟨[], [start]⟩ b ∧
      (b = true ↔ ∃ x, Relation.ReflTransGen (Leads next) start x ∧ accepts x = true) := by
  have hstart := Search.isFrom_start next accepts start
  have hmem : ∀ x, Relation.ReflTransGen (Leads next) start x → x ∈ start :: l := by
    intro x hx
    rcases Relation.ReflTransGen.cases_tail hx with rfl | ⟨y, -, hyx⟩
    · exact List.mem_cons_self
    · exact List.mem_cons_of_mem start (hl y hyx)
  have hwf : WellFounded fun s' s : Search α => s'.rank (start :: l) < s.rank (start :: l) :=
    InvImage.wf (Search.rank (start :: l)) wellFounded_lt
  have hround : ∀ s s' : Search α, s.IsFrom next accepts start →
      searchRound next accepts s = .inl s' →
      s'.IsFrom next accepts start ∧ s'.rank (start :: l) < s.rank (start :: l) := by
    intro s s' hs h
    exact ⟨hs.round h, Search.rank_lt (fun x hx => hmem x (hs.reachable x hx)) h⟩
  obtain ⟨b, hb⟩ := Loop.exists_ends hwf hround hstart
  refine ⟨b, hb, ?_⟩
  obtain ⟨last, hlast, hdone⟩ := hb.exists_last (fun _ _ hs h => hs.round h) hstart
  rcases searchRound_eq_inr hdone with ⟨hempty, rfl⟩ | ⟨a, ha, hyes, rfl⟩
  · refine iff_of_false Bool.false_ne_true ?_
    rintro ⟨x, hx, hyes⟩
    have hno := hlast.rejected x (hlast.mem_visited hempty hx)
    rw [hno] at hyes
    exact Bool.false_ne_true hyes
  · exact iff_of_true rfl ⟨a, hlast.reachable a ha, hyes⟩

end Graph

end Schemata

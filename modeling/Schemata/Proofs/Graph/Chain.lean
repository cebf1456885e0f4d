import Mathlib.Data.Finset.Card
import Mathlib.Logic.Relation
import Schemata.Graph.Chain

/-!
# Chains without an end

`IsEndless next a` says that the chain from `a` has no end: it is the first element of an infinite
sequence of which each element has the next one as its successor.

Where only finitely many elements have a successor, a chain without an end runs into a circle, so it
suffices to count: a chain that goes on for one step more than there are such elements goes on for
ever (`isEndless_iff_continues`).

With as many steps the trail from an element lists all that follow it (`mem_trail_iff`).

A chain that comes to an end is listed as a whole (`isWhole_trail`): the list goes from successor to
successor, its last element has none, and nothing comes twice in it.

Whether a chain has an end or not, a search along it that stops at an element which it has passed
comes to an end (`isSearch_findSome?_trail`), and it gives the answer of the nearest element that
has one (`findSome?_trail_eq_some_iff`).
-/

namespace Schemata.Chain

variable {α : Type} {next : α → Option α}

/-- The chain from an element has no end. -/
def IsEndless (next : α → Option α) (a : α) : Prop :=
  ∃ chain : Nat → α, chain 0 = a ∧ ∀ n, next (chain n) = some (chain (n + 1))

/-- The element that is `n` steps on, if the chain goes on for so long. -/
def after (next : α → Option α) : Nat → α → Option α
  | 0, a => some a
  | n + 1, a => (after next n a).bind next

/-- One element follows another. -/
def Follows (next : α → Option α) (a b : α) : Prop := next a = some b

/-! ### Counting steps -/

theorem continues_succ_of_next {a b : α} (h : next a = some b) (n : Nat) :
    continues next (n + 1) a = continues next n b := by
  rw [continues, h]

theorem after_succ_of_next {a b : α} (h : next a = some b) (n : Nat) :
    after next (n + 1) a = after next n b := by
  induction n with
  | zero => simp [after, h]
  | succ n ih => rw [after, ih, after]

theorem continues_eq_isSome_after (n : Nat) (a : α) :
    continues next n a = (after next n a).isSome := by
  induction n generalizing a with
  | zero => rfl
  | succ n ih =>
    cases h : next a with
    | none =>
      have hnone : after next (n + 1) a = none := by
        clear ih
        induction n with
        | zero => simp [after, h]
        | succ n ih => rw [after, ih, Option.bind_none]
      rw [hnone, continues, h, Option.isSome_none]
    | some b => rw [continues_succ_of_next h, ih, after_succ_of_next h]

theorem continues_of_le {m n : Nat} (hmn : m ≤ n) {a : α} (h : continues next n a = true) :
    continues next m a = true := by
  induction m generalizing n a with
  | zero => rfl
  | succ m ih =>
    obtain ⟨n, rfl⟩ : ∃ k, n = k + 1 := ⟨n - 1, by omega⟩
    cases hb : next a with
    | none => simp [continues, hb] at h
    | some b =>
      rw [continues_succ_of_next hb] at h ⊢
      exact ih (by omega) h

/-- A chain has no end iff it goes on for any number of steps. -/
theorem isEndless_iff_forall_continues (a : α) :
    IsEndless next a ↔ ∀ n, continues next n a = true := by
  constructor
  · rintro ⟨chain, rfl, hchain⟩ n
    suffices h : ∀ k, continues next n (chain k) = true from h 0
    induction n with
    | zero => intro k; rfl
    | succ n ih =>
      intro k
      rw [continues_succ_of_next (hchain k)]
      exact ih (k + 1)
  · intro h
    have hsome (n : Nat) : (after next n a).isSome := by
      rw [← continues_eq_isSome_after]
      exact h n
    refine ⟨fun n => (after next n a).get (hsome n), rfl, fun n => ?_⟩
    obtain ⟨b, hb⟩ := Option.isSome_iff_exists.1 (hsome n)
    have hn : after next (n + 1) a = next b := by rw [after, hb, Option.bind_some]
    simp only [hb, Option.get_some, Option.some_get, ← hn]

/-! ### Steps and circles -/

theorem isEndless_iff_of_next {a b : α} (h : next a = some b) :
    IsEndless next a ↔ IsEndless next b := by
  rw [isEndless_iff_forall_continues, isEndless_iff_forall_continues]
  constructor
  · intro ha n
    rw [← continues_succ_of_next h]
    exact ha (n + 1)
  · intro hb n
    cases n with
    | zero => rfl
    | succ n =>
      rw [continues_succ_of_next h]
      exact hb n

theorem exists_next_of_isEndless {a : α} (h : IsEndless next a) : ∃ b, next a = some b := by
  obtain ⟨chain, rfl, hchain⟩ := h
  exact ⟨chain 1, hchain 0⟩

/-- The chain from an element of a circle has no end. -/
theorem isEndless_of_circle {a : α} (h : Relation.TransGen (Follows next) a a) :
    IsEndless next a := by
  rw [isEndless_iff_forall_continues]
  intro n
  induction n generalizing a with
  | zero => rfl
  | succ n ih =>
    -- the successor lies on the same circle
    obtain ⟨b, hab, hba⟩ := Relation.TransGen.head'_iff.1 h
    rw [continues_succ_of_next hab]
    exact ih (Relation.TransGen.tail' hba hab)

theorem transGen_of_after {a b : α} {n : Nat} (h : after next (n + 1) a = some b) :
    Relation.TransGen (Follows next) a b := by
  induction n generalizing b with
  | zero => exact .single (by simpa [after, Follows] using h)
  | succ n ih =>
    obtain ⟨d, hd, hb⟩ := Option.bind_eq_some_iff.1 h
    exact (ih hd).tail hb

theorem after_add (m n : Nat) (a : α) :
    after next (m + n) a = (after next m a).bind (after next n) := by
  induction n with
  | zero => simp [after]
  | succ n ih =>
    rw [← Nat.add_assoc, after, ih, Option.bind_assoc]
    rfl

theorem isEndless_of_after {a b : α} {n : Nat} (h : after next n a = some b)
    (hb : IsEndless next b) : IsEndless next a := by
  induction n generalizing b with
  | zero =>
    rw [after, Option.some.injEq] at h
    rwa [h]
  | succ n ih =>
    obtain ⟨d, hd, hdb⟩ := Option.bind_eq_some_iff.1 h
    exact ih hd ((isEndless_iff_of_next hdb).2 hb)

/-- **Counting suffices.**  Where all elements with a successor are in a list, a chain has no end
iff it goes on for one step more than the list is long: of that many elements two are the same. -/
theorem isEndless_iff_continues [DecidableEq α] {l : List α} (hl : ∀ b, (next b).isSome → b ∈ l)
    (a : α) : IsEndless next a ↔ continues next (l.length + 1) a = true := by
  constructor
  · intro h
    exact (isEndless_iff_forall_continues a).1 h _
  · intro h
    have hsome (i : Nat) (hi : i < l.length + 1) : ∃ b, after next i a = some b ∧ b ∈ l := by
      have hi' := continues_of_le (Nat.succ_le_of_lt hi) h
      rw [continues_eq_isSome_after] at hi'
      obtain ⟨d, hd⟩ := Option.isSome_iff_exists.1 hi'
      obtain ⟨b, hb, hbd⟩ := Option.bind_eq_some_iff.1 hd
      exact ⟨b, hb, hl b (by rw [hbd, Option.isSome_some])⟩
    have : Nonempty α := ⟨a⟩
    choose! node hnode hmem using hsome
    have hcard : l.toFinset.card < (Finset.range (l.length + 1)).card := by
      rw [Finset.card_range]
      exact Nat.lt_succ_of_le l.toFinset_card_le
    obtain ⟨i, hi, j, hj, hij, heq⟩ := Finset.exists_ne_map_eq_of_card_lt_of_maps_to hcard
      (f := node) (fun i hi => by simpa using hmem i (by simpa using hi))
    wlog hlt : i < j generalizing i j
    · exact this j hj i hi hij.symm heq.symm (by omega)
    have hi' := hnode i (Finset.mem_range.1 hi)
    have hj' := hnode j (Finset.mem_range.1 hj)
    obtain ⟨k, rfl⟩ : ∃ k, j = i + (k + 1) := ⟨j - i - 1, by omega⟩
    rw [after_add, hi', Option.bind_some, ← heq] at hj'
    exact isEndless_of_after hi' (isEndless_of_circle (transGen_of_after hj'))

/-! ### Trails -/

section trail

variable [DecidableEq α] {seen : List α} {a b : α}

theorem reflTransGen_of_mem_trail {n : Nat} (h : b ∈ trail next seen n a) :
    Relation.ReflTransGen (Follows next) a b := by
  induction n generalizing seen a with
  | zero => exact absurd h List.not_mem_nil
  | succ n ih =>
    unfold trail at h
    split at h
    · exact absurd h List.not_mem_nil
    · rcases List.mem_cons.1 h with rfl | h
      · exact .refl
      · cases hd : next a with
        | none => simp [hd] at h
        | some d =>
          rw [hd] at h
          exact .head hd (ih h)

/-- **Enough steps.**  If all that has been seen is followed by something seen or by the element at
which the trail goes on, and there are more steps than elements that have not been seen, nothing
that follows is missed. -/
theorem mem_trail_of_follows {l : List α} (hl : ∀ b, (next b).isSome → b ∈ l) {n : Nat}
    (hnodup : seen.Nodup) (hseen : seen ⊆ l) (hsteps : l.length < n + seen.length)
    (hclosed : ∀ x ∈ seen, ∀ y, next x = some y → y ∈ seen ∨ y = a) {x y : α}
    (hx : x ∈ seen ∨ x ∈ trail next seen n a) (hxy : next x = some y) :
    y ∈ seen ∨ y ∈ trail next seen n a := by
  induction n generalizing seen a with
  | zero =>
    have hle := hnodup.length_le_of_subset hseen
    omega
  | succ n ih =>
    unfold trail at hx ⊢
    by_cases ha : a ∈ seen
    · simp only [ha, ↓reduceIte, List.not_mem_nil, or_false] at hx ⊢
      exact (hclosed x hx y hxy).elim id fun h => h ▸ ha
    · simp only [ha, ↓reduceIte, List.mem_cons] at hx ⊢
      cases hd : next a with
      | none =>
        simp only [hd, List.not_mem_nil, or_false] at hx ⊢
        rcases hx with hx | rfl
        · exact hclosed x hx y hxy
        · rw [hd] at hxy
          cases hxy
      | some d =>
        simp only [hd] at hx ⊢
        have hnext := @ih (a :: seen) d (List.nodup_cons.2 ⟨ha, hnodup⟩)
          (List.cons_subset.2 ⟨hl a (by rw [hd, Option.isSome_some]), hseen⟩)
          (by rw [List.length_cons]; omega) ?_ ?_
        · rw [List.mem_cons] at hnext
          tauto
        · intro z hz w hw
          rcases List.mem_cons.1 hz with rfl | hz
          · rw [hd, Option.some.injEq] at hw
            exact .inr hw.symm
          · rcases hclosed z hz w hw with hw | rfl
            · exact .inl (List.mem_cons_of_mem _ hw)
            · exact .inl List.mem_cons_self
        · rw [List.mem_cons]
          tauto

/-- **A trail misses nothing.**  Where all elements with a successor are in a list, one step more
than the list is long leads to all that follow. -/
theorem mem_trail_iff {l : List α} (hl : ∀ b, (next b).isSome → b ∈ l) :
    b ∈ trail next [] (l.length + 1) a ↔ Relation.ReflTransGen (Follows next) a b := by
  refine ⟨reflTransGen_of_mem_trail, fun h => ?_⟩
  induction h with
  | refl => exact List.mem_cons_self
  | tail _ hxy ih =>
    have h := mem_trail_of_follows hl .nil (List.nil_subset _) (by simp)
      (fun x hx => absurd hx List.not_mem_nil) (.inr ih) hxy
    exact h.resolve_left List.not_mem_nil

end trail

/-! ### Whole chains -/

/-- A list is the whole chain from an element on: it goes from successor to successor, and the last
element has none. -/
inductive IsWhole (next : α → Option α) : α → List α → Prop
  | last {a : α} (h : next a = none) : IsWhole next a [a]
  | step {a b : α} {l : List α} (h : next a = some b) (hl : IsWhole next b l) :
    IsWhole next a (a :: l)

namespace IsWhole

variable {a b : α} {l lower upper : List α}

theorem head?_eq (h : IsWhole next a l) : l.head? = some a := by
  cases h <;> rfl

/-- From each of its elements on a whole chain is whole. -/
theorem of_append (h : IsWhole next a (lower ++ b :: upper)) : IsWhole next b (b :: upper) := by
  induction lower generalizing a with
  | nil =>
    obtain rfl : b = a := Option.some.inj h.head?_eq
    exact h
  | cons x lower ih =>
    generalize hl : x :: lower ++ b :: upper = l at h
    cases h with
    | last => simp at hl
    | step _ hrest =>
      obtain ⟨-, rfl⟩ := List.cons.inj hl
      exact ih hrest

/-- There is no other whole chain from the same element on. -/
theorem unique {l' : List α} (h : IsWhole next a l) (h' : IsWhole next a l') : l = l' := by
  induction h generalizing l' with
  | last hnone =>
    cases h' with
    | last => rfl
    | step hsome => cases hnone.symm.trans hsome
  | step hsome _ ih =>
    cases h' with
    | last hnone => cases hsome.symm.trans hnone
    | step hsome' hrest =>
      obtain rfl := Option.some.inj (hsome.symm.trans hsome')
      rw [ih hrest]

theorem reflTransGen_of_mem (h : IsWhole next a l) (hb : b ∈ l) :
    Relation.ReflTransGen (Follows next) a b := by
  induction h with
  | last =>
    rw [List.mem_singleton.1 hb]
  | step hnext _ ih =>
    rcases List.mem_cons.1 hb with rfl | hb
    · exact .refl
    · exact .head hnext (ih hb)

theorem not_isEndless (h : IsWhole next a l) : ¬ IsEndless next a := by
  induction h with
  | last hnone =>
    intro he
    obtain ⟨b, hb⟩ := exists_next_of_isEndless he
    cases hnone.symm.trans hb
  | step hnext _ ih => rwa [isEndless_iff_of_next hnext]

/-- The elements follow each other as they are listed. -/
theorem pairwise (h : IsWhole next a l) : l.Pairwise (Relation.TransGen (Follows next)) := by
  induction h with
  | last => exact List.pairwise_singleton _ _
  | step hnext hrest ih =>
    exact List.pairwise_cons.2 ⟨fun b hb => .head' hnext (hrest.reflTransGen_of_mem hb), ih⟩

/-- An element that came twice would be on a circle. -/
theorem nodup (h : IsWhole next a l) : l.Nodup := by
  induction h with
  | last => exact List.nodup_singleton _
  | step hnext hrest ih =>
    refine List.nodup_cons.2 ⟨fun hmem => ?_, ih⟩
    exact (step hnext hrest).not_isEndless
      (isEndless_of_circle (.head' hnext (hrest.reflTransGen_of_mem hmem)))

end IsWhole

/-- Where no chain is without an end, elements that follow each other are the same. -/
theorem eq_of_reflTransGen {a b : α} (ha : ¬ IsEndless next a)
    (hab : Relation.ReflTransGen (Follows next) a b)
    (hba : Relation.ReflTransGen (Follows next) b a) : a = b := by
  rcases Relation.reflTransGen_iff_eq_or_transGen.1 hab with rfl | hab
  · rfl
  · exact absurd (isEndless_of_circle (hab.trans_left hba)) ha

section trail

variable [DecidableEq α] {seen l : List α} {a : α}

/-- **A chain that comes to an end is listed as a whole:** neither do the steps run out nor does the
trail come to an element that has been seen. -/
theorem isWhole_trail_of_follows (hl : ∀ b, (next b).isSome → b ∈ l) {n : Nat}
    (ha : ¬ IsEndless next a) (hseen : ∀ x ∈ seen, Relation.TransGen (Follows next) x a)
    (hnodup : seen.Nodup) (hsteps : l.length < n + seen.length) :
    IsWhole next a (trail next seen n a) := by
  induction n generalizing seen a with
  | zero =>
    have hsubset : seen ⊆ l := fun x hx => by
      obtain ⟨b, hxb, -⟩ := Relation.TransGen.head'_iff.1 (hseen x hx)
      exact hl x (by rw [hxb, Option.isSome_some])
    have hle := hnodup.length_le_of_subset hsubset
    omega
  | succ n ih =>
    -- an element that has been seen leads to `a`, so `a` is none of them
    have hnew : a ∉ seen := fun hmem => ha (isEndless_of_circle (hseen a hmem))
    unfold trail
    rw [if_neg hnew]
    cases hnext : next a with
    | none => exact .last hnext
    | some b =>
      refine .step hnext (ih ?_ ?_ (List.nodup_cons.2 ⟨hnew, hnodup⟩) ?_)
      · rwa [← isEndless_iff_of_next hnext]
      · intro x hx
        rcases List.mem_cons.1 hx with rfl | hx
        · exact .single hnext
        · exact (hseen x hx).tail hnext
      · rw [List.length_cons]
        omega

theorem isWhole_trail (hl : ∀ b, (next b).isSome → b ∈ l) (ha : ¬ IsEndless next a) :
    IsWhole next a (trail next [] (l.length + 1) a) :=
  isWhole_trail_of_follows hl ha (fun _ hx => absurd hx List.not_mem_nil) .nil (by simp)

end trail

/-! ### Searches along a chain -/

section search

variable {β : Type} {f : α → Option β} {a b : α} {r : β}

/-- A search along a chain for an element that has an answer, and what comes of it.  The search ends
at the first such element, at one without a successor or at one that has been seen. -/
inductive IsSearch (next : α → Option α) (f : α → Option β) : List α → α → Option β → Prop
  | again {seen : List α} {a : α} (hseen : a ∈ seen) : IsSearch next f seen a none
  | found {seen : List α} {a : α} {r : β} (hnew : a ∉ seen) (hf : f a = some r) :
    IsSearch next f seen a (some r)
  | last {seen : List α} {a : α} (hnew : a ∉ seen) (hf : f a = none) (hlast : next a = none) :
    IsSearch next f seen a none
  | step {seen : List α} {a b : α} {r? : Option β} (hnew : a ∉ seen) (hf : f a = none)
    (hnext : next a = some b) (hrest : IsSearch next f (a :: seen) b r?) :
    IsSearch next f seen a r?

theorem exists_after_of_reflTransGen (h : Relation.ReflTransGen (Follows next) a b) :
    ∃ n, after next n a = some b := by
  induction h with
  | refl => exact ⟨0, rfl⟩
  | tail _ hstep ih =>
    obtain ⟨n, hn⟩ := ih
    exact ⟨n + 1, by rw [after, hn, Option.bind_some, hstep]⟩

theorem reflTransGen_of_after {n : Nat} (h : after next n a = some b) :
    Relation.ReflTransGen (Follows next) a b := by
  cases n with
  | zero =>
    rw [after, Option.some.injEq] at h
    rw [h]
  | succ n => exact (transGen_of_after h).to_reflTransGen

variable [DecidableEq α] {l seen : List α}

/-- The elements of a trail stand in it as many steps on as they are from its first one. -/
theorem after_of_getElem?_trail {n i : Nat} (h : (trail next seen n a)[i]? = some b) :
    after next i a = some b := by
  induction n generalizing seen a i with
  | zero => cases h
  | succ n ih =>
    unfold trail at h
    split at h
    · cases h
    · cases i with
      | zero => exact h
      | succ i =>
        rw [List.getElem?_cons_succ] at h
        cases hd : next a with
        | none =>
          rw [hd] at h
          cases h
        | some d =>
          rw [hd] at h
          rw [after_succ_of_next hd]
          exact ih h

/-- **A search comes to an end** before the steps run out, if there are more of them than elements
that have a successor and have not been seen. -/
theorem isSearch_findSome?_trail_of_subset (hl : ∀ b, (next b).isSome → b ∈ l) {n : Nat}
    (hnodup : seen.Nodup) (hseen : seen ⊆ l) (hsteps : l.length < n + seen.length) :
    IsSearch next f seen a ((trail next seen n a).findSome? f) := by
  induction n generalizing seen a with
  | zero =>
    have hle := hnodup.length_le_of_subset hseen
    omega
  | succ n ih =>
    unfold trail
    by_cases ha : a ∈ seen
    · rw [if_pos ha]
      exact .again ha
    · rw [if_neg ha, List.findSome?_cons]
      cases hf : f a with
      | some r => exact .found ha hf
      | none =>
        cases hd : next a with
        | none => exact .last ha hf hd
        | some d =>
          refine .step ha hf hd (ih (List.nodup_cons.2 ⟨ha, hnodup⟩) ?_ ?_)
          · exact List.cons_subset.2 ⟨hl a (by rw [hd, Option.isSome_some]), hseen⟩
          · rw [List.length_cons]
            omega

theorem isSearch_findSome?_trail (hl : ∀ b, (next b).isSome → b ∈ l) (a : α) :
    IsSearch next f [] a ((trail next [] (l.length + 1) a).findSome? f) :=
  isSearch_findSome?_trail_of_subset hl .nil (List.nil_subset l) (by simp)

/-- No element of a chain has an answer if none that is listed has one. -/
theorem findSome?_trail_eq_none_iff (hl : ∀ b, (next b).isSome → b ∈ l) :
    (trail next [] (l.length + 1) a).findSome? f = none ↔
      ∀ n b, after next n a = some b → f b = none := by
  rw [List.findSome?_eq_none_iff]
  constructor
  · intro h n b hb
    exact h b ((mem_trail_iff hl).2 (reflTransGen_of_after hb))
  · intro h b hb
    obtain ⟨n, hn⟩ := exists_after_of_reflTransGen ((mem_trail_iff hl).1 hb)
    exact h n b hn

/-- The first element that is listed and has an answer is as near as any that has one. -/
theorem exists_after_of_findSome?_trail {n : Nat} (h : (trail next [] n a).findSome? f = some r) :
    ∃ i b, after next i a = some b ∧ f b = some r ∧
      ∀ j < i, ∀ x, after next j a = some x → f x = none := by
  obtain ⟨before, b, upper, heq, hb, hbefore⟩ := List.findSome?_eq_some_iff.1 h
  have hplace : (trail next [] n a)[before.length]? = some b := by simp [heq]
  refine ⟨before.length, b, after_of_getElem?_trail hplace, hb, fun j hj x hx => ?_⟩
  have hj' : (trail next [] n a)[j]? = some before[j] := by
    rw [heq, List.getElem?_append_left hj, List.getElem?_eq_getElem hj]
  obtain rfl : x = before[j] := Option.some.inj (hx.symm.trans (after_of_getElem?_trail hj'))
  exact hbefore _ (List.getElem_mem hj)

/-- **A search gives the answer of the nearest element** that has one, however far that is. -/
theorem findSome?_trail_eq_some_iff (hl : ∀ b, (next b).isSome → b ∈ l) :
    (trail next [] (l.length + 1) a).findSome? f = some r ↔
      ∃ n b, after next n a = some b ∧ f b = some r ∧
        ∀ m < n, ∀ x, after next m a = some x → f x = none := by
  refine ⟨exists_after_of_findSome?_trail, ?_⟩
  rintro ⟨n, b, hb, hr, hnearest⟩
  cases hfound : (trail next [] (l.length + 1) a).findSome? f with
  | none =>
    rw [(findSome?_trail_eq_none_iff hl).1 hfound n b hb] at hr
    cases hr
  | some r' =>
    -- neither of the two elements is nearer than the other
    obtain ⟨n', b', hb', hr', hnearest'⟩ := exists_after_of_findSome?_trail hfound
    rcases Nat.lt_trichotomy n n' with hlt | rfl | hgt
    · cases hr.symm.trans (hnearest' n hlt b hb)
    · obtain rfl : b = b' := Option.some.inj (hb.symm.trans hb')
      exact hr'.symm.trans hr
    · cases hr'.symm.trans (hnearest n' hgt b' hb')

end search

end Schemata.Chain

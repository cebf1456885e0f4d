import Mathlib.Data.List.Forall2

/-!
# Traversals that may fail

A traversal of a list succeeds if and only if each of its steps does (`mapM_eq_ok_iff`), and it
fails with the error of the first step that fails (`mapM_eq_error_iff`).
-/

namespace Schemata

variable {α β ε : Type} {f : α → Except ε β} {as : List α} {bs : List β} {x : ε}

theorem mapM_eq_ok_iff : as.mapM f = .ok bs ↔ List.Forall₂ (fun a b => f a = .ok b) as bs := by
  induction as generalizing bs with
  | nil => cases bs <;> simp [pure, Except.pure]
  | cons a as ih =>
    rw [List.mapM_cons, List.forall₂_cons_left_iff]
    cases ha : f a with
    | error x => simp [bind, Except.bind]
    | ok b =>
      simp only [← ih]
      cases has : as.mapM f <;> simp [bind, Except.bind, pure, Except.pure, eq_comm]

theorem mapM_eq_error_iff : as.mapM f = .error x ↔
    ∃ before a after, as = before ++ a :: after ∧ (∀ b ∈ before, ∃ v, f b = .ok v) ∧
      f a = .error x := by
  induction as with
  | nil => simp [pure, Except.pure]
  | cons a as ih =>
    rw [List.mapM_cons]
    constructor
    · intro h
      cases ha : f a with
      | error y =>
        rw [ha] at h
        cases h
        exact ⟨[], a, as, rfl, nofun, ha⟩
      | ok b =>
        rw [ha] at h
        cases has : as.mapM f with
        | ok bs =>
          rw [has] at h
          cases h
        | error y =>
          rw [has] at h
          cases h
          obtain ⟨before, a', after, rfl, hbefore, ha'⟩ := ih.1 has
          exact ⟨a :: before, a', after, rfl, List.forall_mem_cons.2 ⟨⟨b, ha⟩, hbefore⟩, ha'⟩
    · rintro ⟨before, a', after, heq, hbefore, ha'⟩
      cases before with
      | nil =>
        cases heq
        rw [ha']
        rfl
      | cons b before =>
        cases heq
        obtain ⟨⟨v, hv⟩, hbefore⟩ := List.forall_mem_cons.1 hbefore
        rw [hv, ih.2 ⟨before, a', after, rfl, hbefore, ha'⟩]
        rfl

theorem exists_mem_of_mapM_eq_error (h : as.mapM f = .error x) : ∃ a ∈ as, f a = .error x := by
  obtain ⟨before, a, after, rfl, -, ha⟩ := mapM_eq_error_iff.1 h
  exact ⟨a, List.mem_append_right _ List.mem_cons_self, ha⟩

theorem exists_mapM_eq_ok (h : ∀ a ∈ as, ∃ b, f a = .ok b) : ∃ bs, as.mapM f = .ok bs := by
  cases has : as.mapM f with
  | ok bs => exact ⟨bs, rfl⟩
  | error x =>
    obtain ⟨a, ha, hx⟩ := exists_mem_of_mapM_eq_error has
    obtain ⟨b, hb⟩ := h a ha
    cases hb.symm.trans hx

end Schemata

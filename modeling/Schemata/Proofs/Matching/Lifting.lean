import Mathlib.Data.List.Forall2
import Schemata.Placeholder
import Schemata.Proofs.Graph.Chain
import Schemata.Proofs.Graph.Reach

/-!
# Relations lifted to answers

Two catalogs may hold the same elements under other numbers.  Their answers are then compared by a
relation on elements, lifted to optional answers (`Option.Rel`), to lists (`List.Forall₂`) and to
answers that may be placeholders (`Element.Rel`); a placeholder is related to itself only.

Whatever is put together from related parts in the same way is related: a search in a list, a chain
of successors, the elements that can be reached.
-/

namespace Schemata

variable {α β γ δ : Type} {R : α → β → Prop} {S : γ → δ → Prop}

/-! ### Optional answers -/

section option

variable {a? : Option α} {b? : Option β}

theorem optionRel_map {f : α → γ} {g : β → δ} (h : Option.Rel R a? b?)
    (hfg : ∀ a b, R a b → S (f a) (g b)) : Option.Rel S (a?.map f) (b?.map g) := by
  cases h with
  | none => exact .none
  | some h => exact .some (hfg _ _ h)

theorem optionRel_bind {f : α → Option γ} {g : β → Option δ} (h : Option.Rel R a? b?)
    (hfg : ∀ a b, R a b → Option.Rel S (f a) (g b)) : Option.Rel S (a?.bind f) (b?.bind g) := by
  cases h with
  | none => exact .none
  | some h => exact hfg _ _ h

theorem optionRel_or {R : α → β → Prop} {c? : Option α} {d? : Option β} (h : Option.Rel R a? b?)
    (hor : Option.Rel R c? d?) : Option.Rel R (a?.or c?) (b?.or d?) := by
  cases h with
  | none => exact hor
  | some h => exact .some h

theorem optionRel_refl {R : α → α → Prop} (h : ∀ a, R a a) (a? : Option α) :
    Option.Rel R a? a? := by
  cases a? with
  | none => exact .none
  | some a => exact .some (h a)

/-- Either there is no answer on both sides, or there are related ones. -/
theorem optionRel_iff :
    Option.Rel R a? b? ↔ (a? = none ∧ b? = none) ∨ ∃ a b, a? = some a ∧ b? = some b ∧ R a b := by
  constructor
  · intro h
    cases h with
    | none => exact .inl ⟨rfl, rfl⟩
    | some h => exact .inr ⟨_, _, rfl, rfl, h⟩
  · rintro (⟨rfl, rfl⟩ | ⟨a, b, rfl, rfl, h⟩)
    · exact .none
    · exact .some h

theorem optionRel_flip (h : Option.Rel R a? b?) : Option.Rel (flip R) b? a? := by
  cases h with
  | none => exact .none
  | some h => exact .some h

/-- Related elements are answers together, where none is related to two. -/
theorem optionRel_eq_some_iff (hR : Relator.BiUnique R) (h : Option.Rel R a? b?) {a : α} {b : β}
    (hab : R a b) : a? = some a ↔ b? = some b := by
  cases h with
  | none => exact iff_of_false nofun nofun
  | some h =>
    rw [Option.some.injEq, Option.some.injEq]
    constructor
    · rintro rfl
      exact hR.2 h hab
    · rintro rfl
      exact hR.1 h hab

theorem optionRel_toList (h : Option.Rel R a? b?) : List.Forall₂ R a?.toList b?.toList := by
  cases h with
  | none => exact .nil
  | some h => exact .cons h .nil

end option

/-! ### Answers that may be placeholders -/

namespace Element

/-- Related elements, or the same placeholder. -/
inductive Rel (R : α → β → Prop) : Element α → Element β → Prop
  | declared {a : α} {b : β} (h : R a b) : Rel R (.declared a) (.declared b)
  | placeholder (p : Placeholder) : Rel R (.placeholder p) (.placeholder p)

variable {e : Element α} {e' : Element β}

theorem Rel.map {f : α → γ} {g : β → δ} (h : Rel R e e') (hfg : ∀ a b, R a b → S (f a) (g b)) :
    Rel S (e.map f) (e'.map g) := by
  cases h with
  | declared h => exact .declared (hfg _ _ h)
  | placeholder p => exact .placeholder p

theorem Rel.bind {f : α → Element γ} {g : β → Element δ} (h : Rel R e e')
    (hfg : ∀ a b, R a b → Rel S (f a) (g b)) : Rel S (e.bind f) (e'.bind g) := by
  cases h with
  | declared h => exact hfg _ _ h
  | placeholder p => exact .placeholder p

theorem rel_ofOption {a? : Option α} {b? : Option β} (p : Placeholder) (h : Option.Rel R a? b?) :
    Rel R (.ofOption p a?) (.ofOption p b?) := by
  cases h with
  | none => exact .placeholder p
  | some h => exact .declared h

theorem Rel.declared? (h : Rel R e e') : Option.Rel R e.declared? e'.declared? := by
  cases h with
  | declared h => exact .some h
  | placeholder => exact .none

/-- Related answers report the same. -/
theorem Rel.diagnostics_eq (h : Rel R e e') : e'.diagnostics = e.diagnostics := by
  cases h <;> rfl

theorem Rel.qualifiedName_eq {f : α → Name} {g : β → Name} (h : Rel R e e')
    (hfg : ∀ a b, R a b → g b = f a) : e'.qualifiedName g = e.qualifiedName f := by
  cases h with
  | declared h => exact hfg _ _ h
  | placeholder => rfl

end Element

/-! ### Lists -/

section list

variable {l : List α} {l' : List β}

theorem optionRel_find? {p : α → Bool} {q : β → Bool} (h : List.Forall₂ R l l')
    (hpq : ∀ a b, R a b → q b = p a) : Option.Rel R (l.find? p) (l'.find? q) := by
  induction h with
  | nil => exact .none
  | @cons a b _ _ hab _ ih =>
    rw [List.find?_cons, List.find?_cons, hpq a b hab]
    cases p a with
    | true => exact .some hab
    | false => exact ih

theorem optionRel_findSome? {f : α → Option γ} {g : β → Option δ} (h : List.Forall₂ R l l')
    (hfg : ∀ a b, R a b → Option.Rel S (f a) (g b)) :
    Option.Rel S (l.findSome? f) (l'.findSome? g) := by
  induction h with
  | nil => exact .none
  | @cons a b _ _ hab _ ih =>
    rw [List.findSome?_cons, List.findSome?_cons]
    rcases optionRel_iff.1 (hfg a b hab) with ⟨ha, hb⟩ | ⟨x, y, ha, hb, hxy⟩
    · rw [ha, hb]
      exact ih
    · rw [ha, hb]
      exact .some hxy

theorem forall₂_map {f : α → γ} {g : β → δ} (h : List.Forall₂ R l l')
    (hfg : ∀ a b, R a b → S (f a) (g b)) : List.Forall₂ S (l.map f) (l'.map g) :=
  List.rel_map (fun a b => hfg a b) h

theorem forall₂_map_same {f : α → γ} {g : α → δ} (l : List α) (hfg : ∀ a ∈ l, S (f a) (g a)) :
    List.Forall₂ S (l.map f) (l.map g) :=
  List.forall₂_map_left_iff.2 (List.forall₂_map_right_iff.2 (List.forall₂_same.2 hfg))

theorem forall₂_flatMap {f : α → List γ} {g : β → List δ} (h : List.Forall₂ R l l')
    (hfg : ∀ a b, R a b → List.Forall₂ S (f a) (g b)) :
    List.Forall₂ S (l.flatMap f) (l'.flatMap g) :=
  List.rel_flatMap h fun a b => hfg a b

theorem forall₂_filterMap {f : α → Option γ} {g : β → Option δ} (h : List.Forall₂ R l l')
    (hfg : ∀ a b, R a b → Option.Rel S (f a) (g b)) :
    List.Forall₂ S (l.filterMap f) (l'.filterMap g) :=
  List.rel_filterMap (fun a b => hfg a b) h

theorem forall₂_zip_zip {k : List γ} {k' : List δ} (h : List.Forall₂ R l l')
    (hk : List.Forall₂ S k k') :
    List.Forall₂ (fun p p' => R p.1 p'.1 ∧ S p.2 p'.2) (l.zip k) (l'.zip k') := by
  induction h generalizing k k' with
  | nil => exact .nil
  | cons hab _ ih =>
    cases hk with
    | nil => exact .nil
    | cons hcd hk => exact .cons ⟨hab, hcd⟩ (ih hk)

/-- What is read off related elements alike is the same. -/
theorem map_eq_of_forall₂ {f : α → γ} {g : β → γ} (h : List.Forall₂ R l l')
    (hfg : ∀ a b, R a b → g b = f a) : l'.map g = l.map f := by
  induction h with
  | nil => rfl
  | cons hab _ ih => rw [List.map_cons, List.map_cons, hfg _ _ hab, ih]

theorem flatMap_eq_of_forall₂ {f : α → List γ} {g : β → List γ} (h : List.Forall₂ R l l')
    (hfg : ∀ a b, R a b → g b = f a) : l'.flatMap g = l.flatMap f := by
  induction h with
  | nil => rfl
  | cons hab _ ih => rw [List.flatMap_cons, List.flatMap_cons, hfg _ _ hab, ih]

theorem filterMap_eq_of_forall₂ {f : α → Option γ} {g : β → Option γ} (h : List.Forall₂ R l l')
    (hfg : ∀ a b, R a b → g b = f a) : l'.filterMap g = l.filterMap f := by
  induction h with
  | nil => rfl
  | cons hab _ ih => rw [List.filterMap_cons, List.filterMap_cons, hfg _ _ hab, ih]

theorem exists_of_forall₂ (h : List.Forall₂ R l l') {a : α} (ha : a ∈ l) : ∃ b ∈ l', R a b := by
  induction h with
  | nil => exact absurd ha List.not_mem_nil
  | cons hab _ ih =>
    rcases List.mem_cons.1 ha with rfl | ha
    · exact ⟨_, List.mem_cons_self, hab⟩
    · obtain ⟨b, hb, hab⟩ := ih ha
      exact ⟨b, List.mem_cons_of_mem _ hb, hab⟩

theorem optionRel_getElem? (h : List.Forall₂ R l l') (i : Nat) : Option.Rel R l[i]? l'[i]? := by
  induction h generalizing i with
  | nil => exact .none
  | cons hab _ ih =>
    cases i with
    | zero => exact .some hab
    | succ i => exact ih i

end list

/-! ### Chains and what can be reached -/

namespace Chain

variable {next : α → Option α} {next' : β → Option β} {a : α} {b : β}

section steps

variable [DecidableEq α]

/-- With more steps than there are elements left, one step more leads no further. -/
theorem trail_succ {l : List α} (hl : ∀ b, (next b).isSome → b ∈ l) {seen : List α}
    (hnodup : seen.Nodup) (hseen : seen ⊆ l) {n : Nat} (hsteps : l.length < n + seen.length) :
    trail next seen (n + 1) a = trail next seen n a := by
  induction n generalizing seen a with
  | zero =>
    have hle := hnodup.length_le_of_subset hseen
    omega
  | succ n ih =>
    rw [trail, trail]
    by_cases ha : a ∈ seen
    · rw [if_pos ha, if_pos ha]
    · rw [if_neg ha, if_neg ha]
      cases hd : next a with
      | none => rfl
      | some d =>
        have hal : a ∈ l := hl a (by rw [hd, Option.isSome_some])
        exact congrArg (a :: ·) (ih (List.nodup_cons.2 ⟨ha, hnodup⟩)
          (List.cons_subset.2 ⟨hal, hseen⟩) (by rw [List.length_cons]; omega))

/-- A trail does not depend on the number of steps, if there are enough. -/
theorem trail_eq_of_le {l : List α} (hl : ∀ b, (next b).isSome → b ∈ l) {n : Nat}
    (hn : l.length + 1 ≤ n) (a : α) : trail next [] n a = trail next [] (l.length + 1) a := by
  induction n, hn using Nat.le_induction with
  | base => rfl
  | succ n hn ih =>
    rw [trail_succ hl .nil (List.nil_subset _) hn, ih]

end steps

section related

variable (hnext : ∀ a b, R a b → Option.Rel R (next a) (next' b))
include hnext

theorem continues_eq_of_rel (h : R a b) (n : Nat) :
    continues next' n b = continues next n a := by
  induction n generalizing a b with
  | zero => rfl
  | succ n ih =>
    unfold continues
    rcases optionRel_iff.1 (hnext a b h) with ⟨ha, hb⟩ | ⟨x, y, ha, hb, hxy⟩
    · rw [ha, hb]
    · rw [ha, hb]
      exact ih hxy

theorem isEndless_iff_of_rel (h : R a b) : IsEndless next' b ↔ IsEndless next a := by
  simp only [isEndless_iff_forall_continues, continues_eq_of_rel hnext h]

theorem exists_of_reflTransGen {x : α} (h : R a b) (hx : Relation.ReflTransGen (Follows next) a x) :
    ∃ y, R x y ∧ Relation.ReflTransGen (Follows next') b y := by
  induction hx with
  | refl => exact ⟨b, h, .refl⟩
  | @tail x z _ hz ih =>
    obtain ⟨y, hxy, hy⟩ := ih
    rcases optionRel_iff.1 (hnext x y hxy) with ⟨hnone, -⟩ | ⟨z', w, hz', hw, hzw⟩
    · exact absurd (hz.symm.trans hnone) (Option.some_ne_none z)
    · obtain rfl : z = z' := Option.some.inj (hz.symm.trans hz')
      exact ⟨w, hzw, hy.tail hw⟩

variable (hR : Relator.BiUnique R)
include hR

theorem reflTransGen_iff_of_rel {x : α} {y : β} (h : R a b) (hxy : R x y) :
    Relation.ReflTransGen (Follows next') b y ↔ Relation.ReflTransGen (Follows next) a x := by
  constructor
  · intro hy
    obtain ⟨x', hx', hx⟩ := exists_of_reflTransGen (R := flip R)
      (fun b a h => optionRel_flip (hnext a b h)) h hy
    rwa [hR.1 hx' hxy] at hx
  · intro hx
    obtain ⟨y', hy', hy⟩ := exists_of_reflTransGen hnext h hx
    rwa [hR.2 hy' hxy] at hy

variable [DecidableEq α] [DecidableEq β]

theorem forall₂_trail {seen : List α} {seen' : List β} (hseen : List.Forall₂ R seen seen')
    (h : R a b) (n : Nat) : List.Forall₂ R (trail next seen n a) (trail next' seen' n b) := by
  induction n generalizing seen seen' a b with
  | zero => exact .nil
  | succ n ih =>
    unfold trail
    have hmem : a ∈ seen ↔ b ∈ seen' := List.rel_mem hR h hseen
    by_cases ha : a ∈ seen
    · rw [if_pos ha, if_pos (hmem.1 ha)]
      exact .nil
    · rw [if_neg ha, if_neg (mt hmem.2 ha)]
      refine .cons h ?_
      rcases optionRel_iff.1 (hnext a b h) with ⟨hnone, hnone'⟩ | ⟨x, y, hx, hy, hxy⟩
      · rw [hnone, hnone']
        exact .nil
      · rw [hx, hy]
        exact ih (.cons h hseen) hxy

/-- Both sides may have more elements than are related; each counts its own, and that is enough. -/
theorem forall₂_trail_of_isSome {l : List α} {l' : List β} (hl : ∀ a, (next a).isSome → a ∈ l)
    (hl' : ∀ b, (next' b).isSome → b ∈ l') (h : R a b) :
    List.Forall₂ R (trail next [] (l.length + 1) a) (trail next' [] (l'.length + 1) b) := by
  have hmax := Nat.le_max_left (l.length + 1) (l'.length + 1)
  have hmax' := Nat.le_max_right (l.length + 1) (l'.length + 1)
  rw [← trail_eq_of_le hl hmax, ← trail_eq_of_le hl' hmax']
  exact forall₂_trail hnext hR .nil h _

end related

end Chain

namespace Graph

variable {next : α → List α} {next' : β → List β} {a x : α} {b y : β}
  (hnext : ∀ a b, R a b → List.Forall₂ R (next a) (next' b)) (h : R a b)
include hnext h

/-- What can be reached by related steps is related. -/
theorem exists_of_reflTransGen (hx : Relation.ReflTransGen (Leads next) a x) :
    ∃ y, R x y ∧ Relation.ReflTransGen (Leads next') b y := by
  induction hx with
  | refl => exact ⟨b, h, .refl⟩
  | @tail x z _ hz ih =>
    obtain ⟨y, hxy, hy⟩ := ih
    obtain ⟨w, hw, hzw⟩ := exists_of_forall₂ (hnext x y hxy) hz
    exact ⟨w, hzw, hy.tail hw⟩

theorem exists_of_reflTransGen' (hy : Relation.ReflTransGen (Leads next') b y) :
    ∃ x, R x y ∧ Relation.ReflTransGen (Leads next) a x :=
  exists_of_reflTransGen (R := flip R) (fun b a h => (hnext a b h).flip) h hy

end Graph

end Schemata

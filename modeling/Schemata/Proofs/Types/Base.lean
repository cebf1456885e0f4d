import Schemata.Proofs.Catalog
import Schemata.Proofs.Graph.Chain
import Schemata.Types.Base

/-!
# Chains of bases without an end

`Catalog.hasEndlessBases` counts steps.  It counts enough of them: it holds iff the chain of bases
from the type on has no end (`hasEndlessBases_iff`).

`Catalog.HasBase` says what the base of a type is, case by case and without counting; it holds of
what `Catalog.base?` gives and of nothing else (`base?_eq_iff`).
-/

namespace Schemata.Catalog

variable (c : Catalog) {t base : Declared .type}

/-- What the base of a type is.  The chain of bases goes on as long as each base is declared and of
the kind of the type that names it; it may run into a circle that the type is not part of. -/
inductive HasBase (t : Declared .type) : Option (Element (Declared .type)) → Prop
  /-- The type names no base, as no enumeration does. -/
  | unnamed (hn : c.baseName? t = none) : HasBase t none
  /-- Nothing has the name. -/
  | unresolved {reference : Name} (hn : c.baseName? t = some reference)
    (hr : c.resolve? (c.typeSchema t) .type reference = none) :
    HasBase t (some (.placeholder
      (.unresolved .unresolvedType (c.expand (c.typeSchema t) reference) (c.type t).location)))
  /-- The name is that of a type of another kind. -/
  | otherKind {reference : Name} {h : Handle .type} (hn : c.baseName? t = some reference)
    (hr : c.resolve? (c.typeSchema t) .type reference = some h)
    (hk : c.kind (c.locate t.model h) ≠ c.kind t) :
    HasBase t (some (.placeholder
      (c.wrongBase t (c.locate t.model h) (c.expand (c.typeSchema t) reference))))
  /-- The chain has no end. -/
  | cyclic {reference : Name} (hn : c.baseName? t = some reference)
    (he : Chain.IsEndless c.namedBase? t) :
    HasBase t (some (.placeholder
      (.cyclic (if c.kind t = .entity then .cyclicEntity else .cyclicComplex)
        (c.expand (c.typeSchema t) reference) (c.type t).location)))
  /-- The type has the base that it names. -/
  | declared {reference : Name} {h : Handle .type} (hn : c.baseName? t = some reference)
    (hr : c.resolve? (c.typeSchema t) .type reference = some h)
    (hk : c.kind (c.locate t.model h) = c.kind t) (he : ¬ Chain.IsEndless c.namedBase? t) :
    HasBase t (some (.declared (c.locate t.model h)))

/-- The default entry names no base, so a type that names one is among those of the catalog. -/
theorem mem_allElements_of_baseName? (h : (c.baseName? t).isSome) : t ∈ c.allElements .type := by
  rw [mem_allElements]
  by_contra hid
  have htype : c.type t = default := by
    have hsize : ¬ t.id.index < (c.model t.model).types.size := hid
    simp [type, Model.type, Array.getD, hsize]
  rw [baseName?, htype] at h
  exact Bool.false_ne_true h

theorem namedBase?_eq_some_iff :
    c.namedBase? t = some base ↔ ∃ reference h, c.baseName? t = some reference ∧
      c.resolve? (c.typeSchema t) .type reference = some h ∧ base = c.locate t.model h ∧
      c.kind base = c.kind t := by
  unfold namedBase?
  cases hn : c.baseName? t with
  | none => simp
  | some reference =>
    cases hr : c.resolve? (c.typeSchema t) .type reference with
    | none => simp [hr]
    | some h =>
      by_cases hk : c.kind (c.locate t.model h) = c.kind t
      · simp only [Option.bind_some, hr, hk, ↓reduceIte, Option.some.injEq]
        constructor
        · rintro rfl
          exact ⟨reference, h, rfl, hr, rfl, hk⟩
        · rintro ⟨_, h', rfl, hr', rfl, -⟩
          rw [hr, Option.some.injEq] at hr'
          rw [hr']
      · simp only [Option.bind_some, hr, hk, ↓reduceIte, reduceCtorEq, false_iff]
        rintro ⟨_, h', hn', hr', rfl, hk'⟩
        obtain rfl : reference = _ := Option.some.inj hn'
        rw [hr, Option.some.injEq] at hr'
        rw [← hr'] at hk'
        exact hk hk'

theorem mem_allElements_of_namedBase? (h : (c.namedBase? t).isSome) :
    t ∈ c.allElements .type := by
  obtain ⟨base, hbase⟩ := Option.isSome_iff_exists.1 h
  obtain ⟨reference, -, hn, -⟩ := c.namedBase?_eq_some_iff.1 hbase
  exact c.mem_allElements_of_baseName? (by rw [hn, Option.isSome_some])

theorem hasEndlessBases_iff (t : Declared .type) :
    c.hasEndlessBases t = true ↔ Chain.IsEndless c.namedBase? t :=
  (Chain.isEndless_iff_continues (fun _ => c.mem_allElements_of_namedBase?) t).symm

/-! ### The base, case by case -/

section cases

variable {reference : Name} {h : Handle .type}

theorem baseHandle?_of_noName (hn : c.baseName? t = none) : c.baseHandle? t = none := by
  rw [baseHandle?, hn, Option.map_none]

theorem baseHandle?_of_unresolved (hn : c.baseName? t = some reference)
    (hr : c.resolve? (c.typeSchema t) .type reference = none) :
    c.baseHandle? t = some (.placeholder
      (.unresolved .unresolvedType (c.expand (c.typeSchema t) reference) (c.type t).location)) := by
  rw [baseHandle?, hn, Option.map_some]
  simp only [resolve, hr]
  rfl

theorem baseHandle?_of_kind_ne (hn : c.baseName? t = some reference)
    (hr : c.resolve? (c.typeSchema t) .type reference = some h)
    (hk : c.kind (c.locate t.model h) ≠ c.kind t) :
    c.baseHandle? t = some (.placeholder
      (c.wrongBase t (c.locate t.model h) (c.expand (c.typeSchema t) reference))) := by
  rw [baseHandle?, hn, Option.map_some]
  simp only [resolve, hr, Element.ofOption, Element.bind, hk, ne_eq, not_false_eq_true, ↓reduceIte]

theorem baseHandle?_of_kind_eq (hn : c.baseName? t = some reference)
    (hr : c.resolve? (c.typeSchema t) .type reference = some h)
    (hk : c.kind (c.locate t.model h) = c.kind t) :
    c.baseHandle? t = some
      (if c.hasEndlessBases t then
        .placeholder (c.cyclicBase t (c.expand (c.typeSchema t) reference))
      else .declared h) := by
  rw [baseHandle?, hn, Option.map_some]
  simp only [resolve, hr, Element.ofOption, Element.bind, hk, ne_eq, not_true_eq_false, ↓reduceIte]

/-- The base is what it is said to be. -/
theorem hasBase_base? (t : Declared .type) : c.HasBase t (c.base? t) := by
  unfold base?
  cases hn : c.baseName? t with
  | none =>
    rw [c.baseHandle?_of_noName hn]
    exact .unnamed hn
  | some reference =>
    cases hr : c.resolve? (c.typeSchema t) .type reference with
    | none =>
      rw [c.baseHandle?_of_unresolved hn hr]
      exact .unresolved hn hr
    | some h =>
      by_cases hk : c.kind (c.locate t.model h) = c.kind t
      · rw [c.baseHandle?_of_kind_eq hn hr hk]
        by_cases he : Chain.IsEndless c.namedBase? t
        · rw [if_pos ((c.hasEndlessBases_iff t).2 he)]
          exact .cyclic hn he
        · rw [if_neg fun hcount => he ((c.hasEndlessBases_iff t).1 hcount)]
          exact .declared hn hr hk he
      · rw [c.baseHandle?_of_kind_ne hn hr hk]
        exact .otherKind hn hr hk

/-- A chain without an end starts from a type whose base is declared and of its own kind. -/
theorem exists_of_isEndless (he : Chain.IsEndless c.namedBase? t) :
    ∃ reference h, c.baseName? t = some reference ∧
      c.resolve? (c.typeSchema t) .type reference = some h ∧
      c.kind (c.locate t.model h) = c.kind t := by
  obtain ⟨base, hbase⟩ := Chain.exists_next_of_isEndless he
  obtain ⟨reference, h, hn, hr, rfl, hk⟩ := c.namedBase?_eq_some_iff.1 hbase
  exact ⟨reference, h, hn, hr, hk⟩

/-- Nothing else is the base. -/
theorem HasBase.eq_base? {answer : Option (Element (Declared .type))} (hb : c.HasBase t answer) :
    c.base? t = answer := by
  unfold base?
  cases hb with
  | unnamed hn => rw [c.baseHandle?_of_noName hn, Option.map_none]
  | unresolved hn hr =>
    rw [c.baseHandle?_of_unresolved hn hr]
    rfl
  | otherKind hn hr hk =>
    rw [c.baseHandle?_of_kind_ne hn hr hk]
    rfl
  | cyclic hn he =>
    obtain ⟨_, h, hn', hr, hk⟩ := c.exists_of_isEndless he
    obtain rfl := Option.some.inj (hn'.symm.trans hn)
    rw [c.baseHandle?_of_kind_eq hn hr hk, if_pos ((c.hasEndlessBases_iff t).2 he)]
    rfl
  | declared hn hr hk he =>
    rw [c.baseHandle?_of_kind_eq hn hr hk,
      if_neg fun hcount => he ((c.hasEndlessBases_iff t).1 hcount)]
    rfl

theorem base?_eq_iff {answer : Option (Element (Declared .type))} :
    c.base? t = answer ↔ c.HasBase t answer :=
  ⟨fun h => h ▸ c.hasBase_base? t, HasBase.eq_base? c⟩

end cases

/-! ### Placeholders for cycles -/

theorem isCyclic_cyclicBase (t : Declared .type) (name : Name) :
    (c.cyclicBase t name).kind.isCyclic = true := by
  unfold cyclicBase
  split <;> rfl

/-- Whether an answer is a placeholder for a cycle. -/
def isCyclicAnswer : Option (Element (Handle .type)) → Bool
  | some (.placeholder p) => p.kind.isCyclic
  | _ => false

/-- The base is a placeholder for a cycle iff the chain of bases has no end. -/
theorem isCyclicAnswer_baseHandle? (t : Declared .type) :
    isCyclicAnswer (c.baseHandle? t) = true ↔ Chain.IsEndless c.namedBase? t := by
  constructor
  · intro hcyclic
    cases hn : c.baseName? t with
    | none =>
      rw [c.baseHandle?_of_noName hn] at hcyclic
      exact absurd hcyclic Bool.false_ne_true
    | some reference =>
      cases hr : c.resolve? (c.typeSchema t) .type reference with
      | none =>
        rw [c.baseHandle?_of_unresolved hn hr] at hcyclic
        exact absurd hcyclic Bool.false_ne_true
      | some h =>
        by_cases hk : c.kind (c.locate t.model h) = c.kind t
        · by_cases he : c.hasEndlessBases t
          · exact (c.hasEndlessBases_iff t).1 he
          · rw [c.baseHandle?_of_kind_eq hn hr hk, ite_cond_eq_false _ _ (eq_false he)] at hcyclic
            exact absurd hcyclic Bool.false_ne_true
        · rw [c.baseHandle?_of_kind_ne hn hr hk] at hcyclic
          exact absurd hcyclic Bool.false_ne_true
  · intro he
    obtain ⟨reference, h, hn, hr, hk⟩ := c.exists_of_isEndless he
    rw [c.baseHandle?_of_kind_eq hn hr hk,
      ite_cond_eq_true _ _ (eq_true ((c.hasEndlessBases_iff t).2 he))]
    exact c.isCyclic_cyclicBase t _

end Schemata.Catalog

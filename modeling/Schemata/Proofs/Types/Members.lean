import Schemata.Proofs.Catalog.Lookup
import Schemata.Proofs.Types.Base
import Schemata.Types.Members

/-!
# Bases and properties of a type

`Catalog.ancestry` goes along bases for a bounded number of steps; it lists all bases there are
(`mem_ancestry_iff`).  Bases lie in the model of the type or in models that this one references
(`IsBuilt.sees_of_mem_ancestry`), and a property of a type is declared by one of them
(`mem_properties`), which is also the type that it names as the one that declares it
(`IsBuilt.declaringType_of_mem`).
-/

namespace Schemata.Catalog

variable {c : Catalog} {t base u : Declared .type} {p : Declared .property}

/-! ### Bases -/

/-- The declared base is the base that is named, unless the chain of such bases has no end. -/
theorem declaredBase?_eq_some_iff :
    c.declaredBase? t = some base ↔
      c.namedBase? t = some base ∧ ¬ Chain.IsEndless c.namedBase? t := by
  unfold declaredBase?
  rw [Option.bind_eq_some_iff]
  constructor
  · rintro ⟨e, he, hdeclared⟩
    cases c.base?_eq_iff.1 he with
    | declared hn hr hk hend =>
      cases hdeclared
      exact ⟨c.namedBase?_eq_some_iff.2 ⟨_, _, hn, hr, rfl, hk⟩, hend⟩
    | unresolved | otherKind | cyclic => cases hdeclared
  · rintro ⟨hbase, hend⟩
    obtain ⟨reference, h, hn, hr, rfl, hk⟩ := c.namedBase?_eq_some_iff.1 hbase
    exact ⟨_, c.base?_eq_iff.2 (.declared hn hr hk hend), rfl⟩

/-- A declared base is what the name of the base leads to. -/
theorem resolve?_of_declaredBase? (h : c.declaredBase? t = some base) :
    ∃ reference hd, c.baseName? t = some reference ∧
      c.resolve? (c.typeSchema t) .type reference = some hd ∧ base = c.locate t.model hd ∧
      c.kind base = c.kind t :=
  c.namedBase?_eq_some_iff.1 (declaredBase?_eq_some_iff.1 h).1

theorem mem_allElements_of_declaredBase? (h : (c.declaredBase? t).isSome) :
    t ∈ c.allElements .type := by
  obtain ⟨base, hbase⟩ := Option.isSome_iff_exists.1 h
  exact c.mem_allElements_of_namedBase?
    (Option.isSome_of_eq_some (declaredBase?_eq_some_iff.1 hbase).1)

theorem mem_ancestry_iff :
    base ∈ c.ancestry t ↔ Relation.ReflTransGen (Chain.Follows c.declaredBase?) t base :=
  Chain.mem_trail_iff fun _ => mem_allElements_of_declaredBase?

theorem kind_of_mem_ancestry (h : base ∈ c.ancestry t) : c.kind base = c.kind t := by
  induction mem_ancestry_iff.1 h with
  | refl => rfl
  | tail hd hstep ih =>
    obtain ⟨-, -, -, -, -, hk⟩ := resolve?_of_declaredBase? hstep
    exact hk.trans (ih (mem_ancestry_iff.2 hd))

/-- A declared base is an element of its model. -/
theorem mem_elements_of_declaredBase? (hm : c.TellsReferencesApart t.model)
    (h : c.declaredBase? t = some base) : base ∈ c.elements base.model .type := by
  obtain ⟨_, hd, -, hr, rfl, -⟩ := resolve?_of_declaredBase? h
  exact mem_elements_of_resolve? hm hr

namespace IsBuilt

variable (hc : c.IsBuilt)
include hc

/-- The bases of a type are declared in its model or in one that it references. -/
theorem sees_of_mem_ancestry (h : base ∈ c.ancestry t) : c.Sees t.model base.model := by
  induction mem_ancestry_iff.1 h with
  | refl => exact .inl rfl
  | @tail d base hd hstep ih =>
    obtain ⟨_, hd', -, -, rfl, -⟩ := resolve?_of_declaredBase? hstep
    exact hc.sees_trans (ih (mem_ancestry_iff.2 hd)) (sees_locate d.model hd')

theorem model_le_of_mem_ancestry (h : base ∈ c.ancestry t) : base.model ≤ t.model :=
  hc.le_of_sees (hc.sees_of_mem_ancestry h)

/-- The bases of an element are elements. -/
theorem mem_elements_of_mem_ancestry (hm : c.TellsReferencesApart t.model)
    (ht : t ∈ c.elements t.model .type) (h : base ∈ c.ancestry t) :
    base ∈ c.elements base.model .type := by
  rcases Relation.ReflTransGen.cases_tail (mem_ancestry_iff.1 h) with rfl | ⟨d, hd, hstep⟩
  · exact ht
  · have hsees := hc.sees_of_mem_ancestry (mem_ancestry_iff.2 hd)
    exact mem_elements_of_declaredBase? (hc.tellsReferencesApart_of_sees hm hsees) hstep

end IsBuilt

/-! ### Properties -/

theorem mem_declaredProperties :
    p ∈ c.declaredProperties t ↔ p.model = t.model ∧
      ∃ body, (c.type t).body.structured? = some body ∧ p.id ∈ body.properties := by
  obtain ⟨m, id⟩ := p
  unfold declaredProperties
  cases (c.type t).body.structured? with
  | none => simp
  | some body =>
    simp only [List.mem_map, Declared.mk.injEq, Option.some.injEq, exists_eq_left']
    constructor
    · rintro ⟨id', hid, rfl, rfl⟩
      exact ⟨rfl, hid⟩
    · rintro ⟨rfl, hid⟩
      exact ⟨id, hid, rfl, rfl⟩

theorem mem_properties :
    p ∈ c.properties t ↔ ∃ a ∈ c.ancestry t, p ∈ c.declaredProperties a := by
  simp [properties, List.mem_flatMap]

/-- The default entry declares no properties and names no base, so a type that has properties is
among those of the catalog. -/
theorem mem_allElements_of_mem_properties (h : p ∈ c.properties t) : t ∈ c.allElements .type := by
  obtain ⟨a, ha, hp⟩ := mem_properties.1 h
  rcases Relation.ReflTransGen.cases_head (mem_ancestry_iff.1 ha) with rfl | ⟨d, hd, -⟩
  · obtain ⟨-, body, hbody, hid⟩ := mem_declaredProperties.1 hp
    rw [mem_allElements]
    by_contra ht
    have htype : c.type t = default := by
      have hsize : ¬ t.id.index < (c.model t.model).types.size := ht
      simp [type, Model.type, Array.getD, hsize]
    rw [htype] at hbody
    cases hbody
    exact absurd hid List.not_mem_nil
  · exact mem_allElements_of_declaredBase? (Option.isSome_of_eq_some hd)

/-- A property names the type that lists it. -/
theorem IsBuilt.declaringType_of_mem (hc : c.IsBuilt) (h : p ∈ c.declaredProperties t) :
    c.declaringType p = t := by
  obtain ⟨m, id⟩ := p
  obtain ⟨m', id'⟩ := t
  obtain ⟨hm, body, hbody, hp⟩ := mem_declaredProperties.1 h
  obtain rfl : m = m' := hm
  exact congrArg (Declared.mk m) ((hc.isConsistent m).declaring_eq hbody hp)

/-- An enumeration is no complex or entity type, and neither is one of its bases. -/
theorem kind_ne_enum_of_mem_ancestry {a : Declared .type} (ha : a ∈ c.ancestry t)
    {body : StructuredEntry} (hbody : (c.type a).body.structured? = some body) :
    c.kind t ≠ .enum := by
  rw [← kind_of_mem_ancestry ha, kind]
  intro hk
  cases hb : (c.type a).body with
  | complex | entity => rw [hb] at hk; cases hk
  | enum => rw [hb] at hbody; cases hbody

/-- An enumeration has no properties. -/
theorem kind_ne_enum_of_mem_properties (h : p ∈ c.properties t) : c.kind t ≠ .enum := by
  obtain ⟨a, ha, hp⟩ := mem_properties.1 h
  obtain ⟨-, body, hbody, -⟩ := mem_declaredProperties.1 hp
  exact kind_ne_enum_of_mem_ancestry ha hbody

end Schemata.Catalog

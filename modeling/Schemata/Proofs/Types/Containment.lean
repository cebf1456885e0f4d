import Mathlib.Data.List.Chain
import Schemata.Proofs.Graph.Loop
import Schemata.Proofs.Types.Members
import Schemata.Types.PropertyType

/-!
# Types that hold one another

A type holds another one by value if a property of it, declared or inherited, has that type
(`Catalog.Holds`).  In a catalog that is built no type holds itself, not even by way of others, and
going from a type to one that it holds comes to an end (`not_transGen_holds_and_wellFounded`).

`Catalog.wouldContainItself` goes by the names in declarations only.  It finds what can be reached
that way (`wouldContainItself_iff`), and a search that counts no steps comes to an end with the same
answer (`ends_searchRound_fields`).  Whatever a type holds by its resolved properties can be reached
that way too (`IsBuilt.mem_fields_of_wouldHold`).  The converse fails: a name that is taken for
that of a declared type may mean a built-in one, and a base that is named may not be had.  So a
property may be said to make its type contain itself where it does not; `isCyclic_propertyType_iff`
says when it is said and for which models that is right.
-/

namespace Schemata

/-- Whether a placeholder for a cycle stands in for the type. -/
def TypeReference.isCyclic : TypeReference → Bool
  | placeholder p _ => p.kind.isCyclic
  | _ => false

theorem TypeReference.ofElement_eq_declared {e : Element (Handle .type)} {h : Handle .type}
    {n n' : Bool} (he : ofElement n e = declared h n') : e = .declared h := by
  cases e <;> cases he
  rfl

namespace Catalog

variable {c : Catalog} {p : Declared .property} {t u : Declared .type} {h : Handle .type}
  {nullable : Bool}

/-! ### What a declaration refers to -/

variable (c) in
/-- The type to which the declaration of a property refers, whether it may be held or not. -/
def writtenType (p : Declared .property) : TypeReference :=
  let d := c.property p
  c.typeReference (c.typeSchema (c.declaringType p)) d.typeName d.nullable d.location

variable (c) in
/-- The declaration of a property refers to a structured type of the same model, and not to a
collection of it. -/
def Mentions (p : Declared .property) (u : Declared .type) : Prop :=
  u.model = p.model ∧ c.kind u ≠ .enum ∧
    ∃ nullable, c.writtenType p = .declared ⟨.self, u.id⟩ nullable

/-- A reference to a declared type is a name that is not that of a built-in type. -/
theorem typeReference_eq_declared {s : Declared .schema} {text : Name} {n : Bool}
    {location : Location} (ht : c.typeReference s text n location = .declared h nullable) :
    ∃ name, TypeSyntax.parse? text = some (.named name) ∧
      PrimitiveKind.ofQualified? name = none ∧ c.resolve? s .type name = some h := by
  unfold typeReference at ht
  split at ht
  case h_2 => cases ht
  case h_1 syn hsyn =>
    cases syn with
    | collection => cases ht
    | ref entity => cases entity <;> cases ht
    | named name =>
      unfold referenceOf at ht
      split at ht
      case h_1 => cases ht
      case h_2 hbuiltIn =>
        have hd := TypeReference.ofElement_eq_declared ht
        exact ⟨name, hsyn, hbuiltIn, resolve_eq_declared_iff.1 hd⟩

theorem resolve?_of_writtenType (hp : c.writtenType p = .declared h nullable) :
    ∃ name, TypeSyntax.parse? (c.property p).typeName = some (.named name) ∧
      PrimitiveKind.ofQualified? name = none ∧
      c.resolve? (c.typeSchema (c.declaringType p)) .type name = some h :=
  typeReference_eq_declared hp

/-! ### The type of a property -/

/-- A property that refers to a structured type of its own model has that type unless its type
would contain itself. -/
theorem isCyclic_propertyType (hp : c.Mentions p u) :
    (c.propertyType p).isCyclic =
      c.wouldContainItself p.model u.id (c.property p).declaring := by
  obtain ⟨hm, hkind, n, hw⟩ := hp
  have hu : (⟨p.model, u.id⟩ : Declared .type) = u := by rw [← hm]
  have hw' : c.typeReference (c.typeSchema (c.declaringType p)) (c.property p).typeName
    (c.property p).nullable (c.property p).location = .declared ⟨.self, u.id⟩ n := hw
  cases hcontain : c.wouldContainItself p.model u.id (c.property p).declaring with
  | true =>
    simp only [propertyType, hw', hu, hcontain, hkind, ne_eq, not_false_eq_true, decide_true,
      Bool.and_self, ↓reduceIte, TypeReference.isCyclic, cyclicHolding, Placeholder.withMessage]
    split <;> rfl
  | false =>
    simp only [propertyType, hw', hcontain, Bool.and_false, Bool.false_eq_true, ↓reduceIte,
      TypeReference.isCyclic]

/-- The type that a property has is the one that its declaration refers to. -/
theorem writtenType_of_propertyType (hp : c.propertyType p = .declared h nullable) :
    c.writtenType p = .declared h nullable := by
  unfold propertyType at hp
  dsimp only at hp
  split at hp
  case h_1 id n hw =>
    split at hp
    · cases hp
    · rw [← hp]
      exact hw
  case h_2 => exact hp

/-! ### Bases in one model -/

variable {m : ModelId} {a b : Id .type} {s : Id .schema} {name : Name}

theorem resolve?_of_ownType? (ht : c.ownType? m s name = some a) :
    c.resolve? ⟨m, s⟩ .type name = some ⟨.self, a⟩ := by
  unfold ownType? at ht
  split at ht
  case h_1 id hr =>
    rw [hr, Option.some.inj ht]
  case h_2 => cases ht

theorem ownType?_of_resolve? (hr : c.resolve? ⟨m, s⟩ .type name = some ⟨.self, a⟩) :
    c.ownType? m s name = some a := by
  simp only [ownType?, hr]

theorem mem_ids_of_ownType? (ht : c.ownType? m s name = some a) : a ∈ (c.model m).ids .type := by
  cases foundAt_of_handle? (resolve?_of_ownType? ht) with
  | here hid => exact Id.mem_upTo.2 (Model.lt_count_of_first? hid)

/-- The default entry names no base. -/
theorem mem_ids_of_ownBase? (h : (c.ownBase? m a).isSome) : a ∈ (c.model m).ids .type := by
  obtain ⟨b, hb⟩ := Option.isSome_iff_exists.1 h
  obtain ⟨reference, hn, -⟩ := Option.bind_eq_some_iff.1 hb
  have hmem : (⟨m, a⟩ : Declared .type) ∈ c.allElements .type :=
    c.mem_allElements_of_baseName? (Option.isSome_of_eq_some hn)
  exact Id.mem_upTo.2 (c.mem_allElements.1 hmem)

theorem length_ids_type : ((c.model m).ids .type).length = (c.model m).types.size := by
  simp [Model.ids, Id.upTo, Model.count, Model.entries]

theorem mem_ownChain_iff :
    b ∈ c.ownChain m a ↔ Relation.ReflTransGen (Chain.Follows (c.ownBase? m)) a b := by
  rw [ownChain, ← length_ids_type]
  exact Chain.mem_trail_iff fun _ => mem_ids_of_ownBase?

theorem isOrExtends_iff :
    c.isOrExtends m a b = true ↔ Relation.ReflTransGen (Chain.Follows (c.ownBase? m)) a b := by
  rw [isOrExtends, List.contains_iff_mem, mem_ownChain_iff]

/-- A base that a type has and that its model declares is the one it names. -/
theorem IsBuilt.ownBase?_of_declaredBase? (hc : c.IsBuilt) (hb : c.declaredBase? t = some u)
    (hm : u.model = t.model) : c.ownBase? t.model t.id = some u.id := by
  obtain ⟨reference, h, hn, hr, rfl, -⟩ := resolve?_of_declaredBase? hb
  have hself : h = ⟨.self, h.id⟩ := hc.eq_self_of_locate hr hm
  refine Option.bind_eq_some_iff.2 ⟨reference, hn, ?_⟩
  rw [hself] at hr ⊢
  exact ownType?_of_resolve? hr

theorem IsBuilt.reflTransGen_ownBase? (hc : c.IsBuilt) (h : u ∈ c.ancestry t)
    (hm : u.model = t.model) :
    Relation.ReflTransGen (Chain.Follows (c.ownBase? t.model)) t.id u.id := by
  induction mem_ancestry_iff.1 h with
  | refl => exact .refl
  | @tail d u hd hstep ih =>
    have hd := mem_ancestry_iff.2 hd
    -- bases do not come back from an earlier model
    have hle : u.model ≤ d.model :=
      hc.model_le_of_mem_ancestry (mem_ancestry_iff.2 (.single hstep))
    have hdm : d.model = t.model := Nat.le_antisymm (hc.model_le_of_mem_ancestry hd) (hm ▸ hle)
    have hown := hc.ownBase?_of_declaredBase? hstep (hm.trans hdm.symm)
    rw [hdm] at hown
    exact (ih hd hdm).tail hown

/-! ### What a type would hold -/

variable (c) in
/-- A type of a model would hold another one of that model by value, going by what the declarations
of its properties refer to. -/
def WouldHold (t u : Declared .type) : Prop :=
  u.model = t.model ∧ ∃ p ∈ c.properties t, c.Mentions p u

theorem heldType?_eq_some_iff :
    c.heldType? m s name = some a ↔ ∃ reference,
      TypeSyntax.parse? name = some (.named reference) ∧ c.ownType? m s reference = some a ∧
        c.kind ⟨m, a⟩ ≠ .enum := by
  unfold heldType?
  split
  case h_1 reference hsyn => simp [hsyn, Option.filter_eq_some_iff, kind, type]
  case h_2 hsyn =>
    simp only [reduceCtorEq, false_iff, not_exists]
    rintro reference ⟨hparse, -⟩
    exact hsyn reference hparse

theorem mem_declaredFields :
    b ∈ c.declaredFields m a ↔ ∃ p ∈ c.declaredProperties ⟨m, a⟩,
      c.heldType? m (c.type ⟨m, a⟩).schema (c.property p).typeName = some b := by
  have htype : c.type ⟨m, a⟩ = (c.model m).type a := rfl
  unfold declaredFields declaredProperties
  rw [htype]
  dsimp only
  cases ((c.model m).type a).body.structured? with
  | none => simp
  | some body => simp [List.mem_filterMap, property]

theorem mem_fields :
    b ∈ c.fields m a ↔ ∃ d, Relation.ReflTransGen (Chain.Follows (c.ownBase? m)) a d ∧
      b ∈ c.declaredFields m d := by
  simp only [fields, List.mem_flatMap, mem_ownChain_iff]

theorem fields_subset_ids (a : Id .type) : c.fields m a ⊆ (c.model m).ids .type := by
  intro b hb
  obtain ⟨d, -, hb⟩ := mem_fields.1 hb
  obtain ⟨p, -, hp⟩ := mem_declaredFields.1 hb
  obtain ⟨reference, -, howned, -⟩ := heldType?_eq_some_iff.1 hp
  exact mem_ids_of_ownType? howned

/-- What the check for containment asks: whether a type above which the declaring type stands can
be reached, going by names. -/
theorem wouldContainItself_iff :
    c.wouldContainItself m a b = true ↔ ∃ d, Relation.ReflTransGen (Graph.Leads (c.fields m)) a d ∧
      Relation.ReflTransGen (Chain.Follows (c.ownBase? m)) d b := by
  rw [wouldContainItself, ← length_ids_type, List.any_eq_true]
  simp only [Graph.mem_reach_iff fields_subset_ids, isOrExtends_iff]

/-! ### The search, round by round -/

variable (c m) in
theorem ends_climbRound_ownBase? (a declaring : Id .type) :
    Loop.Ends (Chain.climbRound (c.ownBase? m) declaring) ⟨[], a⟩
      (c.isOrExtends m a declaring) := by
  rw [isOrExtends, ownChain, ← length_ids_type]
  exact Chain.ends_climbRound (fun _ => mem_ids_of_ownBase?) a declaring

variable (c m) in
theorem ends_gatherRound_ownBase? (a : Id .type) :
    Loop.Ends (Chain.gatherRound (c.ownBase? m) (c.declaredFields m)) ⟨[], [], some a⟩
      (c.fields m a) := by
  rw [fields, ownChain, ← length_ids_type]
  exact Chain.ends_gatherRound (fun _ => mem_ids_of_ownBase?) (c.declaredFields m) a

variable (c m) in
theorem ends_searchRound_fields (target declaring : Id .type) :
    Loop.Ends (Graph.searchRound (c.fields m) (c.isOrExtends m · declaring)) ⟨[], [target]⟩
      (c.wouldContainItself m target declaring) := by
  have hfields (a : Id .type) : c.fields m a ⊆ (c.model m).ids .type := fields_subset_ids a
  obtain ⟨b, hb, hiff⟩ :=
    Graph.exists_ends_searchRound hfields (c.isOrExtends m · declaring) target
  have hsame : b = true ↔ c.wouldContainItself m target declaring = true := by
    rw [hiff, wouldContainItself_iff]
    simp only [isOrExtends_iff]
  rwa [← Bool.eq_iff_iff.2 hsame]

/-- **The search for a type in itself.**  Whatever circles there are among bases and fields, the
search comes to an end: the depth first search through the fields, and in each of its rounds the
climb from base to base that looks for the declaring type and the collecting of the fields of a type
and its bases.  It finds out whether the declaring type can be reached by a finite chain of fields
and then by bases from the last type of the chain. -/
theorem searches_end_and_wouldContainItself_iff (c : Catalog) (m : ModelId)
    (target declaring : Id .type) :
    Loop.Ends (Graph.searchRound (c.fields m) (c.isOrExtends m · declaring)) ⟨[], [target]⟩
        (c.wouldContainItself m target declaring) ∧
      (∀ a, Loop.Ends (Chain.climbRound (c.ownBase? m) declaring) ⟨[], a⟩
        (c.isOrExtends m a declaring)) ∧
      (∀ a, Loop.Ends (Chain.gatherRound (c.ownBase? m) (c.declaredFields m)) ⟨[], [], some a⟩
        (c.fields m a)) ∧
      (c.wouldContainItself m target declaring = true ↔
        ∃ chain : List (Id .type),
          (target :: chain).IsChain (fun t u => u ∈ c.fields m t) ∧
            ∃ n, Chain.after (c.ownBase? m) n ((target :: chain).getLast (List.cons_ne_nil _ _)) =
              some declaring) := by
  refine ⟨ends_searchRound_fields c m target declaring,
    fun a => ends_climbRound_ownBase? c m a declaring, ends_gatherRound_ownBase? c m, ?_⟩
  rw [wouldContainItself_iff]
  constructor
  · rintro ⟨d, hreach, hbase⟩
    obtain ⟨chain, hchain, rfl⟩ := List.exists_isChain_cons_of_relationReflTransGen hreach
    exact ⟨chain, hchain, Chain.exists_after_of_reflTransGen hbase⟩
  · rintro ⟨chain, hchain, n, hn⟩
    exact ⟨_, List.relationReflTransGen_of_exists_isChain_cons chain hchain rfl,
      Chain.reflTransGen_of_after hn⟩

namespace IsBuilt

variable (hc : c.IsBuilt)
include hc

theorem mem_fields_of_wouldHold (h : c.WouldHold t u) : u.id ∈ c.fields t.model t.id := by
  obtain ⟨hm, p, hp, hpm, hkind, n, hw⟩ := h
  obtain ⟨a, ha, hpa⟩ := mem_properties.1 hp
  have ham : a.model = t.model :=
    (mem_declaredProperties.1 hpa).1.symm.trans (hpm.symm.trans hm)
  obtain ⟨name, hsyn, -, hr⟩ := resolve?_of_writtenType hw
  rw [hc.declaringType_of_mem hpa] at hr
  refine mem_fields.2 ⟨a.id, hc.reflTransGen_ownBase? ha ham, mem_declaredFields.2 ⟨p, ?_, ?_⟩⟩
  · rwa [← ham]
  · rw [← ham]
    refine heldType?_eq_some_iff.2 ⟨name, hsyn, ownType?_of_resolve? hr, ?_⟩
    rwa [ham, ← hm]

theorem reflTransGen_leads (h : Relation.ReflTransGen c.WouldHold t u) :
    u.model = t.model ∧ Relation.ReflTransGen (Graph.Leads (c.fields t.model)) t.id u.id := by
  induction h with
  | refl => exact ⟨rfl, .refl⟩
  | @tail d u _ hstep ih =>
    obtain ⟨hm, hreach⟩ := ih
    refine ⟨hstep.1.trans hm, hreach.tail ?_⟩
    rw [← hm]
    exact hc.mem_fields_of_wouldHold hstep

/-- A property is said to make its type contain itself if it does so by resolved properties. -/
theorem isCyclic_of_reflTransGen (hp : c.Mentions p t) (h : Relation.ReflTransGen c.WouldHold t u)
    (hu : c.declaringType p ∈ c.ancestry u) : (c.propertyType p).isCyclic = true := by
  obtain ⟨hum, hreach⟩ := hc.reflTransGen_leads h
  have hm : t.model = p.model := hp.1
  rw [hm] at hum hreach
  have hbase := hc.reflTransGen_ownBase? hu hum.symm
  rw [hum] at hbase
  rw [isCyclic_propertyType hp, wouldContainItself_iff]
  exact ⟨u.id, hreach, hbase⟩

end IsBuilt

/-! ### What a type holds -/

variable (c) in
/-- A type holds another one by value: a property of it, declared or inherited, has that type. -/
def Holds (t u : Declared .type) : Prop :=
  ∃ p ∈ c.properties t, ∃ h nullable, c.propertyType p = .declared h nullable ∧
    u = c.locate p.model h

theorem kind_ne_enum_of_holds (h : c.Holds t u) : c.kind t ≠ .enum := by
  obtain ⟨p, hp, -⟩ := h
  exact kind_ne_enum_of_mem_properties hp

/-- An enumeration holds nothing, so it can only be the last in a row. -/
theorem kind_ne_enum_of_reflTransGen_holds (h : Relation.ReflTransGen c.Holds t u)
    (hu : c.kind u ≠ .enum) : c.kind t ≠ .enum := by
  rcases Relation.ReflTransGen.cases_head h with rfl | ⟨d, hd, -⟩
  · exact hu
  · exact kind_ne_enum_of_holds hd

namespace IsBuilt

variable (hc : c.IsBuilt)
include hc

/-- What a type holds is no later than the property that holds it, and this is no later than the
type. -/
theorem model_le_of_propertyType (hp : p ∈ c.properties t)
    (ht : c.propertyType p = .declared h nullable) :
    (c.locate p.model h).model ≤ p.model ∧ p.model ≤ t.model := by
  obtain ⟨a, ha, hpa⟩ := mem_properties.1 hp
  obtain ⟨name, -, -, hr⟩ := resolve?_of_writtenType (writtenType_of_propertyType ht)
  refine ⟨hc.model_locate_le p.model h, ?_⟩
  rw [(mem_declaredProperties.1 hpa).1]
  exact hc.model_le_of_mem_ancestry ha

theorem model_le_of_holds (h : c.Holds t u) : u.model ≤ t.model := by
  obtain ⟨p, hp, h, nullable, ht, rfl⟩ := h
  obtain ⟨hle, hle'⟩ := hc.model_le_of_propertyType hp ht
  exact Nat.le_trans hle hle'

theorem model_le_of_reflTransGen_holds (h : Relation.ReflTransGen c.Holds t u) :
    u.model ≤ t.model := by
  induction h with
  | refl => exact Nat.le_refl _
  | tail _ hstep ih => exact Nat.le_trans (hc.model_le_of_holds hstep) ih

/-- Within one model a type holds a structured type by way of a property that refers to it. -/
theorem exists_mentions_of_holds (h : c.Holds t u) (hm : u.model = t.model)
    (hkind : c.kind u ≠ .enum) :
    ∃ p ∈ c.properties t, c.Mentions p u ∧ (c.propertyType p).isCyclic = false := by
  obtain ⟨p, hp, h, nullable, ht, rfl⟩ := h
  obtain ⟨hle, hle'⟩ := hc.model_le_of_propertyType hp ht
  have hpm : (c.locate p.model h).model = p.model := Nat.le_antisymm hle (hm ▸ hle')
  have hw := writtenType_of_propertyType ht
  obtain ⟨name, -, -, hr⟩ := resolve?_of_writtenType hw
  have hself : h = ⟨.self, h.id⟩ := hc.eq_self_of_locate hr hpm
  refine ⟨p, hp, ⟨hpm, hkind, nullable, ?_⟩, by rw [ht]; rfl⟩
  rw [hself] at hw
  rwa [hself]

theorem wouldHold_of_holds (h : c.Holds t u) (hm : u.model = t.model) (hkind : c.kind u ≠ .enum) :
    c.WouldHold t u := by
  obtain ⟨p, hp, hmentions, -⟩ := hc.exists_mentions_of_holds h hm hkind
  exact ⟨hm, p, hp, hmentions⟩

/-- What comes back to a model has never left it. -/
theorem reflTransGen_wouldHold (h : Relation.ReflTransGen c.Holds t u) (hm : u.model = t.model)
    (hkind : c.kind u ≠ .enum) : Relation.ReflTransGen c.WouldHold t u := by
  induction h using Relation.ReflTransGen.head_induction_on with
  | refl => exact .refl
  | @head t d hstep hrest ih =>
    have hle := hc.model_le_of_reflTransGen_holds hrest
    have hdm : d.model = t.model :=
      Nat.le_antisymm (hc.model_le_of_holds hstep) (hm ▸ hle)
    have hdkind := kind_ne_enum_of_reflTransGen_holds hrest hkind
    exact .head (hc.wouldHold_of_holds hstep hdm hdkind) (ih (hm.trans hdm.symm))

/-- **A circle is cut at its first property:** if what a type holds led back to it, the property
that holds it would have been found to make its type contain itself. -/
theorem not_transGen_holds (t : Declared .type) : ¬ Relation.TransGen c.Holds t t := by
  intro hcircle
  obtain ⟨u, hstep, hrest⟩ := Relation.TransGen.head'_iff.1 hcircle
  -- models only go down along what types hold, so the circle lies in one model
  have hum : u.model = t.model :=
    Nat.le_antisymm (hc.model_le_of_holds hstep) (hc.model_le_of_reflTransGen_holds hrest)
  have htkind := kind_ne_enum_of_holds hstep
  have hukind := kind_ne_enum_of_reflTransGen_holds hrest htkind
  obtain ⟨p, hp, hmentions, hfine⟩ := hc.exists_mentions_of_holds hstep hum hukind
  obtain ⟨a, ha, hpa⟩ := mem_properties.1 hp
  -- the rest of the circle leads back to `t`, which has the declaring type of `p` above it
  have hcyclic : (c.propertyType p).isCyclic = true := by
    refine hc.isCyclic_of_reflTransGen hmentions
      (hc.reflTransGen_wouldHold hrest hum.symm htkind) ?_
    rwa [hc.declaringType_of_mem hpa]
  rw [hfine] at hcyclic
  cases hcyclic

end IsBuilt

/-- **No type holds itself**, not even by way of others and whatever its schemas declare; and going
from a type to one that it holds comes to an end. -/
theorem not_transGen_holds_and_wellFounded (hc : c.IsBuilt) :
    (∀ t, ¬ Relation.TransGen c.Holds t t) ∧ WellFounded fun u t => c.Holds t u := by
  refine ⟨hc.not_transGen_holds, ?_⟩
  refine Graph.wellFounded_of_acyclic (l := c.allElements .type) (fun t u h => ?_)
    hc.not_transGen_holds
  obtain ⟨p, hp, -⟩ := h
  exact mem_allElements_of_mem_properties hp

/-- One more model of one schema that declares complex types with one property each, given by the
names of the types and what the properties refer to. -/
def withFields (ns : Name) (types : List (Name × Name)) : Catalog :=
  let item (t : Name × Name) : Decl.Item :=
    .complexType ((Decl.Structured.make t.1).addProperty (.make "value" t.2))
  initial.add { Options.standard with includeCore := false } []
    [{ Decl.Schema.make ns with items := types.map item }]

theorem isBuilt_withFields (ns : Name) (types : List (Name × Name)) :
    (withFields ns types).IsBuilt :=
  .add_nil .initial _ _

/-- Two types that would hold each other do not, and neither does one that would hold itself. -/
theorem not_transGen_holds_and_wellFounded_of_mutual :
    let c := withFields "S" [("A", "S.B"), ("B", "S.A"), ("C", "S.C"), ("D", "S.A")]
    c.IsBuilt ∧ (c.WouldHold ⟨1, ⟨0⟩⟩ ⟨1, ⟨1⟩⟩ ∧ c.WouldHold ⟨1, ⟨1⟩⟩ ⟨1, ⟨0⟩⟩) ∧
      c.Holds ⟨1, ⟨3⟩⟩ ⟨1, ⟨0⟩⟩ ∧
      (∀ t, ¬ Relation.TransGen c.Holds t t) ∧ WellFounded fun u t => c.Holds t u := by
  intro c
  refine ⟨isBuilt_withFields _ _, ⟨?_, ?_⟩, ?_,
    not_transGen_holds_and_wellFounded (isBuilt_withFields _ _)⟩
  · exact ⟨rfl, ⟨1, ⟨0⟩⟩, by decide +kernel, rfl, by decide +kernel, true, by decide +kernel⟩
  · exact ⟨rfl, ⟨1, ⟨1⟩⟩, by decide +kernel, rfl, by decide +kernel, true, by decide +kernel⟩
  · exact ⟨⟨1, ⟨3⟩⟩, by decide +kernel, ⟨.self, ⟨0⟩⟩, true, by decide +kernel, rfl⟩

/-! ### When the check is right -/

variable (c) in
/-- The type of a property, or one that it would hold, derives from the type that declares the
property. -/
def LeadsBack (p : Declared .property) (t : Declared .type) : Prop :=
  ∃ u, Relation.ReflTransGen c.WouldHold t u ∧ c.declaringType p ∈ c.ancestry u

variable (c) in
/-- Names of types mean what they lead to among the declarations of a model. -/
structure NamesAgree (m : ModelId) : Prop where
  /-- A type that names a type of the model as its base has that base. -/
  base : ∀ a b, c.ownBase? m a = some b → c.declaredBase? ⟨m, a⟩ = some ⟨m, b⟩
  /-- The name of a built-in type leads to no declared one. -/
  builtIn : ∀ s name, (PrimitiveKind.ofQualified? name).isSome → c.ownType? m s name = none

theorem NamesAgree.mem_ancestry (hn : c.NamesAgree m)
    (h : Relation.ReflTransGen (Chain.Follows (c.ownBase? m)) a b) :
    (⟨m, b⟩ : Declared .type) ∈ c.ancestry ⟨m, a⟩ := by
  refine mem_ancestry_iff.2 ?_
  induction h with
  | refl => exact .refl
  | tail _ hstep ih => exact ih.tail (hn.base _ _ hstep)

theorem NamesAgree.mentions (hn : c.NamesAgree m) (hc : c.IsBuilt) {p : Declared .property}
    (hp : p ∈ c.declaredProperties ⟨m, a⟩)
    (hheld : c.heldType? m (c.type ⟨m, a⟩).schema (c.property p).typeName = some b) :
    c.Mentions p ⟨m, b⟩ := by
  obtain ⟨name, hsyn, hown, hkind⟩ := heldType?_eq_some_iff.1 hheld
  refine ⟨(mem_declaredProperties.1 hp).1.symm, hkind, (c.property p).nullable, ?_⟩
  -- else the name would lead to no type of the model
  have hbuiltIn : PrimitiveKind.ofQualified? name = none := by
    by_contra hne
    rw [hn.builtIn _ name (Option.isSome_iff_ne_none.2 hne)] at hown
    cases hown
  have hr : c.resolve? (c.typeSchema ⟨m, a⟩) .type name = some ⟨.self, b⟩ :=
    resolve?_of_ownType? hown
  simp only [writtenType, hc.declaringType_of_mem hp, typeReference, hsyn, referenceOf, hbuiltIn,
    resolve, hr, Element.ofOption, TypeReference.ofElement]

theorem NamesAgree.wouldHold_of_leads (hn : c.NamesAgree m) (hc : c.IsBuilt)
    (h : Graph.Leads (c.fields m) a b) : c.WouldHold ⟨m, a⟩ ⟨m, b⟩ := by
  obtain ⟨d, hbase, hb⟩ := mem_fields.1 h
  obtain ⟨p, hp, hheld⟩ := mem_declaredFields.1 hb
  exact ⟨rfl, p, mem_properties.2 ⟨⟨m, d⟩, hn.mem_ancestry hbase, hp⟩, hn.mentions hc hp hheld⟩

theorem NamesAgree.reflTransGen_wouldHold (hn : c.NamesAgree m) (hc : c.IsBuilt)
    (h : Relation.ReflTransGen (Graph.Leads (c.fields m)) a b) :
    Relation.ReflTransGen c.WouldHold ⟨m, a⟩ ⟨m, b⟩ := by
  induction h with
  | refl => exact .refl
  | tail _ hstep ih => exact ih.tail (hn.wouldHold_of_leads hc hstep)

/-- **When a property is said to make its type contain itself:** iff its type leads back to the
declaring one by the names in declarations.  It is said whenever the type leads back by resolved
properties and bases; where the names agree with what they lead to, it is said only then. -/
theorem isCyclic_propertyType_iff (hc : c.IsBuilt) (hp : c.Mentions p t) :
    ((c.propertyType p).isCyclic = true ↔
      ∃ d, Relation.ReflTransGen (Graph.Leads (c.fields p.model)) t.id d ∧
        Relation.ReflTransGen (Chain.Follows (c.ownBase? p.model)) d (c.property p).declaring) ∧
    (c.LeadsBack p t → (c.propertyType p).isCyclic = true) ∧
    (c.NamesAgree p.model → ((c.propertyType p).isCyclic = true ↔ c.LeadsBack p t)) := by
  have hiff := wouldContainItself_iff (c := c) (m := p.model) (a := t.id)
    (b := (c.property p).declaring)
  rw [← isCyclic_propertyType hp] at hiff
  have hback : c.LeadsBack p t → (c.propertyType p).isCyclic = true := fun ⟨u, hu, hbase⟩ =>
    hc.isCyclic_of_reflTransGen hp hu hbase
  refine ⟨hiff, hback, fun hn => ⟨fun hcyclic => ?_, hback⟩⟩
  obtain ⟨d, hreach, hbase⟩ := hiff.1 hcyclic
  have ht : (⟨p.model, t.id⟩ : Declared .type) = t := by rw [← hp.1]
  exact ⟨⟨p.model, d⟩, ht ▸ hn.reflTransGen_wouldHold hc hreach, hn.mem_ancestry hbase⟩

theorem namesAgree_mutual : (withFields "S" [("A", "S.B"), ("B", "S.A")]).NamesAgree 1 := by
  set c := withFields "S" [("A", "S.B"), ("B", "S.A")] with hc
  refine ⟨fun a b hb => ?_, fun s name hname => ?_⟩
  · have hnone : ∀ a ∈ (c.model 1).ids .type, c.ownBase? 1 a = none := by decide +kernel
    rw [hnone a (mem_ids_of_ownBase? (Option.isSome_of_eq_some hb))] at hb
    cases hb
  · obtain ⟨k, hk⟩ := Option.isSome_iff_exists.1 hname
    obtain rfl : k.display = name := by simpa using List.find?_some hk
    have haliases : (c.model 1).aliases s = [] := by
      by_cases hs : s ∈ (c.model 1).ids .schema
      · revert s
        decide +kernel
      · have hsize : ¬ s.index < (c.model 1).schemas.size := fun h => hs (Id.mem_upTo.2 h)
        simp [Model.aliases, Model.schema, Array.getD, hsize, default,
          instInhabitedSchemaEntry.default]
    have hexpand : c.expand ⟨1, s⟩ k.display = k.display := by
      unfold expand Model.expand
      rw [haliases]
      split <;> rfl
    have hnone : ∀ k ∈ PrimitiveKind.all, c.handle? 1 .type k.display = none := by decide +kernel
    simp only [ownType?, resolve?, hexpand, hnone k k.mem_all]

/-- Of two types with properties of each other's type, the first leads back to itself. -/
theorem isCyclic_propertyType_iff_of_mutual :
    let c := withFields "S" [("A", "S.B"), ("B", "S.A")]
    c.IsBuilt ∧ c.Mentions ⟨1, ⟨0⟩⟩ ⟨1, ⟨1⟩⟩ ∧ c.NamesAgree 1 ∧
      (c.propertyType ⟨1, ⟨0⟩⟩).isCyclic = true ∧ c.LeadsBack ⟨1, ⟨0⟩⟩ ⟨1, ⟨1⟩⟩ := by
  intro c
  have hc : c.IsBuilt := isBuilt_withFields _ _
  have hp : c.Mentions ⟨1, ⟨0⟩⟩ ⟨1, ⟨1⟩⟩ := ⟨rfl, by decide +kernel, true, by decide +kernel⟩
  have hcyclic : (c.propertyType ⟨1, ⟨0⟩⟩).isCyclic = true := by decide +kernel
  exact ⟨hc, hp, namesAgree_mutual, hcyclic,
    ((isCyclic_propertyType_iff hc hp).2.2 namesAgree_mutual).1 hcyclic⟩

/-- Names alone do not decide.  A type of the namespace of the built-in types may have the name of
one of them; a property that names it has the built-in type, and still the search goes on from the
declared one. -/
theorem not_forall_isCyclic_propertyType_iff_leadsBack :
    ¬ ∀ (c : Catalog) (p : Declared .property) (t : Declared .type), c.IsBuilt → c.Mentions p t →
      ((c.propertyType p).isCyclic = true ↔ c.LeadsBack p t) := by
  intro h
  let c := withFields "Edm" [("A", "Edm.B"), ("B", "Edm.String"), ("String", "Edm.A")]
  have hp : c.Mentions ⟨1, ⟨0⟩⟩ ⟨1, ⟨1⟩⟩ := ⟨rfl, by decide +kernel, true, by decide +kernel⟩
  have hcyclic : (c.propertyType ⟨1, ⟨0⟩⟩).isCyclic = true := by decide +kernel
  obtain ⟨u, hu, hbase⟩ := (h c _ _ (isBuilt_withFields _ _) hp).1 hcyclic
  -- the only property of `B` has a built-in type
  rcases Relation.ReflTransGen.cases_head hu with rfl | ⟨d, ⟨-, q, hq, -, -, n, hw⟩, -⟩
  · revert hbase
    decide +kernel
  · have hproperties : c.properties ⟨1, ⟨1⟩⟩ = [⟨1, ⟨1⟩⟩] := by decide +kernel
    rw [hproperties, List.mem_singleton] at hq
    have hwritten : c.writtenType ⟨1, ⟨1⟩⟩ = .primitive .string true := by decide +kernel
    rw [hq, hwritten] at hw
    cases hw

end Catalog

end Schemata

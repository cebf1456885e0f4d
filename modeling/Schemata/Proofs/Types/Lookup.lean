import Schemata.Proofs.Catalog.Members
import Schemata.Proofs.Catalog.Reachable
import Schemata.Proofs.Model.Members
import Schemata.Proofs.Types.Ancestry

/-!
# Members by name

Lists of members begin with those of the topmost base, a search by name begins at the type itself.
`Catalog.FindsAsListed` says in which way the two agree: a name is found iff a member that is listed
has it, and what is found is the first member of the name in the nearest type that declares one.  It
holds of both sorts of property (`IsBuilt.findsAsListed_properties`,
`IsBuilt.findsAsListed_navigation`), as in both the members that a type declares are those that name
it.

A key has an entry for each name that is declared (`IsBuilt.forall₂_key`), and the effective key is
that of the nearest type that declares one (`hasEffectiveKey`).
-/

namespace Schemata.Catalog

variable {c : Catalog} {t u : Declared .type} {k : ElementKind}

/-! ### The nearest type -/

/-- The nearest of a type and its bases of which something holds: all others of which it holds are
above it. -/
def IsNearest (c : Catalog) (t : Declared .type) (P : Declared .type → Prop) (u : Declared .type) :
    Prop :=
  u ∈ c.ancestry t ∧ P u ∧ ∀ v ∈ c.ancestry t, P v → c.derivesFrom u v = true

section nearest

variable {P : Declared .type → Prop} {lower upper : List (Declared .type)}

/-- There is no other nearest type. -/
theorem IsNearest.unique {v : Declared .type} (hu : c.IsNearest t P u) (hv : c.IsNearest t P v) :
    u = v :=
  c.isPartialOrder_derivesFrom.antisymm u v (hu.2.2 v hv.1 hv.2.1) (hv.2.2 u hu.1 hu.2.1)

/-- The first type in the list is the nearest one. -/
theorem isNearest_of_append (h : c.ancestry t = lower ++ u :: upper) (hu : P u)
    (hlower : ∀ v ∈ lower, ¬ P v) : c.IsNearest t P u := by
  refine ⟨by simp [h], hu, fun v hv hP => ?_⟩
  rw [h] at hv
  rcases List.mem_append.1 hv with hv | hv
  · exact absurd hP (hlower v hv)
  · rwa [derivesFrom_iff_mem, ancestry_eq_of_append h]

end nearest

/-! ### Lists and searches -/

section members

variable (declaring : Declared k → Declared .type) (name : Declared k → Name)

/-- A type declares a member of that name. -/
def Declares (c : Catalog) (n : Name) (u : Declared .type) : Prop :=
  ∃ p ∈ c.allElements k, declaring p = u ∧ name p = n

/-- One member is declared by a base of the type that declares the other, or by the same type and
earlier. -/
def ComesBefore (c : Catalog) (p q : Declared k) : Prop :=
  (declaring p ≠ declaring q ∧ c.derivesFrom (declaring q) (declaring p) = true) ∨
    (declaring p = declaring q ∧ p.id.index < q.id.index)

/-- Members of one sort, all as a list and by name; each says its name and the type that declares
it. -/
structure FindsAsListed (c : Catalog) (t : Declared .type) (listed : List (Declared k))
    (found? : Name → Option (Declared k)) : Prop where
  /-- The members are those that the type or a base of it declares. -/
  mem_iff : ∀ p, p ∈ listed ↔ p ∈ c.allElements k ∧ declaring p ∈ c.ancestry t
  /-- None is listed twice. -/
  nodup : listed.Nodup
  /-- Those of a base come first, and those of one type in the order of declaration. -/
  sorted : listed.Pairwise (c.ComesBefore declaring)
  /-- A name is found iff a member has it. -/
  isSome_iff : ∀ n, (found? n).isSome ↔ ∃ p ∈ listed, name p = n
  /-- What is found is declared by the nearest type that declares a member of the name, and it is
  the first one there. -/
  found_iff : ∀ n p, found? n = some p ↔ p ∈ c.allElements k ∧ name p = n ∧
    c.IsNearest t (c.Declares declaring name n) (declaring p) ∧
    ∀ q ∈ c.allElements k, declaring q = declaring p → name q = n → p.id.index ≤ q.id.index

variable {declaring} {name} {declared : Declared .type → List (Declared k)} {n : Name}
  {p q : Declared k}

theorem ComesBefore.ne (h : c.ComesBefore declaring p q) : p ≠ q := by
  rintro rfl
  rcases h with ⟨hne, -⟩ | ⟨-, hlt⟩
  · exact hne rfl
  · exact Nat.lt_irrefl _ hlt

/-- The bases of a type are above it and differ from it. -/
theorem pairwise_ancestry (t : Declared .type) :
    (c.ancestry t).Pairwise fun u v => u ≠ v ∧ c.derivesFrom u v = true := by
  refine (c.isWhole_ancestry t).pairwise.imp fun {u v} h =>
    ⟨?_, derivesFrom_iff.2 h.to_reflTransGen⟩
  rintro rfl
  exact not_isEndless_declaredBase? u (Chain.isEndless_of_circle h)

theorem isSome_found_iff :
    ((c.ancestry t).findSome? fun u => (declared u).find? (name · = n)).isSome ↔
      ∃ p ∈ (c.ancestry t).reverse.flatMap declared, name p = n := by
  simp only [List.findSome?_isSome_iff, List.find?_isSome, List.mem_flatMap, List.mem_reverse,
    decide_eq_true_iff]
  constructor
  · rintro ⟨u, hu, p, hp, hn⟩
    exact ⟨p, ⟨u, hu, hp⟩, hn⟩
  · rintro ⟨p, ⟨u, hu, hp⟩, hn⟩
    exact ⟨u, hu, p, hp, hn⟩

section

variable (hdeclared : ∀ u, declared u = (c.elements u.model k).filter (declaring · = u))
  (hmodel : ∀ p, (declaring p).model = p.model)
include hdeclared hmodel

theorem mem_listed_iff :
    p ∈ (c.ancestry t).reverse.flatMap declared ↔
      p ∈ c.allElements k ∧ declaring p ∈ c.ancestry t := by
  simp only [List.mem_flatMap, List.mem_reverse, mem_declared_iff hdeclared hmodel]
  constructor
  · rintro ⟨u, hu, hp, rfl⟩
    exact ⟨hp, hu⟩
  · rintro ⟨hp, hu⟩
    exact ⟨_, hu, hp, rfl⟩

theorem sorted_listed (t : Declared .type) :
    ((c.ancestry t).reverse.flatMap declared).Pairwise (c.ComesBefore declaring) := by
  refine List.pairwise_flatMap.2 ⟨fun u _ => ?_, ?_⟩
  · refine (pairwise_lt_declared hdeclared u).imp_of_mem fun hp hq hlt => .inr ⟨?_, hlt⟩
    rw [declaring_of_mem hdeclared hmodel hp, declaring_of_mem hdeclared hmodel hq]
  · -- the list is read from its end, where the topmost base stands
    refine List.pairwise_reverse.2 ((pairwise_ancestry t).imp fun {u v} h p hp q hq => .inl ?_)
    rw [declaring_of_mem hdeclared hmodel hp, declaring_of_mem hdeclared hmodel hq]
    exact ⟨h.1.symm, h.2⟩

/-- A search gives a member of the nearest type that declares one of the name, the first there. -/
theorem isNearest_of_found
    (h : (c.ancestry t).findSome? (fun u => (declared u).find? (name · = n)) = some p) :
    p ∈ c.allElements k ∧ name p = n ∧
      c.IsNearest t (c.Declares declaring name n) (declaring p) ∧
      ∀ q ∈ c.allElements k, declaring q = declaring p → name q = n →
        p.id.index ≤ q.id.index := by
  obtain ⟨lower, u, upper, hu, hfound, hlower⟩ := List.findSome?_eq_some_iff.1 h
  obtain ⟨hp, rfl, hname, hfirst⟩ := (find?_declared_eq_some_iff hdeclared hmodel).1 hfound
  refine ⟨hp, hname, isNearest_of_append hu ⟨p, hp, rfl, hname⟩ ?_, hfirst⟩
  rintro v hv ⟨q, hq, hqv, hqn⟩
  exact (find?_declared_eq_none_iff hdeclared hmodel).1 (hlower v hv) q hq hqv hqn

/-- **Lists and searches agree** where the members that a type declares are those that name it. -/
theorem findsAsListed (t : Declared .type) :
    c.FindsAsListed declaring name t ((c.ancestry t).reverse.flatMap declared)
      (fun n => (c.ancestry t).findSome? fun u => (declared u).find? (name · = n)) where
  mem_iff _ := mem_listed_iff hdeclared hmodel
  nodup := (sorted_listed hdeclared hmodel t).imp ComesBefore.ne
  sorted := sorted_listed hdeclared hmodel t
  isSome_iff _ := isSome_found_iff
  found_iff n p := by
    refine ⟨isNearest_of_found hdeclared hmodel, ?_⟩
    rintro ⟨hp, hn, hnearest, hfirst⟩
    -- something is found, and it is as near and as early as `p`
    have hlisted := (mem_listed_iff (t := t) hdeclared hmodel).2 ⟨hp, hnearest.1⟩
    obtain ⟨q, hq⟩ :=
      Option.isSome_iff_exists.1 (isSome_found_iff.2 ⟨p, hlisted, hn⟩)
    obtain ⟨hqc, hqn, hqnearest, hqfirst⟩ := isNearest_of_found hdeclared hmodel hq
    have hdecl : declaring q = declaring p := hqnearest.unique hnearest
    have hindex : p.id.index = q.id.index :=
      Nat.le_antisymm (hfirst q hqc hdecl hqn) (hqfirst p hp hdecl.symm hn)
    have hm : p.model = q.model := by rw [← hmodel p, ← hmodel q, hdecl]
    rw [hq, eq_of_index_eq hm hindex]

end

end members

/-! ### The two sorts of property -/

section sorts

variable (hc : c.IsBuilt)
include hc

theorem IsBuilt.declaredProperties_eq (u : Declared .type) :
    c.declaredProperties u =
      (c.elements u.model .property).filter fun p => c.declaringType p = u := by
  obtain ⟨m, id⟩ := u
  have hu : c.declaredProperties ⟨m, id⟩ = ((c.model m).propertiesOf id).map (⟨m, ·⟩) := by
    unfold declaredProperties Model.propertiesOf type
    cases ((c.model m).type id).body.structured? <;> rfl
  rw [hu, (hc.isLaidOut m).propertiesOf_eq, elements, List.filter_map]
  exact congrArg _ (List.filter_congr fun p _ => by simp [declaringType, property])

theorem IsBuilt.declaredNavigation_eq (u : Declared .type) :
    c.declaredNavigation u =
      (c.elements u.model .navigation).filter fun n => c.navigationDeclaringType n = u := by
  obtain ⟨m, id⟩ := u
  have hu : c.declaredNavigation ⟨m, id⟩ = ((c.model m).navigationOf id).map (⟨m, ·⟩) := by
    unfold declaredNavigation Model.navigationOf type
    cases ((c.model m).type id).body.structured? <;> rfl
  rw [hu, (hc.isLaidOut m).navigationOf_eq, elements, List.filter_map]
  exact congrArg _ (List.filter_congr fun n _ => by
    simp [navigationDeclaringType, navigationProperty])

theorem IsBuilt.findsAsListed_properties (t : Declared .type) :
    c.FindsAsListed c.declaringType (fun p => (c.property p).name) t (c.properties t)
      (c.findProperty? t) :=
  findsAsListed hc.declaredProperties_eq (fun _ => rfl) t

theorem IsBuilt.findsAsListed_navigation (t : Declared .type) :
    c.FindsAsListed c.navigationDeclaringType (fun n => (c.navigationProperty n).name) t
      (c.navigation t) (c.findNavigation? t) :=
  findsAsListed hc.declaredNavigation_eq (fun _ => rfl) t

end sorts

/-! ### Keys -/

/-- The names of the properties in the key that a type declares. -/
def keyNames (c : Catalog) (t : Declared .type) : List Name :=
  match (c.type t).body.structured? with
  | none => []
  | some body => body.key

/-- The entry that a key has for a name. -/
inductive IsKeyEntry (c : Catalog) (t : Declared .type) (name : Name) :
    Element (Declared .property) → Prop
  /-- The property that a search by the name gives. -/
  | found {p : Declared .property} (h : c.findProperty? t name = some p) :
    IsKeyEntry c t name (.declared p)
  /-- Nothing has the name. -/
  | missing {p : Placeholder} (h : c.findProperty? t name = none)
    (hkind : p.kind = .unresolvedProperty) (hname : p.name = name) :
    IsKeyEntry c t name (.placeholder p)

/-- The key that a type has: that of the nearest type that declares one. -/
inductive HasEffectiveKey (c : Catalog) (t : Declared .type) :
    List (Element (Declared .property)) → Prop
  | declared {u : Declared .type} (h : c.IsNearest t (fun v => c.keyNames v ≠ []) u) :
    HasEffectiveKey c t (c.key u)
  | undeclared (h : ∀ u ∈ c.ancestry t, c.keyNames u = []) : HasEffectiveKey c t []

theorem key_eq_map (t : Declared .type) :
    c.key t = (c.keyNames t).map fun name =>
      (Element.ofOption (missingProperty name (c.type t).qualifiedName (c.type t).location)
        ((c.findProperty? t name).bind (c.handleFor t.model))).map (c.locate t.model) := by
  unfold key keyHandles keyNames
  cases (c.type t).body.structured? with
  | none => rfl
  | some body => rw [List.map_map]; rfl

theorem key_eq_nil_iff : c.key u = [] ↔ c.keyNames u = [] := by
  rw [key_eq_map, List.map_eq_nil_iff]

/-- **A key has an entry for each name** that is declared, in the same order. -/
theorem IsBuilt.forall₂_key (hc : c.IsBuilt) (hm : c.TellsReferencesApart t.model) :
    List.Forall₂ (c.IsKeyEntry t) (c.keyNames t) (c.key t) := by
  rw [key_eq_map, List.forall₂_map_right_iff, List.forall₂_same]
  intro name _
  cases h : c.findProperty? t name with
  | none => exact .missing h rfl rfl
  | some p =>
    -- the handle that is kept leads back to the property
    obtain ⟨handle, hh, hl⟩ := exists_handleFor_locate hm (hc.sees_of_findProperty? h)
    rw [Option.bind_some, hh]
    exact .found (hl ▸ h)

/-- **The effective key** is that of the nearest type that declares one. -/
theorem hasEffectiveKey (c : Catalog) (t : Declared .type) :
    c.HasEffectiveKey t (c.effectiveKey t) := by
  unfold effectiveKey
  rw [List.find?_map]
  cases h : (c.ancestry t).find? ((!·.isEmpty) ∘ c.key) with
  | none =>
    refine .undeclared fun u hu => key_eq_nil_iff.1 ?_
    simpa using List.find?_eq_none.1 h u hu
  | some u =>
    obtain ⟨hu, lower, upper, heq, hlower⟩ := List.find?_eq_some_iff_append.1 h
    refine .declared (isNearest_of_append heq (fun hnil => ?_) fun v hv hne => hne ?_)
    · simp [key_eq_nil_iff.2 hnil] at hu
    · exact key_eq_nil_iff.1 (by simpa using hlower v hv)

/-- **Lists, searches and keys.**  In a catalog that is built, where references can be told apart by
number, a type has the same members by name as in its lists, for both sorts of property; its key has
an entry for each name that it declares, which is what a search by the name gives; and its effective
key is that of the nearest type that declares one. -/
theorem findsAsListed_and_keys (hc : c.IsBuilt) (hm : c.TellsReferencesApart t.model) :
    c.FindsAsListed c.declaringType (fun p => (c.property p).name) t (c.properties t)
      (c.findProperty? t) ∧
    c.FindsAsListed c.navigationDeclaringType (fun n => (c.navigationProperty n).name) t
      (c.navigation t) (c.findNavigation? t) ∧
    List.Forall₂ (c.IsKeyEntry t) (c.keyNames t) (c.key t) ∧
    c.HasEffectiveKey t (c.effectiveKey t) :=
  ⟨hc.findsAsListed_properties t, hc.findsAsListed_navigation t, hc.forall₂_key hm,
    c.hasEffectiveKey t⟩

/-- A type whose base, in another model, has two properties of a name that the type declares,
too. -/
def shadowing : Catalog :=
  let options := { Options.standard with includeCore := false }
  let schema (ns : Name) (t : Decl.Structured) := (Decl.Schema.make ns).addItem (.entityType t)
  let root := (Decl.Structured.make "Root").addProperty (.make "Id" "Edm.Int32")
    |>.addProperty (.make "Name" "Edm.String") |>.addProperty (.make "Name" "Edm.Int32")
  let leaf := (Decl.Structured.make "Leaf").addProperty (.make "Name" "Edm.Int64")
    |>.addKey "Name" |>.addKey "Id" |>.addKey "Gone"
  (initial.add options [] [schema "A" root]).add options [1]
    [schema "B" { leaf with base? := some "A.Root" }]

theorem isBuilt_shadowing : shadowing.IsBuilt := by
  refine .add (.add_nil .initial _ _) _ ?_ _
  decide +kernel

theorem findsAsListed_and_keys_shadowing :
    shadowing.TellsReferencesApart 2 ∧
      shadowing.properties ⟨2, ⟨0⟩⟩ = [⟨1, ⟨0⟩⟩, ⟨1, ⟨1⟩⟩, ⟨1, ⟨2⟩⟩, ⟨2, ⟨0⟩⟩] ∧
      shadowing.findProperty? ⟨2, ⟨0⟩⟩ "Name" = some ⟨2, ⟨0⟩⟩ ∧
      shadowing.findProperty? ⟨1, ⟨0⟩⟩ "Name" = some ⟨1, ⟨1⟩⟩ ∧
      (shadowing.key ⟨2, ⟨0⟩⟩).map (·.declared?) = [some ⟨2, ⟨0⟩⟩, some ⟨1, ⟨0⟩⟩, none] ∧
      List.Forall₂ (shadowing.IsKeyEntry ⟨2, ⟨0⟩⟩) ["Name", "Id", "Gone"]
        (shadowing.key ⟨2, ⟨0⟩⟩) := by
  have hm : shadowing.TellsReferencesApart 2 := by decide +kernel
  have hnames : shadowing.keyNames ⟨2, ⟨0⟩⟩ = ["Name", "Id", "Gone"] := by decide +kernel
  obtain ⟨-, -, hkey, -⟩ := findsAsListed_and_keys (t := ⟨2, ⟨0⟩⟩) isBuilt_shadowing hm
  exact ⟨hm, by decide +kernel, by decide +kernel, by decide +kernel, by decide +kernel,
    hnames ▸ hkey⟩

end Schemata.Catalog

import Schemata.Proofs.Model.Symbols

/-!
# The targets of annotation blocks

The target of a block is a path: a name in which an alias may stand, and perhaps the name of a
member after a slash (`Model.targetPath`).  Types, containers, terms and associations have a space
of names each, so a path may be that of several elements; `Model.HasPath` says of which.

What a path leads to is found space by space (`Model.target?_eq`); a type hides a container of the
same name (`Model.IsHidden`).
-/

namespace Schemata

namespace Model

/-! ### Paths -/

section

variable (m : Model)

/-- The name with which a target begins, with its alias expanded, and the member after it. -/
def targetPath (s : Id .schema) (target : Name) : Name × Option Name :=
  match splitPath target with
  | some (head, member) => (m.expand s head, some member)
  | none => (m.expand s target, none)

/-- The element is a member of a type and has the name. -/
inductive IsMember (t : Id .type) (member : Name) : Target → Prop
  | property {p : Id .property} (hp : p ∈ m.propertiesOf t)
    (hname : (m.property p).name = member) : IsMember t member (.property p)
  | navigation {n : Id .navigation} (hn : n ∈ m.navigationOf t)
    (hname : (m.navigationProperty n).name = member) : IsMember t member (.navigation n)

/-- The element has the path: in one of the spaces of names it is the first declaration with the
name, or a member with its own name of such a declaration. -/
inductive HasPath (name : Name) : Option Name → Target → Prop
  | type {t : Id .type} (ht : m.first? .type name = some t) : HasPath name none (.type t)
  | container {k : Id .container} (hk : m.first? .container name = some k) :
    HasPath name none (.container k)
  | term {t : Id .term} (ht : m.first? .term name = some t) : HasPath name none (.term t)
  | association {a : Id .association} (ha : m.first? .association name = some a) :
    HasPath name none (.association a)
  | member {t : Id .type} {member : Name} {x : Target} (ht : m.first? .type name = some t)
    (hx : m.IsMember t member x) : HasPath name (some member) x
  | entitySet {k : Id .container} {s : Id .entitySet} {member : Name}
    (hk : m.first? .container name = some k) (hs : s ∈ (m.container k).entitySets)
    (hname : (m.entitySet s).name = member) : HasPath name (some member) (.entitySet s)

/-- The path leads to an entity set, but its container shares the name with a type that has no such
member. -/
def IsHidden (name : Name) (member? : Option Name) : Prop :=
  ∃ member ∈ member?, (∃ s, m.HasPath name (some member) (.entitySet s)) ∧
    ∃ t, m.first? .type name = some t ∧ ∀ x, ¬ m.IsMember t member x

end

variable {m : Model} {s : Id .schema} {t : Id .type} {name member target : Name} {x : Target}

/-! ### Members -/

theorem memberTarget?_eq (t : Id .type) (member : Name) :
    m.memberTarget? t member =
      (((m.propertiesOf t).find? fun p => (m.property p).name = member).map Target.property).or
        (((m.navigationOf t).find? fun n => (m.navigationProperty n).name = member).map
          Target.navigation) := by
  unfold memberTarget? propertiesOf navigationOf
  cases (m.type t).body.structured? with
  | none => rfl
  | some body =>
    dsimp only [Option.bind_eq_bind, Option.bind_some]
    cases body.properties.find? _ with
    | some p => rfl
    | none => cases body.navigation.find? _ <;> rfl

theorem isMember_of_memberTarget? (h : m.memberTarget? t member = some x) :
    m.IsMember t member x := by
  rw [memberTarget?_eq, Option.or_eq_some_iff] at h
  rcases h with h | ⟨-, h⟩
  · obtain ⟨p, hp, rfl⟩ := Option.map_eq_some_iff.1 h
    exact .property (List.mem_of_find?_eq_some hp) (by simpa using List.find?_some hp)
  · obtain ⟨n, hn, rfl⟩ := Option.map_eq_some_iff.1 h
    exact .navigation (List.mem_of_find?_eq_some hn) (by simpa using List.find?_some hn)

theorem IsMember.isSome_memberTarget? (h : m.IsMember t member x) :
    (m.memberTarget? t member).isSome := by
  rw [memberTarget?_eq, Option.isSome_or, Option.isSome_map, Option.isSome_map, Bool.or_eq_true]
  cases h with
  | property hp hname => exact .inl (List.find?_isSome.2 ⟨_, hp, decide_eq_true hname⟩)
  | navigation hn hname => exact .inr (List.find?_isSome.2 ⟨_, hn, decide_eq_true hname⟩)

/-! ### Targets -/

variable (m) in
/-- What a path leads to, space by space in the order in which they are tried. -/
def targetAt? (name : Name) : Option Name → Option Target
  | none =>
    ((m.first? .type name).map .type).or <| ((m.first? .container name).map .container).or <|
      ((m.first? .term name).map .term).or ((m.first? .association name).map .association)
  | some member =>
    match m.first? .type name with
    | some t => m.memberTarget? t member
    | none =>
      (m.first? .container name).bind fun k =>
        ((m.container k).entitySets.find? fun s => (m.entitySet s).name = member).map .entitySet

theorem target?_eq (m : Model) (s : Id .schema) (target : Name) :
    m.target? s target = (splitQualified (m.targetPath s target).1).bind fun _ =>
      m.targetAt? (m.targetPath s target).1 (m.targetPath s target).2 := by
  unfold target? targetPath targetAt?
  cases splitPath target with
  | none =>
    dsimp only [Option.bind_eq_bind]
    generalize m.expand s target = name
    refine Option.bind_congr fun _ _ => ?_
    cases m.first? .type name with
    | some t => rfl
    | none =>
      cases m.first? .container name with
      | some k => rfl
      | none =>
        cases m.first? .term name with
        | some t => rfl
        | none => cases m.first? .association name <;> rfl
  | some parts =>
    obtain ⟨head, member⟩ := parts
    dsimp only [Option.bind_eq_bind]
    generalize m.expand s head = name
    refine Option.bind_congr fun _ _ => ?_
    cases m.first? .type name with
    | some t => rfl
    | none =>
      cases m.first? .container name with
      | none => rfl
      | some k =>
        dsimp only [Option.bind_some]
        cases (m.container k).entitySets.find? _ <;> rfl

theorem hasPath_of_targetAt? {member? : Option Name} (h : m.targetAt? name member? = some x) :
    m.HasPath name member? x := by
  cases member? with
  | none =>
    simp only [targetAt?, Option.or_eq_some_iff, Option.map_eq_some_iff] at h
    obtain ⟨t, ht, rfl⟩ | ⟨-, ⟨k, hk, rfl⟩ | ⟨-, ⟨t, ht, rfl⟩ | ⟨-, a, ha, rfl⟩⟩⟩ := h
    · exact .type ht
    · exact .container hk
    · exact .term ht
    · exact .association ha
  | some member =>
    unfold targetAt? at h
    cases ht : m.first? .type name with
    | some t =>
      rw [ht] at h
      exact .member ht (isMember_of_memberTarget? h)
    | none =>
      rw [ht] at h
      obtain ⟨k, hk, h⟩ := Option.bind_eq_some_iff.1 h
      obtain ⟨s, hs, rfl⟩ := Option.map_eq_some_iff.1 h
      exact .entitySet hk (List.mem_of_find?_eq_some hs) (by simpa using List.find?_some hs)

/-- A path that is not hidden leads to an element if there is one that has it. -/
theorem HasPath.isSome_targetAt? {member? : Option Name} (h : m.HasPath name member? x)
    (hhidden : ¬ m.IsHidden name member?) : (m.targetAt? name member?).isSome := by
  cases h with
  | type ht => simp [targetAt?, ht]
  | container hk => simp [targetAt?, hk]
  | term ht => simp [targetAt?, ht]
  | association ha => simp [targetAt?, ha]
  | member ht hx =>
    unfold targetAt?
    rw [ht]
    exact hx.isSome_memberTarget?
  | @entitySet k s member hk hs hname =>
    unfold targetAt?
    cases ht : m.first? .type name with
    | some t =>
      -- the type has a member of this name, or else it would hide the set
      obtain ⟨x, hx⟩ : ∃ x, m.IsMember t member x := by
        by_contra hnone
        exact hhidden ⟨member, rfl, ⟨s, .entitySet hk hs hname⟩, t, ht, not_exists.1 hnone⟩
      exact hx.isSome_memberTarget?
    | none =>
      dsimp only
      rw [hk, Option.bind_some, Option.isSome_map]
      exact List.find?_isSome.2 ⟨s, hs, decide_eq_true hname⟩

/-! ### Blocks -/

/-- A block is attached to what the path of its target leads to, if the name there is qualified. -/
theorem IsLaidOut.attachedTo?_eq (hm : m.IsLaidOut) {b : BlockEntry} (hb : b ∈ m.blocksOf s) :
    b.attachedTo? = (splitQualified (m.targetPath s b.target).1).bind fun _ =>
      m.targetAt? (m.targetPath s b.target).1 (m.targetPath s b.target).2 := by
  obtain ⟨hb, hs⟩ := List.mem_filter.1 hb
  rw [(hm.blocks b hb).attachedTo?, of_decide_eq_true hs, target?_eq]

end Model

end Schemata

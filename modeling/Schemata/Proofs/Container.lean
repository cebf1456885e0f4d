import Schemata.Proofs.Catalog.Members
import Schemata.Proofs.Catalog.Reachable
import Schemata.Proofs.Matching.Containers
import Schemata.Proofs.Model.Members
import Schemata.Proofs.Session.History

/-!
# Entity sets by name

An entity set is looked for in a container, then in the one that it extends, and so on.  Nothing
keeps containers from extending each other in a circle, and no diagnostic tells of it: the search
ends because it stops at a container that it has passed.  `findEntitySet_and_setEnds_after` says
that it does end, and that what it gives is the first set of the name in the nearest container that
declares one; and that the ends of an association set are what such searches give.  A session counts
the containers that it looks at, but the count is never used up (`Session.run_eq_of_seen`).
-/

namespace Schemata.Catalog

variable {c : Catalog} {k k' : Declared .container} {s : Declared .entitySet} {name : Name}

/-! ### One container -/

/-- The container that a container extends, if it is declared. -/
def declaredExtension? (c : Catalog) (k : Declared .container) : Option (Declared .container) :=
  (c.extended? k).bind (·.declared?)

/-- The container declares an entity set of that name. -/
def DeclaresSet (c : Catalog) (k : Declared .container) (name : Name) : Prop :=
  ∃ s ∈ c.allElements .entitySet, c.containerOf s = k ∧ (c.entitySet s).name = name

/-- The set is the first one of that name that the container declares. -/
structure IsFirstSet (c : Catalog) (k : Declared .container) (name : Name)
    (s : Declared .entitySet) : Prop where
  mem : s ∈ c.allElements .entitySet
  container : c.containerOf s = k
  hasName : (c.entitySet s).name = name
  first : ∀ s' ∈ c.allElements .entitySet, c.containerOf s' = k → (c.entitySet s').name = name →
    s.id.index ≤ s'.id.index

/-- The first entity set of that name among those that a container declares. -/
def firstSet? (c : Catalog) (name : Name) (k : Declared .container) :
    Option (Declared .entitySet) :=
  (c.entitySets k).find? fun s => (c.entitySet s).name = name

section

variable (hc : c.IsBuilt)
include hc

theorem IsBuilt.entitySets_eq (k : Declared .container) :
    c.entitySets k = (c.elements k.model .entitySet).filter fun s => c.containerOf s = k := by
  obtain ⟨m, id⟩ := k
  rw [entitySets, container, (hc.isLaidOut m).entitySets_eq, elements, List.filter_map]
  exact congrArg _ (List.filter_congr fun s _ => by simp [containerOf, entitySet])

theorem IsBuilt.firstSet?_eq_some_iff :
    c.firstSet? name k = some s ↔ c.IsFirstSet k name s :=
  (find?_declared_eq_some_iff hc.entitySets_eq fun _ => rfl).trans
    ⟨fun ⟨hmem, hk, hname, hfirst⟩ => ⟨hmem, hk, hname, hfirst⟩,
      fun h => ⟨h.mem, h.container, h.hasName, h.first⟩⟩

theorem IsBuilt.firstSet?_eq_none_iff : c.firstSet? name k = none ↔ ¬ c.DeclaresSet k name := by
  rw [DeclaresSet, not_exists]
  refine (find?_declared_eq_none_iff hc.entitySets_eq fun _ => rfl).trans
    (forall_congr' fun s => ?_)
  simp only [not_and, ne_eq]

end

/-! ### The containers that are extended -/

theorem mem_allElements_of_declaredExtension? (h : (c.declaredExtension? k).isSome) :
    k ∈ c.allElements .container := mem_allElements_of_extended? h

theorem findEntitySet?_eq (k : Declared .container) (name : Name) :
    c.findEntitySet? k name =
      (Chain.trail c.declaredExtension? [] ((c.allElements .container).length + 1) k).findSome?
        (c.firstSet? name) := rfl

section

variable (next : Declared .container → Option (Declared .container))

/-- The set is the first one of the name in the nearest container that declares one. -/
inductive IsNearestSet (c : Catalog) (k : Declared .container) (name : Name)
    (s : Declared .entitySet) : Prop
  | intro {n : Nat} {u : Declared .container} (hu : Chain.after next n k = some u)
    (hs : c.IsFirstSet u name s)
    (hnearest : ∀ m < n, ∀ v, Chain.after next m k = some v → ¬ c.DeclaresSet v name)

/-- Entity sets are found by name in a container and those after it. -/
structure FindsNearestSet (c : Catalog) (k : Declared .container)
    (found? : Name → Option (Declared .entitySet)) : Prop where
  /-- The search ends: at a container with a set of the name, at one with none after it, or at one
  that it has passed. -/
  ends : ∀ name, Chain.IsSearch next (c.firstSet? name) [] k (found? name)
  /-- What is found is declared by the nearest container that declares a set of the name. -/
  found_iff : ∀ name s, found? name = some s ↔ c.IsNearestSet next k name s
  /-- Nothing is found iff no container on the way declares a set of the name. -/
  none_iff : ∀ name,
    found? name = none ↔ ∀ n u, Chain.after next n k = some u → ¬ c.DeclaresSet u name

end

/-- **A search by name** gives the first set in the nearest container that declares one. -/
theorem IsBuilt.findsNearestSet (hc : c.IsBuilt) (k : Declared .container) :
    c.FindsNearestSet c.declaredExtension? k (c.findEntitySet? k) where
  ends name := Chain.isSearch_findSome?_trail (fun _ => mem_allElements_of_declaredExtension?) k
  found_iff name s := by
    rw [findEntitySet?_eq,
      Chain.findSome?_trail_eq_some_iff fun _ => mem_allElements_of_declaredExtension?]
    simp only [hc.firstSet?_eq_some_iff, hc.firstSet?_eq_none_iff]
    exact ⟨fun ⟨_, _, hu, hs, hnearest⟩ => ⟨hu, hs, hnearest⟩,
      fun ⟨hu, hs, hnearest⟩ => ⟨_, _, hu, hs, hnearest⟩⟩
  none_iff name := by
    rw [findEntitySet?_eq,
      Chain.findSome?_trail_eq_none_iff fun _ => mem_allElements_of_declaredExtension?]
    simp only [hc.firstSet?_eq_none_iff]

/-! ### The ends of an association set -/

/-- What an association set has at a declared end, where sets are looked for by name. -/
inductive IsSetEnd (found? : Name → Option (Declared .entitySet)) (e : Decl.AssociationSetEnd) :
    Name × Element (Declared .entitySet) → Prop
  /-- The set that the search gives. -/
  | found {s : Declared .entitySet} (h : found? e.entitySet = some s) :
    IsSetEnd found? e (e.role, .declared s)
  /-- The search gives none. -/
  | missing {p : Placeholder} (h : found? e.entitySet = none)
    (hkind : p.kind = .unresolvedEntitySet) (hname : p.name = e.entitySet) :
    IsSetEnd found? e (e.role, .placeholder p)

/-- **An association set has an end for each** that is declared, in the same order. -/
theorem IsBuilt.forall₂_setEnds (hc : c.IsBuilt) {a : Declared .associationSet}
    (hm : c.TellsReferencesApart a.model) :
    List.Forall₂ (IsSetEnd (c.findEntitySet? (c.containerOfAssociationSet a))) (c.setEndDecls a)
      (c.setEnds a) := by
  rw [setEnds, List.forall₂_map_right_iff, List.forall₂_same]
  intro e _
  rw [setEndHandle]
  cases h : c.findEntitySet? (c.containerOfAssociationSet a) e.entitySet with
  | none => exact .missing h rfl rfl
  | some s =>
    -- the handle that is kept leads back to the set
    obtain ⟨handle, hh, hl⟩ := exists_handleFor_locate hm (hc.sees_of_findEntitySet? h)
    rw [Option.bind_some, hh]
    exact .found (hl ▸ h)

end Schemata.Catalog

namespace Schemata.Session

open Catalog

variable {c : Catalog}

/-! ### Containers to spare -/

section steps

variable {search search' : Nat → List (Declared .container) → Declared .container →
  Session (Option (Declared .entitySet))} {name : Name} {n n' : Nat} {cells : Memory}
  {seen : List (Declared .container)} {k : Declared .container}

/-- Each of the searches but the first goes on by the one before.  Nothing is said of the first
one. -/
def GoesByContainers (c : Catalog) (name : Name)
    (search : Nat → List (Declared .container) → Declared .container →
      Session (Option (Declared .entitySet))) : Prop :=
  ∀ n seen k, search (n + 1) seen k = findEntitySetVia c name (search n) seen k

theorem goesByContainers_findEntitySetWithin :
    GoesByContainers c name fun n seen k => findEntitySetWithin c name seen n k :=
  fun _ _ _ => rfl

/-- **The containers are never used up.**  Whatever containers have been passed, two searches give
the same and leave the same memory if both may look at more containers than have not been passed,
whatever either of them would give after its last one. -/
theorem run_eq_of_seen (hsearch : GoesByContainers c name search)
    (hsearch' : GoesByContainers c name search') (hs : c.Sound cells) (hq : c.Quiet 1 cells)
    (hnodup : seen.Nodup) (hseen : seen ⊆ c.allElements .container)
    (hn : c.count .container < n + seen.length) (hn' : c.count .container < n' + seen.length) :
    (search n seen k).run cells = (search' n' seen k).run cells := by
  have hlength : seen.length ≤ c.count .container := hnodup.length_le_of_subset hseen
  induction n generalizing n' seen k cells with
  | zero => omega
  | succ n ih =>
    cases n' with
    | zero => omega
    | succ n' =>
      rw [hsearch n, hsearch' n', findEntitySetVia, findEntitySetVia]
      split
      · rfl
      case isFalse hk =>
        cases (c.entitySets k).find? fun s => (c.entitySet s).name = name with
        | some s => rfl
        | none =>
          obtain ⟨later, hrun, hsound, hset⟩ := reads_extended? Nat.zero_lt_one k cells hs hq
          simp only [run_bind, hrun]
          cases hnext : (c.extended? k).bind (·.declared?) with
          | none => rfl
          | some k' =>
            -- one more container has been passed
            have hmem : k ∈ c.allElements .container :=
              mem_allElements_of_extended? (Option.isSome_of_eq_some hnext)
            have hnodup' : (k :: seen).Nodup := List.nodup_cons.2 ⟨hk, hnodup⟩
            have hseen' : k :: seen ⊆ c.allElements .container := List.cons_subset.2 ⟨hmem, hseen⟩
            exact ih hsound (hset.quiet hq) hnodup' hseen' (by rw [List.length_cons]; omega)
              (by rw [List.length_cons]; omega) (hnodup'.length_le_of_subset hseen')

/-- Any number of containers that is greater than that of all containers is enough to look for an
entity set. -/
theorem run_eq_run_findEntitySet? (hsearch : GoesByContainers c name search)
    (hn : c.count .container < n) (hs : c.Sound cells) (hq : c.Quiet 1 cells)
    (k : Declared .container) :
    (search n [] k).run cells = (findEntitySet? c k name).run cells :=
  run_eq_of_seen hsearch goesByContainers_findEntitySetWithin hs hq .nil (List.nil_subset _)
    (by simpa using hn) (by simp)

end steps

/-- **Entity sets by name.**  Whatever has been asked before, and whatever the containers extend, a
search for an entity set ends, and it gives the first set of the name in the nearest container that
declares one, or none if none does.  An association set has an end for each that it declares: the
set that the search gives, or a placeholder iff it gives none. -/
theorem findEntitySet_and_setEnds_after (hc : c.IsBuilt) (qs : List Query) :
    let extension? (k : Declared .container) :=
      (((ask c (.extended k)).run (after c qs)).1).bind (·.declared?)
    let found? (k : Declared .container) (name : Name) :=
      ((ask c (.findEntitySet k name)).run (after c qs)).1
    (∀ k, c.FindsNearestSet extension? k (found? k)) ∧
      ∀ a, c.TellsReferencesApart a.model →
        List.Forall₂ (IsSetEnd (found? (c.containerOfAssociationSet a))) (c.setEndDecls a)
          ((ask c (.setEnds a)).run (after c qs)).1 := by
  intro extension? found?
  have hextension : extension? = c.declaredExtension? := funext fun k =>
    congrArg (Option.bind · _) (run_ask_after qs (.extended k))
  have hfound : found? = c.findEntitySet? := funext fun k => funext fun name =>
    run_ask_after qs (.findEntitySet k name)
  rw [hextension, hfound]
  refine ⟨hc.findsNearestSet, fun a hm => ?_⟩
  rw [run_ask_after]
  exact hc.forall₂_setEnds hm

/-- Two containers that extend each other, the first with a set name that is used twice, and a
container in another model that extends them. -/
def circularContainers : Catalog :=
  let options := { Options.standard with includeCore := false }
  let first := ((Decl.Container.make "P").addEntitySet "S" "A.T").addEntitySet "D" "A.T"
    |>.addEntitySet "D" "A.U"
  let second := (Decl.Container.make "Q").addEntitySet "S" "A.T"
  let outer := (Decl.Container.make "K").addAssociationSet "L" "A.Link" ("One", "D") ("Two", "Gone")
  let inner := ((Decl.Schema.make "A").addItem (.container { first with extends? := some "A.Q" }))
    |>.addItem (.container { second with extends? := some "A.P" })
  let user := (Decl.Schema.make "B").addItem (.container { outer with extends? := some "A.P" })
  (initial.add options [] [inner]).add options [1] [user]

theorem isBuilt_circularContainers : circularContainers.IsBuilt := by
  refine .add (.add_nil .initial _ _) _ ?_ _
  decide +kernel

theorem findEntitySet_and_setEnds_after_circularContainers :
    let c := circularContainers
    let k : Declared .container := ⟨2, ⟨0⟩⟩
    c.TellsReferencesApart 2 ∧
      c.extendedChain k = [k, ⟨1, ⟨0⟩⟩, ⟨1, ⟨1⟩⟩] ∧
      ((ask c (.findEntitySet k "D")).run (after c [.resolveAll 2])).1 = some ⟨1, ⟨1⟩⟩ ∧
      ((ask c (.findEntitySet k "Gone")).run (after c [.resolveAll 2])).1 = none ∧
      List.Forall₂ (IsSetEnd fun name =>
          ((ask c (.findEntitySet k name)).run (after c [.resolveAll 2])).1)
        (c.setEndDecls ⟨2, ⟨0⟩⟩) ((ask c (.setEnds ⟨2, ⟨0⟩⟩)).run (after c [.resolveAll 2])).1 := by
  intro c k
  have hm : c.TellsReferencesApart 2 := by decide +kernel
  have hk : c.containerOfAssociationSet ⟨2, ⟨0⟩⟩ = k := by decide +kernel
  obtain ⟨-, hends⟩ := findEntitySet_and_setEnds_after isBuilt_circularContainers [.resolveAll 2]
  refine ⟨hm, by decide +kernel, ?_, ?_, hk ▸ hends ⟨2, ⟨0⟩⟩ hm⟩
  · rw [run_ask_after]
    decide +kernel
  · rw [run_ask_after]
    decide +kernel

end Schemata.Session

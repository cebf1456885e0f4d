import Schemata.Proofs.Catalog.Built
import Schemata.Proofs.Model.Targets
import Schemata.Validation

/-!
# What annotation blocks are attached to

A block is attached to an element only if the element has the path of its target, and only if the
name in the path is qualified.  For such a name the block is attached whenever there is an element
with the path (`attachedTo?_iff_exists_hasPath`); nothing is said there of a set of a container that
shares its name with a type without such a member.  What is attached to nothing is reported.
-/

namespace Schemata

namespace Catalog

variable {c : Catalog} {s : Declared .schema} {b : BlockEntry}

/-- The report on a block that is attached to nothing. -/
def unresolvedTarget (b : BlockEntry) : Diagnostic :=
  .error .unresolvedTarget b.location ("annotation target '" ++ b.target ++ "' could not be found")

/-- A schema reports the blocks that are attached to nothing. -/
theorem schemaDiagnostics_eq (c : Catalog) (s : Declared .schema) :
    c.schemaDiagnostics s =
      (((c.model s.model).blocksOf s.id).filter (·.attachedTo?.isNone)).map unresolvedTarget := by
  unfold schemaDiagnostics
  rw [← List.filterMap_eq_map, List.filterMap_filter]
  refine List.filterMap_congr fun b _ => ?_
  cases b.attachedTo? <;> rfl

theorem unresolvedTarget_mem_schemaDiagnostics_iff (hc : c.IsBuilt)
    (hb : b ∈ (c.model s.model).blocksOf s.id) :
    unresolvedTarget b ∈ c.schemaDiagnostics s ↔ b.attachedTo? = none := by
  have hm := hc.isLaidOut s.model
  rw [schemaDiagnostics_eq, List.mem_map]
  constructor
  · rintro ⟨b', hb', hreport⟩
    obtain ⟨hb', hnone⟩ := List.mem_filter.1 hb'
    -- the same report is about the same target, which leads to the same
    have htarget : b'.target = b.target := by
      have hmessage := congrArg (String.toList ·.message) hreport
      simp only [unresolvedTarget, Diagnostic.error, String.toList_append] at hmessage
      exact String.toList_inj.1 (List.append_cancel_left (List.append_cancel_right hmessage))
    rw [hm.attachedTo?_eq hb, ← htarget, ← hm.attachedTo?_eq hb']
    exact Option.isNone_iff_eq_none.1 hnone
  · exact fun hnone => ⟨b, List.mem_filter.2 ⟨hb, by rw [hnone]; rfl⟩, rfl⟩

/-- **What blocks are attached to.**  A block is attached only to an element that has the path of
its target, and only if the name in the path is qualified.  Then it is attached to one whenever
there is one, if the path is not hidden; and it is reported if and only if it is attached to
nothing. -/
theorem attachedTo?_iff_exists_hasPath (hc : c.IsBuilt) (hb : b ∈ (c.model s.model).blocksOf s.id) :
    let m := c.model s.model
    let (name, member?) := m.targetPath s.id b.target
    (∀ x, b.attachedTo? = some x → m.HasPath name member? x) ∧
      (splitQualified name = none → b.attachedTo? = none) ∧
      (splitQualified name ≠ none → ¬ m.IsHidden name member? →
        (b.attachedTo? ≠ none ↔ ∃ x, m.HasPath name member? x)) ∧
      (unresolvedTarget b ∈ c.schemaDiagnostics s ↔ b.attachedTo? = none) := by
  intro m
  have hattached := (hc.isLaidOut s.model).attachedTo?_eq hb
  generalize (c.model s.model).targetPath s.id b.target = path at hattached
  obtain ⟨name, member?⟩ := path
  have hpath (x : Target) (hx : b.attachedTo? = some x) : m.HasPath name member? x := by
    rw [hattached] at hx
    obtain ⟨-, -, hx⟩ := Option.bind_eq_some_iff.1 hx
    exact Model.hasPath_of_targetAt? hx
  refine ⟨hpath, fun hname => ?_, fun hname hhidden => ⟨fun hsome => ?_, fun ⟨x, hx⟩ => ?_⟩,
    unresolvedTarget_mem_schemaDiagnostics_iff hc hb⟩
  · rw [hattached, hname]
    rfl
  · obtain ⟨x, hx⟩ := Option.ne_none_iff_exists'.1 hsome
    exact ⟨x, hpath x hx⟩
  · obtain ⟨parts, hparts⟩ := Option.ne_none_iff_exists'.1 hname
    rw [hattached, hparts, Option.bind_some]
    exact Option.isSome_iff_ne_none.1 (hx.isSome_targetAt? hhidden)

/-- A type and a container share their name, and only the container has the set. -/
def sharedNamesSchema : Decl.Schema :=
  let type := (Decl.Structured.make "X").addProperty (.make "P" "Edm.Int32")
  let schema := { Decl.Schema.make "NS" with alias? := some "N" }
  (((schema.addItem (.container ((Decl.Container.make "X").addEntitySet "S" "NS.E"))).addItem
    (.complexType type)).addBlock ⟨"N.X/P", none, [], .unknown⟩).addBlock
    ⟨"N.X/S", none, [], .unknown⟩

/-- A type in no namespace is annotated from outside. -/
def unqualifiedSchema : Decl.Schema :=
  ((Decl.Schema.make "").addItem (.complexType (.make "T"))).addBlock ⟨"T", none, [], .unknown⟩

/-- The first block is attached to the property of the type, and not reported. -/
theorem attachedTo?_iff_exists_hasPath_sharedNames :
    let c := initial.add { Options.standard with includeCore := false } [] [sharedNamesSchema]
    ∃ b ∈ (c.model 1).blocksOf ⟨0⟩, b.target = "N.X/P" ∧
      b.attachedTo? = some (.property ⟨0⟩) ∧
      (c.model 1).HasPath "NS.X" (some "P") (.property ⟨0⟩) ∧
      unresolvedTarget b ∉ c.schemaDiagnostics ⟨1, ⟨0⟩⟩ := by
  intro c
  obtain ⟨b, hb, htarget, hattached⟩ : ∃ b ∈ (c.model 1).blocksOf ⟨0⟩,
      b.target = "N.X/P" ∧ b.attachedTo? = some (.property ⟨0⟩) := by
    decide +kernel
  have hpath : (c.model 1).targetPath ⟨0⟩ "N.X/P" = ("NS.X", some "P") := by decide +kernel
  have hgiven : ∀ r ∈ ([] : List ModelId), r < initial.models.size := nofun
  have hiff := attachedTo?_iff_exists_hasPath (s := ⟨1, ⟨0⟩⟩) (.add .initial _ hgiven _) hb
  dsimp only at hiff
  rw [htarget, hpath] at hiff
  obtain ⟨hhas, -, -, hreport⟩ := hiff
  refine ⟨b, hb, htarget, hattached, hhas _ hattached, fun hmem => ?_⟩
  rw [hreport.1 hmem] at hattached
  cases hattached

/-- Elements have these paths, but nothing is attached to them: a name in no namespace is refused,
and a type hides a container. -/
theorem exists_hasPath_and_attachedTo?_eq_none :
    let options := { Options.standard with includeCore := false }
    let m := (initial.add options [] [unqualifiedSchema]).model 1
    let m' := (initial.add options [] [sharedNamesSchema]).model 1
    (m.HasPath "T" none (.type ⟨0⟩) ∧
      ∃ b ∈ m.blocksOf ⟨0⟩, m.targetPath ⟨0⟩ b.target = ("T", none) ∧ b.attachedTo? = none) ∧
    (m'.HasPath "NS.X" (some "S") (.entitySet ⟨0⟩) ∧
      ∃ b ∈ m'.blocksOf ⟨0⟩, m'.targetPath ⟨0⟩ b.target = ("NS.X", some "S") ∧
        b.attachedTo? = none) := by
  intro options m m'
  exact ⟨⟨.type (by decide +kernel), by decide +kernel⟩,
    .entitySet (k := ⟨0⟩) (by decide +kernel) (by decide +kernel) (by decide +kernel),
    by decide +kernel⟩

end Catalog

end Schemata

import Schemata.Proofs.Model.Contents
import Schemata.Proofs.Model.Declarations

/-!
# How a model is laid out

The elements of a model are those that lie inside its schemas, and the annotations of its blocks:
`m.IsLaidOut` says that each is there once and in this order, that the entries say rightly who
declares whom, and that a block is attached to what its target names.

Every model that is built is laid out so (`isLaidOut_build`).  Blocks are added when all schemas are
there; with a block come annotations only, so what its target names does not change any more.
-/

namespace Schemata.Model

variable {m later : Model} {n : Nat}

/-! ### Blocks -/

section

variable (m)

/-- The block is attached to what its target names, and its annotations are attached to that. -/
structure IsBlock (b : BlockEntry) : Prop where
  attachedTo? : b.attachedTo? = m.target? b.schema b.target
  annotations : ∀ a ∈ b.annotations, m.AnnotationIn b.schema b.attachedTo? true a

/-- The annotations of blocks. -/
def insideBlocks (bs : List BlockEntry) : Contents := .of (bs.flatMap (·.annotations))

/-- The elements are those inside the schemas and then those of the blocks, and the entries say so
of one another. -/
structure IsLaidOut : Prop where
  schemas : ∀ s ∈ m.ids .schema, m.SchemaListsItsOwn s
  blocks : ∀ b ∈ m.blocks.toList, m.IsBlock b
  ids : ∀ k, m.ids k =
    (Contents.concat (m.ids .schema) m.insideSchema ++ insideBlocks m.blocks.toList : Contents) k
  blocksOf : m.blocks.toList = (m.ids .schema).flatMap m.blocksOf

end

section grows

variable (h : Grows 1 m later)
include h

/-- With blocks come annotations only. -/
theorem Grows.eq_with : later = { m with
    options := later.options, references := later.references
    annotations := later.annotations, blocks := later.blocks } := by
  have hentries (k : ElementKind) (hk : 1 ≤ k.level) : later.entries k = m.entries k :=
    h.entries_eq k hk
  cases m
  cases later
  simp only [mk.injEq, true_and, and_true]
  exact ⟨hentries .schema (by decide), hentries .type (by decide), hentries .property (by decide),
    hentries .navigation (by decide), hentries .association (by decide),
    hentries .term (by decide), hentries .container (by decide), hentries .entitySet (by decide),
    hentries .associationSet (by decide)⟩

/-- What a target names does not depend on the annotations. -/
theorem Grows.target?_eq (s : Id .schema) (path : Name) :
    later.target? s path = m.target? s path := by
  rw [h.eq_with]
  rfl

theorem Grows.context?_eq (t : Target) : later.context? t = m.context? t := by
  rw [h.eq_with]
  rfl

end grows

/-- A computation adds blocks of these schemas with their annotations, and each is in order in every
model that has more annotations. -/
def LaysBlocks (x : StateM Model Unit) (schemas : List (Id .schema)) : Prop :=
  ∀ m, Grows 1 m (x.run m).2 ∧ ∃ bs, (x.run m).2.blocks.toList = m.blocks.toList ++ bs ∧
    (∀ k, (x.run m).2.ids k = m.ids k ++ insideBlocks bs k) ∧ bs.map (·.schema) = schemas ∧
    ∀ final, Grows 1 (x.run m).2 final → ∀ b ∈ bs, final.IsBlock b

theorem laysBlocks_addBlock (schema : Id .schema) (d : Decl.Block) :
    LaysBlocks (addBlock schema d) [schema] := by
  intro m
  let attachedTo? := m.target? schema d.target
  obtain ⟨hgrows, hblocks, added, hids, hannotations⟩ := lays_addAnnotations schema attachedTo?
    (attachedTo?.bind m.context?) true d.annotations Nat.zero_lt_one m
  let run := (addAnnotations schema attachedTo? (attachedTo?.bind m.context?) true
    d.annotations).run m
  let b : BlockEntry := ⟨schema, d.target, d.qualifier, run.1, attachedTo?, d.location⟩
  have hadded : added = .of run.1 := (hannotations _ (.refl _)).1
  refine ⟨⟨hgrows.isStartOf, hgrows.entries_eq⟩, [b], ?_, fun k => ?_, rfl, fun final hfinal => ?_⟩
  · rw [← hblocks]
    exact Array.toList_push
  · rw [insideBlocks, List.flatMap_singleton, ← hadded]
    exact hids k
  · have hgrows : Grows 1 m final := hgrows.trans ⟨hfinal.isStartOf, hfinal.entries_eq⟩
    refine List.forall_mem_singleton.2 ⟨(hgrows.target?_eq schema d.target).symm, fun a ha => ?_⟩
    refine (hannotations final hfinal.isStartOf).2 a ha ?_
    exact Option.bind_congr fun t _ => (hgrows.context?_eq t).symm

/-- What the rounds of a loop add comes one after another. -/
theorem LaysBlocks.forM {ι : Type} {x : ι → StateM Model Unit} {f : ι → List (Id .schema)}
    (hx : ∀ i, LaysBlocks (x i) (f i)) (l : List ι) : LaysBlocks (l.forM x) (l.flatMap f) := by
  induction l with
  | nil =>
    exact fun m => ⟨.refl 1 m, [], (List.append_nil _).symm,
      fun k => by cases k <;> exact (List.append_nil _).symm, rfl,
      fun _ _ b hb => absurd hb List.not_mem_nil⟩
  | cons i l ih =>
    intro m
    obtain ⟨hgrows₁, bs₁, hbs₁, hids₁, hschemas₁, hblocks₁⟩ := hx i m
    obtain ⟨hgrows₂, bs₂, hbs₂, hids₂, hschemas₂, hblocks₂⟩ := ih ((x i).run m).2
    rw [List.forM_eq_forM, List.forM_cons]
    refine ⟨hgrows₁.trans hgrows₂, bs₁ ++ bs₂, ?_, fun k => ?_, ?_, fun final hfinal b hb => ?_⟩
    · rw [← List.append_assoc, ← hbs₁]
      exact hbs₂
    · have hinside : insideBlocks (bs₁ ++ bs₂) k = insideBlocks bs₁ k ++ insideBlocks bs₂ k := by
        unfold insideBlocks
        rw [List.flatMap_append, Contents.of_append, Contents.append_apply]
      rw [hinside, ← List.append_assoc, ← hids₁]
      exact hids₂ k
    · rw [List.map_append, hschemas₁, hschemas₂, List.flatMap_cons]
    · rcases List.mem_append.1 hb with hb | hb
      · exact hblocks₁ final (hgrows₂.trans hfinal) b hb
      · exact hblocks₂ final hfinal b hb

/-! ### Blocks by schema -/

/-- Where equal keys stand together, one finds the whole list again key by key. -/
theorem eq_flatMap_filter {α β : Type} [DecidableEq α] {key : β → α} {parts : List (α × Nat)}
    (hparts : (parts.map (·.1)).Nodup) {l : List β}
    (hl : l.map key = parts.flatMap fun p => List.replicate p.2 p.1) :
    l = (parts.map (·.1)).flatMap fun a => l.filter (key · = a) := by
  induction parts generalizing l with
  | nil => simpa using hl
  | cons p parts ih =>
    obtain ⟨a, n⟩ := p
    rw [List.map_cons, List.nodup_cons] at hparts
    rw [List.flatMap_cons] at hl
    obtain ⟨first, rest, rfl, hfirst, hrest⟩ := List.map_eq_append_iff.1 hl
    have hkeys (b : β) (hb : b ∈ first) : key b = a :=
      List.eq_of_mem_replicate (hfirst ▸ List.mem_map_of_mem hb)
    have hothers (b : β) (hb : b ∈ rest) : key b ∈ parts.map (·.1) := by
      have hb : key b ∈ rest.map key := List.mem_map_of_mem hb
      rw [hrest] at hb
      obtain ⟨p, hp, hkey⟩ := List.mem_flatMap.1 hb
      exact List.eq_of_mem_replicate hkey ▸ List.mem_map_of_mem hp
    have hself : (first ++ rest).filter (key · = a) = first := by
      rw [List.filter_append, List.filter_eq_self.2 (by simpa using hkeys),
        List.filter_eq_nil_iff.2, List.append_nil]
      intro b hb hkey
      exact hparts.1 (of_decide_eq_true hkey ▸ hothers b hb)
    have hrest' (a' : α) (ha' : a' ∈ parts.map (·.1)) :
        (first ++ rest).filter (key · = a') = rest.filter (key · = a') := by
      rw [List.filter_append, List.filter_eq_nil_iff.2, List.nil_append]
      intro b hb hkey
      have : a = a' := (hkeys b hb).symm.trans (of_decide_eq_true hkey)
      exact hparts.1 (this ▸ ha')
    rw [List.map_cons, List.flatMap_cons, hself, List.flatMap_congr hrest', ← ih hparts.2 hrest]

/-! ### Models -/

/-- The default model has no elements and no blocks. -/
theorem isLaidOut_of_count_eq_zero (hm : ∀ k, m.count k = 0) (hblocks : m.blocks = #[]) :
    m.IsLaidOut := by
  have hids (k : ElementKind) : m.ids k = [] := by simp [Model.ids, Id.upTo, hm k]
  constructor
  · intro s hs
    rw [hids] at hs
    exact absurd hs List.not_mem_nil
  · simp [hblocks]
  · intro k
    cases k <;> simp [hids, hblocks, insideBlocks]
  · simp [hids, hblocks]

/-- **Every model that is built is laid out in order.** -/
theorem isLaidOut_build (options : Options) (references : List ModelId)
    (schemas : List Decl.Schema) : (build options references schemas).IsLaidOut := by
  let start := empty options references
  let first := (schemas.mapM addSchema).run start
  let final := build options references schemas
  obtain ⟨hids, hcount⟩ : first.1 = _ ∧ first.2.count .schema = _ :=
    run_mapM_addSchema schemas start
  obtain ⟨-, hempty : first.2.blocks = #[], added, hadded, hschemas⟩ :=
    Lays.mapM (lays_addSchema · (Nat.lt_succ_self 3)) schemas start
  obtain ⟨hgrows : Grows 1 first.2 final, bs, hbs : final.blocks.toList = _, hblockIds, hkeys,
      hblocks⟩ :=
    LaysBlocks.forM
      (fun p : Id .schema × Decl.Schema =>
        LaysBlocks.forM (fun d => laysBlocks_addBlock p.1 d) p.2.blocks)
      (first.1.zip schemas) first.2
  -- blocks come with annotations only, so the schemas are still those of the first pass
  have hfinal : final.ids .schema = first.1 := by
    rw [ids, hgrows.count_eq (k := .schema) (by decide), hcount, hids, Id.upTo,
      List.range_eq_range', show start.count .schema = 0 from rfl, Nat.zero_add]
  have hbs : final.blocks.toList = bs := by rw [hbs, hempty, Array.toList_empty, List.nil_append]
  obtain ⟨hinside, hown⟩ := hschemas final hgrows.isStartOf
  constructor
  · rw [hfinal]
    exact hown
  · rw [hbs]
    exact hblocks final (.refl 1 final)
  · intro k
    rw [hfinal, hbs, Contents.append_apply, ← hinside]
    refine (hblockIds k).trans (congrArg (· ++ _) ?_)
    have hstart : start.ids k = [] := by cases k <;> rfl
    have hadded : first.2.ids k = start.ids k ++ added k := hadded k
    rw [hadded, hstart, List.nil_append]
  · have hlength : first.1.length = schemas.length := by simp [hids]
    have hnodup : first.1.Nodup := by
      rw [hids]
      exact List.Nodup.map (fun _ _ => Id.mk.inj) List.nodup_range'
    let parts := (first.1.zip schemas).map fun p => (p.1, p.2.blocks.length)
    have hfst : parts.map (·.1) = first.1 := by
      rw [List.map_map]
      exact List.map_fst_zip (Nat.le_of_eq hlength)
    have hbs' : bs.map (·.schema) = parts.flatMap fun p => List.replicate p.2 p.1 := by
      rw [hkeys, List.flatMap_map]
      refine List.flatMap_congr fun p _ => ?_
      rw [← List.map_eq_flatMap, List.map_const']
    have hflat := eq_flatMap_filter (hfst.symm ▸ hnodup) hbs'
    rw [hfst] at hflat
    rw [hfinal]
    unfold Model.blocksOf
    rw [hbs]
    exact hflat

end Schemata.Model

import Mathlib.Data.List.Nodup
import Schemata.Model.Declarations
import Schemata.Proofs.Model.Growth

/-!
# A model keeps all that was declared

`Model.build` takes schemas apart into one array for each kind of element, and `Model.declarations`
puts them together again: the schemas that come out are the ones that went in, whatever they say
(`declarations_build`).

Each element is put together from its own entry and from the elements that were declared inside it.
An entry is never changed, so what one element has been put together to it stays, while others are
added.  Blocks are added when all schemas are there, one schema after another; a schema finds its
own among them by its number.
-/

namespace Schemata.Model

variable {n : Nat}

/-! ### Elements inside others -/

section members

variable (schema : Id .schema)

theorem adds_addAnnotations (target? : Option Target) (context? : Option (Id .type))
    (outOfLine : Bool) (ds : List Decl.Annotation) (hn : 0 < n) :
    Adds n (addAnnotations schema target? context? outOfLine ds) fun ids m =>
      m.annotationDecls ids = ds := by
  refine Adds.mapM_decl (fun d => adds_addElement hn fun id => .pure fun m he => ?_) ds
  have he : m.annotated id = _ := he
  rw [he]

/-- An element in which nothing is declared but its annotations. -/
theorem adds_annotated {k : ElementKind} {target? : Id k → Option Target}
    {context? : Id k → Option (Id .type)} {ds : List Decl.Annotation}
    {entry : Id k → List (Id .annot) → Entry k} {Q : Id k → Model → Prop} (hk : 0 < k.level)
    (hn : k.level < n)
    (hQ : ∀ id ids m, m.annotationDecls ids = ds → m.entry id = entry id ids → Q id m) :
    Adds n
      (addElement k fun id => do
        let ids ← addAnnotations schema (target? id) (context? id) false ds
        return entry id ids)
      Q := by
  refine adds_addElement hn fun id => ?_
  exact (adds_addAnnotations schema _ _ _ _ hk).bind fun ids => .pure fun m => hQ id ids m

theorem adds_addProperty (declaring : Id .type) (d : Decl.Property) (hn : 1 < n) :
    Adds n (addProperty schema declaring d) fun id m => m.propertyDecl id = d := by
  refine adds_annotated schema Nat.zero_lt_one hn fun id ids m hids he => ?_
  have he : m.property id = _ := he
  rw [propertyDecl, he, hids]

theorem adds_addNavigation (declaring : Id .type) (d : Decl.Navigation) (hn : 1 < n) :
    Adds n (addNavigation schema declaring d) fun id m => m.navigationDecl id = d := by
  refine adds_annotated schema Nat.zero_lt_one hn fun id ids m hids he => ?_
  have he : m.navigationProperty id = _ := he
  rw [navigationDecl, he, hids]

theorem adds_addEntitySet (container : Id .container) (d : Decl.EntitySet) (hn : 1 < n) :
    Adds n (addEntitySet schema container d) fun id m => m.entitySetDecl id = d := by
  refine adds_annotated schema Nat.zero_lt_one hn fun id ids m hids he => ?_
  have he : m.entitySet id = _ := he
  rw [entitySetDecl, he, hids]

theorem adds_addAssociationSet (container : Id .container) (d : Decl.AssociationSet)
    (hn : 1 < n) :
    Adds n (addAssociationSet container d) fun id m => (m.associationSet id).decl = d := by
  refine adds_addElement hn fun id => .pure fun m he => ?_
  have he : m.associationSet id = _ := he
  rw [he]

end members

/-! ### Declarations of a schema -/

section items

variable (schema : Id .schema) (ns : Name)

theorem adds_addStructured (body : StructuredEntry → TypeBody) (d : Decl.Structured) (hn : 2 < n) :
    Adds n (addStructured schema ns body d) fun id m =>
      ∃ s, (m.type id).body = body s ∧ m.structuredDecl (m.type id) s = d := by
  refine adds_addElement hn fun id => ?_
  refine (Adds.mapM_decl (adds_addProperty schema id · Nat.one_lt_two) _).bind fun ps => ?_
  refine (Adds.mapM_decl (adds_addNavigation schema id · Nat.one_lt_two) _).bind fun ns => ?_
  refine (adds_addAnnotations _ _ _ _ _ Nat.zero_lt_two).bind fun ids => .pure fun m => ?_
  intro hids hns hps he
  have he : m.type id = _ := he
  rw [he]
  refine ⟨_, rfl, ?_⟩
  rw [structuredDecl, hids, hns, hps]

theorem adds_addEnum (d : Decl.Enum) (hn : 2 < n) :
    Adds n (addEnum schema ns d) fun id m => m.typeDecl id = .enumType d := by
  refine adds_annotated schema Nat.zero_lt_two hn fun id ids m hids he => ?_
  have he : m.type id = _ := he
  rw [typeDecl, he, hids]

theorem adds_addAssociation (d : Decl.Association) (hn : 2 < n) :
    Adds n (addAssociation schema ns d) fun id m => m.associationDecl id = d := by
  refine adds_annotated schema Nat.zero_lt_two hn fun id ids m hids he => ?_
  have he : m.association id = _ := he
  rw [associationDecl, he, hids]

theorem adds_addTerm (d : Decl.Term) (hn : 2 < n) :
    Adds n (addTerm schema ns d) fun id m => m.termDecl id = d := by
  refine adds_annotated schema Nat.zero_lt_two hn fun id ids m hids he => ?_
  have he : m.term id = _ := he
  rw [termDecl, he, hids]

theorem adds_addContainer (d : Decl.Container) (hn : 2 < n) :
    Adds n (addContainer schema ns d) fun id m => m.containerDecl id = d := by
  refine adds_addElement hn fun id => ?_
  refine (Adds.mapM_decl (adds_addEntitySet schema id · Nat.one_lt_two) _).bind fun sets => ?_
  refine (Adds.mapM_decl (adds_addAssociationSet id · Nat.one_lt_two) _).bind fun links => ?_
  refine (adds_addAnnotations _ _ _ _ _ Nat.zero_lt_two).bind fun ids => .pure fun m => ?_
  intro hids hlinks hsets he
  have he : m.container id = _ := he
  simp only [containerDecl, he, hids, hlinks, hsets]

theorem adds_addItem (d : Decl.Item) (hn : 2 < n) :
    Adds n (addItem schema ns d) fun id m => m.itemDecl id = d := by
  cases d with
  | complexType d =>
    refine .map ((adds_addStructured schema ns .complex d hn).imp fun id m => ?_)
    rintro ⟨s, hs, rfl⟩
    rw [itemDecl, typeDecl, hs]
  | entityType d =>
    refine .map ((adds_addStructured schema ns .entity d hn).imp fun id m => ?_)
    rintro ⟨s, hs, rfl⟩
    rw [itemDecl, typeDecl, hs]
  | enumType d => exact .map (adds_addEnum schema ns d hn)
  | association d =>
    exact .map ((adds_addAssociation schema ns d hn).imp fun _ _ h => congrArg _ h)
  | term d => exact .map ((adds_addTerm schema ns d hn).imp fun _ _ h => congrArg _ h)
  | container d => exact .map ((adds_addContainer schema ns d hn).imp fun _ _ h => congrArg _ h)

end items

/-! ### Schemas -/

/-- A schema is put together again but for the blocks, which have not been added yet. -/
theorem adds_addSchema (d : Decl.Schema) (hn : 3 < n) :
    Adds n (addSchema d) fun id m =>
      m.schemaDecl id = { d with blocks := (m.blocksOf id).map m.blockDecl } := by
  refine adds_addElement hn fun id => ?_
  refine (Adds.mapM_decl (adds_addItem id _ · (Nat.lt_succ_self 2)) _).bind fun items => ?_
  refine .pure fun m hitems he => ?_
  have he : m.schema id = _ := he
  simp only [schemaDecl, he, hitems]

/-- Schemas are numbered in their order. -/
theorem run_mapM_addSchema (ds : List Decl.Schema) (m : Model) :
    ((ds.mapM addSchema).run m).1 = (List.range' (m.count .schema) ds.length).map Id.mk ∧
      ((ds.mapM addSchema).run m).2.count .schema = m.count .schema + ds.length := by
  induction ds generalizing m with
  | nil => exact ⟨rfl, rfl⟩
  | cons d ds ih =>
    have hcount : ((addSchema d).run m).2.count .schema = m.count .schema + 1 :=
      count_addElement (fun id => ⟨fun _ _ => True,
        (Adds.mapM_decl (adds_addItem id _ · (Nat.lt_succ_self 2)) d.items).bind fun _ =>
          .pure fun _ _ => trivial⟩) m
    obtain ⟨hids, hcount'⟩ := ih ((addSchema d).run m).2
    rw [hcount] at hids hcount'
    rw [List.mapM_cons, List.length_cons, List.range'_succ]
    constructor
    · exact congrArg (_ :: ·) hids
    · rw [Nat.add_comm ds.length 1, ← Nat.add_assoc]
      exact hcount'

/-! ### Blocks -/

/-- A computation adds annotations and blocks; put together again, the blocks of each schema are
as `f` says. -/
def AddsBlocks (x : StateM Model Unit) (f : Id .schema → List Decl.Block) : Prop :=
  ∀ m, Grows 1 m (x.run m).2 ∧ ∃ bs, (x.run m).2.blocks.toList = m.blocks.toList ++ bs ∧
    ∀ final, (x.run m).2.IsStartOf final → ∀ id,
      (bs.filter (·.schema = id)).map final.blockDecl = f id

theorem addsBlocks_addBlock (schema : Id .schema) (d : Decl.Block) :
    AddsBlocks (addBlock schema d) fun id => if schema = id then [d] else [] := by
  intro m
  let attachedTo? := m.target? schema d.target
  obtain ⟨hgrows, hblocks, hids⟩ := adds_addAnnotations schema attachedTo?
    (attachedTo?.bind m.context?) true d.annotations Nat.zero_lt_one m
  let ids := ((addAnnotations schema attachedTo? (attachedTo?.bind m.context?) true
    d.annotations).run m).1
  let b : BlockEntry := ⟨schema, d.target, d.qualifier, ids, attachedTo?, d.location⟩
  refine ⟨⟨hgrows.isStartOf, hgrows.entries_eq⟩, [b], ?_, fun final hfinal id => ?_⟩
  · rw [← hblocks]
    exact Array.toList_push
  · have hdecl : final.blockDecl b = d := by
      have hannotations : final.annotationDecls b.annotations = d.annotations := hids final hfinal
      rw [blockDecl, hannotations]
    show ([b].filter (·.schema = id)).map final.blockDecl = if schema = id then [d] else []
    by_cases hid : schema = id
    · have hfilter : [b].filter (·.schema = id) = [b] := by simp [b, hid]
      rw [hfilter, List.map_singleton, hdecl, if_pos hid]
    · have hfilter : [b].filter (·.schema = id) = [] := by simp [b, hid]
      rw [hfilter, List.map_nil, if_neg hid]

/-- What the rounds of a loop add comes one after another. -/
theorem AddsBlocks.forM {ι : Type} {x : ι → StateM Model Unit}
    {f : ι → Id .schema → List Decl.Block} (hx : ∀ i, AddsBlocks (x i) (f i)) (l : List ι) :
    AddsBlocks (l.forM x) fun id => l.flatMap (f · id) := by
  induction l with
  | nil => exact fun m => ⟨.refl 1 m, [], (List.append_nil _).symm, fun _ _ _ => rfl⟩
  | cons i l ih =>
    intro m
    obtain ⟨hgrows₁, bs₁, hbs₁, hf₁⟩ := hx i m
    obtain ⟨hgrows₂, bs₂, hbs₂, hf₂⟩ := ih ((x i).run m).2
    rw [List.forM_eq_forM, List.forM_cons]
    refine ⟨hgrows₁.trans hgrows₂, bs₁ ++ bs₂, ?_, fun final hfinal id => ?_⟩
    · rw [← List.append_assoc, ← hbs₁]
      exact hbs₂
    · show _ = (i :: l).flatMap (f · id)
      rw [List.filter_append, List.map_append, List.flatMap_cons, hf₂ final hfinal id,
        hf₁ final (hgrows₂.isStartOf.trans hfinal) id]

/-- Of the blocks of all schemas, those of one schema are found by its number. -/
theorem flatMap_blocks {schemas : List (Id .schema × Decl.Schema)}
    (hids : (schemas.map (·.1)).Nodup) {id : Id .schema} {d : Decl.Schema}
    (hd : (id, d) ∈ schemas) :
    (schemas.flatMap fun p => p.2.blocks.flatMap fun b => if p.1 = id then [b] else []) =
      d.blocks := by
  have hself (bs : List Decl.Block) : (bs.flatMap fun b => [b]) = bs := List.flatMap_singleton' bs
  -- no other schema has the number, so the others contribute nothing
  have hother (l : List (Id .schema × Decl.Schema)) (hl : id ∉ l.map (·.1)) :
      (l.flatMap fun p => p.2.blocks.flatMap fun b => if p.1 = id then [b] else []) = [] := by
    rw [List.flatMap_eq_nil_iff]
    rintro ⟨id', d'⟩ hp
    have hne : id' ≠ id := by
      rintro rfl
      exact hl (List.mem_map_of_mem hp)
    simp [hne]
  induction schemas with
  | nil => exact absurd hd List.not_mem_nil
  | cons p schemas ih =>
    rw [List.map_cons, List.nodup_cons] at hids
    rw [List.flatMap_cons]
    rcases List.mem_cons.1 hd with rfl | hd
    · rw [hother schemas hids.1, List.append_nil]
      simp [hself]
    · have hne : p.1 ≠ id := by
        intro he
        exact hids.1 (he ▸ List.mem_map_of_mem hd)
      rw [ih hids.2 hd]
      simp [hne]

/-! ### Models -/

/-- **A model keeps all that was declared**: put together again, it gives the schemas it was built
from. -/
theorem declarations_build (options : Options) (references : List ModelId)
    (schemas : List Decl.Schema) :
    (build options references schemas).declarations = schemas := by
  let start := empty options references
  let first := (schemas.mapM addSchema).run start
  let final := build options references schemas
  obtain ⟨hids, hcount⟩ : first.1 = _ ∧ first.2.count .schema = _ :=
    run_mapM_addSchema schemas start
  obtain ⟨-, hempty : first.2.blocks = #[], hschemas⟩ :=
    Adds.mapM (adds_addSchema · (Nat.lt_succ_self 3)) schemas start
  obtain ⟨hgrows : Grows 1 first.2 final, bs, hbs : final.blocks.toList = _, hblocks⟩ :=
    AddsBlocks.forM
      (fun p : Id .schema × Decl.Schema => AddsBlocks.forM (addsBlocks_addBlock p.1) p.2.blocks)
      (first.1.zip schemas) first.2
  obtain ⟨hlength, hdecl⟩ := List.forall₂_iff_zip.1 (hschemas final hgrows.isStartOf)
  -- blocks come with annotations only, so the schemas are still those of the first pass
  have hfinal : final.ids .schema = first.1 := by
    rw [ids, hgrows.count_eq (k := .schema) (by decide), hcount, hids, Id.upTo,
      List.range_eq_range', show start.count .schema = 0 from rfl, Nat.zero_add]
  show (final.ids .schema).map final.schemaDecl = schemas
  rw [hfinal, ← List.forall₂_eq_eq_eq, List.forall₂_map_left_iff, List.forall₂_iff_zip]
  refine ⟨hlength, fun {id d} hd => ?_⟩
  have hown : (final.blocksOf id).map final.blockDecl = d.blocks := by
    rw [blocksOf, hbs, hempty]
    refine (hblocks final (.refl final) id).trans (flatMap_blocks ?_ hd)
    rw [List.map_fst_zip (Nat.le_of_eq hlength), hids]
    exact List.Nodup.map (fun _ _ => Id.mk.inj) List.nodup_range'
  rw [hdecl hd, hown]

end Schemata.Model

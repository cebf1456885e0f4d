import Schemata.Model.Declarations
import Schemata.Proofs.Model.Growth

/-!
# Options do not matter to what a model holds

Nothing that adds elements to a model reads its options (`IgnoresOptions`), so the same schemas give
the same elements under all options (`build_eq_withOptions`).
-/

namespace Schemata.Model

/-- The same model with other options. -/
def withOptions (o : Options) (m : Model) : Model := { m with options := o }

section withOptions

variable (o : Options) (m : Model)

@[simp]
theorem options_withOptions : (m.withOptions o).options = o := rfl

@[simp]
theorem references_withOptions : (m.withOptions o).references = m.references := rfl

@[simp]
theorem entries_withOptions (k : ElementKind) : (m.withOptions o).entries k = m.entries k := by
  cases k <;> rfl

@[simp]
theorem count_withOptions (k : ElementKind) : (m.withOptions o).count k = m.count k := by
  rw [count, entries_withOptions, count]

@[simp]
theorem ids_withOptions (k : ElementKind) : (m.withOptions o).ids k = m.ids k := by
  rw [ids, count_withOptions, ids]

@[simp]
theorem entry_withOptions {k : ElementKind} (id : Id k) :
    (m.withOptions o).entry id = m.entry id := by
  rw [entry, entries_withOptions, entry]

@[simp]
theorem first?_withOptions (k : SymbolKind) (name : Name) :
    (m.withOptions o).first? k name = m.first? k name := by
  cases k <;> rfl

theorem push_withOptions {k : ElementKind} (e : Entry k) :
    (m.withOptions o).push k e = (m.push k e).withOptions o := by
  cases k <;> rfl

theorem target?_withOptions (s : Id .schema) (path : Name) :
    (m.withOptions o).target? s path = m.target? s path := rfl

theorem context?_withOptions : (m.withOptions o).context? = m.context? := by
  funext t
  cases t <;> rfl

end withOptions

/-! ### Computations that do not read the options -/

/-- The computation answers the same and does the same, whatever the options are. -/
def IgnoresOptions {α : Type} (x : StateM Model α) : Prop :=
  ∀ o m, x.run (m.withOptions o) = ((x.run m).1, (x.run m).2.withOptions o)

namespace IgnoresOptions

variable {α β ι : Type} {x : StateM Model α}

protected theorem pure (a : α) : IgnoresOptions (pure a) := fun _ _ => rfl

protected theorem bind {f : α → StateM Model β} (hx : IgnoresOptions x)
    (hf : ∀ a, IgnoresOptions (f a)) : IgnoresOptions (x >>= f) := by
  intro o m
  calc (x >>= f).run (m.withOptions o)
      = (f (x.run (m.withOptions o)).1).run (x.run (m.withOptions o)).2 := rfl
    _ = (f (x.run m).1).run ((x.run m).2.withOptions o) := by rw [hx]
    _ = _ := hf _ o _

protected theorem map (f : α → β) (hx : IgnoresOptions x) : IgnoresOptions (f <$> x) :=
  hx.bind fun a => .pure (f a)

protected theorem mapM {f : ι → StateM Model α} (hf : ∀ i, IgnoresOptions (f i)) (l : List ι) :
    IgnoresOptions (l.mapM f) := by
  induction l with
  | nil => exact .pure []
  | cons i l ih =>
    rw [List.mapM_cons]
    exact (hf i).bind fun a => ih.bind fun as => .pure (a :: as)

protected theorem forM {f : ι → StateM Model PUnit} (hf : ∀ i, IgnoresOptions (f i))
    (l : List ι) : IgnoresOptions (l.forM f) := by
  induction l with
  | nil => exact .pure _
  | cons i l ih => exact (hf i).bind fun _ => ih

/-- Numbers do not depend on the options. -/
protected theorem addElement {k : ElementKind} {make : Id k → StateM Model (Entry k)}
    (hmake : ∀ id, IgnoresOptions (make id)) : IgnoresOptions (addElement k make) := by
  intro o m
  rw [run_addElement, run_addElement, count_withOptions, hmake _ o m, push_withOptions]

/-! ### Elements -/

protected theorem addAnnotations (s : Id .schema) (target? : Option Target)
    (context? : Option (Id .type)) (outOfLine : Bool) (ds : List Decl.Annotation) :
    IgnoresOptions (addAnnotations s target? context? outOfLine ds) :=
  .mapM (fun _ => .addElement fun _ => .pure _) ds

/-- An element in which nothing is declared but its annotations. -/
theorem annotated {k : ElementKind} {s : Id .schema} {target? : Id k → Option Target}
    {context? : Id k → Option (Id .type)} {ds : List Decl.Annotation}
    {entry : Id k → List (Id .annot) → Entry k} :
    IgnoresOptions
      (addElement k fun id => do
        let ids ← addAnnotations s (target? id) (context? id) false ds
        return entry id ids) :=
  .addElement fun _ => (IgnoresOptions.addAnnotations _ _ _ _ _).bind fun _ => .pure _

protected theorem addStructured (s : Id .schema) (ns : Name) (body : StructuredEntry → TypeBody)
    (d : Decl.Structured) : IgnoresOptions (addStructured s ns body d) := by
  refine .addElement fun id => ?_
  refine (IgnoresOptions.mapM (fun _ => annotated) _).bind fun ps => ?_
  refine (IgnoresOptions.mapM (fun _ => annotated) _).bind fun ns => ?_
  exact (IgnoresOptions.addAnnotations _ _ _ _ _).bind fun _ => .pure _

protected theorem addContainer (s : Id .schema) (ns : Name) (d : Decl.Container) :
    IgnoresOptions (addContainer s ns d) := by
  refine .addElement fun id => ?_
  refine (IgnoresOptions.mapM (fun _ => annotated) _).bind fun sets => ?_
  refine (IgnoresOptions.mapM (fun _ => .addElement fun _ => .pure _) _).bind fun links => ?_
  exact (IgnoresOptions.addAnnotations _ _ _ _ _).bind fun _ => .pure _

protected theorem addItem (s : Id .schema) (ns : Name) (d : Decl.Item) :
    IgnoresOptions (addItem s ns d) := by
  cases d with
  | complexType d => exact .map _ (.addStructured s ns _ d)
  | entityType d => exact .map _ (.addStructured s ns _ d)
  | container d => exact .map _ (.addContainer s ns d)
  | enumType | association | term => exact .map _ annotated

protected theorem addSchema (d : Decl.Schema) : IgnoresOptions (addSchema d) :=
  .addElement fun id => (IgnoresOptions.mapM (fun i => .addItem id _ i) _).bind fun _ => .pure _

/-- Where a block is attached does not depend on the options. -/
protected theorem addBlock (s : Id .schema) (d : Decl.Block) : IgnoresOptions (addBlock s d) := by
  intro o m
  let add (m : Model) : StateM Model (List (Id .annot)) :=
    addAnnotations s (m.target? s d.target) ((m.target? s d.target).bind m.context?) true
      d.annotations
  let block (m : Model) (ids : List (Id .annot)) : BlockEntry :=
    ⟨s, d.target, d.qualifier, ids, m.target? s d.target, d.location⟩
  have hrun (m : Model) : (addBlock s d).run m =
      let r := (add m).run m
      (PUnit.unit, { r.2 with blocks := r.2.blocks.push (block m r.1) }) := rfl
  have hadd : (add (m.withOptions o)).run (m.withOptions o) =
      (((add m).run m).1, ((add m).run m).2.withOptions o) := by
    simp only [add, target?_withOptions, context?_withOptions]
    exact IgnoresOptions.addAnnotations _ _ _ _ _ o m
  rw [hrun, hrun, hadd]
  rfl

end IgnoresOptions

/-! ### Building -/

/-- **Options do not matter** to what a model holds. -/
theorem build_eq_withOptions (o o' : Options) (references : List ModelId)
    (schemas : List Decl.Schema) :
    build o' references schemas = (build o references schemas).withOptions o' := by
  have hall : IgnoresOptions (do
      let ids ← schemas.mapM addSchema
      (ids.zip schemas).forM fun p => p.2.blocks.forM (addBlock p.1)) :=
    (IgnoresOptions.mapM .addSchema schemas).bind fun _ =>
      .forM (fun p : Id .schema × Decl.Schema => .forM (.addBlock p.1) p.2.blocks) _
  exact congrArg Prod.snd (hall o' (empty o references))

end Schemata.Model

import Schemata.Proofs.Model.Declarations

/-!
# What the entries of a model say of one another

An element that is declared inside another one has an entry of its own, and the two entries have to
agree on who belongs to whom: a property that a type lists names that type as the one that declares
it.  Likewise the expressions of an annotation are laid out from what the annotation declares.
`m.Fits k id e` says so of one entry and `m.IsConsistent` of all entries of a model.

Only the entries of the elements inside it are needed to see that an entry fits, and these stay what
they are.  So it is enough that each entry fits when it is added (`IsConsistent.push`), and
every model that is built is consistent (`isConsistent_build`).
-/

namespace Schemata.Model

variable {m later : Model} {k : ElementKind} {n : Nat}

/-- What an entry says of other entries, as that of an element, and of itself, is so. -/
def Fits (m : Model) : (k : ElementKind) → Id k → Entry k → Prop
  | .type, t, e => ∀ body, e.body.structured? = some body → ∀ p ∈ body.properties,
      p.index < m.count .property ∧ (m.property p).declaring = t
  | .annot, _, e => e.exprs = .ofRoots e.decl.roots ∧ e.roots = ExprArena.places e.decl.roots
  | .schema, _, _ | .property, _, _ | .navigation, _, _ | .association, _, _ | .term, _, _
  | .container, _, _ | .entitySet, _, _ | .associationSet, _, _ => True

/-- All entries fit. -/
def IsConsistent (m : Model) : Prop :=
  ∀ k (id : Id k), id.index < m.count k → m.Fits k id (m.entry id)

/-- An entry goes on to fit while the model grows. -/
theorem Fits.of_isStartOf (h : m.IsStartOf later) {id : Id k} {e : Entry k} (he : m.Fits k id e) :
    later.Fits k id e := by
  cases k
  case type =>
    intro body hbody p hp
    obtain ⟨hlt, hdeclaring⟩ := he body hbody p hp
    have hentry : later.property p = m.property p := h.entry_eq p hlt
    exact ⟨Nat.lt_of_lt_of_le hlt (h.count_le .property), hentry ▸ hdeclaring⟩
  all_goals exact he

/-- One more entry that fits. -/
theorem IsConsistent.push (h : m.IsConsistent) {e : Entry k} (he : m.Fits k ⟨m.count k⟩ e) :
    (m.push k e).IsConsistent := by
  intro k' id hid
  refine Fits.of_isStartOf (isStartOf_push m e) ?_
  by_cases hlt : id.index < m.count k'
  · rw [(isStartOf_push m e).entry_eq id hlt]
    exact h k' id hlt
  · have hk : k' = k := by
      by_contra hne
      rw [count, entries_push_of_ne m e hne] at hid
      exact hlt hid
    subst hk
    have hindex : id = ⟨m.count k'⟩ := by
      rw [count_push_self] at hid
      have hlast : id.index = m.count k' := by omega
      rw [← hlast]
    rw [hindex, entry_push_self]
    exact he

/-! ### Computations that keep a model consistent -/

@[simp]
theorem references_push (m : Model) (e : Entry k) : (m.push k e).references = m.references := by
  cases k <;> rfl

@[simp]
theorem options_push (m : Model) (e : Entry k) : (m.push k e).options = m.options := by
  cases k <;> rfl

/-- A computation leads from consistent models to consistent models that reference the same models
and have the same options. -/
def Keeps {α : Type} (x : StateM Model α) : Prop :=
  ∀ m : Model, m.IsConsistent →
    (x.run m).2.IsConsistent ∧ (x.run m).2.references = m.references ∧
      (x.run m).2.options = m.options

section Keeps

variable {α β ι : Type} {x : StateM Model α} {f : α → StateM Model β}

namespace Keeps

protected theorem pure (a : α) : Keeps (pure a) := fun _ hm => ⟨hm, rfl, rfl⟩

protected theorem bind (hx : Keeps x) (hf : ∀ a, Keeps (f a)) : Keeps (x >>= f) := by
  intro m hm
  obtain ⟨hm₁, href₁, hoptions₁⟩ := hx m hm
  obtain ⟨hm₂, href₂, hoptions₂⟩ := hf (x.run m).1 _ hm₁
  exact ⟨hm₂, href₂.trans href₁, hoptions₂.trans hoptions₁⟩

protected theorem map (g : α → β) (hx : Keeps x) : Keeps (g <$> x) := fun m hm => hx m hm

protected theorem mapM {x : ι → StateM Model α} (hx : ∀ i, Keeps (x i)) (l : List ι) :
    Keeps (l.mapM x) := by
  induction l with
  | nil => exact .pure []
  | cons i l ih =>
    rw [List.mapM_cons]
    exact (hx i).bind fun a => ih.bind fun as => .pure _

protected theorem forM {x : ι → StateM Model Unit} (hx : ∀ i, Keeps (x i)) (l : List ι) :
    Keeps (l.forM x) := by
  induction l with
  | nil => exact .pure ()
  | cons i l ih =>
    rw [List.forM_eq_forM, List.forM_cons]
    exact (hx i).bind fun _ => ih

end Keeps

/-- **Adding an element** keeps a model consistent if making the entry does and the entry fits. -/
theorem keeps_addElement {make : Id k → StateM Model (Entry k)}
    (hfits : ∀ id, Adds k.level (make id) fun e m => m.Fits k id e)
    (hmake : ∀ id, Keeps (make id)) : Keeps (addElement k make) := by
  intro m hm
  obtain ⟨hgrows, -, he⟩ := hfits ⟨m.count k⟩ m
  obtain ⟨hlater, href, hoptions⟩ := hmake ⟨m.count k⟩ m hm
  rw [run_addElement]
  refine ⟨hlater.push ?_, (references_push _ _).trans href, (options_push _ _).trans hoptions⟩
  rw [hgrows.count_eq (Nat.le_refl _)]
  exact he _ (.refl _)

end Keeps

/-! ### Elements inside others -/

section members

variable (schema : Id .schema)

theorem keeps_addAnnotations (target? : Option Target) (context? : Option (Id .type))
    (outOfLine : Bool) (ds : List Decl.Annotation) :
    Keeps (addAnnotations schema target? context? outOfLine ds) :=
  .mapM (fun _ => keeps_addElement (k := .annot) (fun _ => .pure fun _ => ⟨rfl, rfl⟩) fun _ =>
    .pure _) ds

/-- An element in which nothing is declared but its annotations. -/
theorem keeps_annotated {target? : Id k → Option Target} {context? : Id k → Option (Id .type)}
    {ds : List Decl.Annotation} {entry : Id k → List (Id .annot) → Entry k} (hk : 0 < k.level)
    (hfits : ∀ (m : Model) id ids, m.Fits k id (entry id ids)) :
    Keeps (addElement k fun id => do
      let ids ← addAnnotations schema (target? id) (context? id) false ds
      return entry id ids) := by
  refine keeps_addElement (fun id => ?_) fun id => ?_
  · exact (adds_addAnnotations schema _ _ _ _ hk).bind fun ids => .pure fun m _ => hfits m id ids
  · exact (keeps_addAnnotations schema _ _ _ _).bind fun ids => .pure _

theorem keeps_addProperty (declaring : Id .type) (d : Decl.Property) :
    Keeps (addProperty schema declaring d) :=
  keeps_annotated schema Nat.zero_lt_one fun _ _ _ => trivial

/-- A property that is added names the type for which it is added. -/
theorem adds_addProperty_declaring (declaring : Id .type) (d : Decl.Property) (hn : 1 < n) :
    Adds n (addProperty schema declaring d) fun p m =>
      p.index < m.count .property ∧ (m.property p).declaring = declaring := by
  refine adds_addElement_of_lt hn fun id => ?_
  refine (adds_addAnnotations schema _ _ _ _ Nat.zero_lt_one).bind fun ids => .pure fun m => ?_
  intro _ hlt he
  have he : m.property id = _ := he
  exact ⟨hlt, by rw [he]⟩

theorem keeps_addNavigation (declaring : Id .type) (d : Decl.Navigation) :
    Keeps (addNavigation schema declaring d) :=
  keeps_annotated schema Nat.zero_lt_one fun _ _ _ => trivial

theorem keeps_addEntitySet (container : Id .container) (d : Decl.EntitySet) :
    Keeps (addEntitySet schema container d) :=
  keeps_annotated schema Nat.zero_lt_one fun _ _ _ => trivial

theorem keeps_addAssociationSet (container : Id .container) (d : Decl.AssociationSet) :
    Keeps (addAssociationSet container d) :=
  keeps_addElement (fun _ => .pure fun _ => trivial) fun _ => .pure _

end members

/-! ### Declarations of a schema -/

section items

variable (schema : Id .schema) (ns : Name)

theorem keeps_addStructured {body : StructuredEntry → TypeBody}
    (hbody : ∀ s, (body s).structured? = some s) (d : Decl.Structured) :
    Keeps (addStructured schema ns body d) := by
  refine keeps_addElement (fun id => ?_) fun id => ?_
  · refine (Adds.mapM_forall (adds_addProperty_declaring schema id · Nat.one_lt_two) _).bind
      fun ps => ?_
    refine (Adds.mapM (adds_addNavigation schema id · Nat.one_lt_two) _).bind fun ns => ?_
    refine (adds_addAnnotations _ _ _ _ _ Nat.zero_lt_two).bind fun ids => .pure fun m => ?_
    intro _ _ hps s hs
    rw [hbody, Option.some.injEq] at hs
    subst hs
    exact hps
  · refine (Keeps.mapM (keeps_addProperty schema id) _).bind fun ps => ?_
    refine (Keeps.mapM (keeps_addNavigation schema id) _).bind fun ns => ?_
    exact (keeps_addAnnotations _ _ _ _ _).bind fun ids => .pure _

theorem keeps_addEnum (d : Decl.Enum) : Keeps (addEnum schema ns d) := by
  refine keeps_annotated schema Nat.zero_lt_two fun _ _ _ s hs => ?_
  cases hs

theorem keeps_addContainer (d : Decl.Container) : Keeps (addContainer schema ns d) := by
  refine keeps_addElement (fun id => ?_) fun id => ?_
  · refine (Adds.mapM (adds_addEntitySet schema id · Nat.one_lt_two) _).bind fun sets => ?_
    refine (Adds.mapM (adds_addAssociationSet id · Nat.one_lt_two) _).bind fun links => ?_
    exact (adds_addAnnotations _ _ _ _ _ Nat.zero_lt_two).bind fun ids => .pure fun _ _ _ _ =>
      trivial
  · refine (Keeps.mapM (keeps_addEntitySet schema id) _).bind fun sets => ?_
    refine (Keeps.mapM (keeps_addAssociationSet id) _).bind fun links => ?_
    exact (keeps_addAnnotations _ _ _ _ _).bind fun ids => .pure _

theorem keeps_addItem (d : Decl.Item) : Keeps (addItem schema ns d) := by
  cases d with
  | complexType d => exact .map _ (keeps_addStructured schema ns (fun _ => rfl) d)
  | entityType d => exact .map _ (keeps_addStructured schema ns (fun _ => rfl) d)
  | enumType d => exact .map _ (keeps_addEnum schema ns d)
  | association d =>
    exact .map _ (keeps_annotated schema Nat.zero_lt_two fun _ _ _ => trivial)
  | term d => exact .map _ (keeps_annotated schema Nat.zero_lt_two fun _ _ _ => trivial)
  | container d => exact .map _ (keeps_addContainer schema ns d)

end items

/-! ### Models -/

theorem keeps_addSchema (d : Decl.Schema) : Keeps (addSchema d) := by
  refine keeps_addElement (fun id => ?_) fun id => ?_
  · exact (Adds.mapM (adds_addItem id _ · (Nat.lt_succ_self 2)) _).bind fun items =>
      .pure fun _ _ => trivial
  · exact (Keeps.mapM (keeps_addItem id _) _).bind fun items => .pure _

theorem keeps_addBlock (schema : Id .schema) (d : Decl.Block) : Keeps (addBlock schema d) :=
  fun m hm => keeps_addAnnotations schema (m.target? schema d.target) _ true d.annotations m hm

theorem isConsistent_of_count_eq_zero (hm : ∀ k, m.count k = 0) : m.IsConsistent := by
  intro k id hid
  rw [hm k] at hid
  exact absurd hid (Nat.not_lt_zero _)

theorem keeps_addAll (schemas : List Decl.Schema) :
    Keeps (do
      let ids ← schemas.mapM addSchema
      (ids.zip schemas).forM fun p => p.2.blocks.forM (addBlock p.1)) :=
  (Keeps.mapM keeps_addSchema schemas).bind fun _ =>
    .forM (fun p : Id .schema × Decl.Schema => .forM (keeps_addBlock p.1) p.2.blocks) _

/-- The entries of a model that is built agree with one another. -/
theorem isConsistent_build (options : Options) (references : List ModelId)
    (schemas : List Decl.Schema) : (build options references schemas).IsConsistent :=
  (keeps_addAll schemas _ (isConsistent_of_count_eq_zero fun k => by cases k <;> rfl)).1

theorem references_build (options : Options) (references : List ModelId)
    (schemas : List Decl.Schema) : (build options references schemas).references = references :=
  (keeps_addAll schemas _ (isConsistent_of_count_eq_zero fun k => by cases k <;> rfl)).2.1

theorem options_build (options : Options) (references : List ModelId)
    (schemas : List Decl.Schema) : (build options references schemas).options = options :=
  (keeps_addAll schemas _ (isConsistent_of_count_eq_zero fun k => by cases k <;> rfl)).2.2

/-- The default entry declares no properties, so it need not be asked whether there is a type. -/
theorem IsConsistent.declaring_eq (hm : m.IsConsistent) {t : Id .type} {body : StructuredEntry}
    (hbody : (m.type t).body.structured? = some body) {p : Id .property}
    (hp : p ∈ body.properties) : (m.property p).declaring = t := by
  by_cases ht : t.index < m.count .type
  · exact (hm .type t ht body hbody p hp).2
  · have hdefault : m.type t = default := by
      have hsize : ¬ t.index < m.types.size := ht
      simp [type, Array.getD, hsize]
    rw [hdefault] at hbody
    cases hbody
    exact absurd hp List.not_mem_nil

end Schemata.Model

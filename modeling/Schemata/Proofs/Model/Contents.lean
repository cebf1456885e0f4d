import Schemata.Proofs.Model.Growth

/-!
# What lies inside an element

An element is numbered together with all that is declared inside it: its own number comes right
after those that were given before, and so do the numbers of the elements inside.  `Contents` are
elements of all kinds, each kind in order; `m.insideType t` are the contents of a type, and
likewise for the other kinds.

`Lays n x P` is the rule by which this is followed: `x` adds elements below level `n`, and `P` holds
of its answer and of the contents that it has added, in every model that `x` has begun.  Beside the
contents it carries what the entries say of each other: who declares whom, in which schema, and to
what an annotation is attached.
-/

namespace Schemata.Model

variable {m later final : Model} {k : ElementKind} {n : Nat}

/-! ### Contents -/

/-- Elements of all kinds, each kind in order. -/
def Contents := (k : ElementKind) → List (Id k)

namespace Contents

/-- Elements of one kind. -/
def of {k : ElementKind} (ids : List (Id k)) : Contents :=
  fun k' => if h : k = k' then h ▸ ids else []

/-- No elements. -/
def nothing : Contents := fun _ => []

instance : Append Contents := ⟨fun a b k => a k ++ b k⟩

/-- The contents of the elements of a list, one after another. -/
def concat {α : Type} (as : List α) (f : α → Contents) : Contents := fun k => as.flatMap (f · k)

@[simp]
theorem of_self (ids : List (Id k)) : of ids k = ids := by simp [of]

@[simp]
theorem of_of_ne {k' : ElementKind} (ids : List (Id k)) (h : k ≠ k') : of ids k' = [] := by
  simp [of, h]

@[simp]
theorem append_apply (a b : Contents) : (a ++ b) k = a k ++ b k := rfl

theorem of_append (ids ids' : List (Id k)) : of (ids ++ ids') = of ids ++ of ids' := by
  funext k'
  by_cases hk : k = k'
  · subst hk
    simp
  · simp [hk]

@[simp]
theorem concat_apply {α : Type} (as : List α) (f : α → Contents) :
    concat as f k = as.flatMap (f · k) := rfl

theorem append_assoc (a b c : Contents) : a ++ b ++ c = a ++ (b ++ c) :=
  funext fun _ => List.append_assoc ..

theorem append_nothing (a : Contents) : a ++ nothing = a := funext fun _ => List.append_nil _

/-- Elements of one kind, one after another. -/
theorem concat_of (ids : List (Id k)) : concat ids (fun id => of [id]) = of ids := by
  funext k'
  by_cases hk : k = k'
  · subst hk
    simp
  · simp [hk]

end Contents

section inside

variable (m)

/-- The properties that a type declares. -/
def propertiesOf (t : Id .type) : List (Id .property) :=
  match (m.type t).body.structured? with
  | some body => body.properties
  | none => []

/-- The navigation properties that a type declares. -/
def navigationOf (t : Id .type) : List (Id .navigation) :=
  match (m.type t).body.structured? with
  | some body => body.navigation
  | none => []

/-- A property and what is declared inside it. -/
def insideProperty (p : Id .property) : Contents := .of [p] ++ .of (m.property p).annotations

/-- A navigation property and what is declared inside it. -/
def insideNavigation (n : Id .navigation) : Contents :=
  .of [n] ++ .of (m.navigationProperty n).annotations

/-- A type and what is declared inside it. -/
def insideType (t : Id .type) : Contents :=
  .of [t] ++ (.concat (m.propertiesOf t) m.insideProperty
    ++ .concat (m.navigationOf t) m.insideNavigation ++ .of (m.type t).annotations)

/-- An association and what is declared inside it. -/
def insideAssociation (a : Id .association) : Contents :=
  .of [a] ++ .of (m.association a).annotations

/-- A term and what is declared inside it. -/
def insideTerm (t : Id .term) : Contents := .of [t] ++ .of (m.term t).annotations

/-- An entity set and what is declared inside it. -/
def insideEntitySet (s : Id .entitySet) : Contents := .of [s] ++ .of (m.entitySet s).annotations

/-- A container and what is declared inside it. -/
def insideContainer (c : Id .container) : Contents :=
  .of [c] ++ (.concat (m.container c).entitySets m.insideEntitySet
    ++ .of (m.container c).associationSets ++ .of (m.container c).annotations)

/-- A declaration of a schema and what is declared inside it. -/
def insideItem : ItemId → Contents
  | .type id => m.insideType id
  | .association id => m.insideAssociation id
  | .term id => m.insideTerm id
  | .container id => m.insideContainer id

/-- A schema and what is declared inside it; annotation blocks stand outside. -/
def insideSchema (s : Id .schema) : Contents :=
  .of [s] ++ .concat (m.schema s).items m.insideItem

end inside

/-! ### Who declares whom -/

section declared

variable (m)

/-- The annotation stands in a schema and is attached to an element, which says where its paths
begin. -/
structure AnnotationIn (s : Id .schema) (t? : Option Target) (apart : Bool) (a : Id .annot) :
    Prop where
  schema : (m.annotated a).schema = s
  target? : (m.annotated a).target? = t?
  context? : (m.annotated a).context? = t?.bind m.context?
  outOfLine : (m.annotated a).outOfLine = apart

/-- The annotations stand inline with an element of a schema. -/
def Inline (s : Id .schema) (target : Target) (ids : List (Id .annot)) : Prop :=
  ∀ a ∈ ids, m.AnnotationIn s (some target) false a

/-- The property is declared by a type of a schema. -/
structure PropertyIn (s : Id .schema) (t : Id .type) (p : Id .property) : Prop where
  declaring : (m.property p).declaring = t
  annotations : m.Inline s (.property p) (m.property p).annotations

/-- The navigation property is declared by a type of a schema. -/
structure NavigationIn (s : Id .schema) (t : Id .type) (n : Id .navigation) : Prop where
  declaring : (m.navigationProperty n).declaring = t
  annotations : m.Inline s (.navigation n) (m.navigationProperty n).annotations

/-- The type is declared in a schema, and its members in the type. -/
structure TypeIn (s : Id .schema) (ns : Name) (t : Id .type) : Prop where
  schema : (m.type t).schema = s
  qualifiedName : (m.type t).qualifiedName = qualify ns (m.type t).name
  properties : ∀ p ∈ m.propertiesOf t, m.PropertyIn s t p
  navigation : ∀ n ∈ m.navigationOf t, m.NavigationIn s t n
  annotations : m.Inline s (.type t) (m.type t).annotations

/-- The association is declared in a schema. -/
structure AssociationIn (s : Id .schema) (ns : Name) (a : Id .association) : Prop where
  schema : (m.association a).schema = s
  qualifiedName : (m.association a).qualifiedName = qualify ns (m.association a).name
  annotations : m.Inline s (.association a) (m.association a).annotations

/-- The term is declared in a schema. -/
structure TermIn (s : Id .schema) (ns : Name) (t : Id .term) : Prop where
  schema : (m.term t).schema = s
  qualifiedName : (m.term t).qualifiedName = qualify ns (m.term t).name
  annotations : m.Inline s (.term t) (m.term t).annotations

/-- The entity set is declared by a container of a schema. -/
structure EntitySetIn (s : Id .schema) (c : Id .container) (e : Id .entitySet) : Prop where
  container : (m.entitySet e).container = c
  annotations : m.Inline s (.entitySet e) (m.entitySet e).annotations

/-- The container is declared in a schema, and its sets in the container. -/
structure ContainerIn (s : Id .schema) (ns : Name) (c : Id .container) : Prop where
  schema : (m.container c).schema = s
  qualifiedName : (m.container c).qualifiedName = qualify ns (m.container c).name
  entitySets : ∀ e ∈ (m.container c).entitySets, m.EntitySetIn s c e
  associationSets : ∀ a ∈ (m.container c).associationSets, (m.associationSet a).container = c
  annotations : m.Inline s (.container c) (m.container c).annotations

/-- The declaration is one of a schema. -/
def ItemIn (s : Id .schema) (ns : Name) : ItemId → Prop
  | .type id => m.TypeIn s ns id
  | .association id => m.AssociationIn s ns id
  | .term id => m.TermIn s ns id
  | .container id => m.ContainerIn s ns id

/-- The declarations that a schema lists are declared in it. -/
def SchemaListsItsOwn (s : Id .schema) : Prop :=
  ∀ i ∈ (m.schema s).items, m.ItemIn s (m.schema s).namespaceName i

end declared

/-! ### Computations that lay out contents -/

@[simp]
theorem ids_push_self (m : Model) (e : Entry k) :
    (m.push k e).ids k = m.ids k ++ [⟨m.count k⟩] := by
  simp [ids, Id.upTo, count_push_self, List.range_succ]

theorem ids_push_of_ne (m : Model) (e : Entry k) {k' : ElementKind} (h : k' ≠ k) :
    (m.push k e).ids k' = m.ids k' := by
  rw [ids, count, entries_push_of_ne m e h, ids, count]

theorem Grows.ids_eq (h : Grows n m later) (hk : n ≤ k.level) : later.ids k = m.ids k := by
  rw [ids, h.count_eq hk, ids]

/-- A computation adds elements below a level and no blocks, and what is said of its answer and of
the added contents holds of every model that it has begun. -/
def Lays {α : Type} (n : Nat) (x : StateM Model α) (P : α → Contents → Model → Prop) : Prop :=
  ∀ m, Grows n m (x.run m).2 ∧ (x.run m).2.blocks = m.blocks ∧
    ∃ added : Contents, (∀ k, (x.run m).2.ids k = m.ids k ++ added k) ∧
      ∀ final, (x.run m).2.IsStartOf final → P (x.run m).1 added final

section Lays

variable {α β : Type} {x : StateM Model α} {f : α → StateM Model β}
  {P : α → Contents → Model → Prop} {Q : β → Contents → Model → Prop}

namespace Lays

protected theorem pure {a : α} (h : ∀ m, P a .nothing m) : Lays n (pure a) P :=
  fun m => ⟨.refl n m, rfl, .nothing, fun _ => (List.append_nil _).symm, fun final _ => h final⟩

/-- What the second of two computations adds comes after what the first one has added. -/
protected theorem bind (hx : Lays n x P)
    (hf : ∀ a, Lays n (f a) fun b new m => ∀ old, P a old m → Q b (old ++ new) m) :
    Lays n (x >>= f) Q := by
  intro m
  obtain ⟨hgrows₁, hblocks₁, old, hold, hP⟩ := hx m
  obtain ⟨hgrows₂, hblocks₂, new, hnew, hQ⟩ := hf (x.run m).1 (x.run m).2
  refine ⟨hgrows₁.trans hgrows₂, hblocks₂.trans hblocks₁, old ++ new, fun k => ?_,
    fun final hfinal => ?_⟩
  · rw [Contents.append_apply, ← List.append_assoc, ← hold]
    exact hnew k
  · exact hQ final hfinal old (hP final (hgrows₂.isStartOf.trans hfinal))

protected theorem imp {P' : α → Contents → Model → Prop} (hx : Lays n x P)
    (h : ∀ a added m, P a added m → P' a added m) : Lays n x P' := by
  intro m
  obtain ⟨hgrows, hblocks, added, hadded, hP⟩ := hx m
  exact ⟨hgrows, hblocks, added, hadded, fun final hfinal => h _ _ final (hP final hfinal)⟩

protected theorem map {g : α → β} (hx : Lays n x fun a added m => Q (g a) added m) :
    Lays n (g <$> x) Q := hx

/-- The contents of the elements of a list come one after another. -/
protected theorem mapM {ι : Type} {x : ι → StateM Model α} {inside : Model → α → Contents}
    {Q : α → Model → Prop} (hx : ∀ i, Lays n (x i) fun a added m => added = inside m a ∧ Q a m)
    (l : List ι) :
    Lays n (l.mapM x) fun as added m => added = .concat as (inside m) ∧ ∀ a ∈ as, Q a m := by
  induction l with
  | nil => exact .pure fun m => ⟨rfl, fun a ha => absurd ha List.not_mem_nil⟩
  | cons i l ih =>
    rw [List.mapM_cons]
    refine (hx i).bind fun a => ih.bind fun as => .pure fun m => ?_
    rintro _ ⟨rfl, has⟩ _ ⟨rfl, ha⟩
    exact ⟨by rw [Contents.append_nothing]; rfl, List.forall_mem_cons.2 ⟨ha, has⟩⟩

/-- **Adding an element.**  It comes before what is inside it; the entry is found under its
number. -/
protected theorem addElement {make : Id k → StateM Model (Entry k)}
    {Q : Id k → Contents → Model → Prop} (hk : k.level < n)
    (hmake : ∀ id, Lays k.level (make id) fun e added m =>
      m.entry id = e → Q id (.of [id] ++ added) m) :
    Lays n (addElement k make) Q := by
  intro m
  obtain ⟨hgrows, hblocks, added, hadded, hQ⟩ := hmake ⟨m.count k⟩ m
  rw [run_addElement]
  generalize hrun : (make ⟨m.count k⟩).run m = r at hgrows hblocks hadded hQ
  obtain ⟨e, later⟩ := r
  -- what lies inside is at lower levels, so the number is still the first one that is free
  have hcount : later.count k = m.count k := hgrows.count_eq (Nat.le_refl _)
  have hnone : added k = [] := by
    have hids := hadded k
    rw [hgrows.ids_eq (Nat.le_refl _)] at hids
    exact List.self_eq_append_right.1 hids
  refine ⟨(hgrows.mono (Nat.le_of_lt hk)).trans (grows_push later e hk), ?_,
    .of [(⟨m.count k⟩ : Id k)] ++ added, fun k' => ?_, fun final hfinal => ?_⟩
  · rw [blocks_push]
    exact hblocks
  · by_cases hkk : k' = k
    · subst hkk
      simp only [ids_push_self, hcount, Contents.append_apply, Contents.of_self, hnone,
        hgrows.ids_eq (Nat.le_refl _), List.append_nil]
    · simp only [ids_push_of_ne later e hkk, Contents.append_apply,
        Contents.of_of_ne _ (Ne.symm hkk), List.nil_append]
      exact hadded k'
  · have hid : m.count k < (later.push k e).count k := by
      rw [count_push_self, hcount]
      exact Nat.lt_succ_self _
    refine hQ final ((isStartOf_push later e).trans hfinal) ?_
    rw [hfinal.entry_eq ⟨m.count k⟩ hid, ← hcount, entry_push_self]

end Lays

/-! ### Elements inside others -/

section members

variable (schema : Id .schema)

/-- What the entry of each annotation says that is added for an element. -/
theorem lays_addAnnotations (target? : Option Target) (context? : Option (Id .type))
    (outOfLine : Bool) (ds : List Decl.Annotation) (hn : 0 < n) :
    Lays n (addAnnotations schema target? context? outOfLine ds) fun ids added m =>
      added = .of ids ∧ ∀ a ∈ ids, context? = target?.bind m.context? →
        m.AnnotationIn schema target? outOfLine a := by
  let Says (a : Id .annot) (m : Model) : Prop :=
    context? = target?.bind m.context? → m.AnnotationIn schema target? outOfLine a
  let make (d : Decl.Annotation) : StateM Model AnnotationEntry := return {
    schema, decl := d, target?, context?, outOfLine
    exprs := .ofRoots d.roots, roots := ExprArena.places d.roots }
  have hone (d : Decl.Annotation) : Lays n (addElement .annot fun _ => make d) fun a added m =>
      added = .of [a] ∧ Says a m := by
    refine .addElement hn fun a => .pure fun m he => ⟨Contents.append_nothing _, fun hcontext => ?_⟩
    have he : m.annotated a = _ := he
    exact ⟨by rw [he], by rw [he], by rw [he]; exact hcontext, by rw [he]⟩
  refine (Lays.mapM hone ds).imp ?_
  rintro ids _ m ⟨rfl, h⟩
  exact ⟨Contents.concat_of ids, h⟩

/-- An element in which nothing is declared but its annotations. -/
theorem lays_annotated {target : Id k → Target} {context? : Id k → Option (Id .type)}
    {ds : List Decl.Annotation} {entry : Id k → List (Id .annot) → Entry k}
    {Q : Id k → Contents → Model → Prop} (hk : 0 < k.level) (hn : k.level < n)
    (hQ : ∀ id ids m, m.entry id = entry id ids →
      (context? id = m.context? (target id) → m.Inline schema (target id) ids) →
      Q id (.of [id] ++ .of ids) m) :
    Lays n
      (addElement k fun id => do
        let ids ← addAnnotations schema (some (target id)) (context? id) false ds
        return entry id ids)
      Q := by
  refine .addElement hn fun id => ?_
  refine (lays_addAnnotations schema _ _ _ _ hk).bind fun ids => .pure fun m => ?_
  rintro _ ⟨rfl, h⟩ he
  rw [Contents.append_nothing]
  exact hQ id ids m he fun hcontext a ha => h a ha hcontext

theorem lays_addProperty (t : Id .type) (d : Decl.Property) (hn : 1 < n) :
    Lays n (addProperty schema t d) fun p added m =>
      added = m.insideProperty p ∧ m.PropertyIn schema t p := by
  refine lays_annotated schema Nat.zero_lt_one hn fun p ids m he h => ?_
  have he : m.property p = _ := he
  have hinline := h (by rw [context?, he])
  exact ⟨by rw [insideProperty, he], by rw [he], by rw [he]; exact hinline⟩

theorem lays_addNavigation (t : Id .type) (d : Decl.Navigation) (hn : 1 < n) :
    Lays n (addNavigation schema t d) fun p added m =>
      added = m.insideNavigation p ∧ m.NavigationIn schema t p := by
  refine lays_annotated schema Nat.zero_lt_one hn fun p ids m he h => ?_
  have he : m.navigationProperty p = _ := he
  have hinline := h (by rw [context?, he])
  exact ⟨by rw [insideNavigation, he], by rw [he], by rw [he]; exact hinline⟩

theorem lays_addEntitySet (c : Id .container) (d : Decl.EntitySet) (hn : 1 < n) :
    Lays n (addEntitySet schema c d) fun s added m =>
      added = m.insideEntitySet s ∧ m.EntitySetIn schema c s := by
  refine lays_annotated schema Nat.zero_lt_one hn fun s ids m he h => ?_
  have he : m.entitySet s = _ := he
  exact ⟨by rw [insideEntitySet, he], by rw [he], by rw [he]; exact h rfl⟩

theorem lays_addAssociationSet (c : Id .container) (d : Decl.AssociationSet) (hn : 1 < n) :
    Lays n (addAssociationSet c d) fun s added m =>
      added = .of [s] ∧ (m.associationSet s).container = c := by
  refine .addElement hn fun s => .pure fun m he => ⟨Contents.append_nothing _, ?_⟩
  have he : m.associationSet s = _ := he
  rw [he]

end members

/-! ### Declarations of a schema -/

section items

variable (schema : Id .schema) (ns : Name)

theorem lays_addStructured {body : StructuredEntry → TypeBody}
    (hbody : ∀ s, (body s).structured? = some s) (d : Decl.Structured) (hn : 2 < n) :
    Lays n (addStructured schema ns body d) fun t added m =>
      added = m.insideType t ∧ m.TypeIn schema ns t := by
  refine .addElement hn fun t => ?_
  refine (Lays.mapM (lays_addProperty schema t · Nat.one_lt_two) _).bind fun ps => ?_
  refine (Lays.mapM (lays_addNavigation schema t · Nat.one_lt_two) _).bind fun qs => ?_
  refine (lays_addAnnotations schema _ _ _ _ Nat.zero_lt_two).bind fun ids => .pure fun m => ?_
  rintro _ ⟨rfl, hids⟩ _ ⟨rfl, hqs⟩ _ ⟨rfl, hps⟩ he
  have he : m.type t = _ := he
  have hkind : (m.type t).body.kind ≠ .enum := by
    have hs := hbody ⟨d.base?, d.isAbstract, d.isOpen, d.key, ps, qs⟩
    rw [he]
    intro hk
    cases hb : body ⟨d.base?, d.isAbstract, d.isOpen, d.key, ps, qs⟩ <;>
      simp_all [TypeBody.kind, TypeBody.structured?]
  have hpropertiesOf : m.propertiesOf t = ps := by
    rw [propertiesOf, he]
    simp only [hbody]
  have hnavigationOf : m.navigationOf t = qs := by
    rw [navigationOf, he]
    simp only [hbody]
  refine ⟨?_, ?_⟩
  · rw [insideType, hpropertiesOf, hnavigationOf, Contents.append_nothing, Contents.append_assoc,
      he]
  · refine ⟨by rw [he], by rw [he], ?_, ?_, ?_⟩
    · rw [hpropertiesOf]
      exact hps
    · rw [hnavigationOf]
      exact hqs
    · rw [he]
      exact fun a ha => hids a ha (by rw [Option.bind_some, context?, if_neg hkind])

theorem lays_addEnum (d : Decl.Enum) (hn : 2 < n) :
    Lays n (addEnum schema ns d) fun t added m =>
      added = m.insideType t ∧ m.TypeIn schema ns t := by
  refine lays_annotated schema Nat.zero_lt_two hn fun t ids m he h => ?_
  have he : m.type t = _ := he
  have hkind : (m.type t).body.kind = .enum := by rw [he]; rfl
  have hpropertiesOf : m.propertiesOf t = [] := by rw [propertiesOf, he]; rfl
  have hnavigationOf : m.navigationOf t = [] := by rw [navigationOf, he]; rfl
  refine ⟨?_, ?_⟩
  · rw [insideType, hpropertiesOf, hnavigationOf, he]
    rfl
  · refine ⟨by rw [he], by rw [he], ?_, ?_, ?_⟩
    · rw [hpropertiesOf]
      exact fun p hp => absurd hp List.not_mem_nil
    · rw [hnavigationOf]
      exact fun p hp => absurd hp List.not_mem_nil
    · have hinline := h (by rw [context?, if_pos hkind])
      rw [he]
      exact hinline

theorem lays_addAssociation (d : Decl.Association) (hn : 2 < n) :
    Lays n (addAssociation schema ns d) fun a added m =>
      added = m.insideAssociation a ∧ m.AssociationIn schema ns a := by
  refine lays_annotated schema Nat.zero_lt_two hn fun a ids m he h => ?_
  have he : m.association a = _ := he
  exact ⟨by rw [insideAssociation, he], by rw [he], by rw [he], by rw [he]; exact h rfl⟩

theorem lays_addTerm (d : Decl.Term) (hn : 2 < n) :
    Lays n (addTerm schema ns d) fun t added m =>
      added = m.insideTerm t ∧ m.TermIn schema ns t := by
  refine lays_annotated schema Nat.zero_lt_two hn fun t ids m he h => ?_
  have he : m.term t = _ := he
  exact ⟨by rw [insideTerm, he], by rw [he], by rw [he], by rw [he]; exact h rfl⟩

theorem lays_addContainer (d : Decl.Container) (hn : 2 < n) :
    Lays n (addContainer schema ns d) fun c added m =>
      added = m.insideContainer c ∧ m.ContainerIn schema ns c := by
  refine .addElement hn fun c => ?_
  refine (Lays.mapM (lays_addEntitySet schema c · Nat.one_lt_two) _).bind fun sets => ?_
  refine (Lays.mapM (fun d => lays_addAssociationSet c d Nat.one_lt_two) _).bind fun links => ?_
  refine (lays_addAnnotations schema _ _ _ _ Nat.zero_lt_two).bind fun ids => .pure fun m => ?_
  rintro _ ⟨rfl, hids⟩ _ ⟨rfl, hlinks⟩ _ ⟨rfl, hsets⟩ he
  have he : m.container c = _ := he
  refine ⟨?_, ?_⟩
  · rw [insideContainer, Contents.append_nothing, Contents.append_assoc, he]
    refine congrArg (_ ++ ·) (congrArg (_ ++ ·) (congrArg (· ++ _) ?_))
    exact Contents.concat_of links
  · exact ⟨by rw [he], by rw [he], by rw [he]; exact hsets, by rw [he]; exact hlinks,
      by rw [he]; exact fun a ha => hids a ha rfl⟩

theorem lays_addItem (d : Decl.Item) (hn : 2 < n) :
    Lays n (addItem schema ns d) fun i added m =>
      added = m.insideItem i ∧ m.ItemIn schema ns i := by
  cases d with
  | complexType d => exact .map (lays_addStructured schema ns (fun _ => rfl) d hn)
  | entityType d => exact .map (lays_addStructured schema ns (fun _ => rfl) d hn)
  | enumType d => exact .map (lays_addEnum schema ns d hn)
  | association d => exact .map (lays_addAssociation schema ns d hn)
  | term d => exact .map (lays_addTerm schema ns d hn)
  | container d => exact .map (lays_addContainer schema ns d hn)

end items

theorem lays_addSchema (d : Decl.Schema) (hn : 3 < n) :
    Lays n (addSchema d) fun s added m =>
      added = m.insideSchema s ∧ m.SchemaListsItsOwn s := by
  refine .addElement hn fun s => ?_
  refine (Lays.mapM (lays_addItem s _ · (Nat.lt_succ_self 2)) _).bind fun items => .pure fun m => ?_
  rintro _ ⟨rfl, hitems⟩ he
  have he : m.schema s = _ := he
  refine ⟨?_, ?_⟩
  · rw [insideSchema, Contents.append_nothing, he]
  · rw [SchemaListsItsOwn, he]
    exact hitems

end Lays

end Schemata.Model

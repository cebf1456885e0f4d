import Schemata.Proofs.Annotation
import Schemata.Proofs.Matching.Contents
import Schemata.Proofs.Model.Consistency
import Schemata.Proofs.Model.Targets

/-!
# Matching entries from matching contents

Where schemas that are declared alike hold contents that match (`Model.Embedded`), the entries of
the elements in them match as well (`Embedded.insideSchema`): what an entry holds itself was
declared alike, the elements inside it match, and so does the element that it lies in.  The
annotations of a block match (`Embedded.insideBlocks`) if the name in its target leads to elements
that do (`Model.TargetsMatch`).  If all schemas are taken for one another (`Model.Paired`), all
names that are declared once do (`Paired.first?`).
-/

namespace Schemata.Model

open Contents (Match)

variable {m m' : Model} {T : Matching}

/-- Each element of one model is taken for one of the other, and schemas that are taken for one
another hold, place by place, elements that are. -/
structure Embedded (T : Matching) (m m' : Model) : Prop where
  isLaidOut : m.IsLaidOut
  isLaidOut' : m'.IsLaidOut
  isConsistent : m.IsConsistent
  isConsistent' : m'.IsConsistent
  biUnique : ∀ k, Relator.BiUnique (T k)
  total : ∀ {k : ElementKind} {id : Id k}, id ∈ m.ids k → ∃ id', T k id id'
  mem : ∀ {k : ElementKind} {id id' : Id k}, T k id id' → id ∈ m.ids k ∧ id' ∈ m'.ids k
  same : ∀ {s s' : Id .schema}, T .schema s s' → m.SameSchema m' s s'
  held : ∀ {s s' : Id .schema}, T .schema s s' → Match T (m.held s) (m'.held s')

/-- In addition each element of the other model comes up once. -/
structure Paired (T : Matching) (m m' : Model) : Prop extends Embedded T m m' where
  covers : T.Covers m m'

/-- The names with which the targets of blocks begin lead to elements that match. -/
def TargetsMatch (T : Matching) (m m' : Model) : Prop :=
  ∀ {s s' : Id .schema}, T .schema s s' → ∀ b ∈ m.blocksOf s, ∀ k : SymbolKind,
    Option.Rel (T k.element) (m.first? k (m.targetPath s b.target).1)
      (m'.first? k (m.targetPath s b.target).1)

/-- The entries of two elements match. -/
def EntriesMatch (T : Matching) (m m' : Model) : Matching :=
  fun k id id' => T.OnEntries k (m.entry id) (m'.entry id')

/-! ### Searching by name -/

section search

variable {α κ : Type} [DecidableEq κ] {key : α → κ} {l l' : List α} {a : κ}

/-- Where the keys are all different, a search finds whatever has the key. -/
theorem find?_eq_some_iff_of_nodup (hl : (l.map key).Nodup) {x : α} :
    l.find? (key · = a) = some x ↔ x ∈ l ∧ key x = a := by
  constructor
  · intro hx
    exact ⟨List.mem_of_find?_eq_some hx, by simpa using List.find?_some hx⟩
  · rintro ⟨hx, rfl⟩
    have hsome : (l.find? (key · = key x)).isSome :=
      List.find?_isSome.2 ⟨x, hx, decide_eq_true rfl⟩
    obtain ⟨y, hy⟩ := Option.isSome_iff_exists.1 hsome
    have hkey : key y = key x := by simpa using List.find?_some hy
    rw [hy, List.inj_on_of_nodup_map hl (List.mem_of_find?_eq_some hy) hx hkey]

theorem find?_eq_of_perm (hperm : l.Perm l') (hl' : (l'.map key).Nodup) :
    l.find? (key · = a) = l'.find? (key · = a) := by
  have hl : (l.map key).Nodup := (hperm.map key).nodup_iff.2 hl'
  refine Option.ext fun x => ?_
  rw [find?_eq_some_iff_of_nodup hl, find?_eq_some_iff_of_nodup hl', hperm.mem_iff]

end search

/-! ### What a schema holds -/

theorem insideBlocks_eq_concat (bs : List BlockEntry) :
    insideBlocks bs = .concat bs fun b => .of b.annotations := by
  funext k
  cases k <;> simp [insideBlocks]

/-- The blocks hold what those of the schemas hold, one after another. -/
theorem insideBlocks_flatMap {α : Type} (l : List α) (f : α → List BlockEntry) :
    insideBlocks (l.flatMap f) = .concat l fun a => insideBlocks (f a) := by
  funext k
  cases k <;> simp [insideBlocks, List.flatMap_assoc]

theorem IsLaidOut.isBlock (hm : m.IsLaidOut) {s : Id .schema} {b : BlockEntry}
    (hb : b ∈ m.blocksOf s) : m.IsBlock b ∧ b.schema = s := by
  obtain ⟨hb, hschema⟩ := List.mem_filter.1 hb
  exact ⟨hm.blocks b hb, of_decide_eq_true hschema⟩

/-- Where each part has a key of its own, the parts can be told apart. -/
theorem filter_flatMap_of_key {α β : Type} [DecidableEq α] {key : β → α} {f : α → List β}
    {l : List α} (hl : l.Nodup) (hkey : ∀ a ∈ l, ∀ b ∈ f a, key b = a) {a : α} (ha : a ∈ l) :
    (l.flatMap f).filter (key · = a) = f a := by
  induction l with
  | nil => exact absurd ha List.not_mem_nil
  | cons x l ih =>
    obtain ⟨hx, hl⟩ := List.nodup_cons.1 hl
    have hkey' := fun a ha => hkey a (List.mem_cons_of_mem x ha)
    rw [List.flatMap_cons, List.filter_append]
    by_cases hxa : x = a
    · subst hxa
      have hfirst : ∀ b ∈ f x, decide (key b = x) = true :=
        fun b hb => decide_eq_true (hkey x List.mem_cons_self b hb)
      have hrest : ∀ b ∈ l.flatMap f, ¬ decide (key b = x) = true := by
        intro b hb hb'
        obtain ⟨a, ha, hb⟩ := List.mem_flatMap.1 hb
        have hax : a = x := (hkey' a ha b hb).symm.trans (of_decide_eq_true hb')
        exact hx (hax ▸ ha)
      rw [List.filter_eq_self.2 hfirst, List.filter_eq_nil_iff.2 hrest, List.append_nil]
    · have hfirst : ∀ b ∈ f x, ¬ decide (key b = a) = true :=
        fun b hb hb' => hxa ((hkey x List.mem_cons_self b hb).symm.trans (of_decide_eq_true hb'))
      have ha : a ∈ l := (List.mem_cons.1 ha).resolve_left (Ne.symm hxa)
      rw [List.filter_eq_nil_iff.2 hfirst, List.nil_append, ih hl hkey' ha]

/-- The annotations of a schema are those inline and those of its blocks. -/
theorem IsLaidOut.annotationsIn_eq (hm : m.IsLaidOut) {s : Id .schema} (hs : s ∈ m.ids .schema) :
    m.annotationsIn s = m.held s .annot := by
  have hschemas : (m.ids .schema).Nodup := Id.nodup_upTo _ _
  have hinline : ∀ s ∈ m.ids .schema, ∀ a ∈ m.insideSchema s .annot,
      (m.annotated a).schema = s := by
    intro s hs a ha
    rw [insideSchema_annot] at ha
    obtain ⟨t, ht, ha⟩ := List.mem_flatMap.1 ha
    exact ((hm.schemas s hs).inline ht a ha).schema
  have hblocks : ∀ s ∈ m.ids .schema, ∀ a ∈ insideBlocks (m.blocksOf s) .annot,
      (m.annotated a).schema = s := by
    intro s _ a ha
    rw [insideBlocks, Contents.of_self] at ha
    obtain ⟨b, hb, ha⟩ := List.mem_flatMap.1 ha
    obtain ⟨hblock, hschema⟩ := hm.isBlock hb
    exact (hblock.annotations a ha).schema.trans hschema
  rw [annotationsIn, hm.ids, hm.blocksOf, insideBlocks_flatMap, Contents.append_apply,
    Contents.concat_apply, Contents.concat_apply, List.filter_append,
    filter_flatMap_of_key hschemas hinline hs, filter_flatMap_of_key hschemas hblocks hs]
  rfl

namespace Embedded

variable (h : m.Embedded T m')
include h

/-! ### Annotations -/

section inline

variable {s s' : Id .schema} (hs : T .schema s s')
include hs

/-- Annotations that are attached to elements that match. -/
theorem annotations {t? t?' : Option Target} {apart : Bool} {ids ids' : List (Id .annot)}
    (ht : Option.Rel T.OnTargets t? t?')
    (hcontext : Option.Rel (T .type) (t?.bind m.context?) (t?'.bind m'.context?))
    (hids : ∀ a ∈ ids, m.AnnotationIn s t? apart a)
    (hids' : ∀ a ∈ ids', m'.AnnotationIn s' t?' apart a)
    (hmatch : List.Forall₂ (T .annot) ids ids')
    (hdecl : m.annotationDecls ids = m'.annotationDecls ids') :
    List.Forall₂ (m.EntriesMatch T m' .annot) ids ids' := by
  refine forall₂_imp_mem (forall₂_and hmatch (forall₂_of_map_eq hdecl)) ?_
  rintro a ha a' ha' ⟨hmatch, hdecl : (m.annotated a).decl = (m'.annotated a').decl⟩
  obtain ⟨hmem, hmem'⟩ := h.mem hmatch
  -- the expressions are laid out from the declaration
  obtain ⟨hexprs, hroots⟩ := h.isConsistent .annot a (Id.mem_upTo.1 hmem)
  obtain ⟨hexprs', hroots'⟩ := h.isConsistent' .annot a' (Id.mem_upTo.1 hmem')
  have hin := hids a ha
  have hin' := hids' a' ha'
  constructor
  · exact hin.schema ▸ hin'.schema ▸ hs
  · exact hdecl.symm
  · exact hin.target? ▸ hin'.target? ▸ ht
  · exact hin.context? ▸ hin'.context? ▸ hcontext
  · exact hin'.outOfLine.trans hin.outOfLine.symm
  · exact hexprs'.trans ((congrArg (ExprArena.ofRoots ·.roots) hdecl.symm).trans hexprs.symm)
  · exact hroots'.trans ((congrArg (ExprArena.places ·.roots) hdecl.symm).trans hroots.symm)

/-- An element in which nothing lies but its annotations. -/
theorem annotated {k : ElementKind} {id id' : Id k} {t t' : Target} {ids ids' : List (Id .annot)}
    (ht : T k id id' → T.OnTargets t t')
    (hcontext : Option.Rel (T .type) (m.context? t) (m'.context? t')) (hids : m.Inline s t ids)
    (hids' : m'.Inline s' t' ids') (hdecl : m.annotationDecls ids = m'.annotationDecls ids')
    (hentry : T k id id' → List.Forall₂ (T .annot) ids ids' →
      T.OnEntries k (m.entry id) (m'.entry id'))
    (hmatch : Match T (.of [id] ++ .of ids) (.of [id'] ++ .of ids')) :
    Match (m.EntriesMatch T m') (.of [id] ++ .of ids) (.of [id'] ++ .of ids') := by
  obtain ⟨hself, hannotations⟩ := hmatch.of_append (any_of id id')
  have hself := hself.of_singleton
  have hannotations := hannotations.of_of
  exact (Contents.match_of (.cons (hentry hself hannotations) .nil)).append
    (Contents.match_of
      (h.annotations hs (.some (ht hself)) hcontext hids hids' hannotations hdecl))

/-! ### Members -/

theorem property {t t' : Id .type} (ht : T .type t t') {p p' : Id .property}
    (hp : m.PropertyIn s t p) (hp' : m'.PropertyIn s' t' p')
    (hd : m.propertyDecl p = m'.propertyDecl p')
    (hmatch : Match T (m.insideProperty p) (m'.insideProperty p')) :
    Match (m.EntriesMatch T m') (m.insideProperty p) (m'.insideProperty p') := by
  have hdeclaring : T .type (m.property p).declaring (m'.property p').declaring :=
    hp.declaring ▸ hp'.declaring ▸ ht
  refine h.annotated hs .property (.some hdeclaring) hp.annotations hp'.annotations
    (congrArg (·.annotations) hd) (fun _ hannotations => ?_) hmatch
  exact ⟨hdeclaring, congrArg (·.name) hd.symm, congrArg (·.typeName) hd.symm,
    congrArg (·.nullable) hd.symm, congrArg (·.default?) hd.symm,
    congrArg (·.fixedConcurrency) hd.symm, hannotations, congrArg (·.location) hd.symm⟩

theorem navigationProperty {t t' : Id .type} (ht : T .type t t') {n n' : Id .navigation}
    (hn : m.NavigationIn s t n) (hn' : m'.NavigationIn s' t' n')
    (hd : m.navigationDecl n = m'.navigationDecl n')
    (hmatch : Match T (m.insideNavigation n) (m'.insideNavigation n')) :
    Match (m.EntriesMatch T m') (m.insideNavigation n) (m'.insideNavigation n') := by
  have hdeclaring : T .type (m.navigationProperty n).declaring
      (m'.navigationProperty n').declaring :=
    hn.declaring ▸ hn'.declaring ▸ ht
  refine h.annotated hs .navigation (.some hdeclaring) hn.annotations hn'.annotations
    (congrArg (·.annotations) hd) (fun _ hannotations => ?_) hmatch
  exact ⟨hdeclaring, congrArg (·.name) hd.symm, congrArg (·.relationship) hd.symm,
    congrArg (·.fromRole) hd.symm, congrArg (·.toRole) hd.symm, hannotations,
    congrArg (·.location) hd.symm⟩

theorem entitySet {k k' : Id .container} (hk : T .container k k') {e e' : Id .entitySet}
    (he : m.EntitySetIn s k e) (he' : m'.EntitySetIn s' k' e')
    (hd : m.entitySetDecl e = m'.entitySetDecl e')
    (hmatch : Match T (m.insideEntitySet e) (m'.insideEntitySet e')) :
    Match (m.EntriesMatch T m') (m.insideEntitySet e) (m'.insideEntitySet e') := by
  have hcontainer : T .container (m.entitySet e).container (m'.entitySet e').container :=
    he.container ▸ he'.container ▸ hk
  refine h.annotated hs .entitySet .none he.annotations he'.annotations
    (congrArg (·.annotations) hd) (fun _ hannotations => ?_) hmatch
  exact ⟨hcontainer, congrArg (·.name) hd.symm, congrArg (·.entityType) hd.symm, hannotations,
    congrArg (·.location) hd.symm⟩

/-! ### Declarations of schemas -/

variable {ns : Name}

theorem type {t t' : Id .type} (ht : m.TypeIn s ns t) (ht' : m'.TypeIn s' ns t')
    (hd : m.SameType m' t t') (hmatch : Match T (m.insideType t) (m'.insideType t')) :
    Match (m.EntriesMatch T m') (m.insideType t) (m'.insideType t') := by
  -- both types are declared alike, so their contents fall into parts of the same sizes
  have hpropertiesSize := hd.properties.imp fun _ _ => any_property
  have hnavigationSize := hd.navigation.imp fun _ _ => any_navigation
  obtain ⟨hself, hinside⟩ := hmatch.of_append (any_of t t')
  obtain ⟨hmembers, hannotations⟩ :=
    hinside.of_append (.append (.concat hpropertiesSize) (.concat hnavigationSize))
  obtain ⟨hproperties, hnavigation⟩ := hmembers.of_append (.concat hpropertiesSize)
  have hself : T .type t t' := hself.of_singleton
  have hannotations := hannotations.of_of
  have hproperties := hproperties.of_concat hpropertiesSize
  have hnavigation := hnavigation.of_concat hnavigationSize
  have hbody : T.OnBodies (m.type t).body (m'.type t').body :=
    hd.body T (hproperties.imp fun p p' hp => (hp.of_append (any_of p p')).1.of_singleton)
      (hnavigation.imp fun n n' hn => (hn.of_append (any_of n n')).1.of_singleton)
  have hcontext : Option.Rel (T .type) (m.context? (.type t)) (m'.context? (.type t')) := by
    rw [context?, context?, hbody.kind]
    split
    · exact .none
    · exact .some hself
  refine (Contents.match_of (.cons ?_ .nil)).append (((Match.concat ?_).append (.concat ?_)).append
    (Contents.match_of ?_))
  · exact ⟨ht.schema ▸ ht'.schema ▸ hs, hd.name,
      ht'.qualifiedName.trans ((congrArg (qualify ns) hd.name).trans ht.qualifiedName.symm), hbody,
      hannotations, hd.location⟩
  · exact forall₂_imp_mem (forall₂_and hproperties hd.properties) fun p hp p' hp' hmatch =>
      h.property hs hself (ht.properties p hp) (ht'.properties p' hp') hmatch.2 hmatch.1
  · exact forall₂_imp_mem (forall₂_and hnavigation hd.navigation) fun n hn n' hn' hmatch =>
      h.navigationProperty hs hself (ht.navigation n hn) (ht'.navigation n' hn') hmatch.2 hmatch.1
  · exact h.annotations hs (.some (.type hself)) hcontext ht.annotations ht'.annotations
      hannotations hd.annotations

theorem association {a a' : Id .association} (ha : m.AssociationIn s ns a)
    (ha' : m'.AssociationIn s' ns a') (hd : m.associationDecl a = m'.associationDecl a')
    (hmatch : Match T (m.insideAssociation a) (m'.insideAssociation a')) :
    Match (m.EntriesMatch T m') (m.insideAssociation a) (m'.insideAssociation a') := by
  have hname : (m'.association a').name = (m.association a).name := congrArg (·.name) hd.symm
  refine h.annotated hs .association .none ha.annotations ha'.annotations
    (congrArg (·.annotations) hd) (fun _ hannotations => ?_) hmatch
  exact ⟨ha.schema ▸ ha'.schema ▸ hs, hname,
    ha'.qualifiedName.trans ((congrArg (qualify ns) hname).trans ha.qualifiedName.symm),
    congrArg (·.end1) hd.symm, congrArg (·.end2) hd.symm, hannotations,
    congrArg (·.location) hd.symm⟩

theorem term {t t' : Id .term} (ht : m.TermIn s ns t) (ht' : m'.TermIn s' ns t')
    (hd : m.termDecl t = m'.termDecl t')
    (hmatch : Match T (m.insideTerm t) (m'.insideTerm t')) :
    Match (m.EntriesMatch T m') (m.insideTerm t) (m'.insideTerm t') := by
  have hname : (m'.term t').name = (m.term t).name := congrArg (·.name) hd.symm
  refine h.annotated hs .term .none ht.annotations ht'.annotations
    (congrArg (·.annotations) hd) (fun _ hannotations => ?_) hmatch
  exact ⟨ht.schema ▸ ht'.schema ▸ hs, hname,
    ht'.qualifiedName.trans ((congrArg (qualify ns) hname).trans ht.qualifiedName.symm),
    congrArg (·.typeName) hd.symm, congrArg (·.nullable) hd.symm, congrArg (·.default?) hd.symm,
    congrArg (·.appliesTo?) hd.symm, hannotations, congrArg (·.location) hd.symm⟩

theorem container {k k' : Id .container} (hk : m.ContainerIn s ns k)
    (hk' : m'.ContainerIn s' ns k') (hd : m.containerDecl k = m'.containerDecl k')
    (hmatch : Match T (m.insideContainer k) (m'.insideContainer k')) :
    Match (m.EntriesMatch T m') (m.insideContainer k) (m'.insideContainer k') := by
  have hname : (m'.container k').name = (m.container k).name := congrArg (·.name) hd.symm
  have hsetsSize := (forall₂_entitySets hd).imp fun _ _ => any_entitySet
  have hlinks := forall₂_associationSets hd
  have hlinksSize : Match .any (.of (m.container k).associationSets)
      (.of (m'.container k').associationSets) :=
    Contents.match_of (hlinks.imp fun _ _ _ => trivial)
  obtain ⟨hself, hinside⟩ := hmatch.of_append (any_of k k')
  obtain ⟨hmembers, hannotations⟩ := hinside.of_append (.append (.concat hsetsSize) hlinksSize)
  obtain ⟨hentitySets, hassociationSets⟩ := hmembers.of_append (.concat hsetsSize)
  have hself : T .container k k' := hself.of_singleton
  have hannotations := hannotations.of_of
  have hentitySets := hentitySets.of_concat hsetsSize
  have hassociationSets := hassociationSets.of_of
  refine (Contents.match_of (.cons ?_ .nil)).append
    (((Match.concat ?_).append (Contents.match_of ?_)).append (Contents.match_of ?_))
  · exact ⟨hk.schema ▸ hk'.schema ▸ hs, hname,
      hk'.qualifiedName.trans ((congrArg (qualify ns) hname).trans hk.qualifiedName.symm),
      congrArg (·.extends?) hd.symm,
      hentitySets.imp fun e e' he => (he.of_append (any_of e e')).1.of_singleton,
      hassociationSets, hannotations, congrArg (·.location) hd.symm⟩
  · exact forall₂_imp_mem (forall₂_and hentitySets (forall₂_entitySets hd))
      fun e he e' he' hmatch => h.entitySet hs hself (hk.entitySets e he) (hk'.entitySets e' he')
        hmatch.2 hmatch.1
  · exact forall₂_imp_mem hlinks fun a ha a' ha' hdecl =>
      ⟨hk.associationSets a ha ▸ hk'.associationSets a' ha' ▸ hself, hdecl.symm⟩
  · exact h.annotations hs (.some (.container hself)) .none hk.annotations hk'.annotations
      hannotations (congrArg (·.annotations) hd)

theorem item {i i' : ItemId} (hi : m.ItemIn s ns i) (hi' : m'.ItemIn s' ns i')
    (hd : m.SameItem m' i i') (hmatch : Match T (m.insideItem i) (m'.insideItem i')) :
    Match (m.EntriesMatch T m') (m.insideItem i) (m'.insideItem i') := by
  cases hd with
  | type hd => exact h.type hs hi hi' hd hmatch
  | association hd => exact h.association hs hi hi' hd hmatch
  | term hd => exact h.term hs hi hi' hd hmatch
  | container hd => exact h.container hs hi hi' hd hmatch

/-! ### Schemas -/

theorem items :
    List.Forall₂ (fun i i' => Match T (m.insideItem i) (m'.insideItem i')) (m.schema s).items
      (m'.schema s').items := by
  have hsame := h.same hs
  have hsize := hsame.items.imp fun _ _ => any_item
  have hinside := ((h.held hs).of_append (any_insideSchema hsame)).1
  exact (hinside.of_append (any_of s s')).2.of_concat hsize

theorem insideSchema :
    Match (m.EntriesMatch T m') (m.insideSchema s) (m'.insideSchema s') := by
  obtain ⟨hmem, hmem'⟩ := h.mem hs
  have hsame := h.same hs
  have hnamespace : (m'.schema s').namespaceName = (m.schema s).namespaceName :=
    congrArg (·.namespaceName) hsame.decl.symm
  have hitems := forall₂_and (h.items hs) hsame.items
  refine (Contents.match_of (.cons ?_ .nil)).append (.concat ?_)
  · refine ⟨hnamespace, congrArg (·.alias?) hsame.decl.symm, congrArg (·.usings) hsame.decl.symm,
      hitems.imp fun i i' hi => ?_, congrArg (·.location) hsame.decl.symm⟩
    obtain ⟨hmatch, hi⟩ := hi
    cases hi with
    | type => exact .type (hmatch.of_append (any_of _ _)).1.of_singleton
    | association => exact .association (hmatch.of_append (any_of _ _)).1.of_singleton
    | term => exact .term (hmatch.of_append (any_of _ _)).1.of_singleton
    | container => exact .container (hmatch.of_append (any_of _ _)).1.of_singleton
  · refine forall₂_imp_mem hitems fun i hi i' hi' hmatch => ?_
    have hin := h.isLaidOut.schemas s hmem i hi
    have hin' := h.isLaidOut'.schemas s' hmem' i' hi'
    rw [hnamespace] at hin'
    exact h.item hs hin hin' hmatch.2 hmatch.1

end inline

/-! ### All elements -/

/-- What holds of matching contents of schemas holds of all elements that match. -/
theorem of_held {E : Matching}
    (hE : ∀ s s', T .schema s s' → Match E (m.held s) (m'.held s')) {k : ElementKind}
    {id id' : Id k} (hid : T k id id') : E k id id' := by
  have hmem : id ∈ (m.ids .schema).flatMap (m.held · k) := by
    have hid := (h.mem hid).1
    rw [h.isLaidOut.ids, h.isLaidOut.blocksOf, insideBlocks_flatMap] at hid
    simp only [Contents.append_apply, Contents.concat_apply, List.mem_append,
      List.mem_flatMap] at hid
    rcases hid with ⟨s, hs, hid⟩ | ⟨s, hs, hid⟩
    · exact List.mem_flatMap.2 ⟨s, hs, List.mem_append_left _ hid⟩
    · exact List.mem_flatMap.2 ⟨s, hs, List.mem_append_right _ hid⟩
  -- in the schema that is taken for `s`, the element at the place of `id` can only be `id'`
  obtain ⟨s, hs, hid₁⟩ := List.mem_flatMap.1 hmem
  obtain ⟨s', hs⟩ := h.total hs
  obtain ⟨id'', -, hid', hE⟩ := exists_of_forall₂ (forall₂_and (h.held hs k) (hE s s' hs k)) hid₁
  rwa [(h.biUnique k).2 hid' hid] at hE

/-- Entries match, those of annotations perhaps apart. -/
theorem onEntries_of_ne {k : ElementKind} (hk : k ≠ .annot) {id id' : Id k} (hid : T k id id') :
    T.OnEntries k (m.entry id) (m'.entry id') := by
  refine h.of_held (E := fun k id id' => k ≠ .annot → m.EntriesMatch T m' k id id') ?_ hid hk
  intro s s' hs
  refine .append (fun k => (h.insideSchema hs k).imp fun _ _ hid _ => hid) ?_
  refine Contents.match_of (((h.held hs).of_append (any_insideSchema (h.same hs))).2.of_of.imp ?_)
  exact fun _ _ _ hne => absurd rfl hne

/-! ### Names -/

theorem qualifiedNameOf_eq {k : SymbolKind} {id id' : Id k.element} (hid : T k.element id id') :
    m'.qualifiedNameOf k id' = m.qualifiedNameOf k id := by
  cases k with
  | type => exact (h.onEntries_of_ne (k := .type) (by decide) hid).qualifiedName
  | term => exact (h.onEntries_of_ne (k := .term) (by decide) hid).qualifiedName
  | container => exact (h.onEntries_of_ne (k := .container) (by decide) hid).qualifiedName
  | association => exact (h.onEntries_of_ne (k := .association) (by decide) hid).qualifiedName

theorem expand_eq {s s' : Id .schema} (hs : T .schema s s') : m'.expand s' = m.expand s :=
  funext fun reference => (expand_congr (h.same hs).decl reference).symm

theorem targetPath_eq {s s' : Id .schema} (hs : T .schema s s') (target : Name) :
    m'.targetPath s' target = m.targetPath s target := by
  unfold targetPath
  rw [h.expand_eq hs]

/-! ### Targets -/

theorem memberTarget? {t t' : Id .type} (ht : T .type t t') (name : Name) :
    Option.Rel T.OnTargets (m.memberTarget? t name) (m'.memberTarget? t' name) := by
  have hbody := (h.onEntries_of_ne (k := .type) (by decide) ht).body.structured?
  unfold Model.memberTarget?
  refine optionRel_bind hbody fun b b' hb => ?_
  have hproperty := optionRel_find? hb.properties
    (p := fun p => (m.property p).name = name) (q := fun p => (m'.property p).name = name)
    fun p p' hp => by
      have hentry := h.onEntries_of_ne (k := .property) (by decide) hp
      rw [show (m'.property p').name = (m.property p).name from hentry.name]
  have hnavigation := optionRel_find? hb.navigation
    (p := fun n => (m.navigationProperty n).name = name)
    (q := fun n => (m'.navigationProperty n).name = name)
    fun n n' hn => by
      have hentry := h.onEntries_of_ne (k := .navigation) (by decide) hn
      rw [show (m'.navigationProperty n').name = (m.navigationProperty n).name from hentry.name]
  rcases optionRel_iff.1 hproperty with ⟨hn, hn'⟩ | ⟨p, p', hp, hp', hmatch⟩
  · rw [hn, hn']
    exact optionRel_bind hnavigation fun _ _ hn => .some (.navigation hn)
  · rw [hp, hp']
    exact .some (.property hmatch)

/-- Where a name leads to elements that match, so do the paths that begin with it. -/
theorem targetAt? {name : Name}
    (hfirst : ∀ k, Option.Rel (T k.element) (m.first? k name) (m'.first? k name))
    (member? : Option Name) :
    Option.Rel T.OnTargets (m.targetAt? name member?) (m'.targetAt? name member?) := by
  cases member? with
  | none =>
    have htype := optionRel_map (hfirst .type) fun _ _ => Matching.OnTargets.type
    have hcontainer := optionRel_map (hfirst .container) fun _ _ => Matching.OnTargets.container
    have hterm := optionRel_map (hfirst .term) fun _ _ => Matching.OnTargets.term
    have hassociation := optionRel_map (hfirst .association) fun _ _ =>
      Matching.OnTargets.association
    exact optionRel_or htype (optionRel_or hcontainer (optionRel_or hterm hassociation))
  | some member =>
    unfold Model.targetAt?
    rcases optionRel_iff.1 (hfirst .type) with ⟨ht, ht'⟩ | ⟨t, t', ht, ht', hmatch⟩
    · rw [ht, ht']
      refine optionRel_bind (hfirst .container) fun k k' hk => ?_
      have hsets := (h.onEntries_of_ne (k := .container) (by decide) hk).entitySets
      refine optionRel_map (optionRel_find? hsets fun e e' he => ?_) fun _ _ he => .entitySet he
      have hentry := h.onEntries_of_ne (k := .entitySet) (by decide) he
      rw [show (m'.entitySet e').name = (m.entitySet e).name from hentry.name]
    · rw [ht, ht']
      exact h.memberTarget? hmatch member

theorem context? {t t' : Target} (ht : T.OnTargets t t') :
    Option.Rel (T .type) (m.context? t) (m'.context? t') := by
  cases ht with
  | @type t t' ht =>
    have hkind : (m'.type t').body.kind = (m.type t).body.kind :=
      (h.onEntries_of_ne (k := .type) (by decide) ht).body.kind
    rw [Model.context?, Model.context?, hkind]
    split
    · exact .none
    · exact .some ht
  | property hp => exact .some (h.onEntries_of_ne (k := .property) (by decide) hp).declaring
  | navigation hn => exact .some (h.onEntries_of_ne (k := .navigation) (by decide) hn).declaring
  | association | term | container | entitySet => exact .none

/-! ### Blocks -/

section blocks

variable {s s' : Id .schema} (hs : T .schema s s')
include hs

/-- Blocks that are declared alike hold annotations that match. -/
theorem blockAnnotations :
    List.Forall₂ (fun b b' => List.Forall₂ (T .annot) b.annotations b'.annotations ∧
      m.blockDecl b = m'.blockDecl b') (m.blocksOf s) (m'.blocksOf s') := by
  have hsame := h.same hs
  have hheld := ((h.held hs).of_append (any_insideSchema hsame)).2
  rw [insideBlocks_eq_concat, insideBlocks_eq_concat] at hheld
  refine forall₂_and ((hheld.of_concat ?_).imp fun _ _ h => h.of_of) hsame.blocks
  exact hsame.blocks.imp fun _ _ hb => any_annotations (congrArg (·.annotations) hb)

theorem annotationsIn : List.Forall₂ (T .annot) (m.annotationsIn s) (m'.annotationsIn s') := by
  obtain ⟨hmem, hmem'⟩ := h.mem hs
  rw [h.isLaidOut.annotationsIn_eq hmem, h.isLaidOut'.annotationsIn_eq hmem']
  exact h.held hs .annot

section targets

variable (htargets : m.TargetsMatch T m')
include htargets

theorem attachedTo? {b b' : BlockEntry} (hb : b ∈ m.blocksOf s) (hb' : b' ∈ m'.blocksOf s')
    (hdecl : m.blockDecl b = m'.blockDecl b') :
    Option.Rel T.OnTargets b.attachedTo? b'.attachedTo? := by
  have htarget : b'.target = b.target := congrArg (·.target) hdecl.symm
  rw [h.isLaidOut.attachedTo?_eq hb, h.isLaidOut'.attachedTo?_eq hb', htarget,
    h.targetPath_eq hs]
  refine optionRel_bind (optionRel_refl (fun _ => rfl : ∀ a, a = a) _) fun _ _ _ => ?_
  exact h.targetAt? (htargets hs b hb) _

theorem blocksOf : List.Forall₂ T.OnBlocks (m.blocksOf s) (m'.blocksOf s') := by
  refine forall₂_imp_mem (h.blockAnnotations hs) ?_
  rintro b hb b' hb' ⟨hannotations, hdecl⟩
  exact ⟨congrArg (·.target) hdecl.symm, congrArg (·.qualifier) hdecl.symm, hannotations,
    h.attachedTo? hs htargets hb hb' hdecl, congrArg (·.location) hdecl.symm⟩

theorem insideBlocks :
    Match (m.EntriesMatch T m') (insideBlocks (m.blocksOf s)) (insideBlocks (m'.blocksOf s')) := by
  rw [insideBlocks_eq_concat, insideBlocks_eq_concat]
  refine .concat (forall₂_imp_mem (h.blockAnnotations hs) ?_)
  rintro b hb b' hb' ⟨hannotations, hdecl⟩
  have htarget := h.attachedTo? hs htargets hb hb' hdecl
  obtain ⟨hblock, rfl⟩ := h.isLaidOut.isBlock hb
  obtain ⟨hblock', rfl⟩ := h.isLaidOut'.isBlock hb'
  exact Contents.match_of (h.annotations hs htarget
    (optionRel_bind htarget fun _ _ ht => h.context? ht) hblock.annotations hblock'.annotations
    hannotations (congrArg (·.annotations) hdecl))

end targets

end blocks

/-- **Schemas that are declared alike make models that hold the same**, as far as the targets of
their blocks lead to the same. -/
theorem matches_of_targets (htargets : m.TargetsMatch T m') : Model.Matches T m m' where
  biUnique := h.biUnique
  entry hid := h.of_held
    (fun _ _ hs => (h.insideSchema hs).append (h.insideBlocks hs htargets)) hid
  blocksOf hs := h.blocksOf hs htargets
  annotationsIn := h.annotationsIn

end Embedded

/-- A name that is declared once leads to elements that match, where all schemas do. -/
theorem Paired.first? (h : m.Paired T m') (hnames : ∀ k, (m'.names k).Nodup) (k : SymbolKind)
    (name : Name) : Option.Rel (T k.element) (m.first? k name) (m'.first? k name) := by
  obtain ⟨ids, hmatch, hperm⟩ := h.covers k.element
  rw [first?_eq_find?, first?_eq_find?, ← find?_eq_of_perm hperm (names_eq_map m' k ▸ hnames k)]
  exact optionRel_find? hmatch fun _ _ hid => by rw [h.toEmbedded.qualifiedNameOf_eq hid]

end Schemata.Model

import Schemata.Proofs.Matching.Catalog
import Schemata.Proofs.Types.Base
import Schemata.Proofs.Types.Containment
import Schemata.Types.PropertyType

/-!
# Types that are alike

In catalogs that hold the same, types that are alike have bases, members and keys that are alike,
and properties that are alike have types that match.  A chain of bases is endless on both sides or
on neither, and a type contains itself on both sides or on neither: both are found out by following
names, which lead to what is alike.
-/

namespace Schemata

/-! ### Matching type references -/

namespace TypeReference

/-- The references differ in handles only, and those match. -/
inductive Rel (R : Handle .type → Handle .type → Prop) : TypeReference → TypeReference → Prop
  | primitive (kind : PrimitiveKind) (n : Bool) : Rel R (.primitive kind n) (.primitive kind n)
  | declared {h h' : Handle .type} (hh : R h h') (n : Bool) : Rel R (.declared h n) (.declared h' n)
  | collection {t t' : TypeReference} (ht : Rel R t t') (n : Bool) :
    Rel R (.collection t n) (.collection t' n)
  | entityReference {t t' : TypeReference} (ht : Rel R t t') (n : Bool) :
    Rel R (.entityReference t n) (.entityReference t' n)
  | placeholder (p : Placeholder) (n : Bool) : Rel R (.placeholder p n) (.placeholder p n)

variable {R : Handle .type → Handle .type → Prop} {t t' : TypeReference}

theorem Rel.elementType (h : Rel R t t') : Rel R t.elementType t'.elementType := by
  induction h with
  | primitive kind n => exact .primitive kind n
  | declared hh n => exact .declared hh n
  | collection _ _ ih => exact ih
  | entityReference _ _ ih => exact ih
  | placeholder p n => exact .placeholder p n

/-- Matching references report the same. -/
theorem Rel.diagnostics_eq (h : Rel R t t') : t'.diagnostics = t.diagnostics := by
  have hbottom : t'.placeholder? = t.placeholder? := by
    have hbottom := h.elementType
    unfold placeholder?
    generalize t.elementType = u at hbottom ⊢
    generalize t'.elementType = u' at hbottom ⊢
    cases hbottom <;> rfl
  rw [diagnostics, diagnostics, hbottom]

theorem rel_ofElement {e e' : Element (Handle .type)} (h : Element.Rel R e e') (n : Bool) :
    Rel R (ofElement n e) (ofElement n e') := by
  cases h with
  | declared hh => exact .declared hh n
  | placeholder p => exact .placeholder p n

end TypeReference

namespace Catalog.Matches

variable {T : ModelId → Matching} {c c' : Catalog} (H : c.Matches T c')
include H

/-! ### Bases -/

section types

variable {t t' : Declared .type} (h : Alike T t t')
include h

theorem qualifiedName : (c'.type t').qualifiedName = (c.type t).qualifiedName :=
  (H.type h).qualifiedName

theorem baseName? : c'.baseName? t' = c.baseName? t := by
  unfold Catalog.baseName?
  rcases optionRel_iff.1 (H.type h).body.structured? with ⟨hb, hb'⟩ | ⟨b, b', hb, hb', hbody⟩
  · rw [hb, hb']
  · rw [hb, hb']
    exact hbody.base?

theorem namedBase? : Option.Rel (Alike T) (c.namedBase? t) (c'.namedBase? t') := by
  have hresolved : Option.Rel (OnHandles T c t.model)
      ((c.baseName? t).bind (c.resolve? (c.typeSchema t) .type))
      ((c'.baseName? t').bind (c'.resolve? (c'.typeSchema t') .type)) := by
    rw [H.baseName? h]
    cases hname : c.baseName? t with
    | none => exact .none
    | some name => exact H.resolve? (H.typeSchema h) (.base ⟨_, h⟩ hname)
  unfold Catalog.namedBase?
  rcases optionRel_iff.1 hresolved with ⟨hn, hn'⟩ | ⟨b, b', hb, hb', hhandle⟩
  · rw [hn, hn']
    exact .none
  · rw [hb, hb']
    have hbase := H.locate h.model hhandle
    dsimp only
    rw [H.kind hbase, H.kind h]
    split
    · exact .some hbase
    · exact .none

theorem hasEndlessBases : c'.hasEndlessBases t' = c.hasEndlessBases t := by
  rw [Bool.eq_iff_iff, hasEndlessBases_iff, hasEndlessBases_iff]
  exact Chain.isEndless_iff_of_rel (fun _ _ h => H.namedBase? h) h

theorem baseHandle? :
    Option.Rel (Element.Rel (OnHandles T c t.model)) (c.baseHandle? t) (c'.baseHandle? t') := by
  unfold Catalog.baseHandle?
  rw [H.baseName? h]
  cases hname : c.baseName? t with
  | none => exact .none
  | some name =>
    have hs := H.typeSchema h
    have hlocation := (H.type h).location
    -- the texts of both faults name nothing but what is the same on both sides
    have hwrong {u u' : Declared .type} (hu : Alike T u u') :
        c'.wrongBase t' u' (c.expand (c.typeSchema t) name) =
          c.wrongBase t u (c.expand (c.typeSchema t) name) := by
      simp only [wrongBase, hlocation, H.kind h, H.kind hu, H.qualifiedName h]
    have hcyclic : c'.cyclicBase t' (c.expand (c.typeSchema t) name) =
        c.cyclicBase t (c.expand (c.typeSchema t) name) := by
      simp only [cyclicBase, hlocation, H.kind h]
    refine .some ?_
    dsimp only
    rw [hlocation, H.expand hs, H.hasEndlessBases h, H.kind h, hcyclic]
    refine (H.resolve hs (.base ⟨_, h⟩ hname) _).bind fun b b' hb => ?_
    have hbase := H.locate h.model hb
    rw [H.kind hbase, hwrong hbase]
    split
    · exact .placeholder _
    · split
      · exact .placeholder _
      · exact .declared hb

theorem base? : Option.Rel (Element.Rel (Alike T)) (c.base? t) (c'.base? t') :=
  optionRel_map (H.baseHandle? h) fun _ _ => H.map_locate h.model

theorem declaredBase? : Option.Rel (Alike T) (c.declaredBase? t) (c'.declaredBase? t') :=
  optionRel_bind (H.base? h) fun _ _ h => h.declared?

theorem ancestry : List.Forall₂ (Alike T) (c.ancestry t) (c'.ancestry t') :=
  Chain.forall₂_trail_of_isSome (fun _ _ h => H.declaredBase? h) H.biUnique
    (fun _ => mem_allElements_of_declaredBase?) (fun _ => mem_allElements_of_declaredBase?) h

/-! ### Members -/

theorem declaredProperties :
    List.Forall₂ (Alike T) (c.declaredProperties t) (c'.declaredProperties t') := by
  unfold Catalog.declaredProperties
  rcases optionRel_iff.1 (H.type h).body.structured? with ⟨hb, hb'⟩ | ⟨b, b', hb, hb', hbody⟩
  · rw [hb, hb']
    exact .nil
  · rw [hb, hb']
    exact forall₂_alike h.model hbody.properties

theorem declaredNavigation :
    List.Forall₂ (Alike T) (c.declaredNavigation t) (c'.declaredNavigation t') := by
  unfold Catalog.declaredNavigation
  rcases optionRel_iff.1 (H.type h).body.structured? with ⟨hb, hb'⟩ | ⟨b, b', hb, hb', hbody⟩
  · rw [hb, hb']
    exact .nil
  · rw [hb, hb']
    exact forall₂_alike h.model hbody.navigation

theorem properties : List.Forall₂ (Alike T) (c.properties t) (c'.properties t') :=
  forall₂_flatMap (List.rel_reverse (H.ancestry h)) fun _ _ h => H.declaredProperties h

theorem navigation : List.Forall₂ (Alike T) (c.navigation t) (c'.navigation t') :=
  forall₂_flatMap (List.rel_reverse (H.ancestry h)) fun _ _ h => H.declaredNavigation h

theorem findProperty? (name : Name) :
    Option.Rel (Alike T) (c.findProperty? t name) (c'.findProperty? t' name) :=
  optionRel_findSome? (H.ancestry h) fun _ _ h =>
    optionRel_find? (H.declaredProperties h) fun _ _ h => by rw [(H.property h).name]

theorem findNavigation? (name : Name) :
    Option.Rel (Alike T) (c.findNavigation? t name) (c'.findNavigation? t' name) :=
  optionRel_findSome? (H.ancestry h) fun _ _ h =>
    optionRel_find? (H.declaredNavigation h) fun _ _ h => by rw [(H.navigationProperty h).name]

theorem enum? : c'.enum? t' = c.enum? t := (H.type h).body.enum?

theorem duplicateMembers : c'.duplicateMembers t' = c.duplicateMembers t := by
  have hproperties := map_eq_of_forall₂ (H.declaredProperties h)
    (f := fun p => ("property", (c.property p).name, (c.property p).location))
    (g := fun p => ("property", (c'.property p).name, (c'.property p).location))
    fun _ _ h => by rw [(H.property h).name, (H.property h).location]
  have hnavigation := map_eq_of_forall₂ (H.declaredNavigation h)
    (f := fun n =>
      ("navigation property", (c.navigationProperty n).name, (c.navigationProperty n).location))
    (g := fun n =>
      ("navigation property", (c'.navigationProperty n).name, (c'.navigationProperty n).location))
    fun _ _ h => by rw [(H.navigationProperty h).name, (H.navigationProperty h).location]
  have henum : (c'.type t').body.enum? = (c.type t).body.enum? := H.enum? h
  unfold Catalog.duplicateMembers
  rw [hproperties, hnavigation, henum, H.qualifiedName h]

theorem keyHandles :
    List.Forall₂ (Element.Rel (OnHandles T c t.model)) (c.keyHandles t) (c'.keyHandles t') := by
  unfold Catalog.keyHandles
  rcases optionRel_iff.1 (H.type h).body.structured? with ⟨hb, hb'⟩ | ⟨b, b', hb, hb', hbody⟩
  · rw [hb, hb']
    exact .nil
  · rw [hb, hb']
    dsimp only
    rw [hbody.key, H.qualifiedName h, (H.type h).location]
    refine forall₂_map_same _ fun name _ => ?_
    exact Element.rel_ofOption _ (H.bind_handleFor h.model (H.findProperty? h name))

theorem key : List.Forall₂ (Element.Rel (Alike T)) (c.key t) (c'.key t') :=
  forall₂_map (H.keyHandles h) fun _ _ => H.map_locate h.model

theorem effectiveKey :
    List.Forall₂ (Element.Rel (Alike T)) (c.effectiveKey t) (c'.effectiveKey t') := by
  have hkeys := forall₂_map (H.ancestry h) fun _ _ h => H.key h
  have hfound := optionRel_find? hkeys (p := (!·.isEmpty)) (q := (!·.isEmpty)) fun _ _ h => by
    cases h <;> rfl
  unfold Catalog.effectiveKey
  rcases optionRel_iff.1 hfound with ⟨hn, hn'⟩ | ⟨key, key', hkey, hkey', h⟩
  · rw [hn, hn']
    exact .nil
  · rw [hkey, hkey']
    exact h

end types

/-! ### Names of members -/

theorem propertyName {p p' : Declared .property} (h : Alike T p p') :
    c'.propertyName p' = c.propertyName p := by
  unfold Catalog.propertyName
  rw [H.qualifiedName (H.declaringType h), (H.property h).name]

theorem navigationName {n n' : Declared .navigation} (h : Alike T n n') :
    c'.navigationName n' = c.navigationName n := by
  unfold Catalog.navigationName
  rw [H.qualifiedName (H.navigationDeclaringType h), (H.navigationProperty h).name]

/-! ### Type references -/

section references

variable {s s' : Declared .schema} (hs : Alike T s s')
include hs

theorem referenceOf (nullable : Bool) (location : Location) {t : TypeSyntax}
    (ht : c.HasReference (HasAlike T) s .type t.name) :
    TypeReference.Rel (OnHandles T c s.model) (c.referenceOf s nullable location t)
      (c'.referenceOf s' nullable location t) := by
  induction t with
  | named name =>
    unfold Catalog.referenceOf
    cases PrimitiveKind.ofQualified? name with
    | some kind => exact .primitive kind nullable
    | none => exact TypeReference.rel_ofElement (H.resolve hs ht location) nullable
  | collection element ih => exact .collection (ih ht) false
  | ref entity =>
    cases entity with
    | named name =>
      exact .entityReference
        (TypeReference.rel_ofElement (H.resolveType hs ht _ location) false) nullable
    | collection => exact .placeholder _ nullable
    | ref => exact .placeholder _ nullable

theorem typeReference (text : Name) (nullable : Bool) (location : Location)
    (ht : ∀ t, TypeSyntax.parse? text = some t → c.HasReference (HasAlike T) s .type t.name) :
    TypeReference.Rel (OnHandles T c s.model) (c.typeReference s text nullable location)
      (c'.typeReference s' text nullable location) := by
  unfold Catalog.typeReference
  cases hparse : TypeSyntax.parse? text with
  | some t => exact H.referenceOf hs nullable location (ht t hparse)
  | none => exact .placeholder _ nullable

omit hs in
theorem elementOf? {m m' : ModelId} (hm : m' = m) {t t' : TypeReference}
    (h : TypeReference.Rel (OnHandles T c m) t t') :
    Option.Rel (Element.Rel (Alike T)) (c.elementOf? m t) (c'.elementOf? m' t') := by
  have hbottom := h.elementType
  unfold Catalog.elementOf?
  generalize t.elementType = u at hbottom ⊢
  generalize t'.elementType = u' at hbottom ⊢
  cases hbottom with
  | declared hh => exact .some (.declared (H.locate hm hh))
  | placeholder p => exact .some (.placeholder p)
  | primitive | collection | entityReference => exact .none

end references

theorem termType {t t' : Declared .term} (h : Alike T t t') :
    TypeReference.Rel (OnHandles T c t.model) (c.termType t) (c'.termType t') := by
  have hterm := H.term h
  unfold Catalog.termType
  dsimp only
  rw [hterm.typeName, hterm.nullable, hterm.location]
  exact H.typeReference (H.termSchema h) _ _ _ fun _ ht => .termType ⟨_, h⟩ ht

/-! ### Types that would contain themselves -/

section containment

variable {m : ModelId}

theorem ownType? {s s' : Id .schema} (hs : T m .schema s s') {name : Name}
    (hname : c.HasReference (HasAlike T) ⟨m, s⟩ .type name) :
    Option.Rel (T m .type) (c.ownType? m s name) (c'.ownType? m s' name) := by
  have hs := alike_mk hs
  unfold Catalog.ownType?
  rcases optionRel_iff.1 (H.resolve? hs hname) with ⟨hn, hn'⟩ | ⟨h, h', hh, hh', hhandle⟩
  · rw [hn, hn']
    exact .none
  · rw [hh, hh']
    cases hhandle with
    | own h => exact .some h
    | referenced => exact .none

variable {a a' : Id .type} (ha : T m .type a a')
include ha

theorem ownBase? : Option.Rel (T m .type) (c.ownBase? m a) (c'.ownBase? m a') := by
  have ht := alike_mk ha
  have hbase : ((c'.model m).type a').body.structured?.bind (·.base?) = c.baseName? ⟨m, a⟩ :=
    H.baseName? ht
  unfold Catalog.ownBase?
  dsimp only
  rw [hbase]
  cases hname : c.baseName? ⟨m, a⟩ with
  | none =>
    rw [show ((c.model m).type a).body.structured?.bind (·.base?) = none from hname]
    exact .none
  | some name =>
    rw [show ((c.model m).type a).body.structured?.bind (·.base?) = some name from hname]
    exact H.ownType? (H.type ht).schema (.base ⟨_, ht⟩ hname)

theorem ownChain : List.Forall₂ (T m .type) (c.ownChain m a) (c'.ownChain m a') := by
  unfold Catalog.ownChain
  rw [← length_ids_type, ← length_ids_type]
  exact Chain.forall₂_trail_of_isSome (fun _ _ h => H.ownBase? h) ((H.models m).biUnique .type)
    (fun _ => mem_ids_of_ownBase?) (fun _ => mem_ids_of_ownBase?) ha

omit ha in
theorem heldType? {p p' : Declared .property} (h : Alike T p p') :
    Option.Rel (T p.model .type)
      (c.heldType? p.model (c.typeSchema (c.declaringType p)).id (c.property p).typeName)
      (c'.heldType? p.model (c'.typeSchema (c'.declaringType p')).id
        (c'.property p').typeName) := by
  rw [(H.property h).typeName]
  unfold Catalog.heldType?
  split
  case h_1 name hparse =>
    have howned := H.ownType? (H.typeSchema (H.declaringType h)).id (.propertyType ⟨_, h⟩ hparse)
    rcases optionRel_iff.1 howned with ⟨hn, hn'⟩ | ⟨a, a', ha, ha', hmatch⟩
    · rw [show c.ownType? p.model _ name = none from hn,
        show c'.ownType? p.model _ name = none from hn']
      exact .none
    · rw [show c.ownType? p.model _ name = some a from ha,
        show c'.ownType? p.model _ name = some a' from ha']
      have hkind : ((c'.model p.model).type a').body.kind = ((c.model p.model).type a).body.kind :=
        H.kind (alike_mk hmatch)
      rw [Option.filter_some, Option.filter_some, hkind]
      split
      · exact .some hmatch
      · exact .none
  case h_2 => exact .none

theorem declaredFields :
    List.Forall₂ (T m .type) (c.declaredFields m a) (c'.declaredFields m a') := by
  have ht := alike_mk ha
  have hdeclared (p : Id .property)
      (hp : (⟨m, p⟩ : Declared .property) ∈ c.declaredProperties ⟨m, a⟩) :
      c.declaringType ⟨m, p⟩ = ⟨m, a⟩ := H.isBuilt.declaringType_of_mem hp
  unfold Catalog.declaredFields
  dsimp only
  rcases optionRel_iff.1 (H.type ht).body.structured? with ⟨hb, hb'⟩ | ⟨b, b', hb, hb', hbody⟩
  · rw [show ((c.model m).type a).body.structured? = none from hb,
      show ((c'.model m).type a').body.structured? = none from hb']
    exact .nil
  · rw [show ((c.model m).type a).body.structured? = some b from hb,
      show ((c'.model m).type a').body.structured? = some b' from hb']
    -- names of types are looked up from the declaring type, which is this one
    have hown (p : Id .property) (hp : p ∈ b.properties) :
        c.declaringType ⟨m, p⟩ = ⟨m, a⟩ := by
      refine hdeclared p ?_
      rw [Catalog.declaredProperties, hb]
      exact List.mem_map_of_mem hp
    refine forall₂_filterMap
      ((List.forall₂_and_left _ _).2 ⟨hown, hbody.properties⟩) fun p p' hp => ?_
    obtain ⟨hp, hmatch⟩ := hp
    have hp' : c'.declaringType ⟨m, p'⟩ = ⟨m, a'⟩ := by
      have halike := H.declaringType (alike_mk hmatch)
      rw [hp] at halike
      exact H.biUnique.2 halike ht
    have hheld := H.heldType? (alike_mk hmatch)
    rwa [hp, hp'] at hheld

theorem fields : List.Forall₂ (T m .type) (c.fields m a) (c'.fields m a') :=
  forall₂_flatMap (H.ownChain ha) fun _ _ h => H.declaredFields h

theorem wouldContainItself {b b' : Id .type} (hb : T m .type b b') :
    c'.wouldContainItself m a' b' = c.wouldContainItself m a b := by
  have hfields (a a' : Id .type) (h : T m .type a a') := H.fields h
  have hbases (a a' : Id .type) (h : T m .type a a') := H.ownBase? h
  have hunique := (H.models m).biUnique .type
  rw [Bool.eq_iff_iff, wouldContainItself_iff, wouldContainItself_iff]
  -- the type that is held on one side is taken for one that is held on the other
  constructor
  · rintro ⟨d', had, hdb⟩
    obtain ⟨d, hd, had⟩ := Graph.exists_of_reflTransGen' hfields ha had
    exact ⟨d, had, (Chain.reflTransGen_iff_of_rel hbases hunique hd hb).1 hdb⟩
  · rintro ⟨d, had, hdb⟩
    obtain ⟨d', hd, had⟩ := Graph.exists_of_reflTransGen hfields ha had
    exact ⟨d', had, (Chain.reflTransGen_iff_of_rel hbases hunique hd hb).2 hdb⟩

end containment

/-! ### The types of properties -/

theorem propertyType {p p' : Declared .property} (h : Alike T p p') :
    TypeReference.Rel (OnHandles T c p.model) (c.propertyType p) (c'.propertyType p') := by
  have hdeclaring := H.declaringType h
  have hwritten : TypeReference.Rel (OnHandles T c p.model)
      (c.typeReference (c.typeSchema (c.declaringType p)) (c.property p).typeName
        (c.property p).nullable (c.property p).location)
      (c'.typeReference (c'.typeSchema (c'.declaringType p')) (c'.property p').typeName
        (c'.property p').nullable (c'.property p').location) := by
    rw [(H.property h).typeName, (H.property h).nullable, (H.property h).location]
    exact H.typeReference (H.typeSchema hdeclaring) _ _ _ fun _ ht => .propertyType ⟨_, h⟩ ht
  unfold Catalog.propertyType
  dsimp only
  generalize c.typeReference _ _ _ _ = t at hwritten ⊢
  generalize c'.typeReference _ _ _ _ = t' at hwritten ⊢
  cases hwritten with
  | primitive kind n => exact .primitive kind n
  | collection ht n => exact .collection ht n
  | entityReference ht n => exact .entityReference ht n
  | placeholder q n => exact .placeholder q n
  | declared hh n =>
    cases hh with
    | referenced i hi id => exact .declared (.referenced i hi id) n
    | @own id id' hid =>
      have ht : Alike T (⟨p.model, id⟩ : Declared .type) ⟨p'.model, id'⟩ := ⟨h.model, hid⟩
      have hcontains : c'.wouldContainItself p'.model id' (c'.property p').declaring =
          c.wouldContainItself p.model id (c.property p).declaring := by
        rw [h.model]
        exact H.wouldContainItself hid hdeclaring.id
      dsimp only
      rw [H.kind ht, hcontains, H.qualifiedName ht, H.qualifiedName hdeclaring,
        (H.property h).location]
      split
      · exact .placeholder _ n
      · exact .declared (.own hid) n

theorem propertyElement? {p p' : Declared .property} (h : Alike T p p') :
    Option.Rel (Element.Rel (Alike T)) (c.propertyElement? p) (c'.propertyElement? p') :=
  H.elementOf? h.model (H.propertyType h)

/-! ### Enumerations and default values -/

section enums

variable {t t' : Declared .type} (h : Alike T t t')
include h

theorem underlying? : c'.underlying? t' = c.underlying? t := by
  unfold Catalog.underlying?
  rw [H.enum? h, (H.type h).location]

theorem memberValues : c'.memberValues t' = c.memberValues t := by
  unfold Catalog.memberValues memberRange
  rw [H.enum? h, H.underlying? h]

theorem memberDecls : c'.memberDecls t' = c.memberDecls t := by
  unfold Catalog.memberDecls
  rw [H.enum? h]

theorem isSome_findMember? (name : Name) :
    (c'.findMember? t' name).isSome = (c.findMember? t name).isSome := by
  have hdecl (i : Nat) : c'.memberDecl ⟨t', i⟩ = c.memberDecl ⟨t, i⟩ := by
    rw [memberDecl, memberDecl, H.memberDecls h]
  simp only [Catalog.findMember?, members, List.find?_map, Option.isSome_map, Function.comp_def,
    hdecl, H.memberDecls h]

theorem isEnumText (text : String) : c'.isEnumText t' text = c.isEnumText t text := by
  unfold Catalog.isEnumText
  simp only [H.isSome_findMember? h]

omit h in
theorem defaultFault? {m m' : ModelId} (hm : m' = m) {type type' : TypeReference}
    (htype : TypeReference.Rel (OnHandles T c m) type type') (text : String) :
    c'.defaultFault? m' type' text = c.defaultFault? m type text := by
  cases htype with
  | declared hh n =>
    have ht := H.locate hm hh
    unfold Catalog.defaultFault?
    dsimp only
    rw [H.kind ht, H.isEnumText ht, H.qualifiedName ht]
  | primitive | collection | entityReference | placeholder => rfl

end enums

end Catalog.Matches

end Schemata

import Schemata.Expr.Diagnostics
import Schemata.Proofs.Matching.Annotations

/-!
# Expressions that are alike

In catalogs that hold the same, expressions at the same place of annotations that are alike are
declared alike, their names lead to what is alike, and so do their paths.  So the views of both show
the same, and what is wrong with them and with all that is below them is the same
(`Matches.exprDiagnostics`).
-/

namespace Schemata

namespace Catalog

variable (T : ModelId → Matching)

/-- A member of an enumeration that is found on both sides at the same place. -/
structure AlikeMembers (m m' : EnumMember) : Prop where
  type : Alike T m.type m'.type
  index : m'.index = m.index

/-- Fields of records that are for properties that are alike. -/
structure AlikeFields (f f' : RecordField) : Prop where
  name : f'.name = f.name
  value : AlikeExprs T f.value f'.value
  property : Element.Rel (Alike T) f.property f'.property

/-- The names in two expressions lead to what is alike. -/
inductive ReferencesMatch (c : Catalog) (m : ModelId) : ExprReferences → ExprReferences → Prop
  | none : ReferencesMatch c m .none .none
  | malformed (p : Placeholder) : ReferencesMatch c m (.malformed p) (.malformed p)
  | type {t t' : TypeReference} (h : TypeReference.Rel (OnHandles T c m) t t') :
    ReferencesMatch c m (.type t) (.type t')
  | collection {t? t?' : Option TypeReference}
    (h : Option.Rel (TypeReference.Rel (OnHandles T c m)) t? t?') :
    ReferencesMatch c m (.collection t?) (.collection t?')
  | record {t? t?' : Option TypeReference} {fields fields' : List (Element (Handle .property))}
    (h : Option.Rel (TypeReference.Rel (OnHandles T c m)) t? t?')
    (hfields : List.Forall₂ (Element.Rel (OnHandles T c m)) fields fields') :
    ReferencesMatch c m (.record t? fields) (.record t?' fields')
  | enumMembers {members members' : List (Element (Handle .type × Nat))}
    (h : List.Forall₂ (Element.Rel fun p p' => OnHandles T c m p.1 p'.1 ∧ p'.2 = p.2)
      members members') :
    ReferencesMatch c m (.enumMembers members) (.enumMembers members')
  | label {target target' : Element ExprRef} (h : Element.Rel (AlikeExprs T) target target') :
    ReferencesMatch c m (.label target) (.label target')

/-- Two expressions show the same, with operands and references that are alike. -/
inductive ViewsMatch (c : Catalog) (m : ModelId) : ExprView → ExprView → Prop
  | constant (kind : ConstantKind) (text : String) (value : Except Diagnostic PrimitiveValue) :
    ViewsMatch c m (.constant kind text value) (.constant kind text value)
  | null : ViewsMatch c m .null .null
  | path (segments : List Name) : ViewsMatch c m (.path segments) (.path segments)
  | enumMember {members members' : List (Element EnumMember)}
    (h : List.Forall₂ (Element.Rel (AlikeMembers T)) members members') :
    ViewsMatch c m (.enumMember members) (.enumMember members')
  | cond {e₁ e₂ e₃ e₁' e₂' e₃' : ExprRef} (h₁ : AlikeExprs T e₁ e₁') (h₂ : AlikeExprs T e₂ e₂')
    (h₃ : AlikeExprs T e₃ e₃') : ViewsMatch c m (.cond e₁ e₂ e₃) (.cond e₁' e₂' e₃')
  | cast {t t' : TypeReference} {e e' : ExprRef} (ht : TypeReference.Rel (OnHandles T c m) t t')
    (h : AlikeExprs T e e') : ViewsMatch c m (.cast t e) (.cast t' e')
  | isType {t t' : TypeReference} {e e' : ExprRef} (ht : TypeReference.Rel (OnHandles T c m) t t')
    (h : AlikeExprs T e e') : ViewsMatch c m (.isType t e) (.isType t' e')
  | record {t? t?' : Option TypeReference} {fields fields' : List RecordField}
    (ht : Option.Rel (TypeReference.Rel (OnHandles T c m)) t? t?')
    (h : List.Forall₂ (AlikeFields T) fields fields') :
    ViewsMatch c m (.record t? fields) (.record t?' fields')
  | collection {t? t?' : Option TypeReference} {es es' : List ExprRef}
    (ht : Option.Rel (TypeReference.Rel (OnHandles T c m)) t? t?')
    (h : List.Forall₂ (AlikeExprs T) es es') :
    ViewsMatch c m (.collection t? es) (.collection t?' es')
  | apply (function : Name) {es es' : List ExprRef} (h : List.Forall₂ (AlikeExprs T) es es') :
    ViewsMatch c m (.apply function es) (.apply function es')
  | labeled (name : Name) {e e' : ExprRef} (h : AlikeExprs T e e') :
    ViewsMatch c m (.labeled name e) (.labeled name e')
  | labelRef {e e' : Element ExprRef} (h : Element.Rel (AlikeExprs T) e e') :
    ViewsMatch c m (.labelRef e) (.labelRef e')
  | malformed (p : Placeholder) : ViewsMatch c m (.malformed p) (.malformed p)

section views

variable {T} {c : Catalog} {m : ModelId} {v v' : ExprView} (h : ViewsMatch T c m v v')
include h

theorem ViewsMatch.children : List.Forall₂ (AlikeExprs T) v.children v'.children := by
  cases h with
  | cond h₁ h₂ h₃ => exact .cons h₁ (.cons h₂ (.cons h₃ .nil))
  | cast _ h | isType _ h | labeled _ h => exact .cons h .nil
  | record _ h => exact forall₂_map h fun _ _ h => h.value
  | collection _ h | apply _ h => exact h
  | constant | null | path | enumMember | labelRef | malformed => exact .nil

theorem ViewsMatch.diagnostics_eq : v'.diagnostics = v.diagnostics := by
  have htypes {t? t?' : Option TypeReference}
      (h : Option.Rel (TypeReference.Rel (OnHandles T c m)) t? t?') :
      t?'.toList.flatMap (·.diagnostics) = t?.toList.flatMap (·.diagnostics) :=
    flatMap_eq_of_forall₂ (optionRel_toList h) fun _ _ h => h.diagnostics_eq
  cases h with
  | enumMember h => exact flatMap_eq_of_forall₂ h fun _ _ h => h.diagnostics_eq
  | cast ht | isType ht => exact ht.diagnostics_eq
  | record ht | collection ht => exact htypes ht
  | labelRef h => exact h.diagnostics_eq
  | constant | null | path | cond | apply | labeled | malformed => rfl

end views

theorem exprDiagnostics_eq (c : Catalog) (e : ExprRef) :
    c.exprDiagnostics e =
      (c.view e).diagnostics ++ (c.view e).children.flatMap c.exprDiagnostics := by
  rw [exprDiagnostics]
  simp

namespace Matches

variable {T} {c c' : Catalog} (H : c.Matches T c')
include H

section exprs

variable {e e' : ExprRef} (h : AlikeExprs T e e')
include h

/-! ### Nodes -/

theorem arena : c'.arena e' = c.arena e := (H.annotated h.owner).exprs

theorem exprDecl : c'.exprDecl e' = c.exprDecl e := by
  unfold Catalog.exprDecl
  rw [H.arena h, h.place]

theorem operands : List.Forall₂ (AlikeExprs T) (c.operands e) (c'.operands e') := by
  unfold Catalog.operands
  rw [H.arena h, h.place]
  exact forall₂_map_same _ fun _ _ => ⟨h.owner, rfl⟩

theorem exprSchema : Alike T (c.exprSchema e) (c'.exprSchema e') := H.annotationSchema h.owner

theorem malformed? : c'.malformed? e' = c.malformed? e := by
  unfold Catalog.malformed?
  rw [H.exprDecl h, (H.operands h).length_eq]

/-! ### Names -/

theorem exprType {text : Name} (htext : (c.exprDecl e).form.typeName? = some text) :
    TypeReference.Rel (OnHandles T c e.owner.model) (c.exprType e text) (c'.exprType e' text) := by
  unfold Catalog.exprType
  rw [H.exprDecl h]
  exact H.typeReference (H.exprSchema h) text true _ fun _ ht =>
    .exprType ⟨_, h.owner⟩ htext ht

theorem exprType? {text? : Option Name} (htext : (c.exprDecl e).form.typeName? = text?) :
    Option.Rel (TypeReference.Rel (OnHandles T c e.owner.model)) (text?.map (c.exprType e))
      (text?.map (c'.exprType e')) := by
  cases text? with
  | none => exact .none
  | some text => exact .some (H.exprType h htext)

/-- Where there is no such property, the same owner is named. -/
theorem fieldHandle {type? type?' : Option (Element (Declared .type))}
    (htype : Option.Rel (Element.Rel (Alike T)) type? type?') (field : Decl.Binding Decl.Expr) :
    Element.Rel (OnHandles T c e.owner.model) (c.fieldHandle e type? field)
      (c'.fieldHandle e' type?' field) := by
  have hfound := H.bind_handleFor h.owner.model
    (optionRel_bind (optionRel_bind htype fun _ _ ht => ht.declared?)
      fun _ _ ht => H.findProperty? ht field.property)
  unfold Catalog.fieldHandle fieldHandleOf
  cases htype with
  | none => exact Element.rel_ofOption _ hfound
  | some ht =>
    dsimp only
    rw [ht.qualifiedName_eq fun _ _ ht => H.qualifiedName ht]
    exact Element.rel_ofOption _ hfound

theorem memberHandle {path : Name} (hform : (c.exprDecl e).form = .enumMember path)
    {word : List Char} (hword : word ∈ Text.words Text.isBlank path.toList) :
    Element.Rel (fun p p' => OnHandles T c e.owner.model p.1 p'.1 ∧ p'.2 = p.2)
      (c.memberHandle e (String.ofList word)) (c'.memberHandle e' (String.ofList word)) := by
  have hm := h.owner.model
  unfold Catalog.memberHandle
  rw [H.exprDecl h]
  refine Element.rel_ofOption _ ?_
  cases hsplit : splitPath (String.ofList word) with
  | none => exact .none
  | some names =>
    obtain ⟨typeName, member⟩ := names
    dsimp only [Option.bind_eq_bind, Option.bind_some]
    have hreference := H.resolve? (H.exprSchema h) (.enumMember ⟨_, h.owner⟩ hform hword hsplit)
    refine optionRel_bind hreference ?_
    intro x x' hx
    rw [H.memberDecls (H.locate hm hx)]
    cases (c.memberDecls (c.locate e.owner.model x)).findIdx? (·.name = member) with
    | none => exact .none
    | some place => exact .some ⟨hx, rfl⟩

theorem labelTarget (name : Name) :
    Element.Rel (AlikeExprs T) (c.labelTarget e name) (c'.labelTarget e' name) := by
  have hs := H.exprSchema h
  unfold Catalog.labelTarget
  dsimp only
  rw [H.exprDecl h, hs.model]
  refine Element.rel_ofOption _ (optionRel_map (H.label? hs.id name) fun _ _ hl => ?_)
  exact ⟨⟨rfl, hl.2.1⟩, hl.2.2⟩

theorem exprReferences :
    ReferencesMatch T c e.owner.model (c.references e) (c'.references e') := by
  unfold Catalog.references
  rw [H.malformed? h, H.exprDecl h]
  cases c.malformed? e with
  | some p => exact .malformed p
  | none =>
    dsimp only
    cases hform : (c.exprDecl e).form with
    | cast typeName _ => exact .type (H.exprType h (by rw [hform]; rfl))
    | isType typeName _ => exact .type (H.exprType h (by rw [hform]; rfl))
    | collection typeName? _ => exact .collection (H.exprType? h (by rw [hform]; rfl))
    | record typeName? properties =>
      have hname : (c.exprDecl e).form.typeName? = typeName? := by rw [hform]; rfl
      have htype := H.exprType? h hname
      exact .record htype (forall₂_map_same _ fun field _ => H.fieldHandle h
        (optionRel_bind htype fun _ _ ht => H.elementOf? h.owner.model ht) field)
    | enumMember path =>
      exact .enumMembers (forall₂_map_same _ fun word hword => H.memberHandle h hform hword)
    | labelRef name => exact .label (H.labelTarget h name)
    | constant | null | path | cond | apply | labeled => exact .none

/-! ### Views -/

theorem viewWith {r r' : ExprReferences} (hr : ReferencesMatch T c e.owner.model r r') :
    ViewsMatch T c e.owner.model (c.viewWith e r) (c'.viewWith e' r') := by
  have hoperands := H.operands h
  have hs := H.exprSchema h
  have hm := h.owner.model
  unfold Catalog.viewWith unresolvedView
  dsimp only
  rw [H.exprDecl h]
  generalize c.operands e = os at hoperands ⊢
  generalize c'.operands e' = os' at hoperands ⊢
  generalize (c.exprDecl e).form = form
  -- operands count where their number is fixed, references where there are names
  cases form with
  | constant kind text => cases hr <;> first | exact .malformed _ | exact .constant _ _ _
  | null => cases hr <;> first | exact .malformed _ | exact .null
  | path segments => cases hr <;> first | exact .malformed _ | exact .path _
  | enumMember =>
    cases hr with
    | enumMembers hmembers =>
      refine .enumMember (forall₂_map hmembers fun _ _ hmember => ?_)
      exact hmember.map fun _ _ hp => ⟨H.locate hm hp.1, hp.2⟩
    | _ => exact .malformed _
  | cond =>
    cases hoperands with
    | nil => cases hr <;> exact .malformed _
    | cons h₁ hrest =>
      cases hrest with
      | nil => cases hr <;> exact .malformed _
      | cons h₂ hrest =>
        cases hrest with
        | nil => cases hr <;> exact .malformed _
        | cons h₃ hrest =>
          cases hrest with
          | nil => cases hr <;> first | exact .malformed _ | exact .cond h₁ h₂ h₃
          | cons => cases hr <;> exact .malformed _
  | cast =>
    cases hr with
    | type ht =>
      cases hoperands with
      | nil => exact .malformed _
      | cons h₁ hrest =>
        cases hrest with
        | nil => exact .cast ht h₁
        | cons => exact .malformed _
    | _ => exact .malformed _
  | isType =>
    cases hr with
    | type ht =>
      cases hoperands with
      | nil => exact .malformed _
      | cons h₁ hrest =>
        cases hrest with
        | nil => exact .isType ht h₁
        | cons => exact .malformed _
    | _ => exact .malformed _
  | record _ properties =>
    cases hr with
    | record ht hfields =>
      have hproperties : List.Forall₂ Eq properties properties :=
        List.forall₂_same.2 fun _ _ => rfl
      refine .record ht (forall₂_map
        (forall₂_zip_zip hproperties (forall₂_zip_zip hoperands hfields)) ?_)
      rintro ⟨d, value, property⟩ ⟨_, value', property'⟩ ⟨rfl, hvalue, hproperty⟩
      exact ⟨rfl, hvalue, H.map_locate hm hproperty⟩
    | _ => exact .malformed _
  | collection =>
    cases hr with
    | collection ht => exact .collection ht hoperands
    | _ => exact .malformed _
  | apply function =>
    have happly : ViewsMatch T c e.owner.model (.apply (c.expand (c.exprSchema e) function) os)
        (.apply (c'.expand (c'.exprSchema e') function) os') := by
      rw [H.expand hs]
      exact .apply _ hoperands
    cases hr <;> first | exact .malformed _ | exact happly
  | labeled name =>
    cases hoperands with
    | nil => cases hr <;> exact .malformed _
    | cons h₁ hrest =>
      cases hrest with
      | nil => cases hr <;> first | exact .malformed _ | exact .labeled name h₁
      | cons => cases hr <;> exact .malformed _
  | labelRef =>
    cases hr with
    | label htarget => exact .labelRef htarget
    | _ => exact .malformed _

theorem view : ViewsMatch T c e.owner.model (c.view e) (c'.view e') :=
  H.viewWith h (H.exprReferences h)

/-- What is wrong with expressions that are alike, and with all that is below them, is the same. -/
theorem exprDiagnostics : c'.exprDiagnostics e' = c.exprDiagnostics e := by
  -- operands lie behind their expression, so there are ever fewer nodes left
  induction hn : c.nodesBehind e using Nat.strong_induction_on generalizing e e' with
  | _ n ih =>
    have hview := H.view h
    rw [exprDiagnostics_eq, exprDiagnostics_eq, hview.diagnostics_eq]
    refine congrArg (_ ++ ·) ?_
    have hbehind (child : ExprRef) (hchild : child ∈ (c.view e).children) :
        c.nodesBehind child < n :=
      hn ▸ c.nodesBehind_lt_of_mem_operands (c.mem_operands_of_mem_children hchild)
    refine flatMap_eq_of_forall₂ ((List.forall₂_and_left _ _).2 ⟨hbehind, hview.children⟩) ?_
    intro child child' hchild
    exact ih _ hchild.1 hchild.2 rfl

end exprs

/-! ### Paths -/

section paths

variable {t t' : Declared .type} (h : Alike T t t')
include h

theorem missingSegment (fail : String → Placeholder) (segment : Name) :
    c'.missingSegment fail t' segment = c.missingSegment fail t segment := by
  unfold Catalog.missingSegment
  rw [H.qualifiedName h]

theorem elementAlong (fail : String → Placeholder) (segment : Name)
    {type? type?' : Option (Element (Declared .type))}
    (htype : Option.Rel (Element.Rel (Alike T)) type? type?') :
    Element.Rel (Alike T) (c.elementAlong fail t segment type?)
      (c'.elementAlong fail t' segment type?') := by
  unfold Catalog.elementAlong
  cases htype with
  | none =>
    dsimp only
    rw [H.qualifiedName h]
    exact .placeholder _
  | some ht => exact ht

theorem pathStep (fail : String → Placeholder) (segment : Name) :
    Element.Rel (Alike T) (c.pathStep fail t segment) (c'.pathStep fail t' segment) := by
  unfold Catalog.pathStep
  rcases optionRel_iff.1 (H.findProperty? h segment) with ⟨hn, hn'⟩ | ⟨p, p', hp, hp', hmatch⟩
  · rw [hn, hn']
    dsimp only
    rcases optionRel_iff.1 (H.findNavigation? h segment) with ⟨hn, hn'⟩ | ⟨n, n', hn, hn', hmatch⟩
    · rw [hn, hn']
      dsimp only
      rw [H.missingSegment h]
      exact .placeholder _
    · rw [hn, hn']
      exact H.navigationTarget hmatch
  · rw [hp, hp']
    exact H.elementAlong h fail segment (H.propertyElement? hmatch)

theorem followPath {m m' : ModelId} (hm : m' = m) (fail : String → Placeholder)
    (segments : List Name) :
    Element.Rel (OnHandles T c m) (c.followPath m fail t segments)
      (c'.followPath m' fail t' segments) := by
  induction segments generalizing t t' with
  | nil => exact .placeholder _
  | cons segment rest ih =>
    cases rest with
    | nil =>
      unfold Catalog.followPath
      rw [H.missingSegment h]
      exact Element.rel_ofOption _ (H.bind_handleFor hm (H.findProperty? h segment))
    | cons next rest =>
      unfold Catalog.followPath
      exact (H.pathStep h fail segment).bind fun _ _ ht => ih ht

end paths

/-- The paths of expressions that are alike lead to properties that are alike. -/
theorem pathTarget {e e' : ExprRef} (h : AlikeExprs T e e') (segments : List Name) :
    Element.Rel (Alike T) (c.pathTarget e segments) (c'.pathTarget e' segments) := by
  have hcontext : Option.Rel (Alike T) (c.exprContext? e) (c'.exprContext? e') :=
    H.contextOf? h.owner
  refine H.map_locate h.owner.model ?_
  unfold pathTargetHandle pathHandle
  rw [H.exprDecl h]
  refine Element.Rel.bind (R := Alike T) ?_ fun t t' ht => H.followPath ht h.owner.model _ _
  unfold pathStart
  cases segments.getLast? with
  | none => exact .placeholder _
  | some last =>
    rcases optionRel_iff.1 hcontext with ⟨hn, hn'⟩ | ⟨t, t', ht, ht', hmatch⟩
    · rw [hn, hn']
      exact .placeholder _
    · rw [ht, ht']
      exact .declared hmatch

end Matches

end Catalog

end Schemata

import Schemata.Expr.Diagnostics
import Schemata.Term

/-!
# Placeholders say what is wrong

The type of a placeholder does not keep it from carrying no diagnostics at all, and then nobody
would hear of it.  No such placeholder is ever made: whatever a reference leads to is *explained*,
that is, it is declared or its placeholder carries diagnostics.  These are of certain classes only
(`DiagnosticCode.isOfPlaceholder`).

So where nothing is reported of an element, it is declared
(`Element.IsExplained.placeholder?_eq_none`), and likewise for references to types.
-/

namespace Schemata

variable {α β : Type} {p : Placeholder}

/-! ### What placeholders carry -/

/-- Whether placeholders carry diagnostics of the class. -/
def DiagnosticCode.isOfPlaceholder : DiagnosticCode → Bool
  | unresolvedTarget | duplicateDeclaration | duplicateMember | invalidName | invalidConstant
  | invalidDefaultValue => false
  | _ => true

/-- The placeholder says what is wrong, with diagnostics of the classes that placeholders carry. -/
def Placeholder.Explains (p : Placeholder) : Prop :=
  p.diagnostics ≠ [] ∧ ∀ d ∈ p.diagnostics, d.code.isOfPlaceholder = true

namespace Placeholder

theorem explains_bad {d : Diagnostic} (hd : d.code.isOfPlaceholder = true) (name : Name) :
    (bad name d).Explains :=
  ⟨List.cons_ne_nil _ _, List.forall_mem_singleton.2 hd⟩

theorem explains_withMessage (kind : PlaceholderKind) (name : Name) (location : Location)
    (message : String) : (withMessage kind name location message).Explains :=
  explains_bad (d := .error kind.code location message) (by cases kind <;> rfl) name

theorem explains_unresolved (kind : PlaceholderKind) (name : Name) (location : Location) :
    (unresolved kind name location).Explains := explains_withMessage ..

theorem explains_cyclic (kind : PlaceholderKind) (name : Name) (location : Location) :
    (cyclic kind name location).Explains := explains_withMessage ..

end Placeholder

/-! ### Elements -/

/-- If a placeholder stands in for the element, it says what is wrong. -/
def Element.IsExplained (e : Element α) : Prop :=
  ∀ p, e.placeholder? = some p → p.Explains

namespace Element

/-- Where nothing is wrong with an element, it is declared. -/
theorem IsExplained.placeholder?_eq_none {e : Element α} (he : e.IsExplained)
    (h : e.diagnostics = []) : e.placeholder? = none := by
  cases e with
  | declared a => rfl
  | placeholder p => exact absurd h (he p rfl).1

theorem IsExplained.isOfPlaceholder {e : Element α} (he : e.IsExplained) :
    ∀ d ∈ e.diagnostics, d.code.isOfPlaceholder = true := by
  cases e with
  | declared a => exact fun d hd => absurd hd List.not_mem_nil
  | placeholder p => exact (he p rfl).2

theorem isExplained_declared (a : α) : (declared a).IsExplained := by
  intro p hp
  cases hp

theorem isExplained_placeholder (hp : p.Explains) :
    (placeholder p : Element α).IsExplained := by
  intro q hq
  cases hq
  exact hp

theorem isExplained_ofOption (hp : p.Explains) (a? : Option α) :
    (ofOption p a?).IsExplained := by
  cases a? with
  | none => exact isExplained_placeholder hp
  | some a => exact isExplained_declared a

theorem IsExplained.map {e : Element α} (he : e.IsExplained) (f : α → β) :
    (e.map f).IsExplained := by
  cases e with
  | declared a => exact isExplained_declared (f a)
  | placeholder p => exact isExplained_placeholder (he p rfl)

theorem IsExplained.bind {e : Element α} {f : α → Element β} (he : e.IsExplained)
    (hf : ∀ a, (f a).IsExplained) : (e.bind f).IsExplained := by
  cases e with
  | declared a => exact hf a
  | placeholder p => exact isExplained_placeholder (he p rfl)

@[simp]
theorem placeholder?_map (e : Element α) (f : α → β) : (e.map f).placeholder? = e.placeholder? := by
  cases e <;> rfl

end Element

/-! ### References to types -/

/-- If there is a placeholder at the bottom of the reference, it says what is wrong. -/
def TypeReference.IsExplained (t : TypeReference) : Prop :=
  ∀ p, t.placeholder? = some p → p.Explains

namespace TypeReference

theorem IsExplained.placeholder?_eq_none {t : TypeReference} (ht : t.IsExplained)
    (h : t.diagnostics = []) : t.placeholder? = none := by
  unfold diagnostics at h
  cases hp : t.placeholder? with
  | none => rfl
  | some p =>
    rw [hp] at h
    exact absurd h (ht p hp).1

theorem IsExplained.isOfPlaceholder {t : TypeReference} (ht : t.IsExplained) :
    ∀ d ∈ t.diagnostics, d.code.isOfPlaceholder = true := by
  unfold diagnostics
  cases hp : t.placeholder? with
  | none => exact fun d hd => absurd hd List.not_mem_nil
  | some p => exact (ht p hp).2

theorem isExplained_of_placeholder?_eq_none {t : TypeReference} (ht : t.placeholder? = none) :
    t.IsExplained := by
  intro p hp
  rw [ht] at hp
  cases hp

theorem isExplained_placeholder (hp : p.Explains) (n : Bool) :
    (placeholder p n).IsExplained := by
  intro q hq
  cases hq
  exact hp

theorem isExplained_ofElement {e : Element (Handle .type)} (he : e.IsExplained) (n : Bool) :
    (ofElement n e).IsExplained := by
  cases e with
  | declared h => exact isExplained_of_placeholder?_eq_none rfl
  | placeholder p => exact isExplained_placeholder (he p rfl) n

end TypeReference

/-! ### Terms that are applied -/

namespace AppliedTerm

variable {τ τ' σ σ' : Type}

/-- The placeholder, if one stands in for the term. -/
def placeholder? : AppliedTerm τ σ → Option Placeholder
  | value term => term.placeholder?
  | type t => t.placeholder?

/-- If a placeholder stands in for the term, it says what is wrong. -/
def IsExplained : AppliedTerm τ σ → Prop
  | value term => term.IsExplained
  | type t => t.IsExplained

theorem IsExplained.placeholder?_eq_none {t : AppliedTerm τ σ} (ht : t.IsExplained)
    (h : t.diagnostics = []) : t.placeholder? = none := by
  cases t with
  | value | type => exact Element.IsExplained.placeholder?_eq_none ht h

@[simp]
theorem placeholder?_map (f : τ → τ') (g : σ → σ') (t : AppliedTerm τ σ) :
    (t.map f g).placeholder? = t.placeholder? := by
  cases t with
  | value | type => exact Element.placeholder?_map _ _

end AppliedTerm

/-! ### What is looked up -/

namespace Catalog

variable (c : Catalog)

theorem isExplained_resolve (s : Declared .schema) (k : SymbolKind) (reference : Name)
    (location : Location) : (c.resolve s k reference location).IsExplained :=
  Element.isExplained_ofOption (Placeholder.explains_unresolved ..) _

theorem isExplained_resolveType (s : Declared .schema) (reference : Name)
    (allowed : List TypeKind) (location : Location) :
    (c.resolveType s reference allowed location).IsExplained := by
  refine (c.isExplained_resolve s .type reference location).bind fun h => ?_
  dsimp only
  split
  · exact Element.isExplained_declared h
  · exact Element.isExplained_placeholder (Placeholder.explains_bad rfl _)

theorem isExplained_referenceOf (s : Declared .schema) (n : Bool) (location : Location)
    (t : TypeSyntax) : (c.referenceOf s n location t).IsExplained := by
  induction t with
  | named name =>
    unfold referenceOf
    split
    · exact TypeReference.isExplained_of_placeholder?_eq_none rfl
    · exact TypeReference.isExplained_ofElement (c.isExplained_resolve _ _ _ _) n
  | collection element ih => exact ih
  | ref entity =>
    cases entity with
    | named name =>
      exact TypeReference.isExplained_ofElement (c.isExplained_resolveType s name _ location) false
    | collection | ref =>
      exact TypeReference.isExplained_placeholder (Placeholder.explains_bad rfl _) n

theorem isExplained_typeReference (s : Declared .schema) (text : Name) (n : Bool)
    (location : Location) : (c.typeReference s text n location).IsExplained := by
  unfold typeReference
  split
  · exact c.isExplained_referenceOf s n location _
  · exact TypeReference.isExplained_placeholder (Placeholder.explains_bad rfl _) n

theorem isExplained_termType (t : Declared .term) : (c.termType t).IsExplained :=
  c.isExplained_typeReference _ _ _ _

/-! ### Types and properties -/

theorem isExplained_propertyType (p : Declared .property) : (c.propertyType p).IsExplained := by
  have hwritten := c.isExplained_typeReference (c.typeSchema (c.declaringType p))
    (c.property p).typeName (c.property p).nullable (c.property p).location
  unfold propertyType
  dsimp only
  split
  · split
    · exact TypeReference.isExplained_placeholder (Placeholder.explains_withMessage ..) _
    · exact TypeReference.isExplained_of_placeholder?_eq_none rfl
  · exact hwritten

variable {c} in
theorem isExplained_of_mem_base? {t : Declared .type} {e : Element (Declared .type)}
    (he : e ∈ c.base? t) : e.IsExplained := by
  obtain ⟨h, hbase, rfl⟩ := Option.map_eq_some_iff.1 he
  obtain ⟨reference, -, rfl⟩ := Option.map_eq_some_iff.1 hbase
  refine ((c.isExplained_resolve _ _ _ _).bind fun h => ?_).map _
  dsimp only
  split
  · exact Element.isExplained_placeholder (Placeholder.explains_bad rfl _)
  · split
    · exact Element.isExplained_placeholder (Placeholder.explains_cyclic ..)
    · exact Element.isExplained_declared h

variable {c} in
theorem isExplained_of_mem_key {t : Declared .type} {e : Element (Declared .property)}
    (he : e ∈ c.key t) : e.IsExplained := by
  obtain ⟨e, hkey, rfl⟩ := List.mem_map.1 he
  unfold keyHandles at hkey
  split at hkey
  · cases hkey
  · obtain ⟨name, -, rfl⟩ := List.mem_map.1 hkey
    exact (Element.isExplained_ofOption (Placeholder.explains_withMessage ..) _).map _

variable {c} in
theorem isExplained_of_mem_underlying? {t : Declared .type} {r : TypeReference}
    (hr : r ∈ c.underlying? t) : r.IsExplained := by
  obtain ⟨body, -, rfl⟩ := Option.map_eq_some_iff.1 hr
  split
  · exact TypeReference.isExplained_of_placeholder?_eq_none rfl
  · split
    · exact TypeReference.isExplained_of_placeholder?_eq_none rfl
    · exact TypeReference.isExplained_placeholder (Placeholder.explains_bad rfl _) _

/-! ### Associations and containers -/

theorem isExplained_navigationAssociation (n : Declared .navigation) :
    (c.navigationAssociation n).IsExplained :=
  (c.isExplained_resolve _ .association _ _).map _

theorem isExplained_sideOfRole (n : Declared .navigation)
    (association : Element (Declared .association)) (role : Name) :
    (c.sideOfRole n association role).IsExplained :=
  Element.isExplained_ofOption (Placeholder.explains_withMessage ..) _

theorem isExplained_endType (e : AssociationEnd) : (c.endType e).IsExplained :=
  (c.isExplained_resolveType _ _ _ _).map _

variable {c} in
theorem isExplained_of_mem_extended? {k : Declared .container} {e : Element (Declared .container)}
    (he : e ∈ c.extended? k) : e.IsExplained := by
  obtain ⟨h, hextended, rfl⟩ := Option.map_eq_some_iff.1 he
  obtain ⟨reference, -, rfl⟩ := Option.map_eq_some_iff.1 hextended
  exact (c.isExplained_resolve _ .container _ _).map _

theorem isExplained_entityType (s : Declared .entitySet) : (c.entityType s).IsExplained :=
  (c.isExplained_resolveType _ _ _ _).map _

theorem isExplained_setAssociation (s : Declared .associationSet) :
    (c.setAssociation s).IsExplained :=
  (c.isExplained_resolve _ .association _ _).map _

variable {c} in
theorem isExplained_of_mem_setEnds {s : Declared .associationSet} {name : Name}
    {e : Element (Declared .entitySet)} (he : (name, e) ∈ c.setEnds s) : e.IsExplained := by
  obtain ⟨d, -, hd⟩ := List.mem_map.1 he
  cases hd
  exact (Element.isExplained_ofOption (Placeholder.explains_unresolved ..) _).map _

/-! ### Annotations -/

theorem isExplained_appliedHandle (a : Declared .annot) : (c.appliedHandle a).IsExplained := by
  unfold appliedHandle
  dsimp only
  split
  · exact c.isExplained_resolve _ .term _ _
  · exact c.isExplained_resolveType _ _ _ _

theorem isExplained_bindingHandle (a : Declared .annot)
    (applied : AppliedTerm (Declared .term) (Declared .type)) (b : Decl.Binding Decl.Expr) :
    (c.bindingHandle a applied b).IsExplained :=
  Element.isExplained_ofOption (Placeholder.explains_withMessage ..) _

theorem isExplained_memberHandle (e : ExprRef) (path : Name) :
    (c.memberHandle e path).IsExplained :=
  Element.isExplained_ofOption (Placeholder.explains_unresolved ..) _

theorem isExplained_labelTarget (e : ExprRef) (name : Name) :
    (c.labelTarget e name).IsExplained :=
  Element.isExplained_ofOption (Placeholder.explains_unresolved ..) _

end Catalog

end Schemata

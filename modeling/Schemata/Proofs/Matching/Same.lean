import Schemata.Proofs.Matching.Expr

/-!
# Where each number is taken for itself

If the matchings take each number of a kind for itself (`IsSame`), elements of that kind that are
alike are equal, and so is whatever is put together from them: what the lifted relations say of two
answers then is that they are the same.
-/

namespace Schemata

/-! ### Lifted relations -/

section lifted

variable {α β : Type} {R : α → α → Prop} {S : β → β → Prop}

theorem eq_of_optionRel {a? b? : Option α} (h : Option.Rel R a? b?) (hR : ∀ a b, R a b → b = a) :
    b? = a? := by
  cases h with
  | none => rfl
  | some h => rw [hR _ _ h]

theorem eq_of_forall₂ {l l' : List α} (h : List.Forall₂ R l l') (hR : ∀ a b, R a b → b = a) :
    l' = l := by
  induction h with
  | nil => rfl
  | cons hab _ ih => rw [hR _ _ hab, ih]

theorem Element.Rel.eq {e e' : Element α} (h : Rel R e e') (hR : ∀ a b, R a b → b = a) :
    e' = e := by
  cases h with
  | declared h => rw [hR _ _ h]
  | placeholder => rfl

theorem AppliedTerm.Rel.eq {a a' : AppliedTerm α β} (h : Rel R S a a')
    (hR : ∀ a b, R a b → b = a) (hS : ∀ a b, S a b → b = a) : a' = a := by
  cases h with
  | value h => rw [h.eq hR]
  | type h => rw [h.eq hS]

theorem TypeReference.Rel.eq {R : Handle .type → Handle .type → Prop} {t t' : TypeReference}
    (h : Rel R t t') (hR : ∀ a b, R a b → b = a) : t' = t := by
  induction h with
  | primitive | placeholder => rfl
  | declared hh => rw [hR _ _ hh]
  | collection _ _ ih | entityReference _ _ ih => rw [ih]

end lifted

namespace Catalog

/-! ### Elements of one kind -/

/-- Elements of the kind are taken for themselves only. -/
def IsSame (T : ModelId → Matching) (k : ElementKind) : Prop :=
  ∀ m {id id' : Id k}, T m k id id' → id' = id

section kind

variable {T : ModelId → Matching} {c : Catalog} {k : ElementKind} {m : ModelId}

theorem IsSame.eq_of_alike (hT : IsSame T k) {x x' : Declared k} (h : Alike T x x') : x' = x := by
  obtain ⟨m, id⟩ := x
  obtain ⟨m', id'⟩ := x'
  obtain ⟨rfl : m' = m, hid⟩ := h
  obtain rfl : id' = id := hT _ hid
  rfl

theorem IsSame.eq_of_rel_alike (hT : IsSame T k) {e e' : Element (Declared k)}
    (h : Element.Rel (Alike T) e e') : e' = e :=
  h.eq fun _ _ => hT.eq_of_alike

theorem IsSame.eq_of_onHandles (hT : IsSame T k) {h h' : Handle k} (hh : OnHandles T c m h h') :
    h' = h := by
  cases hh with
  | own h => rw [hT _ h]
  | referenced => rfl

theorem IsSame.eq_of_alikeEnds (hT : IsSame T .association) {e e' : AssociationEnd}
    (h : AlikeEnds T e e') : e' = e := by
  obtain ⟨a, side⟩ := e
  obtain ⟨a', side'⟩ := e'
  obtain ⟨ha, rfl⟩ := h
  obtain rfl : a' = a := hT.eq_of_alike ha
  rfl

/-- Annotations are not annotated. -/
theorem IsSame.eq_of_alikeTargets (hT : ∀ k, k ≠ .annot → IsSame T k) {e e' : Annotated}
    (h : AlikeTargets T e e') : e' = e := by
  obtain ⟨m, t⟩ := e
  obtain ⟨m', t'⟩ := e'
  obtain ⟨rfl : m' = m, ht⟩ := h
  cases ht with
  | type h => rw [hT .type (by decide) _ h]
  | property h => rw [hT .property (by decide) _ h]
  | navigation h => rw [hT .navigation (by decide) _ h]
  | association h => rw [hT .association (by decide) _ h]
  | term h => rw [hT .term (by decide) _ h]
  | container h => rw [hT .container (by decide) _ h]
  | entitySet h => rw [hT .entitySet (by decide) _ h]

end kind

/-! ### Elements of all kinds -/

/-- In all models each number is taken for itself. -/
def allSame : ModelId → Matching := fun _ => .same

theorem isSame_allSame (k : ElementKind) : IsSame allSame k := fun _ _ _ h => h.symm

variable {c : Catalog} {k : ElementKind} {m : ModelId}

theorem alike_allSame (x : Declared k) : Alike allSame x x := ⟨rfl, rfl⟩

theorem eq_of_alike {x x' : Declared k} (h : Alike allSame x x') : x' = x :=
  (isSame_allSame k).eq_of_alike h

theorem eq_of_rel_alike {e e' : Element (Declared k)} (h : Element.Rel (Alike allSame) e e') :
    e' = e := (isSame_allSame k).eq_of_rel_alike h

theorem OnHandles.eq {h h' : Handle k} (hh : OnHandles allSame c m h h') : h' = h :=
  (isSame_allSame k).eq_of_onHandles hh

theorem AlikeEnds.eq {e e' : AssociationEnd} (h : AlikeEnds allSame e e') : e' = e :=
  (isSame_allSame _).eq_of_alikeEnds h

theorem AlikeExprs.eq {e e' : ExprRef} (h : AlikeExprs allSame e e') : e' = e := by
  obtain ⟨a, place⟩ := e
  obtain ⟨a', place'⟩ := e'
  obtain ⟨ha, rfl⟩ := h
  obtain rfl : a' = a := eq_of_alike ha
  rfl

theorem AlikeMembers.eq {e e' : EnumMember} (h : AlikeMembers allSame e e') : e' = e := by
  obtain ⟨t, i⟩ := e
  obtain ⟨t', i'⟩ := e'
  obtain ⟨ht, rfl⟩ := h
  obtain rfl : t' = t := eq_of_alike ht
  rfl

theorem AlikeFields.eq {f f' : RecordField} (h : AlikeFields allSame f f') : f' = f := by
  obtain ⟨name, value, property⟩ := f
  obtain ⟨name', value', property'⟩ := f'
  obtain ⟨rfl, hvalue, hproperty⟩ := h
  obtain rfl : value' = value := hvalue.eq
  obtain rfl : property' = property := eq_of_rel_alike hproperty
  rfl

/-! ### Views -/

theorem ViewsMatch.eq {v v' : ExprView} (h : ViewsMatch allSame c m v v') : v' = v := by
  have htype {t t' : TypeReference} (ht : TypeReference.Rel (OnHandles allSame c m) t t') :
      t' = t := ht.eq fun _ _ => OnHandles.eq
  have htypes {t? t?' : Option TypeReference}
      (ht : Option.Rel (TypeReference.Rel (OnHandles allSame c m)) t? t?') : t?' = t? :=
    eq_of_optionRel ht fun _ _ => htype
  have hexprs {es es' : List ExprRef} (hes : List.Forall₂ (AlikeExprs allSame) es es') :
      es' = es := eq_of_forall₂ hes fun _ _ => AlikeExprs.eq
  cases h with
  | constant | null | path | malformed => rfl
  | enumMember h => rw [eq_of_forall₂ h fun _ _ h => h.eq fun _ _ => AlikeMembers.eq]
  | cond h₁ h₂ h₃ => rw [h₁.eq, h₂.eq, h₃.eq]
  | cast ht h | isType ht h => rw [htype ht, h.eq]
  | record ht h => rw [htypes ht, eq_of_forall₂ h fun _ _ => AlikeFields.eq]
  | collection ht h => rw [htypes ht, hexprs h]
  | apply _ h => rw [hexprs h]
  | labeled _ h => rw [h.eq]
  | labelRef h => rw [h.eq fun _ _ => AlikeExprs.eq]

end Catalog

end Schemata

import Schemata.Evaluation.Basic
import Schemata.Proofs.Evaluation.Traversal
import Schemata.Proofs.Validation

/-!
# Evaluation after a clean report

An evaluation ends in a diagnostic if it comes upon a name that leads nowhere or an expression that
is not well formed.  It goes from an expression to operands and, at a reference to a label, to an
expression of another annotation; so a set of expressions that is closed under both
(`Catalog.IsSettled`) and has no such expression in it is never left, and no evaluation of one of
them ends in a diagnostic (`IsSettled.isQuiet_eval`).

The expressions of a model are such a set if nothing is reported of the model and its paths lead
somewhere (`evaluate_ne_diagnostic`).
-/

namespace Schemata

/-- The segments, if the expression is a path. -/
def ExprView.path? : ExprView → Option (List Name)
  | path segments => some segments
  | _ => none

/-! ### Computations that do not end in a diagnostic -/

/-- The computation does not end in a diagnostic; it may fail for other reasons. -/
def IsQuiet {α : Type} (x : Except EvalError α) : Prop := ∀ d, x ≠ .error (.diagnostic d)

namespace IsQuiet

variable {α β : Type} {x : Except EvalError α} {f : α → Except EvalError β}

protected theorem ok (a : α) : IsQuiet (.ok a) := by
  intro d h
  cases h

protected theorem error {e : EvalError} (he : ∀ d, e ≠ .diagnostic d) :
    IsQuiet (.error e : Except EvalError α) := fun d h => he d (Except.error.inj h)

protected theorem bind (hx : IsQuiet x) (hf : ∀ a, IsQuiet (f a)) : IsQuiet (x >>= f) := by
  intro d h
  cases x with
  | ok a => exact hf a d h
  | error e =>
    obtain rfl : e = .diagnostic d := Except.error.inj h
    exact hx d rfl

protected theorem mapM {l : List α} (hf : ∀ a ∈ l, IsQuiet (f a)) : IsQuiet (l.mapM f) := by
  intro d h
  obtain ⟨a, ha, hd⟩ := exists_mem_of_mapM_eq_error h
  exact hf a ha d hd

end IsQuiet

/-- No function of the evaluator ends in a diagnostic. -/
def Evaluator.IsQuiet (ev : Evaluator) : Prop :=
  ∀ name f, ev.function? name = some f → ∀ arguments, Schemata.IsQuiet (f arguments)

theorem isQuiet_concat (arguments : List Value) : IsQuiet (Evaluator.concat arguments) := by
  refine (IsQuiet.mapM fun v _ => ?_).bind fun pieces => .ok _
  cases v with
  | null | primitive => exact .ok _
  | enum | record | collection => exact .error fun d hd => by cases hd

theorem isQuiet_encode (arguments : List Value) : IsQuiet (Evaluator.encode arguments) := by
  unfold Evaluator.encode
  split
  · exact .ok _
  · exact .error fun d hd => by cases hd

theorem isQuiet_standard : Evaluator.standard.IsQuiet := by
  intro name f hf arguments
  simp only [Evaluator.function?, Evaluator.standard, Evaluator.register, Evaluator.empty,
    List.lookup_cons, List.lookup_nil] at hf
  split at hf
  · cases hf
    exact isQuiet_encode arguments
  · split at hf
    · cases hf
      exact isQuiet_concat arguments
    · cases hf

theorem isQuiet_readPath (value : Value) (segments : List Name) :
    IsQuiet (Catalog.readPath value segments) := by
  induction segments generalizing value with
  | nil => exact .ok value
  | cons segment rest ih =>
    unfold Catalog.readPath
    split
    · split
      · exact ih _
      · exact .ok _
    · exact .ok _
    · exact .error fun d hd => by cases hd

namespace Catalog

variable {c : Catalog} {m : ModelId} {e : ExprRef}

theorem isQuiet_combine {members : List (Element EnumMember)}
    (h : ∀ member ∈ members, member.placeholder? = none) : IsQuiet (c.combine members) := by
  refine (IsQuiet.mapM fun member hmember => ?_).bind fun ms => .ok _
  have hnone := h member hmember
  cases member with
  | declared member => exact .ok member
  | placeholder p => cases hnone

/-! ### Types -/

theorem isQuiet_hasType {type : TypeReference} (h : type.placeholder? = none) (value : Value) :
    IsQuiet (c.hasType m value type) := by
  induction type generalizing value with
  | placeholder p n => cases h
  | collection element n ih =>
    unfold hasType
    rw [h]
    cases value with
    | collection items => exact (IsQuiet.mapM fun item _ => ih h item).bind fun bs => .ok _
    | null | primitive | enum | record => exact .ok _
  | primitive | declared | entityReference =>
    unfold hasType
    rw [h]
    cases value <;> exact .ok _

theorem isQuiet_convert {type : TypeReference} (h : type.placeholder? = none) (value : Value) :
    IsQuiet (c.convert m value type) := by
  have hfail : IsQuiet (.error (.invalidCast value type) : Except EvalError Value) :=
    .error fun d hd => by cases hd
  unfold convert
  rw [h]
  dsimp only
  split
  · exact .ok _
  · split
    · exact .ok _
    · exact hfail
  · exact hfail
  · refine (isQuiet_hasType h _).bind fun b => ?_
    cases b
    · exact hfail
    · exact .ok _

/-! ### Sets of expressions that evaluation does not leave -/

variable (c) in
/-- All expressions of the set are resolved, paths included, and so are those that evaluation goes
on to, for they are in the set too. -/
structure IsSettled (s : ExprRef → Prop) : Prop where
  view : ∀ e, s e → (c.view e).IsResolved
  path : ∀ e, s e → ∀ segments ∈ (c.view e).path?, (c.pathTarget e segments).placeholder? = none
  child : ∀ e, s e → ∀ child ∈ (c.view e).children, s child
  label : ∀ e, s e → ∀ target, c.view e = .labelRef (.declared target) → s target

namespace IsSettled

variable {s : ExprRef → Prop} (hs : c.IsSettled s)
include hs

theorem isResolved_of_view {v : ExprView} (he : s e) (hv : c.view e = v) : v.IsResolved :=
  hv ▸ hs.view e he

theorem child_of_view {v : ExprView} (he : s e) (hv : c.view e = v) {child : ExprRef}
    (h : child ∈ v.children) : s child :=
  hs.child e he child (hv ▸ h)

/-- **Progress.**  No evaluation of an expression of the set ends in a diagnostic, if no function
does. -/
theorem isQuiet_eval {ev : Evaluator} (hev : ev.IsQuiet) (context : Value) (stack : List Name)
    (he : s e) : IsQuiet (c.eval ev context stack e) := by
  fun_induction eval
  case case1 => exact .ok _
  case case2 hv =>
    -- the text of a constant is a literal
    obtain ⟨v, hvalue⟩ := hs.isResolved_of_view he hv
    cases hvalue
  case case3 => exact .ok _
  case case4 segments hv p hpath =>
    have hnone := hs.path _ he segments (by rw [hv]; rfl)
    rw [hpath] at hnone
    cases hnone
  case case5 => exact isQuiet_readPath _ _
  case case6 hv => exact isQuiet_combine (hs.isResolved_of_view he hv)
  case case7 test ifTrue ifFalse hv htest htrue hfalse =>
    refine (htest (hs.child_of_view he hv (by simp [ExprView.children]))).bind fun outcome => ?_
    -- only the branch that is chosen is evaluated
    split
    · exact htrue (hs.child_of_view he hv (by simp [ExprView.children]))
    · exact hfalse (hs.child_of_view he hv (by simp [ExprView.children]))
    · exact .error fun d hd => by cases hd
  case case8 hv hoperand =>
    refine (hoperand (hs.child_of_view he hv List.mem_cons_self)).bind fun value => ?_
    exact isQuiet_convert (hs.isResolved_of_view he hv) value
  case case9 hv hoperand =>
    refine (hoperand (hs.child_of_view he hv List.mem_cons_self)).bind fun value => ?_
    exact (isQuiet_hasType (hs.isResolved_of_view he hv) value).bind fun b => .ok _
  -- operands are evaluated one after another, and the first failure ends it
  case case10 fields hv _ hfields =>
    refine (IsQuiet.mapM fun field _ => ?_).bind fun values => .ok _
    have hvalue := hfields field.1 field.2
      (hs.child_of_view he hv (List.mem_map_of_mem field.2))
    exact hvalue.bind fun value => .ok _
  case case11 hv helements =>
    refine (IsQuiet.mapM fun element _ => ?_).bind fun values => .ok _
    exact helements element.1 element.2 (hs.child_of_view he hv element.2)
  case case12 => exact .error fun d hd => by cases hd
  case case13 hv f hf harguments =>
    refine (IsQuiet.mapM fun argument _ => ?_).bind fun values => hev _ f hf values
    exact harguments argument.1 argument.2 (hs.child_of_view he hv argument.2)
  case case14 => exact .error fun d hd => by cases hd
  case case15 hv _ hoperand => exact hoperand (hs.child_of_view he hv List.mem_cons_self)
  case case16 target hv htarget => exact htarget (hs.label _ he target hv)
  -- no label is missing and nothing is malformed
  case case17 hv => cases hs.isResolved_of_view he hv
  case case18 hv => cases hs.isResolved_of_view he hv

end IsSettled

/-! ### The expressions of a model -/

/-- Labels are found on expressions only. -/
theorem mem_nodesOf_of_isLabeled (h : c.isLabeled e = true) :
    e.owner ∈ c.elements e.owner.model .annot ∧ e ∈ c.nodesOf e.owner := by
  unfold isLabeled at h
  split at h
  case h_2 => cases h
  case h_1 name ops hform =>
    obtain ⟨owner, howner, hlabel⟩ := List.mem_flatMap.1 (c.mem_labels hform)
    obtain ⟨⟨node, place⟩, hplace, hlabel⟩ := List.mem_filterMap.1 hlabel
    dsimp only at hlabel
    split at hlabel
    case h_2 => cases hlabel
    case h_1 =>
      cases hlabel
      have hlt := (List.getElem?_eq_some_iff.1 (List.mem_zipIdx_iff_getElem?.1 hplace)).1
      rw [Array.length_toList] at hlt
      refine ⟨c.mem_elements.2 ⟨rfl, Id.mem_upTo.1 (List.mem_filter.1 howner).1⟩, ?_⟩
      exact mem_nodesOf.2 ⟨rfl, hlt⟩

/-- The expressions of a model are resolved and evaluation does not leave them. -/
theorem isSettled_of_validate (hc : c.IsBuilt) (h : c.validate m = [])
    (hpath : ∀ a ∈ c.elements m .annot, ∀ e ∈ c.nodesOf a, ∀ segments ∈ (c.view e).path?,
      (c.pathTarget e segments).placeholder? = none) :
    c.IsSettled fun e => e.owner ∈ c.elements m .annot ∧ e ∈ c.nodesOf e.owner := by
  obtain ⟨-, -, -, -, -, -, -, -, -, -, hannot⟩ := validate_eq_nil_iff.1 h
  constructor
  case view => exact fun e ⟨ha, he⟩ => hc.isResolved_view_of_mem ha (hannot _ ha) he
  case path => exact fun e ⟨ha, he⟩ => hpath _ ha e he
  case child =>
    intro e ⟨ha, he⟩ child hchild
    have hoperand := c.mem_operands_of_mem_children hchild
    refine ⟨?_, mem_nodesOf_of_mem_operands hoperand⟩
    rwa [c.owner_of_mem_operands hoperand]
  case label =>
    intro e ⟨ha, he⟩ target hv
    -- labels are looked for in the schema of the reference, so in the same model
    obtain ⟨hschema, hlabeled⟩ := c.of_view_labelRef hv
    have hmodel : target.owner.model = e.owner.model :=
      congrArg (fun s : Declared .schema => s.model) hschema
    obtain ⟨hmem, htarget⟩ := mem_nodesOf_of_isLabeled hlabeled
    rw [hmodel, (c.mem_elements.1 ha).1] at hmem
    exact ⟨hmem, htarget⟩

/-- **No diagnostic comes up late.**  If nothing is reported of a model and its paths lead
somewhere, no value of an annotation and no expression below one ends in a diagnostic, whatever it
is evaluated on. -/
theorem evaluate_ne_diagnostic (hc : c.IsBuilt) (h : c.validate m = [])
    (hpath : ∀ a ∈ c.elements m .annot, ∀ e ∈ c.nodesOf a, ∀ segments ∈ (c.view e).path?,
      (c.pathTarget e segments).placeholder? = none) :
    ∀ a ∈ c.elements m .annot, ∀ e, e ∈ c.values a ∨ e ∈ c.nodesOf a → ∀ context d,
      c.evaluate .standard context e ≠ .error (.diagnostic d) := by
  intro a ha e he context d
  have hnode : e ∈ c.nodesOf a := he.elim (hc.mem_nodesOf_of_mem_values ha) id
  have howner : e.owner = a := (mem_nodesOf.1 hnode).1
  have hsettled := isSettled_of_validate hc h hpath
  exact hsettled.isQuiet_eval isQuiet_standard context [] ⟨by rwa [howner], by rwa [howner]⟩ d

/-- The title of an order reads a property of it by a path. -/
theorem evaluate_ne_diagnostic_orders :
    orders.validate 2 = [] ∧
      (∀ a ∈ orders.elements 2 .annot, ∀ e ∈ orders.nodesOf a, ∀ segments ∈ (orders.view e).path?,
        (orders.pathTarget e segments).placeholder? = none) ∧
      (orders.view ⟨⟨2, ⟨0⟩⟩, 2⟩).path? = some ["Note"] ∧
      ∀ context d, orders.evaluate .standard context ⟨⟨2, ⟨0⟩⟩, 0⟩ ≠ .error (.diagnostic d) := by
  have h : orders.validate 2 = [] := by decide +kernel
  have hpath : ∀ a ∈ orders.elements 2 .annot, ∀ e ∈ orders.nodesOf a,
      ∀ segments ∈ (orders.view e).path?,
        (orders.pathTarget e segments).placeholder? = none := by decide +kernel
  refine ⟨h, hpath, by decide +kernel, ?_⟩
  exact evaluate_ne_diagnostic isBuilt_orders h hpath ⟨2, ⟨0⟩⟩ (by decide +kernel) _
    (.inr (by decide +kernel))

end Catalog

end Schemata

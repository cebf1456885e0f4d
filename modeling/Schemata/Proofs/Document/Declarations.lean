import Schemata.Proofs.Document.Codec

/-!
# Codecs of the declarations

Every declaration form has a codec, from positions (`isCodec_position`) up to schemas
(`isCodec_schema`).  A form that writes fields is one application of `IsCodec.ofFields`, which
leaves two things to show: the values that are written are decoded, and values that are decoded,
from wherever, fit when they are written.

An expression is decoded at a depth by what is decoded at smaller ones, so its codec is an induction
on the depth and not on the expression (`isCodec_expr`).
-/

namespace Schemata.Document

open Decl Json

/-! ### Values without parts -/

theorem decodeNat_number (limit : Nat) (literal : String) :
    decodeNat limit (.number literal) =
      (Number.digits? literal.toList).filter (· ≤ limit) := by
  unfold decodeNat Number.digits?
  dsimp only
  split
  · rw [Option.filter_some]
    simp only [decide_eq_true_eq]
  · rfl

theorem decodeNat_nat {limit n : Nat} :
    decodeNat limit (nat n) = if n ≤ limit then some n else none := by
  rw [nat, decodeNat_number, digits?_toString, Option.filter_some]
  simp only [decide_eq_true_eq]

theorem isCodec_index (d : Nat) : IsCodec d decodeIndex nat where
  decode_encode_eq_some_iff a b := by
    rw [fits_nat, decodeIndex, decodeNat_nat, Option.ite_none_right_eq_some, Option.some_inj]
    exact and_congr_left fun _ => by omega
  fits_of_decode j a h := by
    cases j with
    | number literal =>
      rw [decodeIndex, decodeNat_number] at h
      have hle := of_decide_eq_true (Option.filter_eq_some_iff.1 h).2
      rw [fits_nat]
      omega
    | _ => cases h

theorem isCodec_text (d : Nat) : IsCodec d decodeText text where
  decode_encode_eq_some_iff a b := by simp
  fits_of_decode _ a _ := fits_text d a

@[simp]
theorem emptyAlternative_text (d : Nat) (name : String) :
    emptyAlternative d (text name) = some name := by
  cases d <;> rfl

@[simp]
theorem ofName?_name (m : Multiplicity) : Multiplicity.ofName? m.name = some m := by
  cases m <;> rfl

@[simp]
theorem constantKind_ofName?_name (kind : ConstantKind) :
    ConstantKind.ofName? kind.name = some kind := by
  cases kind <;> rfl

/-! ### Locations -/

theorem isCodec_position (d : Nat) : IsCodec d (decodePosition d) encodePosition := by
  refine .ofFields (fun _ => rfl) (fun _ => rfl) (fun _ _ => rfl) (fun _ => rfl) (by decide)
    (fun d _ ⟨line, column⟩ p => ?_) (fun d _ values p h => ?_)
  · simp [Option.bind_eq_some_iff, (isCodec_index d).decode_encode_eq_some_iff, and_assoc]
  · split at h <;> simp only [Option.bind_eq_bind, Option.bind_eq_some_iff, Option.pure_def,
      Option.some.injEq, reduceCtorEq] at h
    obtain ⟨line, hline, column, hcolumn, rfl⟩ := h
    simp [(isCodec_index d).fits_of_required hline, (isCodec_index d).fits_of_required hcolumn]

/-- A span, as it stands in a location. -/
def encodeSpan (s : Span) : Json :=
  .ofMembers [("start", encodePosition s.start), ("end", encodePosition s.stop)]

theorem isCodec_span (d : Nat) : IsCodec d (decodeSpan d) encodeSpan := by
  refine .ofFields (fun _ => rfl) (fun _ => rfl) (fun _ _ => rfl) (fun _ => rfl) (by decide)
    (fun d _ ⟨start, stop⟩ s => ?_) (fun d _ values s h => ?_)
  · simp [Option.bind_eq_some_iff, (isCodec_position d).decode_encode_eq_some_iff, and_assoc]
  · split at h <;> simp only [Option.bind_eq_bind, Option.bind_eq_some_iff, Option.pure_def,
      Option.some.injEq, reduceCtorEq] at h
    obtain ⟨start, hstart, stop, hstop, rfl⟩ := h
    simp [(isCodec_position d).fits_of_required hstart, (isCodec_position d).fits_of_required hstop]

theorem encodeLocation_eq (l : Location) :
    encodeLocation l =
      .ofMembers [("document", text l.document), ("span", encodeSpan l.span)] := rfl

theorem isCodec_location (d : Nat) : IsCodec d (decodeLocation d) encodeLocation := by
  refine .ofFields encodeLocation_eq (fun _ => rfl) (fun _ _ => rfl) (fun _ => rfl) (by decide)
    (fun d _ ⟨document, span⟩ l => ?_) (fun d _ values l h => ?_)
  · simp [Option.bind_eq_some_iff, (isCodec_span d).decode_encode_eq_some_iff]
  · split at h <;> simp only [Option.bind_eq_bind, Option.bind_eq_some_iff, Option.pure_def,
      Option.some.injEq, reduceCtorEq] at h
    obtain ⟨document, -, span, hs, rfl⟩ := h
    simp [(isCodec_span d).fits_of_required hs]

/-! ### Expressions -/

/-- An assignment. -/
def encodeBinding (b : Binding Expr) : Json :=
  .ofMembers
    [("property", .text b.property), ("expr", encodeExpr b.value),
      ("location", encodeLocation b.location)]

theorem array_encodeExprs (es : List Expr) :
    array (encodeExprs es) = encodeList encodeExpr es := by
  induction es with
  | nil => rfl
  | cons e es ih =>
    rw [encodeList, array.injEq] at ih
    rw [encodeExprs, ih, encodeList, List.map_cons]

theorem array_encodeBindings (bs : List (Binding Expr)) :
    array (encodeBindings bs) = encodeList encodeBinding bs := by
  induction bs with
  | nil => rfl
  | cons b bs ih =>
    rw [encodeList, array.injEq] at ih
    rw [encodeBindings, ih, encodeList, List.map_cons, encodeBinding]

theorem decodeExprs_eq (d : Nat) : decodeExprs d = decodeList decodeExpr d := by
  funext j
  cases d <;> cases j <;> rfl

theorem decodeBindings_eq (d : Nat) : decodeBindings d = decodeList decodeBinding d := by
  funext j
  cases d <;> cases j <;> rfl

section

variable {d : Nat} (h : ∀ d' < d, IsCodec d' (decodeExpr d') encodeExpr)
include h

theorem isCodec_binding_of_lt : IsCodec d (decodeBinding d) encodeBinding := by
  refine .ofFields (fun _ => rfl) (fun _ => rfl) (fun _ _ => rfl) (fun _ => rfl) (by decide)
    (fun d hd ⟨property, value, location⟩ b => ?_) (fun d hd values b hvalues => ?_)
  · simp [Option.bind_eq_some_iff, (h d hd).decode_encode_eq_some_iff,
      (isCodec_location d).decode_encode_eq_some_iff, and_assoc]
  · split at hvalues <;> simp only [Option.bind_eq_bind, Option.bind_eq_some_iff, Option.pure_def,
      Option.some.injEq, reduceCtorEq] at hvalues
    obtain ⟨_, -, value, hv, location, hl, rfl⟩ := hvalues
    simp [(h d hd).fits_of_required hv, (isCodec_location d).fits_of_required hl]

theorem isCodec_exprs_of_lt : IsCodec d (decodeExprs d) fun es => array (encodeExprs es) := by
  simp only [decodeExprs_eq, array_encodeExprs]
  exact isCodec_list_of_lt h

theorem isCodec_bindings_of_lt :
    IsCodec d (decodeBindings d) fun bs => array (encodeBindings bs) := by
  simp only [decodeBindings_eq, array_encodeBindings]
  exact isCodec_list_of_lt fun _ hd =>
    isCodec_binding_of_lt fun d' hd' => h d' (Nat.lt_trans hd' hd)

/-- A form is read back.  Its content is decoded one level further in; where the content is an
object with operands, these are decoded two levels further in. -/
theorem decode_encodeForm_eq_some_iff (form form' : ExprForm Expr) :
    decodeForm d (encodeForm form) = some form' ↔ (encodeForm form).Fits d ∧ form = form' := by
  have hexprs : ∀ e < d, IsCodec e (decodeExprs e) fun es => array (encodeExprs es) := fun e he =>
    isCodec_exprs_of_lt fun d' hd => h d' (Nat.lt_trans hd he)
  have hbindings : ∀ e < d, IsCodec e (decodeBindings e) fun bs => array (encodeBindings bs) :=
    fun e he => isCodec_bindings_of_lt fun d' hd => h d' (Nat.lt_trans hd he)
  cases form with
  | constant kind s =>
    refine decode_tagged_eq_some_iff decodeForm rfl fun d₁ h₁ => ?_
    refine decode_ofMembers_eq_some_iff decodeConstant (fun _ => rfl) (fun _ _ => rfl) rfl
      (by decide) fun d₂ h₂ => ?_
    simp
  | null =>
    have hnull : decodeForm d (text "Null") = some .null := by cases d <;> rfl
    rw [encodeForm, hnull]
    simp
  | path segments =>
    exact decode_tagged_eq_some_iff decodeForm rfl fun d₁ _ =>
      (isCodec_list isCodec_text d₁).map_eq_some_iff
  | enumMember path =>
    exact decode_tagged_eq_some_iff decodeForm rfl fun d₁ _ =>
      (isCodec_text d₁).map_eq_some_iff
  | cond operands =>
    exact decode_tagged_eq_some_iff decodeForm rfl fun d₁ h₁ =>
      (hexprs d₁ h₁).map_eq_some_iff
  | cast typeName operands =>
    refine decode_tagged_eq_some_iff decodeForm rfl fun d₁ h₁ => ?_
    refine decode_ofMembers_eq_some_iff (decodeCompound "Cast") (fun _ => rfl) (fun _ _ => rfl) rfl
      (by decide) fun d₂ h₂ => ?_
    simp [Option.bind_eq_some_iff, (hexprs d₂ (Nat.lt_trans h₂ h₁)).decode_encode_eq_some_iff]
  | isType typeName operands =>
    refine decode_tagged_eq_some_iff decodeForm rfl fun d₁ h₁ => ?_
    refine decode_ofMembers_eq_some_iff (decodeCompound "IsType") (fun _ => rfl) (fun _ _ => rfl)
      rfl (by decide) fun d₂ h₂ => ?_
    simp [Option.bind_eq_some_iff, (hexprs d₂ (Nat.lt_trans h₂ h₁)).decode_encode_eq_some_iff]
  | record typeName properties =>
    refine decode_tagged_eq_some_iff decodeForm rfl fun d₁ h₁ => ?_
    refine decode_ofMembers_eq_some_iff (decodeCompound "Record") (fun _ => rfl) (fun _ _ => rfl)
      rfl (by decide) fun d₂ h₂ => ?_
    simp [Option.bind_eq_some_iff, (hbindings d₂ (Nat.lt_trans h₂ h₁)).decode_encode_eq_some_iff]
  | collection typeName elements =>
    refine decode_tagged_eq_some_iff decodeForm rfl fun d₁ h₁ => ?_
    refine decode_ofMembers_eq_some_iff (decodeCompound "Collection") (fun _ => rfl)
      (fun _ _ => rfl) rfl (by decide) fun d₂ h₂ => ?_
    simp [Option.bind_eq_some_iff, (hexprs d₂ (Nat.lt_trans h₂ h₁)).decode_encode_eq_some_iff]
  | apply function arguments =>
    refine decode_tagged_eq_some_iff decodeForm rfl fun d₁ h₁ => ?_
    refine decode_ofMembers_eq_some_iff (decodeCompound "Apply") (fun _ => rfl) (fun _ _ => rfl)
      rfl (by decide) fun d₂ h₂ => ?_
    simp [Option.bind_eq_some_iff, (hexprs d₂ (Nat.lt_trans h₂ h₁)).decode_encode_eq_some_iff]
  | labeled name operands =>
    refine decode_tagged_eq_some_iff decodeForm rfl fun d₁ h₁ => ?_
    refine decode_ofMembers_eq_some_iff (decodeCompound "LabeledElement") (fun _ => rfl)
      (fun _ _ => rfl) rfl (by decide) fun d₂ h₂ => ?_
    simp [Option.bind_eq_some_iff, (hexprs d₂ (Nat.lt_trans h₂ h₁)).decode_encode_eq_some_iff]
  | labelRef name =>
    exact decode_tagged_eq_some_iff decodeForm rfl fun d₁ _ =>
      (isCodec_text d₁).map_eq_some_iff

omit h in
theorem fits_of_decodeConstant {j : Json} {form : ExprForm Expr}
    (hj : decodeConstant d j = some form) : (encodeForm form).Fits (d + 1) := by
  obtain ⟨d, values, rfl, hvalues⟩ := exists_of_decode decodeConstant (fun _ => rfl)
    (fun _ _ => rfl) hj
  split at hvalues <;> simp only [Option.bind_eq_bind, Option.bind_eq_some_iff, Option.pure_def,
    Option.some.injEq, reduceCtorEq] at hvalues
  obtain ⟨tag, -, kind, -, s, -, rfl⟩ := hvalues
  simp [encodeForm]

/-- What is decoded as the name and the operands of a form fits when the form is encoded. -/
theorem fits_of_decodeCompound {tag : String} {j : Json} {form : ExprForm Expr}
    (hj : decodeCompound tag d j = some form) : (encodeForm form).Fits (d + 1) := by
  cases d with
  | zero => simp [decodeCompound] at hj
  | succ d =>
    have hexprs := isCodec_exprs_of_lt fun d' hd => h d' (Nat.lt_succ_of_lt hd)
    have hbindings := isCodec_bindings_of_lt fun d' hd => h d' (Nat.lt_succ_of_lt hd)
    rw [decodeCompound.eq_def] at hj
    dsimp only at hj
    split at hj <;> simp only [Option.bind_eq_bind, Option.bind_eq_some_iff, reduceCtorEq] at hj
    all_goals
      obtain ⟨values, -, hvalues⟩ := hj
      split at hvalues <;> simp only [Option.bind_eq_some_iff, Option.pure_def, Option.some.injEq,
        reduceCtorEq] at hvalues
      obtain ⟨name, -, operands, hoperands, rfl⟩ := hvalues
      first
      | have hfits := hexprs.fits_of_required hoperands
        simp [encodeForm, hfits]
      | have hfits := hbindings.fits_of_required hoperands
        simp [encodeForm, hfits]

/-- What is decoded as a form fits when it is encoded. -/
theorem fits_of_decodeForm {j : Json} {form : ExprForm Expr}
    (hj : decodeForm d j = some form) : (encodeForm form).Fits d := by
  unfold decodeForm at hj
  split at hj
  case h_1 =>
    cases hj
    exact fits_text _ _
  case h_2 j d _ =>
    have hexprs := isCodec_exprs_of_lt fun d' hd => h d' (Nat.lt_succ_of_lt hd)
    obtain ⟨⟨tag, content⟩, -, hcontent⟩ := Option.bind_eq_some_iff.1 hj
    dsimp only at hcontent
    split at hcontent
    case h_1 =>
      split at hcontent
      · cases hcontent
        exact fits_text _ _
      · cases hcontent
    case h_2 => exact fits_of_decodeConstant hcontent
    case h_3 =>
      obtain ⟨segments, hsegments, rfl⟩ := (isCodec_list isCodec_text d).exists_of_map hcontent
      rwa [encodeForm, fits_tagged_succ]
    case h_4 =>
      obtain ⟨path, hpath, rfl⟩ := (isCodec_text d).exists_of_map hcontent
      rwa [encodeForm, fits_tagged_succ]
    case h_5 =>
      obtain ⟨operands, hoperands, rfl⟩ := hexprs.exists_of_map hcontent
      rwa [encodeForm, fits_tagged_succ]
    case h_6 =>
      obtain ⟨name, hname, rfl⟩ := (isCodec_text d).exists_of_map hcontent
      rwa [encodeForm, fits_tagged_succ]
    case h_7 => exact fits_of_decodeCompound (fun d' hd => h d' (Nat.lt_succ_of_lt hd)) hcontent
  case h_3 => cases hj

theorem isCodec_form_of_lt : IsCodec d (decodeForm d) encodeForm where
  decode_encode_eq_some_iff := decode_encodeForm_eq_some_iff h
  fits_of_decode _ _ hj := fits_of_decodeForm h hj

end

theorem isCodec_expr (d : Nat) : IsCodec d (decodeExpr d) encodeExpr := by
  induction d using Nat.strongRecOn with
  | ind d ih =>
    have hform : ∀ e < d, IsCodec e (decodeForm e) encodeForm := fun e he =>
      isCodec_form_of_lt fun d' hd => ih d' (Nat.lt_trans hd he)
    have hencode : ∀ e : Expr, encodeExpr e = .ofMembers
        [("kind", encodeForm e.form), ("location", encodeLocation e.location)] := by
      rintro ⟨form, location⟩
      rw [encodeExpr, Expr.form, Expr.location]
    refine .ofFields hencode (fun _ => rfl) (fun _ _ => rfl) (fun _ => rfl) (by decide)
      (fun d hd e e' => ?_) (fun d hd values e hvalues => ?_)
    · obtain ⟨form, location⟩ := e
      simp [Expr.form, Expr.location, Option.bind_eq_some_iff,
        (hform d hd).decode_encode_eq_some_iff, (isCodec_location d).decode_encode_eq_some_iff,
        and_assoc]
    · split at hvalues <;> simp only [Option.bind_eq_bind, Option.bind_eq_some_iff,
        Option.pure_def, Option.some.injEq, reduceCtorEq] at hvalues
      obtain ⟨form, hf, location, hl, rfl⟩ := hvalues
      simp [Expr.form, Expr.location, (hform d hd).fits_of_required hf,
        (isCodec_location d).fits_of_required hl]

theorem isCodec_bindings (d : Nat) :
    IsCodec d (decodeBindings d) fun bs => array (encodeBindings bs) :=
  isCodec_bindings_of_lt fun d' _ => isCodec_expr d'

/-! ### Annotations -/

theorem fits_of_decodeValueAnnotation {d : Nat} {j : Json} {a : Annotation}
    (hj : decodeValueAnnotation d j = some a) : encodeAnnotation a |>.Fits (d + 1) := by
  obtain ⟨d, values, rfl, hvalues⟩ := exists_of_decode decodeValueAnnotation (fun _ => rfl)
    (fun _ _ => rfl) hj
  split at hvalues <;> simp only [Option.bind_eq_bind, Option.bind_eq_some_iff, Option.pure_def,
    Option.some.injEq, reduceCtorEq] at hvalues
  obtain ⟨term, -, qualifier, -, expr, he, location, hl, rfl⟩ := hvalues
  simp [(isCodec_expr d).fits_of_required he, (isCodec_location d).fits_of_required hl,
    encodeAnnotation]

theorem fits_of_decodeTypeAnnotation {d : Nat} {j : Json} {a : Annotation}
    (hj : decodeTypeAnnotation d j = some a) : encodeAnnotation a |>.Fits (d + 1) := by
  obtain ⟨d, values, rfl, hvalues⟩ := exists_of_decode decodeTypeAnnotation (fun _ => rfl)
    (fun _ _ => rfl) hj
  split at hvalues <;> simp only [Option.bind_eq_bind, Option.bind_eq_some_iff, Option.pure_def,
    Option.some.injEq, reduceCtorEq] at hvalues
  obtain ⟨term, -, qualifier, -, bindings, hb, location, hl, rfl⟩ := hvalues
  have hbindings := (isCodec_bindings d).fits_of_required hb
  simp [hbindings, encodeAnnotation, (isCodec_location d).fits_of_required hl]

theorem isCodec_annotation (d : Nat) :
    IsCodec d (fun j => decodeAnnotation d j) encodeAnnotation where
  decode_encode_eq_some_iff a a' := by
    obtain ⟨term, qualifier, content, location⟩ := a
    cases content with
    | value expr =>
      refine decode_tagged_eq_some_iff decodeAnnotation rfl fun d₁ _ => ?_
      refine decode_ofMembers_eq_some_iff decodeValueAnnotation (fun _ => rfl) (fun _ _ => rfl) rfl
        (by decide) fun d₂ _ => ?_
      simp [Option.bind_eq_some_iff, (isCodec_expr d₂).decode_encode_eq_some_iff,
        (isCodec_location d₂).decode_encode_eq_some_iff, and_assoc]
    | properties bindings =>
      refine decode_tagged_eq_some_iff decodeAnnotation rfl fun d₁ _ => ?_
      refine decode_ofMembers_eq_some_iff decodeTypeAnnotation (fun _ => rfl) (fun _ _ => rfl) rfl
        (by decide) fun d₂ _ => ?_
      simp [Option.bind_eq_some_iff, (isCodec_bindings d₂).decode_encode_eq_some_iff,
        (isCodec_location d₂).decode_encode_eq_some_iff, and_assoc]
  fits_of_decode j a hj := by
    cases d with
    | zero => cases hj
    | succ d =>
      obtain ⟨⟨tag, content⟩, -, hcontent⟩ := Option.bind_eq_some_iff.1 hj
      split at hcontent
      case h_1 => exact fits_of_decodeValueAnnotation hcontent
      case h_2 => exact fits_of_decodeTypeAnnotation hcontent
      case h_3 => cases hcontent

theorem isCodec_annotations (d : Nat) :
    IsCodec d (decodeAnnotations d) (encodeList encodeAnnotation) :=
  isCodec_list isCodec_annotation d

theorem isCodec_block (d : Nat) : IsCodec d (decodeBlock d) encodeBlock := by
  refine .ofFields (fun _ => rfl) (fun _ => rfl) (fun _ _ => rfl) (fun _ => rfl) (by decide)
    (fun d _ ⟨_, _, _, _⟩ b => ?_) (fun d _ values b hvalues => ?_)
  · simp [annotationsMember, locationMember, Option.bind_eq_some_iff, and_assoc,
      (isCodec_annotations d).decode_encode_eq_some_iff,
      (isCodec_location d).decode_encode_eq_some_iff]
  · split at hvalues <;> simp only [Option.bind_eq_bind, Option.bind_eq_some_iff,
      Option.pure_def, Option.some.injEq, reduceCtorEq] at hvalues
    obtain ⟨target, -, qualifier, -, annotations, ha, location, hl, rfl⟩ := hvalues
    simp [annotationsMember, locationMember, (isCodec_annotations d).fits_of_required ha,
      (isCodec_location d).fits_of_required hl]

/-! ### Types -/

theorem isCodec_property (d : Nat) : IsCodec d (decodeProperty d) encodeProperty := by
  refine .ofFields (fun _ => rfl) (fun _ => rfl) (fun _ _ => rfl) (fun _ => rfl) (by decide)
    (fun d _ ⟨_, _, _, _, _, _, _⟩ p => ?_) (fun d _ values p hvalues => ?_)
  · simp [annotationsMember, locationMember, Option.bind_eq_some_iff, and_assoc,
      (isCodec_annotations d).decode_encode_eq_some_iff,
      (isCodec_location d).decode_encode_eq_some_iff]
  · split at hvalues <;> simp only [Option.bind_eq_bind, Option.bind_eq_some_iff,
      Option.pure_def, Option.some.injEq, reduceCtorEq] at hvalues
    obtain ⟨_, -, _, -, _, -, _, -, _, -, annotations, ha, location, hl, rfl⟩ := hvalues
    simp [annotationsMember, locationMember, (isCodec_annotations d).fits_of_required ha,
      (isCodec_location d).fits_of_required hl]

theorem isCodec_navigation (d : Nat) : IsCodec d (decodeNavigation d) encodeNavigation := by
  refine .ofFields (fun _ => rfl) (fun _ => rfl) (fun _ _ => rfl) (fun _ => rfl) (by decide)
    (fun d _ ⟨_, _, _, _, _, _⟩ n => ?_) (fun d _ values n hvalues => ?_)
  · simp [annotationsMember, locationMember, Option.bind_eq_some_iff, and_assoc,
      (isCodec_annotations d).decode_encode_eq_some_iff,
      (isCodec_location d).decode_encode_eq_some_iff]
  · split at hvalues <;> simp only [Option.bind_eq_bind, Option.bind_eq_some_iff,
      Option.pure_def, Option.some.injEq, reduceCtorEq] at hvalues
    obtain ⟨_, -, _, -, _, -, _, -, annotations, ha, location, hl, rfl⟩ := hvalues
    simp [annotationsMember, locationMember, (isCodec_annotations d).fits_of_required ha,
      (isCodec_location d).fits_of_required hl]

theorem isCodec_structured (d : Nat) : IsCodec d (decodeStructured d) encodeStructured := by
  refine .ofFields (fun _ => rfl) (fun _ => rfl) (fun _ _ => rfl) (fun _ => rfl) (by decide)
    (fun d _ ⟨_, _, _, _, _, _, _, _, _⟩ t => ?_) (fun d _ values t hvalues => ?_)
  · simp [annotationsMember, locationMember, Option.bind_eq_some_iff, and_assoc,
      (isCodec_list isCodec_text d).decode_encode_eq_some_iff,
      (isCodec_list isCodec_property d).decode_encode_eq_some_iff,
      (isCodec_list isCodec_navigation d).decode_encode_eq_some_iff,
      (isCodec_annotations d).decode_encode_eq_some_iff,
      (isCodec_location d).decode_encode_eq_some_iff]
  · split at hvalues <;> simp only [Option.bind_eq_bind, Option.bind_eq_some_iff,
      Option.pure_def, Option.some.injEq, reduceCtorEq] at hvalues
    obtain ⟨_, -, _, -, _, -, _, -, key, hk, properties, hp, navigation, hn, annotations, ha,
      location, hl, rfl⟩ := hvalues
    simp [annotationsMember, locationMember, (isCodec_list isCodec_text d).fits_of_required hk,
      (isCodec_list isCodec_property d).fits_of_required hp,
      (isCodec_list isCodec_navigation d).fits_of_required hn,
      (isCodec_annotations d).fits_of_required ha, (isCodec_location d).fits_of_required hl]

theorem isCodec_enumMember (d : Nat) : IsCodec d (decodeEnumMember d) encodeEnumMember := by
  refine .ofFields (fun _ => rfl) (fun _ => rfl) (fun _ _ => rfl) (fun _ => rfl) (by decide)
    (fun d _ ⟨_, _, _⟩ m => ?_) (fun d _ values m hvalues => ?_)
  · simp [locationMember, Option.bind_eq_some_iff, (isCodec_location d).decode_encode_eq_some_iff]
  · split at hvalues <;> simp only [Option.bind_eq_bind, Option.bind_eq_some_iff,
      Option.pure_def, Option.some.injEq, reduceCtorEq] at hvalues
    obtain ⟨_, -, _, -, location, hl, rfl⟩ := hvalues
    simp [locationMember, (isCodec_location d).fits_of_required hl]

theorem isCodec_enum (d : Nat) : IsCodec d (decodeEnum d) encodeEnum := by
  refine .ofFields (fun _ => rfl) (fun _ => rfl) (fun _ _ => rfl) (fun _ => rfl) (by decide)
    (fun d _ ⟨_, _, _, _, _, _⟩ e => ?_) (fun d _ values e hvalues => ?_)
  · simp [annotationsMember, locationMember, Option.bind_eq_some_iff, and_assoc,
      (isCodec_list isCodec_enumMember d).decode_encode_eq_some_iff,
      (isCodec_annotations d).decode_encode_eq_some_iff,
      (isCodec_location d).decode_encode_eq_some_iff]
  · split at hvalues <;> simp only [Option.bind_eq_bind, Option.bind_eq_some_iff,
      Option.pure_def, Option.some.injEq, reduceCtorEq] at hvalues
    obtain ⟨_, -, _, -, _, -, members, hm, annotations, ha, location, hl, rfl⟩ := hvalues
    simp [annotationsMember, locationMember,
      (isCodec_list isCodec_enumMember d).fits_of_required hm,
      (isCodec_annotations d).fits_of_required ha, (isCodec_location d).fits_of_required hl]

/-! ### Other declarations -/

theorem isCodec_associationEnd (d : Nat) :
    IsCodec d (decodeAssociationEnd d) encodeAssociationEnd := by
  refine .ofFields (fun _ => rfl) (fun _ => rfl) (fun _ _ => rfl) (fun _ => rfl) (by decide)
    (fun d _ ⟨_, _, _, _⟩ e => ?_) (fun d _ values e hvalues => ?_)
  · simp [locationMember, Option.bind_eq_some_iff, (isCodec_location d).decode_encode_eq_some_iff]
  · split at hvalues <;> simp only [Option.bind_eq_bind, Option.bind_eq_some_iff,
      Option.pure_def, Option.some.injEq, reduceCtorEq] at hvalues
    obtain ⟨_, -, _, -, _, -, _, -, location, hl, rfl⟩ := hvalues
    simp [locationMember, (isCodec_location d).fits_of_required hl]

theorem isCodec_association (d : Nat) : IsCodec d (decodeAssociation d) encodeAssociation := by
  refine .ofFields (fun _ => rfl) (fun _ => rfl) (fun _ _ => rfl) (fun _ => rfl) (by decide)
    (fun d _ ⟨_, _, _, _, _⟩ a => ?_) (fun d _ values a hvalues => ?_)
  · simp [annotationsMember, locationMember, Option.bind_eq_some_iff, and_assoc,
      (isCodec_associationEnd d).decode_encode_eq_some_iff,
      (isCodec_annotations d).decode_encode_eq_some_iff,
      (isCodec_location d).decode_encode_eq_some_iff]
  · split at hvalues <;> simp only [Option.bind_eq_bind, Option.bind_eq_some_iff,
      Option.pure_def, Option.some.injEq, reduceCtorEq] at hvalues
    obtain ⟨_, -, end1, h1, end2, h2, annotations, ha, location, hl, rfl⟩ := hvalues
    simp [annotationsMember, locationMember, (isCodec_associationEnd d).fits_of_required h1,
      (isCodec_associationEnd d).fits_of_required h2,
      (isCodec_annotations d).fits_of_required ha, (isCodec_location d).fits_of_required hl]

theorem isCodec_term (d : Nat) : IsCodec d (decodeTerm d) encodeTerm := by
  refine .ofFields (fun _ => rfl) (fun _ => rfl) (fun _ _ => rfl) (fun _ => rfl) (by decide)
    (fun d _ ⟨_, _, _, _, _, _, _⟩ t => ?_) (fun d _ values t hvalues => ?_)
  · simp [annotationsMember, locationMember, Option.bind_eq_some_iff, and_assoc,
      (isCodec_annotations d).decode_encode_eq_some_iff,
      (isCodec_location d).decode_encode_eq_some_iff]
  · split at hvalues <;> simp only [Option.bind_eq_bind, Option.bind_eq_some_iff,
      Option.pure_def, Option.some.injEq, reduceCtorEq] at hvalues
    obtain ⟨_, -, _, -, _, -, _, -, _, -, annotations, ha, location, hl, rfl⟩ := hvalues
    simp [annotationsMember, locationMember, (isCodec_annotations d).fits_of_required ha,
      (isCodec_location d).fits_of_required hl]

theorem isCodec_entitySet (d : Nat) : IsCodec d (decodeEntitySet d) encodeEntitySet := by
  refine .ofFields (fun _ => rfl) (fun _ => rfl) (fun _ _ => rfl) (fun _ => rfl) (by decide)
    (fun d _ ⟨_, _, _, _⟩ s => ?_) (fun d _ values s hvalues => ?_)
  · simp [annotationsMember, locationMember, Option.bind_eq_some_iff, and_assoc,
      (isCodec_annotations d).decode_encode_eq_some_iff,
      (isCodec_location d).decode_encode_eq_some_iff]
  · split at hvalues <;> simp only [Option.bind_eq_bind, Option.bind_eq_some_iff,
      Option.pure_def, Option.some.injEq, reduceCtorEq] at hvalues
    obtain ⟨_, -, _, -, annotations, ha, location, hl, rfl⟩ := hvalues
    simp [annotationsMember, locationMember, (isCodec_annotations d).fits_of_required ha,
      (isCodec_location d).fits_of_required hl]

theorem isCodec_setEnd (d : Nat) :
    IsCodec d (decodeSetEnd d) fun e => encodeSetEnd? (some e) := by
  refine .ofFields (fun _ => rfl) (fun _ => rfl) (fun _ _ => rfl) (fun _ => rfl) (by decide)
    (fun d _ ⟨_, _, _⟩ e => ?_) (fun d _ values e hvalues => ?_)
  · simp [locationMember, Option.bind_eq_some_iff, (isCodec_location d).decode_encode_eq_some_iff]
  · split at hvalues <;> simp only [Option.bind_eq_bind, Option.bind_eq_some_iff,
      Option.pure_def, Option.some.injEq, reduceCtorEq] at hvalues
    obtain ⟨_, -, _, -, location, hl, rfl⟩ := hvalues
    simp [locationMember, (isCodec_location d).fits_of_required hl]

/-- An end of an association set that may be missing is read back. -/
theorem optional_decodeSetEnd_eq_some_iff {d : Nat} {e? e?' : Option AssociationSetEnd} :
    optional (decodeSetEnd d) (some (encodeSetEnd? e?)) = some e?' ↔
      (encodeSetEnd? e?).Fits d ∧ e? = e?' := by
  cases e? with
  | none => simp [encodeSetEnd?, optional]
  | some e =>
    have hmap := (isCodec_setEnd d).map_eq_some_iff (f := some) (a := e) (b := e?')
    rwa [encodeSetEnd?, ofMembers] at hmap ⊢

theorem fits_of_optional_decodeSetEnd {d : Nat} {value? : Option Json}
    {e? : Option AssociationSetEnd} (h : optional (decodeSetEnd d) value? = some e?) :
    (encodeSetEnd? e?).Fits d := by
  unfold optional at h
  split at h
  case h_1 | h_2 =>
    cases h
    exact fits_null d
  case h_3 =>
    obtain ⟨e, he, rfl⟩ := (isCodec_setEnd d).exists_of_map h
    exact he

theorem isCodec_associationSet (d : Nat) :
    IsCodec d (decodeAssociationSet d) encodeAssociationSet := by
  refine .ofFields (fun _ => rfl) (fun _ => rfl) (fun _ _ => rfl) (fun _ => rfl) (by decide)
    (fun d _ ⟨_, _, _, _, _⟩ s => ?_) (fun d _ values s hvalues => ?_)
  · simp [locationMember, Option.bind_eq_some_iff, and_assoc, optional_decodeSetEnd_eq_some_iff,
      (isCodec_location d).decode_encode_eq_some_iff]
  · split at hvalues <;> simp only [Option.bind_eq_bind, Option.bind_eq_some_iff,
      Option.pure_def, Option.some.injEq, reduceCtorEq] at hvalues
    obtain ⟨_, -, _, -, end1?, h1, end2?, h2, location, hl, rfl⟩ := hvalues
    simp [locationMember, fits_of_optional_decodeSetEnd h1, fits_of_optional_decodeSetEnd h2,
      (isCodec_location d).fits_of_required hl]

theorem isCodec_container (d : Nat) : IsCodec d (decodeContainer d) encodeContainer := by
  refine .ofFields (fun _ => rfl) (fun _ => rfl) (fun _ _ => rfl) (fun _ => rfl) (by decide)
    (fun d _ ⟨_, _, _, _, _, _⟩ c => ?_) (fun d _ values c hvalues => ?_)
  · simp [annotationsMember, locationMember, Option.bind_eq_some_iff, and_assoc,
      (isCodec_list isCodec_entitySet d).decode_encode_eq_some_iff,
      (isCodec_list isCodec_associationSet d).decode_encode_eq_some_iff,
      (isCodec_annotations d).decode_encode_eq_some_iff,
      (isCodec_location d).decode_encode_eq_some_iff]
  · split at hvalues <;> simp only [Option.bind_eq_bind, Option.bind_eq_some_iff,
      Option.pure_def, Option.some.injEq, reduceCtorEq] at hvalues
    obtain ⟨_, -, _, -, entitySets, he, associationSets, hs, annotations, ha, location, hl, rfl⟩ :=
      hvalues
    simp [annotationsMember, locationMember, (isCodec_list isCodec_entitySet d).fits_of_required he,
      (isCodec_list isCodec_associationSet d).fits_of_required hs,
      (isCodec_annotations d).fits_of_required ha, (isCodec_location d).fits_of_required hl]

theorem isCodec_item (d : Nat) : IsCodec d (decodeItem d) encodeItem where
  decode_encode_eq_some_iff i i' := by
    cases i with
    | complexType t =>
      exact decode_tagged_eq_some_iff decodeItem rfl fun d _ =>
        (isCodec_structured d).map_eq_some_iff
    | entityType t =>
      exact decode_tagged_eq_some_iff decodeItem rfl fun d _ =>
        (isCodec_structured d).map_eq_some_iff
    | enumType e =>
      exact decode_tagged_eq_some_iff decodeItem rfl fun d _ => (isCodec_enum d).map_eq_some_iff
    | association a =>
      exact decode_tagged_eq_some_iff decodeItem rfl fun d _ =>
        (isCodec_association d).map_eq_some_iff
    | term t =>
      exact decode_tagged_eq_some_iff decodeItem rfl fun d _ => (isCodec_term d).map_eq_some_iff
    | container c =>
      exact decode_tagged_eq_some_iff decodeItem rfl fun d _ =>
        (isCodec_container d).map_eq_some_iff
  fits_of_decode j i hj := by
    cases d with
    | zero => cases hj
    | succ d =>
      obtain ⟨⟨tag, content⟩, -, hcontent⟩ := Option.bind_eq_some_iff.1 hj
      split at hcontent
      case h_1 | h_2 =>
        obtain ⟨t, ht, rfl⟩ := (isCodec_structured d).exists_of_map hcontent
        exact fits_tagged_succ.2 ht
      case h_3 =>
        obtain ⟨e, he, rfl⟩ := (isCodec_enum d).exists_of_map hcontent
        exact fits_tagged_succ.2 he
      case h_4 =>
        obtain ⟨a, ha, rfl⟩ := (isCodec_association d).exists_of_map hcontent
        exact fits_tagged_succ.2 ha
      case h_5 =>
        obtain ⟨t, ht, rfl⟩ := (isCodec_term d).exists_of_map hcontent
        exact fits_tagged_succ.2 ht
      case h_6 =>
        obtain ⟨c, hc, rfl⟩ := (isCodec_container d).exists_of_map hcontent
        exact fits_tagged_succ.2 hc
      case h_7 => cases hcontent

theorem isCodec_using (d : Nat) : IsCodec d (decodeUsing d) encodeUsing := by
  refine .ofFields (fun _ => rfl) (fun _ => rfl) (fun _ _ => rfl) (fun _ => rfl) (by decide)
    (fun d _ ⟨_, _, _⟩ u => ?_) (fun d _ values u hvalues => ?_)
  · simp [locationMember, Option.bind_eq_some_iff, (isCodec_location d).decode_encode_eq_some_iff]
  · split at hvalues <;> simp only [Option.bind_eq_bind, Option.bind_eq_some_iff,
      Option.pure_def, Option.some.injEq, reduceCtorEq] at hvalues
    obtain ⟨_, -, _, -, location, hl, rfl⟩ := hvalues
    simp [locationMember, (isCodec_location d).fits_of_required hl]

theorem isCodec_schema (d : Nat) : IsCodec d (decodeSchema d) encodeSchema := by
  refine .ofFields (fun _ => rfl) (fun _ => rfl) (fun _ _ => rfl) (fun _ => rfl) (by decide)
    (fun d _ ⟨_, _, _, _, _, _⟩ s => ?_) (fun d _ values s hvalues => ?_)
  · simp [locationMember, Option.bind_eq_some_iff, and_assoc,
      (isCodec_list isCodec_using d).decode_encode_eq_some_iff,
      (isCodec_list isCodec_item d).decode_encode_eq_some_iff,
      (isCodec_list isCodec_block d).decode_encode_eq_some_iff,
      (isCodec_location d).decode_encode_eq_some_iff]
  · split at hvalues <;> simp only [Option.bind_eq_bind, Option.bind_eq_some_iff,
      Option.pure_def, Option.some.injEq, reduceCtorEq] at hvalues
    obtain ⟨_, -, _, -, usings, hu, items, hi, blocks, hb, location, hl, rfl⟩ := hvalues
    simp [locationMember, (isCodec_list isCodec_using d).fits_of_required hu,
      (isCodec_list isCodec_item d).fits_of_required hi,
      (isCodec_list isCodec_block d).fits_of_required hb, (isCodec_location d).fits_of_required hl]

/-! ### Documents -/

theorem decodeDocument_encode_eq_some_iff {d : Nat} {schemas : List Schema}
    {content : Nat × List Schema} :
    decodeDocument d (encode schemas) = some content ↔
      (encode schemas).Fits d ∧ (formatVersion, schemas) = content := by
  refine decode_ofMembers_eq_some_iff decodeDocument (fun _ => rfl) (fun _ _ => rfl) rfl
    (by decide) fun d _ => ?_
  simp [decodeNat_nat, formatVersion, Option.bind_eq_some_iff,
    (isCodec_list isCodec_schema d).decode_encode_eq_some_iff]

theorem fits_of_decodeDocument {d : Nat} {j : Json} {version : Nat} {schemas : List Schema}
    (hj : decodeDocument d j = some (version, schemas)) : (encode schemas).Fits d := by
  obtain ⟨d, values, rfl, hvalues⟩ := exists_of_decode decodeDocument (fun _ => rfl)
    (fun _ _ => rfl) hj
  split at hvalues <;> simp only [Option.bind_eq_bind, Option.bind_eq_some_iff, Option.pure_def,
    Option.some.injEq, Prod.mk.injEq, reduceCtorEq] at hvalues
  obtain ⟨version, -, schemas, hs, rfl, rfl⟩ := hvalues
  simp [encode, formatVersion, (isCodec_list isCodec_schema d).fits_of_required hs]

end Schemata.Document

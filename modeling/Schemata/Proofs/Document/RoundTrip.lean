import Schemata.Proofs.Document.Declarations

/-!
# Documents are read back

What `Document.write` writes is the text of the value that `encode` gives, and `Document.read` gives
the schemas back if arrays and objects are nested in it to the limit and no further
(`read_write_eq_ite`).  Whatever text a list of schemas is read from, its own text is within the
limit (`fits_of_read`).  Only expressions can be nested without end, and with them the limit is
reached and passed (`read_write_nested`).
-/

namespace Schemata.Document

open Decl Json

/-! ### Plain values -/

theorem isPlain_encodeList {α : Type} {encode : α → Json} (h : ∀ a, (encode a).IsPlain)
    (as : List α) : (encodeList encode as).IsPlain :=
  .array (List.forall_mem_map.2 fun a _ => h a)

theorem isPlain_encodeLocation (l : Location) : (encodeLocation l).IsPlain := by
  have hposition : ∀ p, (encodePosition p).IsPlain := fun p => isPlain_ofMembers (by simp)
  have hspan : (encodeSpan l.span).IsPlain := isPlain_ofMembers (by simp [hposition])
  rw [encodeLocation_eq]
  exact isPlain_ofMembers (by simp [hspan])

mutual

theorem isPlain_encodeExpr : (e : Expr) → (encodeExpr e).IsPlain
  | .node form location => by
    have hform := isPlain_encodeForm form
    rw [encodeExpr]
    exact isPlain_ofMembers (by simp [hform, isPlain_encodeLocation])

theorem isPlain_encodeForm : (form : ExprForm Expr) → (encodeForm form).IsPlain
  | .constant kind s => isPlain_tagged _ (isPlain_ofMembers (by simp))
  | .null => isPlain_text _
  | .path segments => isPlain_tagged _ (isPlain_encodeList isPlain_text segments)
  | .enumMember path => isPlain_tagged _ (isPlain_text path)
  | .cond operands => isPlain_tagged _ (.array (isPlain_of_mem_encodeExprs operands))
  | .cast typeName operands =>
    have h := IsPlain.array (isPlain_of_mem_encodeExprs operands)
    isPlain_tagged _ (isPlain_ofMembers (by simp [h]))
  | .isType typeName operands =>
    have h := IsPlain.array (isPlain_of_mem_encodeExprs operands)
    isPlain_tagged _ (isPlain_ofMembers (by simp [h]))
  | .record typeName properties =>
    have h := IsPlain.array (isPlain_of_mem_encodeBindings properties)
    isPlain_tagged _ (isPlain_ofMembers (by simp [h]))
  | .collection typeName elements =>
    have h := IsPlain.array (isPlain_of_mem_encodeExprs elements)
    isPlain_tagged _ (isPlain_ofMembers (by simp [h]))
  | .apply function arguments =>
    have h := IsPlain.array (isPlain_of_mem_encodeExprs arguments)
    isPlain_tagged _ (isPlain_ofMembers (by simp [h]))
  | .labeled name operands =>
    have h := IsPlain.array (isPlain_of_mem_encodeExprs operands)
    isPlain_tagged _ (isPlain_ofMembers (by simp [h]))
  | .labelRef name => isPlain_tagged _ (isPlain_text name)

theorem isPlain_of_mem_encodeExprs : (es : List Expr) → ∀ j ∈ encodeExprs es, j.IsPlain
  | [] => by simp [encodeExprs]
  | e :: es => by
    rw [encodeExprs, List.forall_mem_cons]
    exact ⟨isPlain_encodeExpr e, isPlain_of_mem_encodeExprs es⟩

theorem isPlain_of_mem_encodeBindings :
    (bs : List (Binding Expr)) → ∀ j ∈ encodeBindings bs, j.IsPlain
  | [] => by simp [encodeBindings]
  | ⟨property, value, location⟩ :: bs => by
    have hvalue := isPlain_encodeExpr value
    rw [encodeBindings, List.forall_mem_cons]
    exact ⟨isPlain_ofMembers (by simp [hvalue, isPlain_encodeLocation]),
      isPlain_of_mem_encodeBindings bs⟩

end

theorem isPlain_encodeAnnotation (a : Annotation) : encodeAnnotation a |>.IsPlain := by
  obtain ⟨term, qualifier, content, location⟩ := a
  cases content with
  | value expr =>
    exact isPlain_tagged _ (isPlain_ofMembers
      (by simp [isPlain_encodeExpr, isPlain_encodeLocation]))
  | properties bindings =>
    have h := IsPlain.array (isPlain_of_mem_encodeBindings bindings)
    exact isPlain_tagged _ (isPlain_ofMembers (by simp [h, isPlain_encodeLocation]))

@[simp]
theorem isPlain_annotationsMember (as : List Annotation) : (annotationsMember as).2.IsPlain :=
  isPlain_encodeList isPlain_encodeAnnotation as

@[simp]
theorem isPlain_locationMember (l : Location) : (locationMember l).2.IsPlain :=
  isPlain_encodeLocation l

theorem isPlain_encodeStructured (t : Structured) : (encodeStructured t).IsPlain := by
  have hproperty : ∀ p, (encodeProperty p).IsPlain := fun p => isPlain_ofMembers (by simp)
  have hnavigation : ∀ n, (encodeNavigation n).IsPlain := fun n => isPlain_ofMembers (by simp)
  exact isPlain_ofMembers (by simp [isPlain_encodeList, hproperty, hnavigation])

theorem isPlain_encodeEnum (e : Enum) : (encodeEnum e).IsPlain := by
  have hmember : ∀ m, (encodeEnumMember m).IsPlain := fun m => isPlain_ofMembers (by simp)
  exact isPlain_ofMembers (by simp [isPlain_encodeList, hmember])

theorem isPlain_encodeAssociation (a : Association) : (encodeAssociation a).IsPlain := by
  have hend : ∀ e, (encodeAssociationEnd e).IsPlain := fun e => isPlain_ofMembers (by simp)
  exact isPlain_ofMembers (by simp [hend])

theorem isPlain_encodeContainer (c : Container) : (encodeContainer c).IsPlain := by
  have hend : ∀ e?, (encodeSetEnd? e?).IsPlain := fun e? => by
    cases e? with
    | none => exact isPlain_null
    | some e => exact isPlain_ofMembers (by simp)
  have hentitySet : ∀ s, (encodeEntitySet s).IsPlain := fun s => isPlain_ofMembers (by simp)
  have hassociationSet : ∀ s, (encodeAssociationSet s).IsPlain := fun s =>
    isPlain_ofMembers (by simp [hend])
  exact isPlain_ofMembers (by simp [isPlain_encodeList, hentitySet, hassociationSet])

theorem isPlain_encodeItem (i : Item) : (encodeItem i).IsPlain := by
  cases i with
  | complexType t | entityType t => exact isPlain_tagged _ (isPlain_encodeStructured t)
  | enumType e => exact isPlain_tagged _ (isPlain_encodeEnum e)
  | association a => exact isPlain_tagged _ (isPlain_encodeAssociation a)
  | term t => exact isPlain_tagged _ (isPlain_ofMembers (by simp))
  | container c => exact isPlain_tagged _ (isPlain_encodeContainer c)

theorem isPlain_encode (schemas : List Schema) : (encode schemas).IsPlain := by
  have husing : ∀ u, (encodeUsing u).IsPlain := fun u => isPlain_ofMembers (by simp)
  have hblock : ∀ b, (encodeBlock b).IsPlain := fun b => isPlain_ofMembers (by simp)
  have hschema : ∀ s, (encodeSchema s).IsPlain := fun s =>
    isPlain_ofMembers (by simp [isPlain_encodeList, husing, isPlain_encodeItem, hblock])
  exact isPlain_ofMembers (by simp [isPlain_encodeList, hschema])

/-! ### Texts -/

/-- The text of a document is one of the value that is encoded. -/
theorem parse?_write (schemas : List Schema) : parse? (write schemas) = some (encode schemas) :=
  parse?_pretty (isPlain_encode schemas)

/-- A document is read back if it fits, and is malformed otherwise. -/
theorem read_write_eq_ite (schemas : List Schema) :
    read (write schemas) =
      if (encode schemas).depth ≤ maxDepth ∧ ∀ n ∈ (encode schemas).numbers, n < 2 ^ 64 then
        .ok schemas
      else .error .malformed := by
  rw [read, parse?_write, Option.bind_some]
  by_cases hfits : (encode schemas).Fits maxDepth
  · have hsome := decodeDocument_encode_eq_some_iff.2 ⟨hfits, rfl⟩
    rw [if_pos (fits_iff.1 hfits), hsome]
    rfl
  · have hnone : decodeDocument maxDepth (encode schemas) = none :=
      Option.eq_none_iff_forall_ne_some.2 fun content hcontent =>
        hfits (decodeDocument_encode_eq_some_iff.1 hcontent).1
    rw [if_neg fun h => hfits (fits_iff.2 h), hnone]

/-- What is read from a text fits when it is written. -/
theorem fits_of_read {text : String} {schemas : List Schema} (h : read text = .ok schemas) :
    (encode schemas).Fits maxDepth := by
  unfold read at h
  split at h
  case h_1 => cases h
  case h_2 version schemas' hsome =>
    obtain ⟨j, -, hj⟩ := Option.bind_eq_some_iff.1 hsome
    split at h <;> cases h
    exact fits_of_decodeDocument hj

/-- **What is written is read.**  The text of a document is one of the value that is encoded.  It is
read back if arrays and objects are nested at most 127 levels deep in it and its numbers, the lines
and columns, are of 64 bits, and is malformed otherwise.  Whatever is read from a text is read back
when it is written again. -/
theorem parse?_write_and_read_write (schemas : List Schema) :
    parse? (write schemas) = some (encode schemas) ∧
      (read (write schemas) =
        if (encode schemas).depth ≤ 127 ∧ ∀ n ∈ (encode schemas).numbers, n < 2 ^ 64 then
          .ok schemas
        else .error .malformed) ∧
      ((∃ text, read text = .ok schemas) ↔ read (write schemas) = .ok schemas) := by
  refine ⟨parse?_write schemas, read_write_eq_ite schemas, ?_, fun h => ⟨write schemas, h⟩⟩
  rintro ⟨text, htext⟩
  rw [read_write_eq_ite, if_pos (fits_iff.1 (fits_of_read htext))]

/-! ### At the limit -/

/-- Collections in one another, `n` of them around a null. -/
def nested : Nat → Expr
  | 0 => .node .null .unknown
  | n + 1 => .node (.collection none [nested n]) .unknown

/-- A schema with nothing but the application of a term with a value. -/
def annotatedBy (value : Expr) : Schema where
  namespaceName := "N"
  alias? := none
  usings := []
  items := []
  blocks := [⟨"N.Thing", none, [⟨"N.Note", none, .value value, .unknown⟩], .unknown⟩]
  location := .unknown

theorem fits_encodeLocation_unknown {d : Nat} : (encodeLocation .unknown).Fits d ↔ 3 ≤ d := by
  rw [encodeLocation_eq]
  rcases d with _ | _ | _ | d <;> simp [encodeSpan, encodePosition, Location.unknown, Span.point]

/-- A collection adds four levels: the node, its form, what the form holds, and the elements. -/
theorem fits_encodeExpr_nested {n d : Nat} : (encodeExpr (nested n)).Fits d ↔ 4 * n + 4 ≤ d := by
  induction n generalizing d with
  | zero => cases d <;> simp [nested, encodeExpr, encodeForm, fits_encodeLocation_unknown]
  | succ n ih =>
    rcases d with _ | _ | _ | _ | d <;>
      simp [nested, encodeExpr, encodeForm, encodeExprs, fits_encodeLocation_unknown, ih]
    omega

theorem fits_encode_annotatedBy {value : Expr} {d : Nat} :
    (encode [annotatedBy value]).Fits (d + 8) ↔ (encodeExpr value).Fits d ∧ 3 ≤ d := by
  simp [encode, encodeSchema, encodeBlock, encodeAnnotation, annotatedBy, annotationsMember,
    locationMember, encodeList, fits_encodeLocation_unknown, formatVersion]

/-- Twenty-eight collections in one another are read back, twenty-nine are not. -/
theorem read_write_nested (n : Nat) :
    read (write [annotatedBy (nested n)]) =
      if n ≤ 28 then .ok [annotatedBy (nested n)] else .error .malformed := by
  have hfits : (encode [annotatedBy (nested n)]).Fits maxDepth ↔ n ≤ 28 := by
    rw [maxDepth, fits_encode_annotatedBy (d := 119), fits_encodeExpr_nested]
    omega
  rw [read_write_eq_ite]
  exact if_congr (fits_iff.symm.trans hfits) rfl rfl

end Schemata.Document

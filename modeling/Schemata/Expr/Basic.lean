import Schemata.Annotation.Basic
import Schemata.Expr.Path

/-!
# Expressions

An expression is one node of the trees of an annotation.  `Catalog.references` resolves the names
that the node mentions; `Catalog.view` gives the node with its operands and what those names lead
to.  A node with a wrong number of operands is malformed, and nothing else is said of it.

The operands that a view shows are operands of the node (`mem_operands_of_mem_children`), and they
lie behind it (`place_lt_of_mem_operands`), so whoever walks down a tree comes to an end.
-/

namespace Schemata

/-- What the names in an expression lead to, as the model of the expression sees it. -/
inductive ExprReferences where
  /-- There are no names in the expression. -/
  | none
  /-- The number of operands is wrong. -/
  | malformed (p : Placeholder)
  | type (type : TypeReference)
  | collection (type? : Option TypeReference)
  /-- The type of a record and, for each field, the property of that type. -/
  | record (type? : Option TypeReference) (fields : List (Element (Handle .property)))
  /-- Members of enumerations, by their places. -/
  | enumMembers (members : List (Element (Handle .type × Nat)))
  | label (target : Element ExprRef)
deriving DecidableEq, Repr

/-- A field of a record. -/
structure RecordField where
  name : Name
  value : ExprRef
  /-- The property that the field is for. -/
  property : Element (Declared .property)
deriving DecidableEq, Repr

/-- The first field of that name. -/
def RecordField.find? (fields : List RecordField) (name : Name) : Option RecordField :=
  fields.find? (·.name = name)

/-- An expression with its operands and with what its names lead to. -/
inductive ExprView where
  | constant (kind : ConstantKind) (text : String) (value : Except Diagnostic PrimitiveValue)
  | null
  | path (segments : List Name)
  | enumMember (members : List (Element EnumMember))
  | cond (test ifTrue ifFalse : ExprRef)
  | cast (type : TypeReference) (operand : ExprRef)
  | isType (type : TypeReference) (operand : ExprRef)
  | record (type? : Option TypeReference) (fields : List RecordField)
  | collection (type? : Option TypeReference) (elements : List ExprRef)
  | apply (function : Name) (arguments : List ExprRef)
  | labeled (name : Name) (operand : ExprRef)
  | labelRef (target : Element ExprRef)
  | malformed (p : Placeholder)

/-- The operands that a view shows, in order. -/
def ExprView.children : ExprView → List ExprRef
  | cond test ifTrue ifFalse => [test, ifTrue, ifFalse]
  | cast _ operand | isType _ operand | labeled _ operand => [operand]
  | record _ fields => fields.map (·.value)
  | collection _ elements => elements
  | apply _ arguments => arguments
  | constant .. | null | path _ | enumMember _ | labelRef _ | malformed _ => []

namespace Catalog

variable (c : Catalog)

/-! ### Nodes -/

/-- The nodes of the annotation that an expression belongs to. -/
def arena (e : ExprRef) : ExprArena := (c.annotated e.owner).exprs

/-- The declaration of an expression. -/
def exprDecl (e : ExprRef) : Decl.Expr := ((c.arena e).node e.place).decl

/-- The operands of an expression, in the order of declaration. -/
def operands (e : ExprRef) : List ExprRef :=
  ((c.arena e).node e.place).operands.map (⟨e.owner, ·⟩)

/-- The schema that holds an expression. -/
def exprSchema (e : ExprRef) : Declared .schema := c.annotationSchema e.owner

/-- The type in which the paths of an expression begin. -/
def exprContext? (e : ExprRef) : Option (Declared .type) := c.contextOf? e.owner

/-- How many nodes lie at or behind an expression. -/
def nodesBehind (e : ExprRef) : Nat := (c.arena e).nodes.size - e.place

theorem owner_of_mem_operands {e child : ExprRef} (h : child ∈ c.operands e) :
    child.owner = e.owner := by
  obtain ⟨place, _, rfl⟩ := List.mem_map.1 h
  rfl

/-- An operand lies behind its expression. -/
theorem nodesBehind_lt_of_mem_operands {e child : ExprRef} (h : child ∈ c.operands e) :
    c.nodesBehind child < c.nodesBehind e := by
  obtain ⟨place, hp, rfl⟩ := List.mem_map.1 h
  have := ExprArena.lt_of_mem_operands hp
  unfold nodesBehind arena at *
  simp only at *
  omega

/-! ### Names -/

/-- The name of a form with a fixed number of operands, and that number. -/
def arity? : Decl.ExprForm Decl.Expr → Option (Name × Nat)
  | .cond _ => some ("If", 3)
  | .cast .. => some ("Cast", 1)
  | .isType .. => some ("IsType", 1)
  | .labeled .. => some ("LabeledElement", 1)
  | _ => none

/-- The placeholder for an expression with a wrong number of operands. -/
def malformed? (e : ExprRef) : Option Placeholder :=
  match arity? (c.exprDecl e).form with
  | none => none
  | some (form, expected) =>
    let found := (c.operands e).length
    if found = expected then none
    else
      some (.bad form (.error .malformedExpression (c.exprDecl e).location
        s!"{form} expression expects {expected} operand(s), found {found}"))

/-- The type reference in an expression. -/
def exprType (e : ExprRef) (text : Name) : TypeReference :=
  c.typeReference (c.exprSchema e) text true (c.exprDecl e).location

/-- The property that a field of a record is for, if `p?` has been found in the record's declared
type. -/
def fieldHandleOf (e : ExprRef) (type? : Option (Element (Declared .type)))
    (field : Decl.Binding Decl.Expr) (p? : Option (Declared .property)) :
    Element (Handle .property) :=
  let name := field.property
  let message := match type? with
    | some type =>
      let owner := type.qualifiedName fun t => (c.type t).qualifiedName
      s!"property '{name}' could not be found on type '{owner}'"
    | none => s!"property '{name}' could not be found: the record has no declared type"
  .ofOption (.withMessage .unresolvedProperty name field.location message)
    (p?.bind (c.handleFor e.owner.model))

/-- The property that a field of a record is for, looked for in the record's declared type. -/
def fieldHandle (e : ExprRef) (type? : Option (Element (Declared .type)))
    (field : Decl.Binding Decl.Expr) : Element (Handle .property) :=
  c.fieldHandleOf e type? field
    ((type?.bind (·.declared?)).bind (c.findProperty? · field.property))

/-- The member that a path of an enumeration and a member names. -/
def memberHandle (e : ExprRef) (path : Name) : Element (Handle .type × Nat) :=
  .ofOption (.unresolved .unresolvedEnumMember path (c.exprDecl e).location) do
    let (typeName, member) ← splitPath path
    let h ← c.resolve? (c.exprSchema e) .type typeName
    let place ← (c.memberDecls (c.locate e.owner.model h)).findIdx? (·.name = member)
    return (h, place)

/-- The labeled expression that a label names. -/
def labelTarget (e : ExprRef) (name : Name) : Element ExprRef :=
  let schema := c.exprSchema e
  .ofOption (.unresolved .unresolvedLabel name (c.exprDecl e).location)
    (((c.model schema.model).label? schema.id name).map fun l =>
      ⟨⟨schema.model, l.owner⟩, l.place⟩)

/-- What the names in an expression lead to. -/
def references (e : ExprRef) : ExprReferences :=
  match c.malformed? e with
  | some p => .malformed p
  | none =>
    match (c.exprDecl e).form with
    | .cast typeName _ | .isType typeName _ => .type (c.exprType e typeName)
    | .collection typeName? _ => .collection (typeName?.map (c.exprType e))
    | .record typeName? properties =>
      let type? := typeName?.map (c.exprType e)
      .record type? (properties.map (c.fieldHandle e (type?.bind (c.elementOf? e.owner.model))))
    | .enumMember path =>
      .enumMembers ((Text.words Text.isBlank path.toList).map fun word =>
        c.memberHandle e (String.ofList word))
    | .labelRef name => .label (c.labelTarget e name)
    | .constant .. | .null | .path _ | .cond _ | .apply .. | .labeled .. => .none

/-! ### Views -/

/-- The value of a constant. -/
def constantValue (kind : ConstantKind) (text : String) (location : Location) :
    Except Diagnostic PrimitiveValue :=
  match kind.primitive.parse text with
  | .ok value => .ok value
  | .error e => .error (.error .invalidConstant location e.message)

/-- The view of an expression whose references do not fit its form. -/
def unresolvedView (e : ExprRef) : ExprView :=
  .malformed (.bad "expression"
    (.error .malformedExpression (c.exprDecl e).location "expression could not be resolved"))

/-- An expression with its operands and with what its names lead to. -/
def viewWith (e : ExprRef) (references : ExprReferences) : ExprView :=
  let locate {k : ElementKind} (h : Handle k) : Declared k := c.locate e.owner.model h
  match (c.exprDecl e).form, references, c.operands e with
  | _, .malformed p, _ => .malformed p
  | .constant kind text, _, _ =>
    .constant kind text (constantValue kind text (c.exprDecl e).location)
  | .null, _, _ => .null
  | .path segments, _, _ => .path segments
  | .enumMember _, .enumMembers members, _ =>
    .enumMember (members.map (·.map fun (h, place) => ⟨locate h, place⟩))
  | .cond _, _, [test, ifTrue, ifFalse] => .cond test ifTrue ifFalse
  | .cast .., .type type, [operand] => .cast type operand
  | .isType .., .type type, [operand] => .isType type operand
  | .record _ properties, .record type? fields, operands =>
    .record type? ((properties.zip (operands.zip fields)).map fun (d, value, property) =>
      ⟨d.property, value, property.map locate⟩)
  | .collection .., .collection type?, operands => .collection type? operands
  | .apply function _, _, operands => .apply (c.expand (c.exprSchema e) function) operands
  | .labeled name _, _, [operand] => .labeled name operand
  | .labelRef _, .label target, _ => .labelRef target
  | _, _, _ => c.unresolvedView e

/-- An expression with its operands and with what its names lead to. -/
def view (e : ExprRef) : ExprView := c.viewWith e (c.references e)

/-- The operands that a view shows are operands of the expression. -/
theorem mem_operands_of_mem_children {e child : ExprRef} {references : ExprReferences}
    (h : child ∈ (c.viewWith e references).children) : child ∈ c.operands e := by
  unfold viewWith at h
  dsimp only at h
  split at h <;> simp only [ExprView.children, List.not_mem_nil] at h
  case h_6 heq | h_7 heq | h_8 heq | h_12 heq => rw [heq]; simpa using h
  case h_9 heq =>
    obtain ⟨field, hf, rfl⟩ := List.mem_map.1 h
    obtain ⟨⟨d, value, property⟩, hz, rfl⟩ := List.mem_map.1 hf
    exact (List.of_mem_zip (List.of_mem_zip hz).2).1
  case h_10 | h_11 => exact h
  case h_14 => simp [unresolvedView] at h

/-! ### Paths -/

/-- The property that the path of an expression leads to, as its model sees it. -/
def pathTargetHandle (e : ExprRef) (segments : List Name) : Element (Handle .property) :=
  c.pathHandle e.owner.model (c.exprContext? e) segments (c.exprDecl e).location

/-- The property that the path of an expression leads to. -/
def pathTarget (e : ExprRef) (segments : List Name) : Element (Declared .property) :=
  (c.pathTargetHandle e segments).map (c.locate e.owner.model)

/-- The type of a property, which is a placeholder where the property is. -/
def typeOfProperty : Element (Declared .property) → TypeReference
  | .declared p => c.propertyType p
  | .placeholder p => .placeholder p true

end Catalog

end Schemata

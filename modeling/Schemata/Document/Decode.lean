import Schemata.Document.Encode
import Schemata.Json.Reader

/-!
# Declarations as JSON documents: reading

`Document.read` accepts every document that `Document.write` writes and some more: members may stand
in any order, optional ones may be missing, members with other names are passed over, a list of all
the fields in order may stand for an object with them, and an alternative without fields may be an
object with a null.  A name may not be repeated among the known members.

What is passed over may be nested as deep as it likes.  Everything else may be nested in at most
`maxDepth` arrays and objects, and each decoder gets the number that it may still enter.
-/

namespace Schemata.Document

open Decl

/-- How many arrays and objects may be nested. -/
def maxDepth : Nat := 127

/-- Why a text is no document. -/
inductive ReadError where
  /-- The text is no JSON, or not of the form of a document. -/
  | malformed
  /-- The document is of another version. -/
  | unsupportedVersion (version : Nat)
deriving DecidableEq, Repr

/-- The wording, where the version is the reason. -/
def ReadError.message : ReadError → String
  | malformed => "malformed document"
  | unsupportedVersion version =>
    s!"Invalid document: unsupported format version {version} (expected {formatVersion})"

/-! ### Values without parts -/

/-- A string. -/
def decodeText : Json → Option String
  | .string text? => text?
  | _ => none

/-- A truth value. -/
def decodeBool : Json → Option Bool
  | .bool b => some b
  | _ => none

/-- A whole number up to `limit`, written with digits alone. -/
def decodeNat (limit : Nat) : Json → Option Nat
  | .number literal =>
    let cs := literal.toList
    if !cs.isEmpty && cs.all Char.isDigit then
      let n := Number.ofDigits cs
      if n ≤ limit then some n else none
    else none
  | _ => none

/-- A line or column. -/
def decodeIndex : Json → Option Nat := decodeNat 18446744073709551615

/-! ### Arrays and objects -/

/-- The elements of an array, each decoded one level further in. -/
def decodeList {α : Type} (decode : Nat → Json → Option α) : Nat → Json → Option (List α)
  | depth + 1, .array elements => elements.mapM (decode depth)
  | _, _ => none

/-- The value of the only member of that name; an inner `none` if there is no member. -/
def lookup (name : String) (members : List (String × Json)) : Option (Option Json) :=
  match members.filter (·.1 == name) with
  | [] => some none
  | [(_, v)] => some (some v)
  | _ => none

/-- The values of named fields, in the order of the names; an inner `none` is a missing member.  An
array has a value for each name. -/
def fields (names : List String) : Json → Option (List (Option Json))
  | .object members => do
    let members ← members.mapM fun (name?, v) => name?.map fun name => (name, v)
    names.mapM fun name => lookup name members
  | .array elements => if elements.length = names.length then some (elements.map some) else none
  | _ => none

/-- Decodes a field that may not be missing. -/
def required {α : Type} (decode : Json → Option α) (value? : Option Json) : Option α :=
  value?.bind decode

/-- Decodes a field that may be missing or null. -/
def optional {α : Type} (decode : Json → Option α) : Option Json → Option (Option α)
  | none => some none
  | some .null => some none
  | some j => (decode j).map some

/-- The tag and the content of an alternative: an object with one member. -/
def alternative : Json → Option (String × Json)
  | .object [(some tag, content)] => some (tag, content)
  | _ => none

/-- The tag of an alternative without fields. -/
def emptyAlternative : Nat → Json → Option String
  | _, .string text? => text?
  | _ + 1, .object [(some tag, .null)] => some tag
  | _, _ => none

/-- A position. -/
def decodePosition : Nat → Json → Option Position
  | _ + 1, j => do
    match ← fields ["line", "column"] j with
    | [line, column] => pure ⟨← required decodeIndex line, ← required decodeIndex column⟩
    | _ => none
  | 0, _ => none

/-- A span. -/
def decodeSpan : Nat → Json → Option Span
  | depth + 1, j => do
    match ← fields ["start", "end"] j with
    | [start, stop] =>
      pure ⟨← required (decodePosition depth) start, ← required (decodePosition depth) stop⟩
    | _ => none
  | 0, _ => none

/-- A location. -/
def decodeLocation : Nat → Json → Option Location
  | depth + 1, j => do
    match ← fields ["document", "span"] j with
    | [document, span] =>
      pure ⟨← required decodeText document, ← required (decodeSpan depth) span⟩
    | _ => none
  | 0, _ => none

/-! ### Annotations -/

/-- A literal. -/
def decodeConstant : Nat → Json → Option (ExprForm Expr)
  | depth + 1, j => do
    match ← fields ["kind", "text"] j with
    | [kind, text] =>
      let tag ← required (emptyAlternative depth) kind
      pure (.constant (← ConstantKind.ofName? tag) (← required decodeText text))
    | _ => none
  | 0, _ => none

mutual

/-- An expression. -/
def decodeExpr : Nat → Json → Option Expr
  | depth + 1, j => do
    match ← fields ["kind", "location"] j with
    | [kind, location] =>
      pure (.node (← required (decodeForm depth) kind)
        (← required (decodeLocation depth) location))
    | _ => none
  | 0, _ => none

/-- The form of an expression. -/
def decodeForm : Nat → Json → Option (ExprForm Expr)
  | _, .string (some "Null") => some .null
  | depth + 1, j => do
    let (tag, content) ← alternative j
    match tag with
    | "Null" => if content matches .null then some .null else none
    | "Constant" => decodeConstant depth content
    | "Path" => (decodeList (fun _ => decodeText) depth content).map .path
    | "EnumMember" => (decodeText content).map .enumMember
    | "If" => (decodeExprs depth content).map .cond
    | "LabeledElementReference" => (decodeText content).map .labelRef
    | tag => decodeCompound tag depth content
  | 0, _ => none

/-- The form of an expression that has a name and operands. -/
def decodeCompound (tag : String) : Nat → Json → Option (ExprForm Expr)
  | depth + 1, j => do
    match tag with
    | "Cast" =>
      match ← fields ["type_ref", "operands"] j with
      | [typeName, operands] =>
        pure (.cast (← required decodeText typeName) (← required (decodeExprs depth) operands))
      | _ => none
    | "IsType" =>
      match ← fields ["type_ref", "operands"] j with
      | [typeName, operands] =>
        pure (.isType (← required decodeText typeName) (← required (decodeExprs depth) operands))
      | _ => none
    | "Record" =>
      match ← fields ["type_ref", "properties"] j with
      | [typeName, properties] =>
        pure (.record (← optional decodeText typeName)
          (← required (decodeBindings depth) properties))
      | _ => none
    | "Collection" =>
      match ← fields ["type_ref", "elements"] j with
      | [typeName, elements] =>
        pure (.collection (← optional decodeText typeName)
          (← required (decodeExprs depth) elements))
      | _ => none
    | "Apply" =>
      match ← fields ["function", "arguments"] j with
      | [function, arguments] =>
        pure (.apply (← required decodeText function) (← required (decodeExprs depth) arguments))
      | _ => none
    | "LabeledElement" =>
      match ← fields ["name", "operands"] j with
      | [name, operands] =>
        pure (.labeled (← required decodeText name) (← required (decodeExprs depth) operands))
      | _ => none
    | _ => none
  | 0, _ => none

/-- Several expressions. -/
def decodeExprs : Nat → Json → Option (List Expr)
  | depth + 1, .array elements => elements.mapM (decodeExpr depth)
  | _, _ => none

/-- Several assignments. -/
def decodeBindings : Nat → Json → Option (List (Binding Expr))
  | depth + 1, .array elements => elements.mapM (decodeBinding depth)
  | _, _ => none

/-- An assignment. -/
def decodeBinding : Nat → Json → Option (Binding Expr)
  | depth + 1, j => do
    match ← fields ["property", "expr", "location"] j with
    | [property, value, location] =>
      pure ⟨← required decodeText property, ← required (decodeExpr depth) value,
        ← required (decodeLocation depth) location⟩
    | _ => none
  | 0, _ => none

end

/-- The fields of a value annotation. -/
def decodeValueAnnotation : Nat → Json → Option Annotation
  | depth + 1, j => do
    match ← fields ["term", "qualifier", "expr", "location"] j with
    | [term, qualifier, expr, location] =>
      pure
        { term := ← required decodeText term
          qualifier := ← optional decodeText qualifier
          content := .value (← required (decodeExpr depth) expr)
          location := ← required (decodeLocation depth) location }
    | _ => none
  | 0, _ => none

/-- The fields of a type annotation. -/
def decodeTypeAnnotation : Nat → Json → Option Annotation
  | depth + 1, j => do
    match ← fields ["term", "qualifier", "property_values", "location"] j with
    | [term, qualifier, bindings, location] =>
      pure
        { term := ← required decodeText term
          qualifier := ← optional decodeText qualifier
          content := .properties (← required (decodeBindings depth) bindings)
          location := ← required (decodeLocation depth) location }
    | _ => none
  | 0, _ => none

/-- An annotation. -/
def decodeAnnotation : Nat → Json → Option Annotation
  | depth + 1, j => do
    match ← alternative j with
    | ("Value", content) => decodeValueAnnotation depth content
    | ("Type", content) => decodeTypeAnnotation depth content
    | _ => none
  | 0, _ => none

/-- The inline annotations of a declaration. -/
def decodeAnnotations : Nat → Json → Option (List Annotation) := decodeList decodeAnnotation

/-- An annotation block. -/
def decodeBlock : Nat → Json → Option Block
  | depth + 1, j => do
    match ← fields ["target", "qualifier", "annotations", "location"] j with
    | [target, qualifier, annotations, location] =>
      pure
        { target := ← required decodeText target
          qualifier := ← optional decodeText qualifier
          annotations := ← required (decodeAnnotations depth) annotations
          location := ← required (decodeLocation depth) location }
    | _ => none
  | 0, _ => none

/-! ### Types -/

/-- A property. -/
def decodeProperty : Nat → Json → Option Property
  | depth + 1, j => do
    match ← fields ["name", "type_ref", "nullable", "default_value", "fixed_concurrency",
        "annotations", "location"] j with
    | [name, typeName, nullable, default?, fixedConcurrency, annotations, location] =>
      pure
        { name := ← required decodeText name
          typeName := ← required decodeText typeName
          nullable := ← required decodeBool nullable
          default? := ← optional decodeText default?
          fixedConcurrency := ← required decodeBool fixedConcurrency
          annotations := ← required (decodeAnnotations depth) annotations
          location := ← required (decodeLocation depth) location }
    | _ => none
  | 0, _ => none

/-- A navigation property. -/
def decodeNavigation : Nat → Json → Option Navigation
  | depth + 1, j => do
    match ← fields ["name", "relationship", "from_role", "to_role", "annotations",
        "location"] j with
    | [name, relationship, fromRole, toRole, annotations, location] =>
      pure
        { name := ← required decodeText name
          relationship := ← required decodeText relationship
          fromRole := ← required decodeText fromRole
          toRole := ← required decodeText toRole
          annotations := ← required (decodeAnnotations depth) annotations
          location := ← required (decodeLocation depth) location }
    | _ => none
  | 0, _ => none

/-- A complex or entity type. -/
def decodeStructured : Nat → Json → Option Structured
  | depth + 1, j => do
    match ← fields ["name", "base_type", "is_abstract", "is_open", "key", "properties",
        "navigation_properties", "annotations", "location"] j with
    | [name, base?, isAbstract, isOpen, key, properties, navigation, annotations, location] =>
      pure
        { name := ← required decodeText name
          base? := ← optional decodeText base?
          isAbstract := ← required decodeBool isAbstract
          isOpen := ← required decodeBool isOpen
          key := ← required (decodeList (fun _ => decodeText) depth) key
          properties := ← required (decodeList decodeProperty depth) properties
          navigation := ← required (decodeList decodeNavigation depth) navigation
          annotations := ← required (decodeAnnotations depth) annotations
          location := ← required (decodeLocation depth) location }
    | _ => none
  | 0, _ => none

/-- A member of an enumeration. -/
def decodeEnumMember : Nat → Json → Option EnumMember
  | depth + 1, j => do
    match ← fields ["name", "value", "location"] j with
    | [name, value?, location] =>
      pure ⟨← required decodeText name, ← optional decodeText value?,
        ← required (decodeLocation depth) location⟩
    | _ => none
  | 0, _ => none

/-- An enumeration. -/
def decodeEnum : Nat → Json → Option Enum
  | depth + 1, j => do
    match ← fields ["name", "underlying_type", "is_flags", "members", "annotations",
        "location"] j with
    | [name, underlying?, isFlags, members, annotations, location] =>
      pure
        { name := ← required decodeText name
          underlying? := ← optional decodeText underlying?
          isFlags := ← required decodeBool isFlags
          members := ← required (decodeList decodeEnumMember depth) members
          annotations := ← required (decodeAnnotations depth) annotations
          location := ← required (decodeLocation depth) location }
    | _ => none
  | 0, _ => none

/-! ### Other declarations -/

/-- An end of an association. -/
def decodeAssociationEnd : Nat → Json → Option AssociationEnd
  | depth + 1, j => do
    match ← fields ["role", "type_ref", "multiplicity", "location"] j with
    | [role, typeName, multiplicity, location] =>
      let tag ← required (emptyAlternative depth) multiplicity
      pure
        { role := ← required decodeText role
          typeName := ← required decodeText typeName
          multiplicity := ← Multiplicity.ofName? tag
          location := ← required (decodeLocation depth) location }
    | _ => none
  | 0, _ => none

/-- An association. -/
def decodeAssociation : Nat → Json → Option Association
  | depth + 1, j => do
    match ← fields ["name", "end1", "end2", "annotations", "location"] j with
    | [name, end1, end2, annotations, location] =>
      pure
        { name := ← required decodeText name
          end1 := ← required (decodeAssociationEnd depth) end1
          end2 := ← required (decodeAssociationEnd depth) end2
          annotations := ← required (decodeAnnotations depth) annotations
          location := ← required (decodeLocation depth) location }
    | _ => none
  | 0, _ => none

/-- A term. -/
def decodeTerm : Nat → Json → Option Term
  | depth + 1, j => do
    match ← fields ["name", "type_ref", "nullable", "default_value", "applies_to", "annotations",
        "location"] j with
    | [name, typeName, nullable, default?, appliesTo?, annotations, location] =>
      pure
        { name := ← required decodeText name
          typeName := ← required decodeText typeName
          nullable := ← required decodeBool nullable
          default? := ← optional decodeText default?
          appliesTo? := ← optional decodeText appliesTo?
          annotations := ← required (decodeAnnotations depth) annotations
          location := ← required (decodeLocation depth) location }
    | _ => none
  | 0, _ => none

/-- An entity set. -/
def decodeEntitySet : Nat → Json → Option EntitySet
  | depth + 1, j => do
    match ← fields ["name", "entity_type", "annotations", "location"] j with
    | [name, entityType, annotations, location] =>
      pure
        { name := ← required decodeText name
          entityType := ← required decodeText entityType
          annotations := ← required (decodeAnnotations depth) annotations
          location := ← required (decodeLocation depth) location }
    | _ => none
  | 0, _ => none

/-- An end of an association set. -/
def decodeSetEnd : Nat → Json → Option AssociationSetEnd
  | depth + 1, j => do
    match ← fields ["role", "entity_set", "location"] j with
    | [role, entitySet, location] =>
      pure ⟨← required decodeText role, ← required decodeText entitySet,
        ← required (decodeLocation depth) location⟩
    | _ => none
  | 0, _ => none

/-- An association set. -/
def decodeAssociationSet : Nat → Json → Option AssociationSet
  | depth + 1, j => do
    match ← fields ["name", "association", "end1", "end2", "location"] j with
    | [name, association, end1?, end2?, location] =>
      pure
        { name := ← required decodeText name
          association := ← required decodeText association
          end1? := ← optional (decodeSetEnd depth) end1?
          end2? := ← optional (decodeSetEnd depth) end2?
          location := ← required (decodeLocation depth) location }
    | _ => none
  | 0, _ => none

/-- A container. -/
def decodeContainer : Nat → Json → Option Container
  | depth + 1, j => do
    match ← fields ["name", "extends", "entity_sets", "association_sets", "annotations",
        "location"] j with
    | [name, extends?, entitySets, associationSets, annotations, location] =>
      pure
        { name := ← required decodeText name
          extends? := ← optional decodeText extends?
          entitySets := ← required (decodeList decodeEntitySet depth) entitySets
          associationSets := ← required (decodeList decodeAssociationSet depth) associationSets
          annotations := ← required (decodeAnnotations depth) annotations
          location := ← required (decodeLocation depth) location }
    | _ => none
  | 0, _ => none

/-- A declaration at the top of a schema. -/
def decodeItem : Nat → Json → Option Item
  | depth + 1, j => do
    match ← alternative j with
    | ("ComplexType", content) => (decodeStructured depth content).map .complexType
    | ("EntityType", content) => (decodeStructured depth content).map .entityType
    | ("EnumType", content) => (decodeEnum depth content).map .enumType
    | ("Association", content) => (decodeAssociation depth content).map .association
    | ("Term", content) => (decodeTerm depth content).map .term
    | ("EntityContainer", content) => (decodeContainer depth content).map .container
    | _ => none
  | 0, _ => none

/-- An alias for a namespace. -/
def decodeUsing : Nat → Json → Option Using
  | depth + 1, j => do
    match ← fields ["namespace", "alias", "location"] j with
    | [namespaceName, aliasName, location] =>
      pure ⟨← required decodeText namespaceName, ← required decodeText aliasName,
        ← required (decodeLocation depth) location⟩
    | _ => none
  | 0, _ => none

/-- A schema. -/
def decodeSchema : Nat → Json → Option Schema
  | depth + 1, j => do
    match ← fields ["namespace", "alias", "usings", "items", "annotations", "location"] j with
    | [namespaceName, alias?, usings, items, blocks, location] =>
      pure
        { namespaceName := ← required decodeText namespaceName
          alias? := ← optional decodeText alias?
          usings := ← required (decodeList decodeUsing depth) usings
          items := ← required (decodeList decodeItem depth) items
          blocks := ← required (decodeList decodeBlock depth) blocks
          location := ← required (decodeLocation depth) location }
    | _ => none
  | 0, _ => none

/-! ### Documents -/

/-- The version and the schemas of a document. -/
def decodeDocument : Nat → Json → Option (Nat × List Schema)
  | depth + 1, j => do
    match ← fields ["format_version", "schemas"] j with
    | [version, schemas] =>
      pure (← required (decodeNat 4294967295) version,
        ← required (decodeList decodeSchema depth) schemas)
    | _ => none
  | 0, _ => none

/-- The schemas of a document of this version. -/
def read (text : String) : Except ReadError (List Schema) :=
  match (Json.parse? text).bind (decodeDocument maxDepth) with
  | none => .error .malformed
  | some (version, schemas) =>
    if version = formatVersion then .ok schemas else .error (.unsupportedVersion version)

end Schemata.Document

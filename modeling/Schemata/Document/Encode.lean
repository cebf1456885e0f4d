import Schemata.Decl.Schema
import Schemata.Json.Printer

/-!
# Declarations as JSON documents: writing

A declaration is an object with all its fields in a fixed order, an absent optional one as null.  A
choice is an object whose one member is named for the alternative, or, where the alternative has no
fields, just that name.  A document is a list of schemas in an envelope with a version number.
-/

namespace Schemata.Document

open Decl

/-- The version number of the documents written here. -/
def formatVersion : Nat := 1

/-- A list of encoded values. -/
def encodeList {α : Type} (encode : α → Json) (as : List α) : Json := .array (as.map encode)

/-- A position. -/
def encodePosition (p : Position) : Json :=
  .ofMembers [("line", .nat p.line), ("column", .nat p.column)]

/-- A location. -/
def encodeLocation (l : Location) : Json :=
  .ofMembers
    [("document", .text l.document),
      ("span", .ofMembers
        [("start", encodePosition l.span.start), ("end", encodePosition l.span.stop)])]

/-! ### Annotations -/

mutual

/-- An expression. -/
def encodeExpr : Expr → Json
  | .node form location =>
    .ofMembers [("kind", encodeForm form), ("location", encodeLocation location)]

/-- The form of an expression. -/
def encodeForm : ExprForm Expr → Json
  | .constant kind text =>
    .tagged "Constant" (.ofMembers [("kind", .text kind.name), ("text", .text text)])
  | .null => .text "Null"
  | .path segments => .tagged "Path" (.array (segments.map .text))
  | .enumMember path => .tagged "EnumMember" (.text path)
  | .cond operands => .tagged "If" (.array (encodeExprs operands))
  | .cast typeName operands =>
    .tagged "Cast" (.ofMembers
      [("type_ref", .text typeName), ("operands", .array (encodeExprs operands))])
  | .isType typeName operands =>
    .tagged "IsType" (.ofMembers
      [("type_ref", .text typeName), ("operands", .array (encodeExprs operands))])
  | .record typeName properties =>
    .tagged "Record" (.ofMembers
      [("type_ref", .text? typeName), ("properties", .array (encodeBindings properties))])
  | .collection typeName elements =>
    .tagged "Collection" (.ofMembers
      [("type_ref", .text? typeName), ("elements", .array (encodeExprs elements))])
  | .apply function arguments =>
    .tagged "Apply" (.ofMembers
      [("function", .text function), ("arguments", .array (encodeExprs arguments))])
  | .labeled name operands =>
    .tagged "LabeledElement" (.ofMembers
      [("name", .text name), ("operands", .array (encodeExprs operands))])
  | .labelRef name => .tagged "LabeledElementReference" (.text name)

/-- Several expressions. -/
def encodeExprs : List Expr → List Json
  | [] => []
  | e :: es => encodeExpr e :: encodeExprs es

/-- Several assignments. -/
def encodeBindings : List (Binding Expr) → List Json
  | [] => []
  | ⟨property, value, location⟩ :: bs =>
    .ofMembers
      [("property", .text property), ("expr", encodeExpr value),
        ("location", encodeLocation location)] :: encodeBindings bs

end

/-- An annotation. -/
def encodeAnnotation (a : Annotation) : Json :=
  match a.content with
  | .value expr =>
    .tagged "Value" (.ofMembers
      [("term", .text a.term), ("qualifier", .text? a.qualifier), ("expr", encodeExpr expr),
        ("location", encodeLocation a.location)])
  | .properties bindings =>
    .tagged "Type" (.ofMembers
      [("term", .text a.term), ("qualifier", .text? a.qualifier),
        ("property_values", .array (encodeBindings bindings)),
        ("location", encodeLocation a.location)])

/-- The member for inline annotations. -/
def annotationsMember (as : List Annotation) : String × Json :=
  ("annotations", encodeList encodeAnnotation as)

/-- The member for the location. -/
def locationMember (l : Location) : String × Json := ("location", encodeLocation l)

/-- An annotation block. -/
def encodeBlock (b : Block) : Json :=
  .ofMembers
    [("target", .text b.target), ("qualifier", .text? b.qualifier),
      annotationsMember b.annotations, locationMember b.location]

/-! ### Types -/

/-- A property. -/
def encodeProperty (p : Property) : Json :=
  .ofMembers
    [("name", .text p.name), ("type_ref", .text p.typeName), ("nullable", .bool p.nullable),
      ("default_value", .text? p.default?), ("fixed_concurrency", .bool p.fixedConcurrency),
      annotationsMember p.annotations, locationMember p.location]

/-- A navigation property. -/
def encodeNavigation (n : Navigation) : Json :=
  .ofMembers
    [("name", .text n.name), ("relationship", .text n.relationship),
      ("from_role", .text n.fromRole), ("to_role", .text n.toRole),
      annotationsMember n.annotations, locationMember n.location]

/-- A complex or entity type. -/
def encodeStructured (t : Structured) : Json :=
  .ofMembers
    [("name", .text t.name), ("base_type", .text? t.base?), ("is_abstract", .bool t.isAbstract),
      ("is_open", .bool t.isOpen), ("key", encodeList .text t.key),
      ("properties", encodeList encodeProperty t.properties),
      ("navigation_properties", encodeList encodeNavigation t.navigation),
      annotationsMember t.annotations, locationMember t.location]

/-- A member of an enumeration. -/
def encodeEnumMember (m : EnumMember) : Json :=
  .ofMembers [("name", .text m.name), ("value", .text? m.value?), locationMember m.location]

/-- An enumeration. -/
def encodeEnum (e : Enum) : Json :=
  .ofMembers
    [("name", .text e.name), ("underlying_type", .text? e.underlying?),
      ("is_flags", .bool e.isFlags), ("members", encodeList encodeEnumMember e.members),
      annotationsMember e.annotations, locationMember e.location]

/-! ### Other declarations -/

/-- An end of an association. -/
def encodeAssociationEnd (e : AssociationEnd) : Json :=
  .ofMembers
    [("role", .text e.role), ("type_ref", .text e.typeName),
      ("multiplicity", .text e.multiplicity.name), locationMember e.location]

/-- An association. -/
def encodeAssociation (a : Association) : Json :=
  .ofMembers
    [("name", .text a.name), ("end1", encodeAssociationEnd a.end1),
      ("end2", encodeAssociationEnd a.end2), annotationsMember a.annotations,
      locationMember a.location]

/-- A term. -/
def encodeTerm (t : Term) : Json :=
  .ofMembers
    [("name", .text t.name), ("type_ref", .text t.typeName), ("nullable", .bool t.nullable),
      ("default_value", .text? t.default?), ("applies_to", .text? t.appliesTo?),
      annotationsMember t.annotations, locationMember t.location]

/-- An entity set. -/
def encodeEntitySet (s : EntitySet) : Json :=
  .ofMembers
    [("name", .text s.name), ("entity_type", .text s.entityType),
      annotationsMember s.annotations, locationMember s.location]

/-- An end of an association set, or null. -/
def encodeSetEnd? : Option AssociationSetEnd → Json
  | none => .null
  | some e =>
    .ofMembers
      [("role", .text e.role), ("entity_set", .text e.entitySet), locationMember e.location]

/-- An association set. -/
def encodeAssociationSet (s : AssociationSet) : Json :=
  .ofMembers
    [("name", .text s.name), ("association", .text s.association),
      ("end1", encodeSetEnd? s.end1?), ("end2", encodeSetEnd? s.end2?), locationMember s.location]

/-- A container. -/
def encodeContainer (c : Container) : Json :=
  .ofMembers
    [("name", .text c.name), ("extends", .text? c.extends?),
      ("entity_sets", encodeList encodeEntitySet c.entitySets),
      ("association_sets", encodeList encodeAssociationSet c.associationSets),
      annotationsMember c.annotations, locationMember c.location]

/-- A declaration at the top of a schema. -/
def encodeItem : Item → Json
  | .complexType t => .tagged "ComplexType" (encodeStructured t)
  | .entityType t => .tagged "EntityType" (encodeStructured t)
  | .enumType e => .tagged "EnumType" (encodeEnum e)
  | .association a => .tagged "Association" (encodeAssociation a)
  | .term t => .tagged "Term" (encodeTerm t)
  | .container c => .tagged "EntityContainer" (encodeContainer c)

/-- An alias for a namespace. -/
def encodeUsing (u : Using) : Json :=
  .ofMembers
    [("namespace", .text u.namespaceName), ("alias", .text u.aliasName), locationMember u.location]

/-- A schema. -/
def encodeSchema (s : Schema) : Json :=
  .ofMembers
    [("namespace", .text s.namespaceName), ("alias", .text? s.alias?),
      ("usings", encodeList encodeUsing s.usings), ("items", encodeList encodeItem s.items),
      ("annotations", encodeList encodeBlock s.blocks), locationMember s.location]

/-- The document of a list of schemas. -/
def encode (schemas : List Schema) : Json :=
  .ofMembers
    [("format_version", .nat formatVersion), ("schemas", encodeList encodeSchema schemas)]

/-- The text of the document of a list of schemas. -/
def write (schemas : List Schema) : String := (encode schemas).pretty

end Schemata.Document

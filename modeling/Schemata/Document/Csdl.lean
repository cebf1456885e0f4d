import Schemata.Decl.Schema
import Schemata.Markup

/-!
# Schema documents in markup

`Csdl.write` writes a list of schemas as the elements of the schema definition language, in one
envelope.  An attribute with its default value is left out, and so are locations.
-/

namespace Schemata.Csdl

open Decl

/-- An attribute that is left out if it has no value. -/
def attribute? (key : String) : Option String → List (String × String)
  | some value => [(key, value)]
  | none => []

/-- A truth value that is left out if it is the default. -/
def flag (key : String) (value default : Bool) : List (String × String) :=
  if value = default then [] else [(key, if value then "true" else "false")]

mutual

/-- An expression. -/
def expr : Expr → Markup
  | .node form _ =>
    match form with
    | .constant kind text => .text kind.elementName text
    | .null => .empty "Null" []
    | .path segments => .text "Path" (joinPath segments)
    | .enumMember path => .text "EnumMember" path
    | .cond operands => .node "If" [] (exprs operands)
    | .cast typeName operands => .node "Cast" [("Type", typeName)] (exprs operands)
    | .isType typeName operands => .node "IsType" [("Type", typeName)] (exprs operands)
    | .record typeName properties =>
      .node "Record" (attribute? "Type" typeName) (bindings properties)
    | .collection typeName elements =>
      .node "Collection" (attribute? "Type" typeName) (exprs elements)
    | .apply function arguments => .node "Apply" [("Function", function)] (exprs arguments)
    | .labeled name operands => .node "LabeledElement" [("Name", name)] (exprs operands)
    | .labelRef name => .text "LabeledElementReference" name

/-- Several expressions. -/
def exprs : List Expr → List Markup
  | [] => []
  | e :: es => expr e :: exprs es

/-- Several assignments. -/
def bindings : List (Binding Expr) → List Markup
  | [] => []
  | ⟨property, value, _⟩ :: bs =>
    .element "PropertyValue" [("Property", property)] [expr value] :: bindings bs

end

/-- An annotation. -/
def annot (a : Annotation) : Markup :=
  let attributes := ("Term", a.term) :: attribute? "Qualifier" a.qualifier
  match a.content with
  | .value e => .element "ValueAnnotation" attributes [expr e]
  | .properties bs => .node "TypeAnnotation" attributes (bindings bs)

/-- A property. -/
def property (p : Property) : Markup :=
  .node "Property"
    ([("Name", p.name), ("Type", p.typeName)] ++ flag "Nullable" p.nullable true ++
      attribute? "DefaultValue" p.default? ++
      (if p.fixedConcurrency then [("ConcurrencyMode", "Fixed")] else []))
    (p.annotations.map annot)

/-- A navigation property. -/
def navigation (n : Navigation) : Markup :=
  .node "NavigationProperty"
    [("Name", n.name), ("Relationship", n.relationship), ("FromRole", n.fromRole),
      ("ToRole", n.toRole)]
    (n.annotations.map annot)

/-- The key of an entity type. -/
def key (names : List Name) : List Markup :=
  if names.isEmpty then []
  else [.element "Key" [] (names.map fun name => .empty "PropertyRef" [("Name", name)])]

/-- A complex or entity type. -/
def structured (tag : String) (t : Structured) : Markup :=
  .node tag
    (("Name", t.name) :: attribute? "BaseType" t.base? ++ flag "Abstract" t.isAbstract false ++
      flag "OpenType" t.isOpen false)
    (key t.key ++ t.properties.map property ++ t.navigation.map navigation ++
      t.annotations.map annot)

/-- An enumeration. -/
def enum (e : Enum) : Markup :=
  .node "EnumType"
    (("Name", e.name) :: attribute? "UnderlyingType" e.underlying? ++
      flag "IsFlags" e.isFlags false)
    (e.members.map (fun m => .empty "Member" (("Name", m.name) :: attribute? "Value" m.value?)) ++
      e.annotations.map annot)

/-- An end of an association. -/
def associationEnd (e : AssociationEnd) : Markup :=
  .empty "End" [("Role", e.role), ("Type", e.typeName), ("Multiplicity", e.multiplicity.symbol)]

/-- An association. -/
def association (a : Association) : Markup :=
  .element "Association" [("Name", a.name)]
    (associationEnd a.end1 :: associationEnd a.end2 :: a.annotations.map annot)

/-- A term. -/
def term (t : Term) : Markup :=
  .node "ValueTerm"
    ([("Name", t.name), ("Type", t.typeName)] ++ flag "Nullable" t.nullable true ++
      attribute? "DefaultValue" t.default? ++ attribute? "AppliesTo" t.appliesTo?)
    (t.annotations.map annot)

/-- An entity set. -/
def entitySet (s : EntitySet) : Markup :=
  .node "EntitySet" [("Name", s.name), ("EntityType", s.entityType)] (s.annotations.map annot)

/-- An association set. -/
def associationSet (s : AssociationSet) : Markup :=
  .node "AssociationSet" [("Name", s.name), ("Association", s.association)]
    ((s.end1?.toList ++ s.end2?.toList).map fun e =>
      .empty "End" [("Role", e.role), ("EntitySet", e.entitySet)])

/-- A container. -/
def container (c : Container) : Markup :=
  .node "EntityContainer" (("Name", c.name) :: attribute? "Extends" c.extends?)
    (c.entitySets.map entitySet ++ c.associationSets.map associationSet ++
      c.annotations.map annot)

/-- A declaration at the top of a schema. -/
def item : Item → Markup
  | .complexType t => structured "ComplexType" t
  | .entityType t => structured "EntityType" t
  | .enumType e => enum e
  | .association a => association a
  | .term t => term t
  | .container c => container c

/-- An annotation block. -/
def block (b : Block) : Markup :=
  .node "Annotations" (("Target", b.target) :: attribute? "Qualifier" b.qualifier)
    (b.annotations.map annot)

/-- A schema. -/
def schema (s : Schema) : Markup :=
  .node "Schema"
    (("Namespace", s.namespaceName) :: attribute? "Alias" s.alias? ++
      [("xmlns", "http://schemas.microsoft.com/ado/2009/11/edm")])
    (s.usings.map (fun u =>
        .empty "Using" [("Namespace", u.namespaceName), ("Alias", u.aliasName)]) ++
      s.items.map item ++ s.blocks.map block)

/-- The envelope around a list of schemas. -/
def envelope (schemas : List Schema) : Markup :=
  .element "edmx:Edmx"
    [("Version", "3.0"), ("xmlns:edmx", "http://schemas.microsoft.com/ado/2009/11/edmx")]
    [.element "edmx:DataServices" [] (schemas.map schema)]

/-- The document of a list of schemas. -/
def write (schemas : List Schema) : String := (envelope schemas).document

end Schemata.Csdl

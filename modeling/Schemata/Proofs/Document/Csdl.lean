import Schemata.Proofs.Document.Erasure
import Schemata.Proofs.Markup

/-!
# What a schema document says

Everything in a schema can be read back from its document but what the erased form leaves out:
`Csdl.readSchema` gives the erased form of the schema whose element it is given.  A field is read
from the attribute of its name, and the declarations of one sort are those children whose tag says
so.

Since a document has one reading, two lists of schemas have the same document exactly if their
erased forms are the same (`Csdl.write_eq_write_iff`).
-/

namespace Schemata.Csdl

open Decl

/-! ### Reading elements -/

/-- The children of an element. -/
def children : Markup → List Markup
  | .element _ _ children => children
  | .empty .. | .text .. => []

/-- Those of some elements whose tag is one of the given ones. -/
def tagged (tags : List String) (ms : List Markup) : List Markup := ms.filter (·.name ∈ tags)

/-- The value of an attribute, if the element has it. -/
def value? (key : String) (m : Markup) : Option String := m.attributes.lookup key

/-- The value of an attribute that the element has. -/
def valueOf (key : String) (m : Markup) : String := (value? key m).getD ""

/-- The truth value of an attribute that is left out if it is the default. -/
def truthOf (key : String) (default : Bool) (m : Markup) : Bool :=
  ((value? key m).map (· == "true")).getD default

/-! ### Reading declarations -/

/-- The tags of elements that hold texts. -/
def textTags : List String :=
  ["Path", "EnumMember", "LabeledElementReference"] ++ ConstantKind.all.map (·.elementName)

/-- The form of an expression that holds a text. -/
def readText (name content : String) : ExprForm Expr :=
  if name = "Path" then .path [content]
  else if name = "EnumMember" then .enumMember content
  else if name = "LabeledElementReference" then .labelRef content
  else .constant ((ConstantKind.all.find? (·.elementName == name)).getD default) content

/-- The form of an expression that holds others. -/
def readForm (m : Markup) (operands : List Expr) (properties : List (Binding Expr)) :
    ExprForm Expr :=
  if m.name = "Null" then .null
  else if m.name = "If" then .cond operands
  else if m.name = "Cast" then .cast (valueOf "Type" m) operands
  else if m.name = "IsType" then .isType (valueOf "Type" m) operands
  else if m.name = "Record" then .record (value? "Type" m) properties
  else if m.name = "Collection" then .collection (value? "Type" m) operands
  else if m.name = "Apply" then .apply (valueOf "Function" m) operands
  else .labeled (valueOf "Name" m) operands

mutual

/-- The expression of an element. -/
def readExpr : Markup → Expr
  | .text name content => .node (readText name content) .unknown
  | .empty name attributes => .node (readForm (.empty name attributes) [] []) .unknown
  | .element name attributes ms =>
    .node (readForm (.empty name attributes) (readExprs ms) (readBindings ms)) .unknown

/-- The expressions of several elements. -/
def readExprs : List Markup → List Expr
  | [] => []
  | m :: ms => readExpr m :: readExprs ms

/-- The assignments of several elements. -/
def readBindings : List Markup → List (Binding Expr)
  | .element name attributes [m] :: ms =>
    ⟨valueOf "Property" (.empty name attributes), readExpr m, .unknown⟩ :: readBindings ms
  | _ => []

end

/-- The annotation of an element. -/
def readAnnotation (m : Markup) : Annotation where
  term := valueOf "Term" m
  qualifier := value? "Qualifier" m
  content :=
    if m.name = "ValueAnnotation" then .value ((readExprs (children m)).headD default)
    else .properties (readBindings (children m))
  location := .unknown

/-- The inline annotations in an element. -/
def readAnnotations (m : Markup) : List Annotation :=
  (tagged ["ValueAnnotation", "TypeAnnotation"] (children m)).map readAnnotation

/-- The property of an element. -/
def readProperty (m : Markup) : Property where
  name := valueOf "Name" m
  typeName := valueOf "Type" m
  nullable := truthOf "Nullable" true m
  default? := value? "DefaultValue" m
  fixedConcurrency := (value? "ConcurrencyMode" m).isSome
  annotations := readAnnotations m
  location := .unknown

/-- The navigation property of an element. -/
def readNavigation (m : Markup) : Navigation where
  name := valueOf "Name" m
  relationship := valueOf "Relationship" m
  fromRole := valueOf "FromRole" m
  toRole := valueOf "ToRole" m
  annotations := readAnnotations m
  location := .unknown

/-- The complex or entity type of an element. -/
def readStructured (m : Markup) : Structured where
  name := valueOf "Name" m
  base? := value? "BaseType" m
  isAbstract := truthOf "Abstract" false m
  isOpen := truthOf "OpenType" false m
  key := ((tagged ["Key"] (children m)).flatMap children).map (valueOf "Name")
  properties := (tagged ["Property"] (children m)).map readProperty
  navigation := (tagged ["NavigationProperty"] (children m)).map readNavigation
  annotations := readAnnotations m
  location := .unknown

/-- The enumeration of an element. -/
def readEnum (m : Markup) : Enum where
  name := valueOf "Name" m
  underlying? := value? "UnderlyingType" m
  isFlags := truthOf "IsFlags" false m
  members := (tagged ["Member"] (children m)).map fun m =>
    ⟨valueOf "Name" m, value? "Value" m, .unknown⟩
  annotations := readAnnotations m
  location := .unknown

/-- The end of an association of an element. -/
def readAssociationEnd (m : Markup) : AssociationEnd where
  role := valueOf "Role" m
  typeName := valueOf "Type" m
  multiplicity := (Multiplicity.all.find? (·.symbol == valueOf "Multiplicity" m)).getD default
  location := .unknown

/-- The association of an element. -/
def readAssociation (m : Markup) : Association :=
  let ends := (tagged ["End"] (children m)).map readAssociationEnd
  { name := valueOf "Name" m, end1 := ends.getD 0 default, end2 := ends.getD 1 default
    annotations := readAnnotations m, location := .unknown }

/-- The term of an element. -/
def readTerm (m : Markup) : Term where
  name := valueOf "Name" m
  typeName := valueOf "Type" m
  nullable := truthOf "Nullable" true m
  default? := value? "DefaultValue" m
  appliesTo? := value? "AppliesTo" m
  annotations := readAnnotations m
  location := .unknown

/-- The entity set of an element. -/
def readEntitySet (m : Markup) : EntitySet where
  name := valueOf "Name" m
  entityType := valueOf "EntityType" m
  annotations := readAnnotations m
  location := .unknown

/-- The association set of an element. -/
def readAssociationSet (m : Markup) : AssociationSet :=
  let ends : List AssociationSetEnd :=
    (children m).map fun m => ⟨valueOf "Role" m, valueOf "EntitySet" m, .unknown⟩
  { name := valueOf "Name" m, association := valueOf "Association" m, end1? := ends[0]?
    end2? := ends[1]?, location := .unknown }

/-- The container of an element. -/
def readContainer (m : Markup) : Container where
  name := valueOf "Name" m
  extends? := value? "Extends" m
  entitySets := (tagged ["EntitySet"] (children m)).map readEntitySet
  associationSets := (tagged ["AssociationSet"] (children m)).map readAssociationSet
  annotations := readAnnotations m
  location := .unknown

/-- The declaration of an element. -/
def readItem (m : Markup) : Item :=
  if m.name = "ComplexType" then .complexType (readStructured m)
  else if m.name = "EntityType" then .entityType (readStructured m)
  else if m.name = "EnumType" then .enumType (readEnum m)
  else if m.name = "Association" then .association (readAssociation m)
  else if m.name = "ValueTerm" then .term (readTerm m)
  else .container (readContainer m)

/-- The annotation block of an element. -/
def readBlock (m : Markup) : Block where
  target := valueOf "Target" m
  qualifier := value? "Qualifier" m
  annotations := readAnnotations m
  location := .unknown

/-- The tags of declarations at the top of a schema. -/
def itemTags : List String :=
  ["ComplexType", "EntityType", "EnumType", "Association", "ValueTerm", "EntityContainer"]

/-- The schema of an element. -/
def readSchema (m : Markup) : Schema where
  namespaceName := valueOf "Namespace" m
  alias? := value? "Alias" m
  usings :=
    (tagged ["Using"] (children m)).map fun m =>
      ⟨valueOf "Namespace" m, valueOf "Alias" m, .unknown⟩
  items := (tagged itemTags (children m)).map readItem
  blocks := (tagged ["Annotations"] (children m)).map readBlock
  location := .unknown

/-- The schemas in an envelope. -/
def readEnvelope (m : Markup) : List Schema := ((children m).flatMap children).map readSchema

/-! ### Parts of what is written -/

section parts

variable (name : String) (attributes : List (String × String)) (ms : List Markup)

@[simp]
theorem name_empty : (Markup.empty name attributes).name = name := rfl

@[simp]
theorem name_element : (Markup.element name attributes ms).name = name := rfl

@[simp]
theorem attributes_empty : (Markup.empty name attributes).attributes = attributes := rfl

@[simp]
theorem attributes_element : (Markup.element name attributes ms).attributes = attributes := rfl

@[simp]
theorem children_element : children (.element name attributes ms) = ms := rfl

@[simp]
theorem name_node : (Markup.node name attributes ms).name = name := by
  cases ms <;> rfl

@[simp]
theorem attributes_node : (Markup.node name attributes ms).attributes = attributes := by
  cases ms <;> rfl

@[simp]
theorem children_node : children (Markup.node name attributes ms) = ms := by
  cases ms <;> rfl

end parts

@[simp]
theorem lookup_attribute? (key : String) (v? : Option String) (k : String) :
    (attribute? key v?).lookup k = if k = key then v? else none := by
  cases v? with
  | none => simp [attribute?]
  | some v => by_cases h : k = key <;> simp [attribute?, List.lookup_cons, beq_eq_decide, h]

/-- The text of a truth value that is left out if it is the default. -/
def truthText? (v d : Bool) : Option String :=
  if v = d then none else some (if v then "true" else "false")

@[simp]
theorem lookup_flag (key : String) (v d : Bool) (k : String) :
    (flag key v d).lookup k = if k = key then truthText? v d else none := by
  unfold flag truthText?
  by_cases hv : v = d <;> by_cases hk : k = key <;>
    simp [List.lookup_cons, beq_eq_decide, hv, hk]

/-- A truth value is read back whether it is written or left out. -/
@[simp]
theorem getD_map_truthText? (v d : Bool) :
    ((truthText? v d).map (· == "true")).getD d = v := by
  cases v <;> cases d <;> rfl

@[simp]
theorem tagged_nil (tags : List String) : tagged tags [] = [] := rfl

@[simp]
theorem tagged_cons (tags : List String) (m : Markup) (ms : List Markup) :
    tagged tags (m :: ms) = (if m.name ∈ tags then [m] else []) ++ tagged tags ms := by
  by_cases h : m.name ∈ tags <;> simp [tagged, h]

@[simp]
theorem tagged_append (tags : List String) (ms ms' : List Markup) :
    tagged tags (ms ++ ms') = tagged tags ms ++ tagged tags ms' :=
  List.filter_append _ _

/-- Of things whose tags are looked for together, all or none are among those of some tags. -/
theorem tagged_map {α : Type} {f : α → Markup} {own tags : List String} {tag : String}
    (hf : ∀ a, (f a).name ∈ own) (h : ∀ t ∈ own, t ∈ tags ↔ tag ∈ tags) (l : List α) :
    tagged tags (l.map f) = if tag ∈ tags then l.map f else [] := by
  by_cases htag : tag ∈ tags
  · rw [if_pos htag, tagged, List.filter_eq_self]
    intro m hm
    obtain ⟨a, -, rfl⟩ := List.mem_map.1 hm
    exact decide_eq_true ((h _ (hf a)).2 htag)
  · rw [if_neg htag, tagged, List.filter_eq_nil_iff]
    intro m hm
    obtain ⟨a, -, rfl⟩ := List.mem_map.1 hm
    rw [decide_eq_true_eq, h _ (hf a)]
    exact htag

/-- Of things with one tag, all or none are among those of some tags. -/
theorem tagged_map_of_name {α : Type} {f : α → Markup} {tag : String}
    (hf : ∀ a, (f a).name = tag) (tags : List String) (l : List α) :
    tagged tags (l.map f) = if tag ∈ tags then l.map f else [] := by
  have hown : ∀ a, (f a).name ∈ [tag] := fun a => List.mem_singleton.2 (hf a)
  exact tagged_map hown (fun _ ht => by rw [List.mem_singleton.1 ht]) l

/-! ### Reading what is written -/

theorem readExpr_node (name : String) (attributes : List (String × String)) (ms : List Markup) :
    readExpr (.node name attributes ms) =
      .node (readForm (.empty name attributes) (readExprs ms) (readBindings ms)) .unknown := by
  cases ms <;> simp [Markup.node, readExpr, readExprs, readBindings]

theorem readText_elementName (kind : ConstantKind) (text : String) :
    readText kind.elementName text = .constant kind text := by
  cases kind <;> rfl

mutual

theorem readExpr_expr : (e : Expr) → readExpr (expr e) = e.erased
  | .node form _ => by
    cases form with
    | constant kind text => simp [expr, readExpr, Expr.erased, readText_elementName]
    | path | enumMember | labelRef => simp [expr, readExpr, Expr.erased, readText]
    | null => simp [expr, readExpr, Expr.erased, readForm]
    | cond es | cast _ es | isType _ es | collection _ es | apply _ es | labeled _ es =>
      simp [expr, readExpr_node, Expr.erased, readForm, readExprs_exprs es, valueOf, value?]
    | record _ bs =>
      simp [expr, readExpr_node, Expr.erased, readForm, readBindings_bindings bs, value?]

theorem readExprs_exprs : (es : List Expr) → readExprs (exprs es) = Expr.erasedAll es
  | [] => rfl
  | e :: es => by rw [exprs, readExprs, Expr.erasedAll, readExpr_expr e, readExprs_exprs es]

theorem readBindings_bindings :
    (bs : List (Binding Expr)) → readBindings (bindings bs) = Expr.erasedBindings bs
  | [] => rfl
  | ⟨property, value, _⟩ :: bs => by
    rw [bindings, readBindings, Expr.erasedBindings, readExpr_expr value, readBindings_bindings bs]
    rfl

end

@[simp]
theorem readAnnotation_annot (a : Annotation) : readAnnotation (annot a) = a.erased := by
  obtain ⟨term, qualifier, content, location⟩ := a
  cases content with
  | value e =>
    simp [valueOf, readAnnotation, annot, Annotation.erased, value?, readExprs, readExpr_expr,
      List.lookup_cons]
  | properties bs =>
    simp [valueOf, readAnnotation, annot, Annotation.erased, value?, List.lookup_cons,
      readBindings_bindings]

/-! ### Tags -/

theorem name_annot (a : Annotation) :
    (annot a).name ∈ ["ValueAnnotation", "TypeAnnotation"] := by
  unfold annot
  split <;> simp

@[simp]
theorem name_structured (tag : String) (t : Structured) : (structured tag t).name = tag :=
  name_node _ _ _

@[simp]
theorem name_enum (e : Enum) : (enum e).name = "EnumType" := name_node _ _ _

@[simp]
theorem name_association (a : Association) : (association a).name = "Association" := rfl

@[simp]
theorem name_term (t : Term) : (term t).name = "ValueTerm" := name_node _ _ _

@[simp]
theorem name_container (c : Container) : (container c).name = "EntityContainer" := name_node _ _ _

theorem name_item (i : Item) : (item i).name ∈ itemTags := by
  cases i <;> simp [item, itemTags]

/-- The two sorts of annotation are looked for together. -/
@[simp]
theorem tagged_map_annot {tags : List String}
    (h : "TypeAnnotation" ∈ tags ↔ "ValueAnnotation" ∈ tags) (as : List Annotation) :
    tagged tags (as.map annot) =
      if "ValueAnnotation" ∈ tags then as.map annot else [] :=
  tagged_map name_annot (by simpa using h) as

@[simp]
theorem tagged_map_property (tags : List String) (ps : List Property) :
    tagged tags (ps.map property) = if "Property" ∈ tags then ps.map property else [] :=
  tagged_map_of_name (fun _ => name_node _ _ _) tags ps

@[simp]
theorem tagged_map_navigation (tags : List String) (ns : List Navigation) :
    tagged tags (ns.map navigation) =
      if "NavigationProperty" ∈ tags then ns.map navigation else [] :=
  tagged_map_of_name (fun _ => name_node _ _ _) tags ns

@[simp]
theorem tagged_map_entitySet (tags : List String) (ss : List EntitySet) :
    tagged tags (ss.map entitySet) = if "EntitySet" ∈ tags then ss.map entitySet else [] :=
  tagged_map_of_name (fun _ => name_node _ _ _) tags ss

@[simp]
theorem tagged_map_associationSet (tags : List String) (ss : List AssociationSet) :
    tagged tags (ss.map associationSet) =
      if "AssociationSet" ∈ tags then ss.map associationSet else [] :=
  tagged_map_of_name (fun _ => name_node _ _ _) tags ss

@[simp]
theorem tagged_map_block (tags : List String) (bs : List Block) :
    tagged tags (bs.map block) = if "Annotations" ∈ tags then bs.map block else [] :=
  tagged_map_of_name (fun _ => name_node _ _ _) tags bs

/-- Elements of one tag each. -/
@[simp]
theorem tagged_map_empty {α : Type} (tags : List String) (tag : String)
    (attributes : α → List (String × String)) (l : List α) :
    tagged tags (l.map fun a => .empty tag (attributes a)) =
      if tag ∈ tags then l.map fun a => .empty tag (attributes a) else [] :=
  tagged_map_of_name (f := fun a => .empty tag (attributes a)) (fun _ => rfl) tags l

@[simp]
theorem tagged_key (tags : List String) (names : List Name) :
    tagged tags (key names) = if "Key" ∈ tags then key names else [] := by
  by_cases h : "Key" ∈ tags <;> cases names <;> simp [key, h]

@[simp]
theorem map_flatMap_key (names : List Name) :
    ((key names).flatMap children).map (valueOf "Name") = names := by
  cases names with
  | nil => rfl
  | cons name names => simp [key, valueOf, value?, Function.comp_def]

/-! ### Reading declarations that are written -/

@[simp]
theorem readProperty_property (p : Property) : readProperty (property p) = p.erased := by
  cases hfixed : p.fixedConcurrency <;>
    simp [readProperty, property, Property.erased, readAnnotations, valueOf, value?, truthOf,
      List.lookup_cons, List.lookup_append, hfixed, Function.comp_def]

@[simp]
theorem readNavigation_navigation (n : Navigation) : readNavigation (navigation n) = n.erased := by
  simp [readNavigation, navigation, Navigation.erased, readAnnotations, valueOf, value?,
    List.lookup_cons, Function.comp_def]

theorem readStructured_structured (tag : String) (t : Structured) :
    readStructured (structured tag t) = t.erased := by
  simp [readStructured, structured, Structured.erased, readAnnotations, valueOf, value?, truthOf,
    List.lookup_cons, List.lookup_append, Function.comp_def]

theorem readEnum_enum (e : Enum) : readEnum (enum e) = e.erased := by
  simp [readEnum, enum, Enum.erased, readAnnotations, valueOf, value?, truthOf, List.lookup_cons,
    List.lookup_append, Function.comp_def]

theorem readAssociationEnd_associationEnd (e : AssociationEnd) :
    readAssociationEnd (associationEnd e) = { e with location := .unknown } := by
  obtain ⟨role, typeName, multiplicity, location⟩ := e
  cases multiplicity <;> rfl

theorem readAssociation_association (a : Association) :
    readAssociation (association a) = a.erased := by
  have hname (e : AssociationEnd) : (associationEnd e).name = "End" := rfl
  simp [readAssociation, association, Association.erased, readAnnotations, valueOf, value?, hname,
    readAssociationEnd_associationEnd, Function.comp_def]

theorem readTerm_term (t : Term) : readTerm (term t) = t.erased := by
  simp [readTerm, term, Term.erased, readAnnotations, valueOf, value?, truthOf, List.lookup_cons,
    List.lookup_append, Function.comp_def]

@[simp]
theorem readEntitySet_entitySet (s : EntitySet) : readEntitySet (entitySet s) = s.erased := by
  simp [readEntitySet, entitySet, EntitySet.erased, readAnnotations, valueOf, value?,
    List.lookup_cons, Function.comp_def]

@[simp]
theorem readAssociationSet_associationSet (s : AssociationSet) :
    readAssociationSet (associationSet s) = s.erased := by
  simp [readAssociationSet, associationSet, AssociationSet.erased, AssociationSet.ends, valueOf,
    value?, List.lookup_cons, Function.comp_def]

theorem readContainer_container (c : Container) : readContainer (container c) = c.erased := by
  simp [readContainer, container, Container.erased, readAnnotations, valueOf, value?,
    List.lookup_cons, Function.comp_def]

@[simp]
theorem readItem_item (i : Item) : readItem (item i) = i.erased := by
  cases i with
  | complexType t | entityType t => simp [readItem, item, Item.erased, readStructured_structured]
  | enumType e => simp [readItem, item, Item.erased, readEnum_enum]
  | association a => simp [readItem, item, Item.erased, readAssociation_association]
  | term t => simp [readItem, item, Item.erased, readTerm_term]
  | container c => simp [readItem, item, Item.erased, readContainer_container]

@[simp]
theorem readBlock_block (b : Block) : readBlock (block b) = b.erased := by
  simp [readBlock, block, Block.erased, readAnnotations, valueOf, value?, List.lookup_cons,
    Function.comp_def]

/-- The sorts of declaration are looked for together. -/
theorem tagged_map_item {tags : List String} (tag : String)
    (h : ∀ t ∈ itemTags, t ∈ tags ↔ tag ∈ tags) (is : List Item) :
    tagged tags (is.map item) = if tag ∈ tags then is.map item else [] :=
  tagged_map name_item h is

theorem readSchema_schema (s : Schema) : readSchema (schema s) = s.erased := by
  have husings : tagged ["Using"] (s.items.map item) = [] :=
    tagged_map_item "ComplexType" (by simp [itemTags]) s.items
  have hblocks : tagged ["Annotations"] (s.items.map item) = [] :=
    tagged_map_item "ComplexType" (by simp [itemTags]) s.items
  have hitems : tagged itemTags (s.items.map item) = s.items.map item :=
    tagged_map_item "ComplexType" (by simp [itemTags]) s.items
  simp only [itemTags] at hitems
  simp [readSchema, schema, Schema.erased, valueOf, value?, itemTags, husings, hitems, hblocks,
    List.lookup_cons, List.lookup_append, Function.comp_def]

theorem readEnvelope_envelope (schemas : List Schema) :
    readEnvelope (envelope schemas) = schemas.map (·.erased) := by
  simp [readEnvelope, envelope, readSchema_schema, Function.comp_def]

/-! ### Names -/

/-- The tags of elements that hold no texts. -/
def elementTags : List String :=
  ["Null", "If", "Cast", "IsType", "Record", "Collection", "Apply", "LabeledElement",
    "PropertyValue", "ValueAnnotation", "TypeAnnotation", "Property", "NavigationProperty", "Key",
    "PropertyRef", "Member", "End", "EntitySet", "AssociationSet", "Using", "Annotations", "Schema",
    "edmx:DataServices", "edmx:Edmx"] ++ itemTags

/-- The keys of attributes. -/
def keys : List String :=
  ["Type", "Function", "Name", "Property", "Term", "Qualifier", "Nullable", "DefaultValue",
    "ConcurrencyMode", "Relationship", "FromRole", "ToRole", "BaseType", "Abstract", "OpenType",
    "UnderlyingType", "IsFlags", "Value", "Role", "Multiplicity", "AppliesTo", "EntityType",
    "EntitySet", "Association", "Extends", "Target", "Namespace", "Alias", "xmlns", "Version",
    "xmlns:edmx"]

/-- Whether elements of that name hold a text. -/
def isText (name : String) : Bool := decide (name ∈ textTags)

theorem isName_of_mem : ∀ name ∈ textTags ++ elementTags ++ keys, Markup.isName name := by
  decide +kernel

theorem isText_of_mem_elementTags : ∀ name ∈ elementTags, isText name = false := by
  decide +kernel

/-- All attributes have one of the keys. -/
def HasKeys (attributes : List (String × String)) : Prop := ∀ a ∈ attributes, a.1 ∈ keys

section keys

variable {attributes attributes' : List (String × String)} {key value : String}

@[simp]
theorem hasKeys_nil : HasKeys [] := fun _ h => absurd h List.not_mem_nil

@[simp]
theorem hasKeys_cons : HasKeys ((key, value) :: attributes) ↔ key ∈ keys ∧ HasKeys attributes :=
  List.forall_mem_cons

@[simp]
theorem hasKeys_append :
    HasKeys (attributes ++ attributes') ↔ HasKeys attributes ∧ HasKeys attributes' :=
  List.forall_mem_append

@[simp]
theorem hasKeys_attribute? (v? : Option String) :
    HasKeys (attribute? key v?) ↔ key ∈ keys ∨ v? = none := by
  cases v? <;> simp [attribute?]

@[simp]
theorem hasKeys_flag (v d : Bool) : HasKeys (flag key v d) ↔ key ∈ keys ∨ v = d := by
  unfold flag
  split <;> simp [*]

theorem HasKeys.isName (h : HasKeys attributes) : ∀ a ∈ attributes, Markup.isName a.1 :=
  fun a ha => isName_of_mem a.1 (List.mem_append_right _ (h a ha))

end keys

/-! ### Elements that are written are plain -/

section plain

variable {tag : String} {attributes : List (String × String)} {ms : List Markup}

theorem isPlain_empty (ht : tag ∈ elementTags) (ha : HasKeys attributes) :
    (Markup.empty tag attributes).IsPlain isText :=
  .empty (isName_of_mem tag (by simp [ht])) ha.isName

theorem isPlain_element (ht : tag ∈ elementTags) (ha : HasKeys attributes)
    (hms : ∀ m ∈ ms, m.IsPlain isText) : (Markup.element tag attributes ms).IsPlain isText :=
  .element (isName_of_mem tag (by simp [ht])) ha.isName (isText_of_mem_elementTags tag ht) hms

theorem isPlain_node (ht : tag ∈ elementTags) (ha : HasKeys attributes)
    (hms : ∀ m ∈ ms, m.IsPlain isText) : (Markup.node tag attributes ms).IsPlain isText := by
  cases ms with
  | nil => exact isPlain_empty ht ha
  | cons m ms => exact isPlain_element ht ha hms

theorem isPlain_text (ht : tag ∈ textTags) (content : String) :
    (Markup.text tag content).IsPlain isText :=
  .text (isName_of_mem tag (by simp [ht])) (decide_eq_true ht)

end plain

mutual

theorem isPlain_expr : (e : Expr) → (expr e).IsPlain isText
  | .node form _ => by
    cases form with
    | constant kind text =>
      rw [expr]
      exact isPlain_text (by cases kind <;> decide +kernel) text
    | path | enumMember | labelRef =>
      rw [expr]
      exact isPlain_text (by simp [textTags]) _
    | null =>
      rw [expr]
      exact isPlain_empty (by simp [elementTags]) hasKeys_nil
    | cond es | cast _ es | isType _ es | collection _ es | apply _ es | labeled _ es =>
      rw [expr]
      exact isPlain_node (by simp [elementTags]) (by simp [keys]) (isPlain_of_mem_exprs es)
    | record _ bs =>
      rw [expr]
      exact isPlain_node (by simp [elementTags]) (by simp [keys]) (isPlain_of_mem_bindings bs)

theorem isPlain_of_mem_exprs : (es : List Expr) → ∀ m ∈ exprs es, m.IsPlain isText
  | [] => fun _ h => absurd h List.not_mem_nil
  | e :: es => List.forall_mem_cons.2 ⟨isPlain_expr e, isPlain_of_mem_exprs es⟩

theorem isPlain_of_mem_bindings :
    (bs : List (Binding Expr)) → ∀ m ∈ bindings bs, m.IsPlain isText
  | [] => fun _ h => absurd h List.not_mem_nil
  | ⟨_, value, _⟩ :: bs =>
    have hvalue : ∀ m ∈ [expr value], m.IsPlain isText :=
      List.forall_mem_singleton.2 (isPlain_expr value)
    List.forall_mem_cons.2
      ⟨isPlain_element (by simp [elementTags]) (by simp [keys]) hvalue, isPlain_of_mem_bindings bs⟩

end

@[simp]
theorem isPlain_annot (a : Annotation) : (annot a).IsPlain isText := by
  obtain ⟨term, qualifier, content, location⟩ := a
  cases content with
  | value e =>
    exact isPlain_element (by simp [elementTags]) (by simp [keys])
      (List.forall_mem_singleton.2 (isPlain_expr e))
  | properties bs =>
    exact isPlain_node (by simp [elementTags]) (by simp [keys]) (isPlain_of_mem_bindings bs)

@[simp]
theorem isPlain_property (p : Property) : (property p).IsPlain isText := by
  refine isPlain_node (by simp [elementTags]) ?_ (by simp)
  cases hfixed : p.fixedConcurrency <;> simp [keys]

@[simp]
theorem isPlain_navigation (n : Navigation) : (navigation n).IsPlain isText :=
  isPlain_node (by simp [elementTags]) (by simp [keys]) (by simp)

theorem isPlain_of_mem_key (names : List Name) : ∀ m ∈ key names, m.IsPlain isText := by
  cases names with
  | nil => exact fun _ h => absurd h List.not_mem_nil
  | cons name names =>
    have href (name : Name) : (Markup.empty "PropertyRef" [("Name", name)]).IsPlain isText :=
      isPlain_empty (by simp [elementTags]) (by simp [keys])
    exact List.forall_mem_singleton.2
      (isPlain_element (by simp [elementTags]) hasKeys_nil
        (List.forall_mem_map.2 fun n _ => href n))

theorem isPlain_structured {tag : String} (ht : tag ∈ elementTags) (t : Structured) :
    (structured tag t).IsPlain isText :=
  isPlain_node ht (by simp [keys]) (by simpa [or_imp, forall_and] using isPlain_of_mem_key t.key)

theorem isPlain_enum (e : Enum) : (enum e).IsPlain isText := by
  have hmember (m : EnumMember) :
      (Markup.empty "Member" (("Name", m.name) :: attribute? "Value" m.value?)).IsPlain isText :=
    isPlain_empty (by simp [elementTags]) (by simp [keys])
  exact isPlain_node (by simp [elementTags, itemTags]) (by simp [keys])
    (by simp [or_imp, forall_and, hmember])

theorem isPlain_association (a : Association) : (association a).IsPlain isText := by
  have hend (e : AssociationEnd) : (associationEnd e).IsPlain isText :=
    isPlain_empty (by simp [elementTags]) (by simp [keys])
  exact isPlain_element (by simp [elementTags, itemTags]) (by simp [keys]) (by simp [hend])

theorem isPlain_term (t : Term) : (term t).IsPlain isText :=
  isPlain_node (by simp [elementTags, itemTags]) (by simp [keys]) (by simp)

@[simp]
theorem isPlain_entitySet (s : EntitySet) : (entitySet s).IsPlain isText :=
  isPlain_node (by simp [elementTags]) (by simp [keys]) (by simp)

@[simp]
theorem isPlain_associationSet (s : AssociationSet) : (associationSet s).IsPlain isText := by
  have hend (e : AssociationSetEnd) :
      (Markup.empty "End" [("Role", e.role), ("EntitySet", e.entitySet)]).IsPlain isText :=
    isPlain_empty (by simp [elementTags]) (by simp [keys])
  exact isPlain_node (by simp [elementTags]) (by simp [keys])
    (List.forall_mem_map.2 fun e _ => hend e)

theorem isPlain_container (c : Container) : (container c).IsPlain isText :=
  isPlain_node (by simp [elementTags, itemTags]) (by simp [keys]) (by simp [or_imp, forall_and])

@[simp]
theorem isPlain_item (i : Item) : (item i).IsPlain isText := by
  cases i with
  | complexType t | entityType t => exact isPlain_structured (by simp [elementTags, itemTags]) t
  | enumType e => exact isPlain_enum e
  | association a => exact isPlain_association a
  | term t => exact isPlain_term t
  | container c => exact isPlain_container c

@[simp]
theorem isPlain_block (b : Block) : (block b).IsPlain isText :=
  isPlain_node (by simp [elementTags]) (by simp [keys]) (by simp)

theorem isPlain_schema (s : Schema) : (schema s).IsPlain isText := by
  have husing (u : Using) :
      (Markup.empty "Using" [("Namespace", u.namespaceName), ("Alias", u.aliasName)]).IsPlain
        isText :=
    isPlain_empty (by simp [elementTags]) (by simp [keys])
  exact isPlain_node (by simp [elementTags]) (by simp [keys])
    (by simp [or_imp, forall_and, husing])

theorem isPlain_envelope (schemas : List Schema) : (envelope schemas).IsPlain isText := by
  have hservices : (Markup.element "edmx:DataServices" [] (schemas.map schema)).IsPlain isText :=
    isPlain_element (by simp [elementTags]) hasKeys_nil
      (List.forall_mem_map.2 fun s _ => isPlain_schema s)
  exact isPlain_element (by simp [elementTags]) (by simp [keys])
    (List.forall_mem_singleton.2 hservices)

/-! ### Documents -/

/-- **What a document tells apart.**  Two lists of schemas have the same document exactly if they
differ in nothing but the locations, the division of paths into segments and the places of single
ends of association sets. -/
theorem write_eq_write_iff (a b : List Schema) :
    write a = write b ↔ a.map (·.erased) = b.map (·.erased) := by
  constructor
  · intro h
    have henvelope : envelope a = envelope b :=
      (Markup.document_eq_document_iff (isPlain_envelope a) (isPlain_envelope b)).1 h
    rw [← readEnvelope_envelope, ← readEnvelope_envelope, henvelope]
  · intro h
    rw [← write_map_erased a, ← write_map_erased b, h]

end Schemata.Csdl

import Schemata.Decl.Schema
import Schemata.Model.ExprArena
import Schemata.Model.Id

/-!
# The entries of a model

A model takes the declarations apart: each element gets an entry of its own, which holds what was
declared of the element itself and the numbers of the elements that were declared inside it.
-/

namespace Schemata

/-! ### Schemas and annotations -/

/-- A schema. -/
structure SchemaEntry where
  namespaceName : Name
  alias? : Option Name
  usings : List Decl.Using
  items : List ItemId
  location : Location
deriving Inhabited

/-- A block of annotations that stand apart from their target. -/
structure BlockEntry where
  schema : Id .schema
  target : Name
  qualifier : Option Name
  annotations : List (Id .annot)
  /-- The element that the target names, if there is one. -/
  attachedTo? : Option Target
  location : Location
deriving Inhabited

/-- An annotation. -/
structure AnnotationEntry where
  schema : Id .schema
  decl : Decl.Annotation
  /-- The element that is annotated. -/
  target? : Option Target
  /-- The type in which the paths of the expressions begin. -/
  context? : Option (Id .type)
  /-- Whether the annotation stands in a block. -/
  outOfLine : Bool
  exprs : ExprArena
  /-- The places of the value, or of the values of the bindings. -/
  roots : List Nat
deriving Inhabited

/-! ### Types -/

/-- The three sorts of declared type. -/
inductive TypeKind where
  | complex
  | entity
  | enum
deriving DecidableEq, Repr, Inhabited

/-- The words for a sort of type. -/
def TypeKind.display : TypeKind → String
  | complex => "complex type"
  | entity => "entity type"
  | enum => "enum type"

/-- What is declared of a complex or entity type. -/
structure StructuredEntry where
  base? : Option Name
  isAbstract : Bool
  isOpen : Bool
  key : List Name
  properties : List (Id .property)
  navigation : List (Id .navigation)
deriving Inhabited

/-- What is declared of an enumeration. -/
structure EnumEntry where
  underlying? : Option Name
  isFlags : Bool
  members : List Decl.EnumMember
deriving Inhabited

/-- What is declared of a type, by its sort. -/
inductive TypeBody where
  | complex (body : StructuredEntry)
  | entity (body : StructuredEntry)
  | enum (body : EnumEntry)
deriving Inhabited

namespace TypeBody

/-- The sort of the type. -/
def kind : TypeBody → TypeKind
  | complex _ => .complex
  | entity _ => .entity
  | enum _ => .enum

/-- What is declared of a complex or entity type. -/
def structured? : TypeBody → Option StructuredEntry
  | complex body | entity body => some body
  | enum _ => none

/-- What is declared of an enumeration. -/
def enum? : TypeBody → Option EnumEntry
  | enum body => some body
  | complex _ | entity _ => none

end TypeBody

/-- A type. -/
structure TypeEntry where
  schema : Id .schema
  name : Name
  qualifiedName : Name
  body : TypeBody
  annotations : List (Id .annot)
  location : Location
deriving Inhabited

/-- A structural property. -/
structure PropertyEntry where
  /-- The type that declares the property. -/
  declaring : Id .type
  name : Name
  typeName : Name
  nullable : Bool
  default? : Option String
  fixedConcurrency : Bool
  annotations : List (Id .annot)
  location : Location
deriving Inhabited

/-- A navigation property. -/
structure NavigationEntry where
  /-- The type that declares the property. -/
  declaring : Id .type
  name : Name
  relationship : Name
  fromRole : Name
  toRole : Name
  annotations : List (Id .annot)
  location : Location
deriving Inhabited

/-! ### Associations, terms and containers -/

/-- An association. -/
structure AssociationEntry where
  schema : Id .schema
  name : Name
  qualifiedName : Name
  end1 : Decl.AssociationEnd
  end2 : Decl.AssociationEnd
  annotations : List (Id .annot)
  location : Location
deriving Inhabited

/-- A term. -/
structure TermEntry where
  schema : Id .schema
  name : Name
  qualifiedName : Name
  typeName : Name
  nullable : Bool
  default? : Option String
  appliesTo? : Option String
  annotations : List (Id .annot)
  location : Location
deriving Inhabited

/-- A container. -/
structure ContainerEntry where
  schema : Id .schema
  name : Name
  qualifiedName : Name
  extends? : Option Name
  entitySets : List (Id .entitySet)
  associationSets : List (Id .associationSet)
  annotations : List (Id .annot)
  location : Location
deriving Inhabited

/-- An entity set. -/
structure EntitySetEntry where
  container : Id .container
  name : Name
  entityType : Name
  annotations : List (Id .annot)
  location : Location
deriving Inhabited

/-- An association set. -/
structure AssociationSetEntry where
  container : Id .container
  decl : Decl.AssociationSet
deriving Inhabited

/-! ### By kind -/

/-- The entry of an element, by its kind. -/
abbrev Entry : ElementKind → Type
  | .schema => SchemaEntry
  | .type => TypeEntry
  | .property => PropertyEntry
  | .navigation => NavigationEntry
  | .association => AssociationEntry
  | .term => TermEntry
  | .container => ContainerEntry
  | .entitySet => EntitySetEntry
  | .associationSet => AssociationSetEntry
  | .annot => AnnotationEntry

instance : (k : ElementKind) → Inhabited (Entry k)
  | .schema => inferInstanceAs (Inhabited SchemaEntry)
  | .type => inferInstanceAs (Inhabited TypeEntry)
  | .property => inferInstanceAs (Inhabited PropertyEntry)
  | .navigation => inferInstanceAs (Inhabited NavigationEntry)
  | .association => inferInstanceAs (Inhabited AssociationEntry)
  | .term => inferInstanceAs (Inhabited TermEntry)
  | .container => inferInstanceAs (Inhabited ContainerEntry)
  | .entitySet => inferInstanceAs (Inhabited EntitySetEntry)
  | .associationSet => inferInstanceAs (Inhabited AssociationSetEntry)
  | .annot => inferInstanceAs (Inhabited AnnotationEntry)

end Schemata

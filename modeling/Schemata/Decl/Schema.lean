import Schemata.Decl.Annotation

/-!
# Schemas as they are declared

A `Schema` is one document: a namespace, aliases for namespaces, declarations in document order and
annotation blocks.  Nothing in it is checked; references are names as they were written.
-/

namespace Schemata.Decl

/-! ### Types -/

/-- A structural property. -/
structure Property where
  name : Name
  /-- The type reference as it was written. -/
  typeName : Name
  nullable : Bool
  default? : Option String
  fixedConcurrency : Bool
  annotations : List Annotation
  location : Location
deriving DecidableEq, Inhabited

/-- A property that leads along an association to another entity. -/
structure Navigation where
  name : Name
  /-- The association. -/
  relationship : Name
  fromRole : Name
  toRole : Name
  annotations : List Annotation
  location : Location
deriving DecidableEq, Inhabited

/-- A complex or entity type; which of the two, the item says that declares it. -/
structure Structured where
  name : Name
  base? : Option Name
  isAbstract : Bool
  isOpen : Bool
  /-- The names of the key properties. -/
  key : List Name
  properties : List Property
  navigation : List Navigation
  annotations : List Annotation
  location : Location
deriving DecidableEq, Inhabited

/-- A member of an enumeration. -/
structure EnumMember where
  name : Name
  /-- The value as it was written; a member without one counts on from its predecessor. -/
  value? : Option String
  location : Location
deriving DecidableEq, Inhabited

/-- An enumeration. -/
structure Enum where
  name : Name
  /-- The integral type of the values, `Edm.Int32` if none is given. -/
  underlying? : Option Name
  isFlags : Bool
  members : List EnumMember
  annotations : List Annotation
  location : Location
deriving DecidableEq, Inhabited

/-! ### Associations -/

/-- How many entities stand at an end. -/
inductive Multiplicity where
  | zeroOrOne
  | one
  | many
deriving DecidableEq, Repr, Inhabited

namespace Multiplicity

/-- All of them. -/
def all : List Multiplicity := [zeroOrOne, one, many]

/-- The name of a multiplicity. -/
def name : Multiplicity → Name
  | zeroOrOne => "ZeroOrOne"
  | one => "One"
  | many => "Many"

/-- The multiplicity of that name. -/
def ofName? (name : Name) : Option Multiplicity := all.find? (·.name == name)

/-- The multiplicity as a schema document writes it. -/
def symbol : Multiplicity → String
  | zeroOrOne => "0..1"
  | one => "1"
  | many => "*"

end Multiplicity

/-- An end of an association. -/
structure AssociationEnd where
  role : Name
  /-- The entity type at the end. -/
  typeName : Name
  multiplicity : Multiplicity
  location : Location
deriving DecidableEq, Inhabited

/-- A relation between two entity types. -/
structure Association where
  name : Name
  end1 : AssociationEnd
  end2 : AssociationEnd
  annotations : List Annotation
  location : Location
deriving DecidableEq, Inhabited

/-! ### Terms and containers -/

/-- A term, to which annotations give values. -/
structure Term where
  name : Name
  typeName : Name
  nullable : Bool
  default? : Option String
  /-- The sorts of element the term is meant for, separated by blanks. -/
  appliesTo? : Option String
  annotations : List Annotation
  location : Location
deriving DecidableEq, Inhabited

/-- A set of entities of one type. -/
structure EntitySet where
  name : Name
  entityType : Name
  annotations : List Annotation
  location : Location
deriving DecidableEq, Inhabited

/-- The entity set at an end of an association set. -/
structure AssociationSetEnd where
  role : Name
  entitySet : Name
  location : Location
deriving DecidableEq, Inhabited

/-- A set of links of one association. -/
structure AssociationSet where
  name : Name
  association : Name
  end1? : Option AssociationSetEnd
  end2? : Option AssociationSetEnd
  location : Location
deriving DecidableEq, Inhabited

/-- A container of entity sets and association sets. -/
structure Container where
  name : Name
  extends? : Option Name
  entitySets : List EntitySet
  associationSets : List AssociationSet
  annotations : List Annotation
  location : Location
deriving DecidableEq, Inhabited

/-! ### Schemas -/

/-- A declaration at the top of a schema. -/
inductive Item where
  | complexType (t : Structured)
  | entityType (t : Structured)
  | enumType (t : Enum)
  | association (a : Association)
  | term (t : Term)
  | container (c : Container)
deriving DecidableEq, Inhabited

namespace Item

/-- The declared name. -/
def name : Item → Name
  | complexType t | entityType t => t.name
  | enumType t => t.name
  | association a => a.name
  | term t => t.name
  | container c => c.name

/-- Where the declaration stands. -/
def location : Item → Location
  | complexType t | entityType t => t.location
  | enumType t => t.location
  | association a => a.location
  | term t => t.location
  | container c => c.location

end Item

/-- An alias for a namespace that is declared elsewhere. -/
structure Using where
  namespaceName : Name
  aliasName : Name
  location : Location
deriving DecidableEq, Inhabited

/-- One schema document. -/
structure Schema where
  namespaceName : Name
  /-- A name that stands for the namespace in the references of this schema. -/
  alias? : Option Name
  usings : List Using
  items : List Item
  /-- The annotations that stand apart from their targets. -/
  blocks : List Block
  location : Location
deriving DecidableEq, Inhabited

end Schemata.Decl

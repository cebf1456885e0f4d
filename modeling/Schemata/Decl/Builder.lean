import Schemata.Decl.Schema
import Schemata.Text.Pieces

/-!
# Building declarations

Constructors with everything optional left out, and functions that add one thing.  A child that is
added by its parts alone stands where its parent stands at that moment.
-/

namespace Schemata.Decl

namespace Binding

/-- Assigns `value` to a property. -/
def make (property : Name) (value : Expr) : Binding Expr := ⟨property, value, .unknown⟩

end Binding

namespace Expr

/-- An expression of the given form at no known place. -/
def ofForm (form : ExprForm Expr) : Expr := node form .unknown

/-- The expression at another place. -/
def at' (e : Expr) (location : Location) : Expr := node e.form location

/-- A whole number. -/
def int (value : Int) : Expr := ofForm (.constant .int (toString value))

/-- A string. -/
def string (text : String) : Expr := ofForm (.constant .string text)

/-- A truth value. -/
def bool (value : Bool) : Expr := ofForm (.constant .boolean (if value then "true" else "false"))

/-- No value. -/
def null : Expr := ofForm .null

/-- The path whose segments are the non-empty pieces between slashes. -/
def path (text : String) : Expr :=
  ofForm (.path ((Text.words (· == '/') text.toList).map String.ofList))

/-- A choice between two outcomes. -/
def cond (test ifTrue ifFalse : Expr) : Expr := ofForm (.cond [test, ifTrue, ifFalse])

/-- A conversion. -/
def cast (typeName : Name) (operand : Expr) : Expr := ofForm (.cast typeName [operand])

/-- A type test. -/
def isType (typeName : Name) (operand : Expr) : Expr := ofForm (.isType typeName [operand])

/-- A collection without a declared type. -/
def collection (elements : List Expr) : Expr := ofForm (.collection none elements)

/-- A function call. -/
def apply (function : Name) (arguments : List Expr) : Expr := ofForm (.apply function arguments)

/-- An expression with a label. -/
def labeled (name : Name) (operand : Expr) : Expr := ofForm (.labeled name [operand])

end Expr

namespace Annotation

/-- A value annotation. -/
def value (term : Name) (expr : Expr) : Annotation := ⟨term, none, .value expr, .unknown⟩

/-- A type annotation. -/
def typed (term : Name) (bindings : List (Binding Expr)) : Annotation :=
  ⟨term, none, .properties bindings, .unknown⟩

end Annotation

namespace Property

/-- A nullable property. -/
def make (name typeName : Name) : Property := ⟨name, typeName, true, none, false, [], .unknown⟩

end Property

namespace Structured

/-- A type with no members. -/
def make (name : Name) : Structured := ⟨name, none, false, false, [], [], [], [], .unknown⟩

/-- Names one more key property. -/
def addKey (t : Structured) (property : Name) : Structured := { t with key := t.key ++ [property] }

/-- Adds a property. -/
def addProperty (t : Structured) (p : Property) : Structured :=
  { t with properties := t.properties ++ [p] }

/-- Adds a navigation property. -/
def addNavigation (t : Structured) (n : Navigation) : Structured :=
  { t with navigation := t.navigation ++ [n] }

/-- Adds an annotation. -/
def annotate (t : Structured) (a : Annotation) : Structured :=
  { t with annotations := t.annotations ++ [a] }

end Structured

namespace Enum

/-- An enumeration with no members. -/
def make (name : Name) : Enum := ⟨name, none, false, [], [], .unknown⟩

/-- Adds a member that stands where the enumeration does. -/
def addMember (e : Enum) (name : Name) (value? : Option String) : Enum :=
  { e with members := e.members ++ [⟨name, value?, e.location⟩] }

end Enum

namespace Term

/-- A nullable term. -/
def make (name typeName : Name) : Term := ⟨name, typeName, true, none, none, [], .unknown⟩

end Term

namespace Container

/-- A container with no members. -/
def make (name : Name) : Container := ⟨name, none, [], [], [], .unknown⟩

/-- Adds an entity set that stands where the container does. -/
def addEntitySet (c : Container) (name entityType : Name) : Container :=
  { c with entitySets := c.entitySets ++ [⟨name, entityType, [], c.location⟩] }

/-- Adds an association set whose two ends, each a role and an entity set, stand where the
container does. -/
def addAssociationSet (c : Container) (name association : Name) (end1 end2 : Name × Name) :
    Container :=
  let setEnd (e : Name × Name) : Option AssociationSetEnd := some ⟨e.1, e.2, c.location⟩
  { c with
    associationSets := c.associationSets ++
      [⟨name, association, setEnd end1, setEnd end2, c.location⟩] }

end Container

namespace Schema

/-- A schema with no declarations. -/
def make (namespaceName : Name) : Schema := ⟨namespaceName, none, [], [], [], .unknown⟩

/-- Adds an alias for another namespace, which stands where the schema does. -/
def addUsing (s : Schema) (namespaceName aliasName : Name) : Schema :=
  { s with usings := s.usings ++ [⟨namespaceName, aliasName, s.location⟩] }

/-- Adds a declaration. -/
def addItem (s : Schema) (item : Item) : Schema := { s with items := s.items ++ [item] }

/-- Adds an annotation block. -/
def addBlock (s : Schema) (block : Block) : Schema := { s with blocks := s.blocks ++ [block] }

end Schema

end Schemata.Decl

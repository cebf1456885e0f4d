import Schemata.Evaluation.Function
import Schemata.Primitive.Literal
import Schemata.Types.Base
import Schemata.TypeReference.Resolve

/-!
# Type tests and conversions

`Catalog.hasType` says whether a value is of a type, and `Catalog.convert` turns it into one.  Only
values of built-in types are ever changed by a conversion.
-/

namespace Schemata

/-- Whether a value is one of a built-in type.  A whole number is also a decimal and a
floating-point number. -/
def PrimitiveKind.admits (kind : PrimitiveKind) (value : PrimitiveValue) : Bool :=
  match value, kind.range? with
  | .integer i, some range => range.contains i
  | _, _ =>
    match kind, value with
    | .double, .float _ | .double, .integer _ | .single, .float _ | .single, .integer _
    | .decimal, .decimal _ | .decimal, .integer _ => true
    | _, _ => value.kind == kind

/-- A value of a built-in type turned into one of another.  Everything can be turned into text, and
text into what it is a literal of. -/
def PrimitiveKind.convert? (kind : PrimitiveKind) (value : PrimitiveValue) :
    Option PrimitiveValue :=
  if kind = .string then some (.string value.display)
  else
    match value, kind with
    | .string text, _ => (kind.parse text).toOption
    | .integer i, .double | .integer i, .single => some (.float (.ofInt i))
    | .integer i, .decimal => some (.decimal (toString i))
    | _, _ => if kind.admits value then some value else none

namespace Catalog

variable (c : Catalog) (m : ModelId)

/-- Whether an instance of the type that is called `instance?` is one of the declared type `target`.
A name that is not declared stands for itself. -/
def isInstance (instance? : Option Name) (target : Declared .type) : Bool :=
  match instance? with
  | none => false
  | some name =>
    match c.find? m .type name with
    | some t => c.derivesFrom t target
    | none => name = (c.type target).qualifiedName

/-- Whether a value is of a type. -/
def hasType (value : Value) (type : TypeReference) : Except EvalError Bool :=
  match type.placeholder? with
  | some p => .error (.ofPlaceholder p)
  | none =>
    match value, type with
    | .null, _ => .ok type.nullable
    | .primitive v, .primitive kind _ => .ok (kind.admits v)
    | .collection items, .collection element _ => do
      let matches_ ← items.mapM (hasType · element)
      return matches_.all id
    | .record instance? _, .declared h _ => .ok (c.isInstance m instance? (c.locate m h))
    | .enum name _ _, .declared h _ => .ok (c.isInstance m (some name) (c.locate m h))
    | _, _ => .ok false

/-- A value turned into one of a type.  Null stays null. -/
def convert (value : Value) (type : TypeReference) : Except EvalError Value :=
  match type.placeholder? with
  | some p => .error (.ofPlaceholder p)
  | none =>
    match value, type with
    | .null, _ => .ok .null
    | .primitive v, .primitive kind _ =>
      match kind.convert? v with
      | some w => .ok (.primitive w)
      | none => .error (.invalidCast value type)
    | _, .primitive .. => .error (.invalidCast value type)
    | _, _ => do
      if ← c.hasType m value type then return value
      else throw (.invalidCast value type)

end Catalog

end Schemata

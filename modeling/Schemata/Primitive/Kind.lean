import Schemata.Name
import Schemata.Number.Integer

/-!
# Primitive types

The sixteen types of the built-in namespace `Edm`.  A reference to one of them needs no
declaration: `PrimitiveKind.ofQualified?` reads the reference, and
`ofQualified?_display` says that it reads what `display` writes.
-/

namespace Schemata

/-- A built-in type. -/
inductive PrimitiveKind where
  | binary | boolean | byte | dateTime | dateTimeOffset | decimal | double | guid
  | int16 | int32 | int64 | sbyte | single | string | time | stream
deriving DecidableEq, Repr, Inhabited

namespace PrimitiveKind

/-- All of them, in alphabetical order but for the last. -/
def all : List PrimitiveKind :=
  [binary, boolean, byte, dateTime, dateTimeOffset, decimal, double, guid, int16, int32, int64,
    sbyte, single, string, time, stream]

theorem mem_all (k : PrimitiveKind) : k ∈ all := by cases k <;> decide

/-- The simple name. -/
def name : PrimitiveKind → Name
  | binary => "Binary"
  | boolean => "Boolean"
  | byte => "Byte"
  | dateTime => "DateTime"
  | dateTimeOffset => "DateTimeOffset"
  | decimal => "Decimal"
  | double => "Double"
  | guid => "Guid"
  | int16 => "Int16"
  | int32 => "Int32"
  | int64 => "Int64"
  | sbyte => "SByte"
  | single => "Single"
  | string => "String"
  | time => "Time"
  | stream => "Stream"

/-- The qualified name. -/
def display (k : PrimitiveKind) : Name := qualify "Edm" k.name

/-- The built-in type of a qualified name. -/
def ofQualified? (qualified : Name) : Option PrimitiveKind :=
  all.find? fun k => k.display == qualified

theorem ofQualified?_display (k : PrimitiveKind) : ofQualified? k.display = some k := by
  cases k <;> decide +kernel

/-- Whether the values are whole numbers. -/
def isIntegral : PrimitiveKind → Bool
  | byte | sbyte | int16 | int32 | int64 => true
  | _ => false

/-- Whether the values are numbers. -/
def isNumeric : PrimitiveKind → Bool
  | decimal | double | single => true
  | k => k.isIntegral

/-- The values of an integral type. -/
def range? : PrimitiveKind → Option Number.Range
  | byte => some ⟨0, 255⟩
  | sbyte => some ⟨-128, 127⟩
  | int16 => some ⟨-32768, 32767⟩
  | int32 => some ⟨-2147483648, 2147483647⟩
  | int64 => some Number.int64Range
  | _ => none

theorem isSome_range? (k : PrimitiveKind) : k.range?.isSome = k.isIntegral := by cases k <;> rfl

end PrimitiveKind

/-- The kind of literal that a constant expression writes. -/
inductive ConstantKind where
  | binary | boolean | dateTime | dateTimeOffset | decimal | float | guid | int | string | time
deriving DecidableEq, Repr, Inhabited

namespace ConstantKind

/-- All of them, in alphabetical order. -/
def all : List ConstantKind :=
  [binary, boolean, dateTime, dateTimeOffset, decimal, float, guid, int, string, time]

/-- The name of the kind in a declaration. -/
def name : ConstantKind → Name
  | binary => "Binary"
  | boolean => "Boolean"
  | dateTime => "DateTime"
  | dateTimeOffset => "DateTimeOffset"
  | decimal => "Decimal"
  | float => "Float"
  | guid => "Guid"
  | int => "Int"
  | string => "String"
  | time => "Time"

/-- The kind of that name. -/
def ofName? (name : Name) : Option ConstantKind := all.find? (·.name == name)

/-- The element that holds such a constant in a schema document. -/
def elementName : ConstantKind → Name
  | boolean => "Bool"
  | k => k.name

/-- The built-in type of the constant's value. -/
def primitive : ConstantKind → PrimitiveKind
  | binary => .binary
  | boolean => .boolean
  | dateTime => .dateTime
  | dateTimeOffset => .dateTimeOffset
  | decimal => .decimal
  | float => .double
  | guid => .guid
  | int => .int64
  | string => .string
  | time => .time

end ConstantKind

end Schemata

import Schemata.Primitive.Kind
import Schemata.Number.Decimal

/-!
# Primitive values

A value read from a literal.  Dates, times, decimals and identifiers stay the text they were
written in: nothing calculates with them.  `PrimitiveValue.display` writes a value as text.
-/

namespace Schemata

/-- A value of a built-in type. -/
inductive PrimitiveValue where
  | binary (bytes : List UInt8)
  | boolean (value : Bool)
  | integer (value : Int)
  | float (value : Number.Binary64)
  | decimal (text : String)
  | string (text : String)
  | guid (text : String)
  | dateTime (text : String)
  | dateTimeOffset (text : String)
  | time (text : String)
deriving DecidableEq, Repr, Inhabited

namespace PrimitiveValue

/-- The type a value has by itself: the widest one for a whole number. -/
def kind : PrimitiveValue → PrimitiveKind
  | binary _ => .binary
  | boolean _ => .boolean
  | integer _ => .int64
  | float _ => .double
  | decimal _ => .decimal
  | string _ => .string
  | guid _ => .guid
  | dateTime _ => .dateTime
  | dateTimeOffset _ => .dateTimeOffset
  | time _ => .time

/-- The upper-case hexadecimal digit of a number under sixteen. -/
def hexDigit (n : Nat) : Char :=
  if n < 10 then Char.ofNat ('0'.toNat + n) else Char.ofNat ('A'.toNat + (n - 10))

/-- Two upper-case hexadecimal digits. -/
def hexByte (b : UInt8) : List Char := [hexDigit (b.toNat / 16), hexDigit (b.toNat % 16)]

/-- The value as text. -/
def display : PrimitiveValue → String
  | binary bytes => String.ofList (bytes.flatMap hexByte)
  | boolean b => if b then "true" else "false"
  | integer i => toString i
  | float x => x.display
  | decimal s | string s | guid s | dateTime s | dateTimeOffset s | time s => s

end PrimitiveValue

end Schemata

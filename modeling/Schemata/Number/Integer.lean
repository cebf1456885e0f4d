/-!
# Whole numbers in text

`digits?` reads a run of ASCII digits and `integer?` puts an optional sign before it; `hexValue?`
reads one hexadecimal digit.  `int64Range` is the range of 64-bit numbers, beyond which no integer
of the data model lies; `int64?` reads a number and refuses one outside it.
-/

namespace Schemata.Number

/-- A stretch of whole numbers, both ends included. -/
structure Range where
  min : Int
  max : Int
deriving DecidableEq, Repr

/-- Whether the range holds `value`. -/
def Range.contains (r : Range) (value : Int) : Bool := decide (r.min ≤ value ∧ value ≤ r.max)

/-- The signed 64-bit numbers. -/
def int64Range : Range := ⟨-9223372036854775808, 9223372036854775807⟩

/-- The value of an ASCII digit. -/
def digitValue (c : Char) : Nat := c.toNat - '0'.toNat

/-- The value of a hexadecimal digit of either case. -/
def hexValue? (c : Char) : Option Nat :=
  if '0' ≤ c ∧ c ≤ '9' then some (c.toNat - '0'.toNat)
  else if 'a' ≤ c ∧ c ≤ 'f' then some (c.toNat - 'a'.toNat + 10)
  else if 'A' ≤ c ∧ c ≤ 'F' then some (c.toNat - 'A'.toNat + 10)
  else none

/-- The number that a list of digits writes, most significant first. -/
def ofDigits (cs : List Char) : Nat := cs.foldl (fun n c => 10 * n + digitValue c) 0

/-- A non-empty run of ASCII digits. -/
def digits? (cs : List Char) : Option Nat :=
  if !cs.isEmpty && cs.all Char.isDigit then some (ofDigits cs) else none

/-- A run of digits with at most one sign before it. -/
def integer? : List Char → Option Int
  | '-' :: cs => (digits? cs).map fun n => -(n : Int)
  | '+' :: cs => (digits? cs).map Int.ofNat
  | cs => (digits? cs).map Int.ofNat

/-- A signed 64-bit number. -/
def int64? (text : String) : Option Int := (integer? text.toList).filter int64Range.contains

end Schemata.Number

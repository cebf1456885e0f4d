import Schemata.Number.Binary64
import Schemata.Number.Integer

/-!
# Double-precision numbers in decimal

`shortest` finds the decimal with the fewest digits among those that round to a given number, and
of several the nearest to it, of two equally near ones the larger.  `Binary64.display` writes it
out in full, never with an exponent.  `Binary64.parse?` reads decimals with an optional sign, point
and exponent, and the words for the values that are no decimals.

A number rounds to `m · 2 ^ q` when it lies between the midpoints to the two neighbours, ends
included when `m` is even.  Counted in quarters of `2 ^ q`, the upper midpoint is `4 m + 2`; the
lower one is `4 m - 2`, or `4 m - 1` where `m` is the smallest mantissa of its exponent and the
neighbour below is twice as close.
-/

namespace Schemata.Number

/-! ### The fewest digits -/

/-- The decimal `digits · 10 ^ exponent`. -/
structure Decimal where
  digits : Nat
  exponent : Int
deriving DecidableEq, Repr

/-- A positive number and the ends of the interval that rounds to it, over one denominator. -/
structure Interval where
  low : Nat
  value : Nat
  high : Nat
  denominator : Nat
  /-- Whether the ends round to the number as well. -/
  closed : Bool

namespace Interval

/-- The interval of reals that round to `mantissa · 2 ^ exponent`. -/
def ofFinite (mantissa : Nat) (exponent : Int) : Interval :=
  let below :=
    if mantissa = Nat.pow 2 (Binary64.precision - 1) ∧ Binary64.minExponent < exponent then 1
    else 2
  let unit := Nat.pow 2 (exponent - 2).toNat
  { low := (4 * mantissa - below) * unit
    value := 4 * mantissa * unit
    high := (4 * mantissa + 2) * unit
    denominator := Nat.pow 2 (2 - exponent).toNat
    closed := mantissa % 2 == 0 }

/-- Whether `digits · 10 ^ exponent` rounds to the number. -/
def holds (i : Interval) (d : Decimal) : Bool :=
  let point := d.digits * Nat.pow 10 d.exponent.toNat * i.denominator
  let grid := Nat.pow 10 (-d.exponent).toNat
  if i.closed then i.low * grid ≤ point && point ≤ i.high * grid
  else i.low * grid < point && point < i.high * grid

/-- The multiple of `10 ^ exponent` that rounds to the number, if there is one: of the two
neighbours of the number on that grid the nearer, and of two equally near ones the larger. -/
def onGrid (i : Interval) (exponent : Int) : Option Decimal :=
  let num := i.value * Nat.pow 10 (-exponent).toNat
  let den := i.denominator * Nat.pow 10 exponent.toNat
  let nearest : Decimal := ⟨roundDiv .up num den, exponent⟩
  let other : Decimal :=
    ⟨if nearest.digits * den ≤ num then nearest.digits + 1 else nearest.digits - 1, exponent⟩
  if i.holds nearest then some nearest
  else if i.holds other then some other
  else none

/-- The first grid, from `exponent` downwards, with a decimal that rounds to the number. -/
def search (i : Interval) : Nat → Int → Decimal
  | 0, exponent => ⟨roundDiv .up (i.value * Nat.pow 10 (-exponent).toNat)
      (i.denominator * Nat.pow 10 exponent.toNat), exponent⟩
  | grids + 1, exponent => (i.onGrid exponent).getD (search i grids (exponent - 1))

/-- An exponent whose power of ten is larger than the number: the binary logarithm, rounded up,
times a little more than `log 2`. -/
def ceilingExponent (i : Interval) : Int :=
  ((Nat.log2 i.value : Int) + 1 - Nat.log2 i.denominator) * 30103 / 100000 + 2

end Interval

/-- The shortest decimal that rounds to `mantissa · 2 ^ exponent`, for a positive mantissa.  Twenty
grids are enough: seventeen digits always tell two numbers apart. -/
def shortest (mantissa : Nat) (exponent : Int) : Decimal :=
  let i := Interval.ofFinite mantissa exponent
  i.search 20 i.ceilingExponent

/-! ### Writing -/

/-- The decimal in full, with a point only before a fraction. -/
def Decimal.display (d : Decimal) : String :=
  let digits := Nat.toDigits 10 d.digits
  if 0 ≤ d.exponent then String.ofList (digits ++ List.replicate d.exponent.toNat '0')
  else
    let places := (-d.exponent).toNat
    let padded := List.replicate (places + 1 - digits.length) '0' ++ digits
    let whole := padded.length - places
    String.ofList (padded.take whole ++ '.' :: padded.drop whole)

/-- The shortest decimal that reads back, `NaN`, `inf` or `-inf`. -/
def Binary64.display : Binary64 → String
  | nan => "NaN"
  | infinite negative => if negative then "-inf" else "inf"
  | finite negative mantissa exponent =>
    let magnitude := if mantissa = 0 then "0" else (shortest mantissa exponent).display
    if negative then "-" ++ magnitude else magnitude

/-! ### Reading -/

/-- The number nearest to `± digits · 10 ^ exponent`.  Exponents so large or so small that the
result is an infinity or a zero are answered without the power of ten. -/
def Binary64.ofDecimal (negative : Bool) (digits : Nat) (exponent : Int) : Binary64 :=
  let magnitude := (Nat.toDigits 10 digits).length + exponent
  if digits = 0 ∨ magnitude < -400 then finite negative 0 minExponent
  else if 400 < magnitude then infinite negative
  else ofRatio negative (digits * Nat.pow 10 exponent.toNat) (Nat.pow 10 (-exponent).toNat)

/-- An exponent: nothing, or `e` and a signed run of digits. -/
def exponent? : List Char → Option Int
  | [] => some 0
  | c :: cs => if c = 'e' ∨ c = 'E' then integer? cs else none

/-- Digits, a point and digits, with a digit on one side of the point at least, and an exponent. -/
def unsignedDecimal? (negative : Bool) (cs : List Char) : Option Binary64 :=
  let whole := cs.takeWhile Char.isDigit
  let rest := cs.dropWhile Char.isDigit
  let (fraction, rest) :=
    match rest with
    | '.' :: cs => (cs.takeWhile Char.isDigit, cs.dropWhile Char.isDigit)
    | cs => ([], cs)
  if whole.isEmpty && fraction.isEmpty then none
  else (exponent? rest).map fun e =>
    Binary64.ofDecimal negative (ofDigits (whole ++ fraction)) (e - fraction.length)

/-- An infinity, a not-a-number or a decimal, without its sign. -/
def unsigned? (negative : Bool) (cs : List Char) : Option Binary64 :=
  let lower := cs.map Char.toLower
  if lower = "inf".toList ∨ lower = "infinity".toList then some (.infinite negative)
  else if lower = "nan".toList then some .nan
  else unsignedDecimal? negative cs

/-- The number that a text writes, rounded to the nearest. -/
def Binary64.parse? (text : String) : Option Binary64 :=
  match text.toList with
  | '-' :: cs => unsigned? true cs
  | '+' :: cs => unsigned? false cs
  | cs => unsigned? false cs

end Schemata.Number

/-!
# Double-precision numbers

A `Binary64` is a not-a-number, an infinity or a dyadic rational `± mantissa · 2 ^ exponent`; the
exponent is the least one possible for the mantissa, so that each number has one form.

`ofRatio` rounds a positive ratio to the nearest number of 53 significant bits, a tie to the even
one, with the exponent never under `minExponent`; a ratio of `2 ^ 1024` or more, and one that
rounds to it, is infinite.
-/

namespace Schemata.Number

/-- A double-precision number. -/
inductive Binary64 where
  | nan
  | infinite (negative : Bool)
  | finite (negative : Bool) (mantissa : Nat) (exponent : Int)
deriving DecidableEq, Repr, Inhabited

/-- Where a value half-way between two whole numbers goes. -/
inductive Tie where
  /-- To the even one of the two. -/
  | toEven
  /-- To the larger one. -/
  | up
deriving DecidableEq, Repr

/-- The quotient rounded to the nearest whole number. -/
def roundDiv (tie : Tie) (num den : Nat) : Nat :=
  let quotient := num / den
  let rest := num % den
  if 2 * rest < den then quotient
  else if den < 2 * rest then quotient + 1
  else
    match tie with
    | .toEven => if quotient % 2 = 0 then quotient else quotient + 1
    | .up => quotient + 1

/-- The rounded quotient is at most half a unit away. -/
theorem two_mul_roundDiv_le (tie : Tie) (num : Nat) {den : Nat} (h : 0 < den) :
    2 * num ≤ 2 * (roundDiv tie num den * den) + den ∧
      2 * (roundDiv tie num den * den) ≤ 2 * num + den := by
  have hd := Nat.div_add_mod num den
  have hm := Nat.mod_lt num h
  have hc : den * (num / den) = num / den * den := Nat.mul_comm ..
  unfold roundDiv
  simp only
  split
  · omega
  · split
    · rw [Nat.add_mul]; omega
    · cases tie with
      | toEven =>
        simp only
        split
        · omega
        · rw [Nat.add_mul]; omega
      | up =>
        simp only
        rw [Nat.add_mul]
        omega

namespace Binary64

/-- The number of bits of a mantissa. -/
def precision : Nat := 53

/-- The exponent of the smallest positive number. -/
def minExponent : Int := -1074

/-- The exponent of the largest finite number. -/
def maxExponent : Int := 971

/-- The two terms of `num / den · 2 ^ (-exponent)` as whole numbers. -/
def scaled (num den : Nat) (exponent : Int) : Nat × Nat :=
  (num * Nat.pow 2 (-exponent).toNat, den * Nat.pow 2 exponent.toNat)

/-- The exponent at which the ratio has `precision` bits before the point, or `minExponent` if
that is larger. -/
def ratioExponent (num den : Nat) : Int :=
  let low := (Nat.log2 num : Int) - Nat.log2 den - precision
  let (n, d) := scaled num den low
  max minExponent (if Nat.pow 2 precision ≤ n / d then low + 1 else low)

/-- The number nearest to `num / den`, for a positive ratio. -/
def ofRatio (negative : Bool) (num den : Nat) : Binary64 :=
  if num = 0 then finite negative 0 minExponent
  else
    let exponent := ratioExponent num den
    let (n, d) := scaled num den exponent
    let mantissa := roundDiv .toEven n d
    let (mantissa, exponent) :=
      if mantissa = Nat.pow 2 precision then (Nat.pow 2 (precision - 1), exponent + 1)
      else (mantissa, exponent)
    if maxExponent < exponent then infinite negative else finite negative mantissa exponent

/-- The number nearest to a whole number. -/
def ofInt (value : Int) : Binary64 := ofRatio (decide (value < 0)) value.natAbs 1

/-- Whether the magnitude is finite and larger than that of `mantissa · 2 ^ exponent`. -/
def exceeds (mantissa : Nat) (exponent : Int) : Binary64 → Bool
  | finite _ m e =>
    let shift := min e exponent
    mantissa * Nat.pow 2 (exponent - shift).toNat < m * Nat.pow 2 (e - shift).toNat
  | _ => false

end Binary64

end Schemata.Number

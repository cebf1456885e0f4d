import Schemata.Primitive.Value
import Schemata.Text.Bytes

/-!
# Literals

How the values of the built-in types are written in a schema.  The shapes are recognised on lists
of characters, one recogniser a shape; `PrimitiveKind.parse` reads a literal of a given type, and
`LiteralError` is why it may refuse.

Where a shape has fields, the fields have a fixed number of ASCII digits; a character outside
ASCII fits nowhere but in a string.  Two recognisers cut their text at byte offsets (`hexBytes` and
`dateTimeOffset`), and say so if a cut is inside a character.
-/

namespace Schemata

/-- Why a text is no literal of a type. -/
inductive LiteralError where
  /-- The text has not the shape of the type's literals. -/
  | malformed (text : String) (kind : PrimitiveKind)
  /-- The number is no value of an integral type. -/
  | outsideRange (value : Int) (kind : PrimitiveKind) (range : Number.Range)
  /-- The number is finite and no value of a single-precision type. -/
  | tooLarge (text : String) (kind : PrimitiveKind)
  /-- The type has no literals. -/
  | noLiterals (kind : PrimitiveKind)
deriving DecidableEq, Repr

/-- The wording of a refusal. -/
def LiteralError.message : LiteralError → String
  | malformed text kind => s!"'{text}' is not a valid {kind.display} literal"
  | outsideRange value kind range =>
    s!"{value} is out of range for {kind.display} ({range.min}..={range.max})"
  | tooLarge text kind => s!"{text} is out of range for {kind.display}"
  | noLiterals kind => s!"{kind.display} has no literal form"

namespace Literal

/-! ### Shapes -/

/-- Whether `c` is a hexadecimal digit. -/
def isHex (c : Char) : Bool := (Number.hexValue? c).isSome

/-- The byte that two hexadecimal digits write. -/
def hexByte? : List Char → Option UInt8
  | [high, low] => do
    let h ← Number.hexValue? high
    let l ← Number.hexValue? low
    pure (UInt8.ofNat (16 * h + l))
  | _ => none

/-- The text behind an optional `0x`. -/
def hexDigits : List Char → List Char
  | '0' :: 'x' :: cs => cs
  | '0' :: 'X' :: cs => cs
  | cs => cs

/-- The bytes that an even number of hexadecimal digits writes, read off slices of two bytes. -/
def hexBytes (digits : List Char) : Except Text.CutError (Option (List UInt8)) :=
  let length := Text.byteLength digits
  if length % 2 == 0 && digits.all isHex then do
    let pairs ← (List.range (length / 2)).mapM fun i => Text.slice (2 * i) (2 * i + 2) digits
    pure (pairs.mapM hexByte?)
  else pure none

/-- Pairs of hexadecimal digits, with an optional `0x` before them. -/
def binary? (cs : List Char) : Option (List UInt8) := (hexBytes (hexDigits cs)).toOption.join

/-- The text without one sign before it. -/
def unsigned : List Char → List Char
  | '-' :: cs => cs
  | '+' :: cs => cs
  | cs => cs

/-- An optional sign and digits with at most one point, a digit on one side of it at least. -/
def isDecimal (cs : List Char) : Bool :=
  let (whole, fraction) := (Text.splitFirst '.' (unsigned cs)).getD (unsigned cs, [])
  !(whole.isEmpty && fraction.isEmpty) && whole.all Char.isDigit && fraction.all Char.isDigit

/-- Whether `groups` are runs of hexadecimal digits of the given lengths. -/
def areHexGroups : List (List Char) → List Nat → Bool
  | [], [] => true
  | g :: groups, n :: lengths => g.length == n && g.all isHex && areHexGroups groups lengths
  | _, _ => false

/-- Five groups of hexadecimal digits joined by dashes. -/
def isGuid (cs : List Char) : Bool := areHexGroups (Text.pieces (· == '-') cs) [8, 4, 4, 4, 12]

/-- A field of exactly `width` digits with a value from `low` to `high`. -/
def isField (width low high : Nat) (cs : List Char) : Bool :=
  cs.length == width && cs.all Char.isDigit &&
    (low ≤ Number.ofDigits cs && Number.ofDigits cs ≤ high)

/-- A date `yyyy-mm-dd`; every month may have 31 days. -/
def isDate (cs : List Char) : Bool :=
  match Text.pieces (· == '-') cs with
  | [year, month, day] => isField 4 0 9999 year && isField 2 1 12 month && isField 2 1 31 day
  | _ => false

/-- A clock `hh:mm` or `hh:mm:ss`, the latter with an optional point and fraction. -/
def isTime (cs : List Char) : Bool :=
  let isClock (hours minutes : List Char) := isField 2 0 23 hours && isField 2 0 59 minutes
  match Text.splitFirst '.' cs with
  | some (clock, fraction) =>
    match Text.pieces (· == ':') clock with
    | [hours, minutes, seconds] =>
      isClock hours minutes && isField 2 0 59 seconds && !fraction.isEmpty &&
        fraction.all Char.isDigit
    | _ => false
  | none =>
    match Text.pieces (· == ':') cs with
    | [hours, minutes] => isClock hours minutes
    | [hours, minutes, seconds] => isClock hours minutes && isField 2 0 59 seconds
    | _ => false

/-- A date, the letter `T` and a time. -/
def isDateTime (cs : List Char) : Bool :=
  match Text.splitFirst 'T' cs with
  | some (date, time) => isDate date && isTime time
  | none => false

/-- Whether the text is a date and time followed by `Z`, or by a sign and a time in its last six
bytes. -/
def dateTimeOffset (cs : List Char) : Except Text.CutError Bool :=
  match Text.stripEnd 'Z' cs with
  | some moment => pure (isDateTime moment)
  | none =>
    let length := Text.byteLength cs
    if length < 6 || !Text.isBoundary (length - 6) cs then pure false
    else do
      let (moment, offset) ← Text.cutAt (length - 6) cs
      if offset.head? == some '+' || offset.head? == some '-' then
        let (_, clock) ← Text.cutAt 1 offset
        pure (isTime clock && isDateTime moment)
      else pure false

/-- A date and time followed by `Z` or by an offset. -/
def isDateTimeOffset (cs : List Char) : Bool := (dateTimeOffset cs).toOption.getD false

/-- The words for truth values, in any case, and the digits. -/
def boolean? (text : String) : Option Bool :=
  let lower := String.ofList (text.toList.map Char.toLower)
  if lower == "true" || lower == "1" then some true
  else if lower == "false" || lower == "0" then some false
  else none

/-- The words for the values that are no decimals, or a decimal. -/
def double? (text : String) : Option Number.Binary64 :=
  if text == "INF" then some (.infinite false)
  else if text == "-INF" then some (.infinite true)
  else if text == "NaN" then some .nan
  else Number.Binary64.parse? text

/-- Whether the number is finite and larger than the largest single-precision number. -/
def exceedsSingle (x : Number.Binary64) : Bool := x.exceeds (Nat.pow 2 24 - 1) 104

/-- Keeps a text of the right shape. -/
def shaped (kind : PrimitiveKind) (text : String) (isShaped : List Char → Bool)
    (value : String → PrimitiveValue) : Except LiteralError PrimitiveValue :=
  if isShaped text.toList then .ok (value text) else .error (.malformed text kind)

/-- A whole number, in the range of the type if it has one. -/
def integral (kind : PrimitiveKind) (text : String) : Except LiteralError PrimitiveValue :=
  match Number.int64? text, kind.range? with
  | none, _ => .error (.malformed text kind)
  | some value, none => .ok (.integer value)
  | some value, some range =>
    if range.contains value then .ok (.integer value) else .error (.outsideRange value kind range)

theorem shaped_eq_ok_iff {kind : PrimitiveKind} {text : String} {isShaped : List Char → Bool}
    {value : String → PrimitiveValue} {v : PrimitiveValue} :
    shaped kind text isShaped value = .ok v ↔ isShaped text.toList = true ∧ v = value text := by
  unfold shaped
  cases isShaped text.toList <;> simp [@eq_comm _ v]

theorem integral_eq_ok_iff {kind : PrimitiveKind} {text : String} {v : PrimitiveValue} :
    integral kind text = .ok v ↔ ∃ i, Number.int64? text = some i ∧
      (∀ range, kind.range? = some range → range.contains i = true) ∧ v = .integer i := by
  unfold integral
  cases Number.int64? text with
  | none => simp
  | some i =>
    cases kind.range? with
    | none => simp [@eq_comm _ v]
    | some range => by_cases h : range.contains i = true <;> simp [h, @eq_comm _ v]

end Literal

open Literal

/-- Reads a literal of a built-in type.  Identifiers are kept in lower case. -/
def PrimitiveKind.parse (kind : PrimitiveKind) (text : String) :
    Except LiteralError PrimitiveValue :=
  match kind with
  | .binary =>
    match binary? text.toList with
    | some bytes => .ok (.binary bytes)
    | none => .error (.malformed text kind)
  | .boolean =>
    match boolean? text with
    | some b => .ok (.boolean b)
    | none => .error (.malformed text kind)
  | .byte | .sbyte | .int16 | .int32 | .int64 => integral kind text
  | .double =>
    match double? text with
    | some x => .ok (.float x)
    | none => .error (.malformed text kind)
  | .single =>
    match double? text with
    | some x => if exceedsSingle x then .error (.tooLarge text kind) else .ok (.float x)
    | none => .error (.malformed text kind)
  | .decimal => shaped kind text isDecimal .decimal
  | .guid => shaped kind text isGuid fun t => .guid (String.ofList (t.toList.map Char.toLower))
  | .dateTime => shaped kind text isDateTime .dateTime
  | .dateTimeOffset => shaped kind text isDateTimeOffset .dateTimeOffset
  | .time => shaped kind text isTime .time
  | .string => .ok (.string text)
  | .stream => .error (.noLiterals kind)

end Schemata

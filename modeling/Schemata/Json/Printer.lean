import Schemata.Json.Value

/-!
# Writing JSON

`Json.pretty` writes a value over several lines: each element of an array and each member of an
object on a line of its own, indented by two spaces a level; an empty array or object is written
without a line break.  In a string the quote, the backslash and the control characters are escaped
and nothing else is.
-/

namespace Schemata.Json

/-- A lower-case hexadecimal digit. -/
def hexDigit (n : Nat) : Char :=
  if n < 10 then Char.ofNat ('0'.toNat + n) else Char.ofNat ('a'.toNat + (n - 10))

/-- A character inside a string literal. -/
def escapeChar (c : Char) : List Char :=
  if c = '"' then ['\\', '"']
  else if c = '\\' then ['\\', '\\']
  else if c = '\x08' then ['\\', 'b']
  else if c = '\x0c' then ['\\', 'f']
  else if c = '\n' then ['\\', 'n']
  else if c = '\r' then ['\\', 'r']
  else if c = '\t' then ['\\', 't']
  else if c.toNat < 0x20 then
    ['\\', 'u', '0', '0', hexDigit (c.toNat / 16), hexDigit (c.toNat % 16)]
  else [c]

/-- A string literal. -/
def quote (s : String) : List Char := '"' :: s.toList.flatMap escapeChar ++ ['"']

/-- A line break and the indentation of a level. -/
def lineBreak (level : Nat) : List Char := '\n' :: List.replicate (2 * level) ' '

mutual

/-- The value at an indentation level. -/
def prettyAt (level : Nat) : Json → List Char
  | null => "null".toList
  | bool b => if b then "true".toList else "false".toList
  | number literal => literal.toList
  | string none => quote ""
  | string (some s) => quote s
  | array [] => "[]".toList
  | array (e :: es) =>
    '[' :: lineBreak (level + 1) ++ prettyAt (level + 1) e ++ prettyElements (level + 1) es ++
      lineBreak level ++ [']']
  | object [] => "\x7b\x7d".toList
  | object ((name, v) :: ms) =>
    '{' :: lineBreak (level + 1) ++ quote (name.getD "") ++ [':', ' '] ++ prettyAt (level + 1) v ++
      prettyMembers (level + 1) ms ++ lineBreak level ++ ['}']

/-- Further elements, each after a comma. -/
def prettyElements (level : Nat) : List Json → List Char
  | [] => []
  | e :: es => ',' :: lineBreak level ++ prettyAt level e ++ prettyElements level es

/-- Further members, each after a comma. -/
def prettyMembers (level : Nat) : List (Option String × Json) → List Char
  | [] => []
  | (name, v) :: ms =>
    ',' :: lineBreak level ++ quote (name.getD "") ++ [':', ' '] ++ prettyAt level v ++
      prettyMembers level ms

end

/-- The value over several lines. -/
def pretty (j : Json) : String := String.ofList (prettyAt 0 j)

end Schemata.Json

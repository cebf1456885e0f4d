import Schemata.Json.Value
import Schemata.Number.Integer

/-!
# Reading JSON

`Json.parse?` reads one value with blanks around it and nothing else.  The grammar is the standard
one: four blanks, no leading zeros, no control characters in strings.  A string literal whose
escapes hold half of a surrogate pair is read as spelling no text, and nesting has no limit; what
may not occur where is for the reader of a document to say.

The functions take the characters still to come and return those left.  A literal is read by
recursion on the characters, values by recursion on a budget that each step reduces and that the
length of the text always covers.
-/

namespace Schemata.Json

/-- The characters without the leading blanks. -/
def skipBlanks (cs : List Char) : List Char :=
  cs.dropWhile fun c => c == ' ' || c == '\n' || c == '\r' || c == '\t'

/-! ### Numbers -/

/-- A point with digits behind it, or nothing. -/
def takeFraction : List Char → Option (List Char × List Char)
  | '.' :: cs =>
    let digits := cs.takeWhile Char.isDigit
    if digits.isEmpty then none else some ('.' :: digits, cs.dropWhile Char.isDigit)
  | cs => some ([], cs)

/-- An `e`, an optional sign and digits, or nothing. -/
def takeExponent : List Char → Option (List Char × List Char)
  | c :: cs =>
    if c = 'e' ∨ c = 'E' then
      let (sign, rest) :=
        match cs with
        | '+' :: rest => (['+'], rest)
        | '-' :: rest => (['-'], rest)
        | rest => ([], rest)
      let digits := rest.takeWhile Char.isDigit
      if digits.isEmpty then none
      else some (c :: sign ++ digits, rest.dropWhile Char.isDigit)
    else some ([], c :: cs)
  | [] => some ([], [])

/-- Digits without a leading zero, with a fraction and an exponent. -/
def takeUnsigned (cs : List Char) : Option (List Char × List Char) := do
  let whole := cs.takeWhile Char.isDigit
  let rest := cs.dropWhile Char.isDigit
  if whole.isEmpty || (1 < whole.length && whole.head? == some '0') then none
  else
    let (fraction, rest) ← takeFraction rest
    let (exponent, rest) ← takeExponent rest
    pure (whole ++ fraction ++ exponent, rest)

/-- A number literal. -/
def takeNumber : List Char → Option (List Char × List Char)
  | '-' :: cs => (takeUnsigned cs).map fun (literal, rest) => ('-' :: literal, rest)
  | cs => takeUnsigned cs

/-! ### Strings -/

/-- The number that four hexadecimal digits write. -/
def hexUnit? (a b c d : Char) : Option Nat := do
  let a ← Number.hexValue? a
  let b ← Number.hexValue? b
  let c ← Number.hexValue? c
  let d ← Number.hexValue? d
  pure (((a * 16 + b) * 16 + c) * 16 + d)

/-- The character that a one-letter escape stands for. -/
def escaped? : Char → Option Char
  | '"' => some '"'
  | '\\' => some '\\'
  | '/' => some '/'
  | 'b' => some '\x08'
  | 'f' => some '\x0c'
  | 'n' => some '\n'
  | 'r' => some '\r'
  | 't' => some '\t'
  | _ => none

/-- How far the reading of a string literal has come. -/
structure Spelling where
  /-- The characters so far, the last one first. -/
  reversed : List Char
  /-- The first half of a surrogate pair, when the second must follow. -/
  high? : Option Nat
  /-- Whether the escapes so far spell characters. -/
  isText : Bool

namespace Spelling

/-- Nothing has been read. -/
def empty : Spelling := ⟨[], none, true⟩

/-- Adds a character.  A surrogate half before it stays alone. -/
def push (s : Spelling) (c : Char) : Spelling :=
  ⟨c :: s.reversed, none, s.isText && s.high?.isNone⟩

/-- Adds the character that a pair of surrogates stands for, or one half of a pair. -/
def pushUnit (s : Spelling) (unit : Nat) : Spelling :=
  if 0xd800 ≤ unit ∧ unit < 0xdc00 then ⟨s.reversed, some unit, s.isText && s.high?.isNone⟩
  else if 0xdc00 ≤ unit ∧ unit < 0xe000 then
    match s.high? with
    | some high =>
      ⟨Char.ofNat (0x10000 + (high - 0xd800) * 0x400 + (unit - 0xdc00)) :: s.reversed, none,
        s.isText⟩
    | none => { s with isText := false }
  else s.push (Char.ofNat unit)

/-- The text that the literal spells. -/
def text? (s : Spelling) : Option String :=
  if s.isText && s.high?.isNone then some (String.ofList s.reversed.reverse) else none

end Spelling

/-- The rest of a string literal, up to and with its closing quote. -/
def takeString (s : Spelling) : List Char → Option (Option String × List Char)
  | [] => none
  | '"' :: cs => some (s.text?, cs)
  | '\\' :: 'u' :: a :: b :: c :: d :: cs =>
    match hexUnit? a b c d with
    | some unit => takeString (s.pushUnit unit) cs
    | none => none
  | '\\' :: c :: cs =>
    match escaped? c with
    | some c => takeString (s.push c) cs
    | none => none
  | c :: cs => if c.toNat < 0x20 || c == '\\' then none else takeString (s.push c) cs

/-! ### Values -/

/-- A word, where `value` stands for it. -/
def takeWord (word : String) (value : Json) (cs : List Char) : Option (Json × List Char) :=
  if word.toList.isPrefixOf cs then some (value, cs.drop word.length) else none

mutual

/-- A value after blanks. -/
def takeValue : Nat → List Char → Option (Json × List Char)
  | 0, _ => none
  | budget + 1, cs =>
    match skipBlanks cs with
    | 'n' :: cs => takeWord "null" .null ('n' :: cs)
    | 't' :: cs => takeWord "true" (.bool true) ('t' :: cs)
    | 'f' :: cs => takeWord "false" (.bool false) ('f' :: cs)
    | '"' :: cs => (takeString .empty cs).map fun (text?, rest) => (.string text?, rest)
    | '[' :: cs =>
      match skipBlanks cs with
      | ']' :: rest => some (.array [], rest)
      | cs => (takeElements budget cs).map fun (es, rest) => (.array es, rest)
    | '{' :: cs =>
      match skipBlanks cs with
      | '}' :: rest => some (.object [], rest)
      | cs => (takeMembers budget cs).map fun (ms, rest) => (.object ms, rest)
    | cs => (takeNumber cs).map fun (literal, rest) => (.number (String.ofList literal), rest)

/-- The elements of an array up to and with the closing bracket. -/
def takeElements : Nat → List Char → Option (List Json × List Char)
  | 0, _ => none
  | budget + 1, cs => do
    let (e, rest) ← takeValue budget cs
    match skipBlanks rest with
    | ',' :: rest => do
      let (es, rest) ← takeElements budget rest
      pure (e :: es, rest)
    | ']' :: rest => pure ([e], rest)
    | _ => none

/-- The members of an object up to and with the closing brace. -/
def takeMembers : Nat → List Char → Option (List (Option String × Json) × List Char)
  | 0, _ => none
  | budget + 1, cs =>
    match skipBlanks cs with
    | '"' :: cs => do
      let (name, rest) ← takeString .empty cs
      match skipBlanks rest with
      | ':' :: rest => do
        let (v, rest) ← takeValue budget rest
        match skipBlanks rest with
        | ',' :: rest => do
          let (ms, rest) ← takeMembers budget rest
          pure ((name, v) :: ms, rest)
        | '}' :: rest => pure ([(name, v)], rest)
        | _ => none
      | _ => none
    | _ => none

end

/-- The value that a text writes. -/
def parse? (text : String) : Option Json :=
  let cs := text.toList
  match takeValue (2 * cs.length + 1) cs with
  | some (j, rest) => if (skipBlanks rest).isEmpty then some j else none
  | none => none

end Schemata.Json

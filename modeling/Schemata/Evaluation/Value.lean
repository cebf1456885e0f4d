import Schemata.Primitive.Value
import Schemata.Name

/-!
# Values

What an expression evaluates to and what it is evaluated on.  A record keeps its fields in the order
in which they were first set.  `Value.display` writes a value for people to read.
-/

namespace Schemata

/-- A value. -/
inductive Value where
  | null
  | primitive (value : PrimitiveValue)
  /-- A member of an enumeration, or several with blanks between their names. -/
  | enum (type member : Name) (value : Int)
  /-- A structured value and its type, if that is known. -/
  | record (type? : Option Name) (fields : List (Name × Value))
  | collection (items : List Value)
deriving Inhabited

namespace Value

/-- A truth value. -/
def bool (b : Bool) : Value := primitive (.boolean b)

/-- A whole number. -/
def int (i : Int) : Value := primitive (.integer i)

/-- A string. -/
def string (s : String) : Value := primitive (.string s)

/-- Whether there is no value. -/
def isNull : Value → Bool
  | null => true
  | _ => false

/-- The truth value, if it is one. -/
def bool? : Value → Option Bool
  | primitive (.boolean b) => some b
  | _ => none

/-- The word for the sort of a value. -/
def sort : Value → String
  | null => "null"
  | primitive _ => "primitive"
  | enum .. => "enum"
  | record .. => "structured"
  | collection _ => "collection"

/-- Fields with one of them set; a field that is there keeps its place. -/
def setField (name : Name) (value : Value) : List (Name × Value) → List (Name × Value)
  | [] => [(name, value)]
  | (n, v) :: fields =>
    if n = name then (n, value) :: fields else (n, v) :: setField name value fields

/-- The record with the given fields, where a later value of a field replaces an earlier one. -/
def ofFields (type? : Option Name) (fields : List (Name × Value)) : Value :=
  record type? (fields.foldl (fun fs (name, value) => setField name value fs) [])

/-! ### Display -/

mutual

/-- The value as text. -/
def display : Value → String
  | null => "null"
  | primitive value => value.display
  | enum type member _ => s!"{type}/{member}"
  | record _ fields => "\x7b" ++ ", ".intercalate (displayFields fields) ++ "\x7d"
  | collection items => "[" ++ ", ".intercalate (displayAll items) ++ "]"

/-- The fields as texts. -/
def displayFields : List (Name × Value) → List String
  | [] => []
  | (name, value) :: fields => s!"{name}: {display value}" :: displayFields fields

/-- The items as texts. -/
def displayAll : List Value → List String
  | [] => []
  | value :: items => display value :: displayAll items

end

end Value

end Schemata

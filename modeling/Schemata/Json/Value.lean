/-!
# JSON values

A JSON document as a tree.  Members of an object keep their order and may repeat a name.  A number
keeps the text it is written in.  A string literal with an escape for one half of a surrogate pair
spells no text; `none` stands for what it spells, so that such a literal can be passed over.
-/

namespace Schemata

/-- A JSON value. -/
inductive Json where
  | null
  | bool (value : Bool)
  | number (literal : String)
  | string (text? : Option String)
  | array (elements : List Json)
  | object (members : List (Option String × Json))
deriving Inhabited

namespace Json

/-- A string value. -/
def text (s : String) : Json := string (some s)

/-- A whole number. -/
def nat (n : Nat) : Json := number (toString n)

/-- A string, or null. -/
def text? : Option String → Json
  | some s => text s
  | none => null

/-- An object with the given members. -/
def ofMembers (members : List (String × Json)) : Json :=
  object (members.map fun (name, value) => (some name, value))

/-- An object with one member. -/
def tagged (tag : String) (value : Json) : Json := ofMembers [(tag, value)]

end Json

end Schemata

/-!
# Element markup

A document of nested elements with attributes, in which text stands only by itself in an element.
`Markup.lines` writes each tag on a line of its own, indented by two spaces a level; an element that
holds text is one line.  In texts and attribute values the five characters that have a meaning in
markup are escaped.
-/

namespace Schemata

/-- An element. -/
inductive Markup where
  /-- An element without content, written as one tag. -/
  | empty (name : String) (attributes : List (String × String))
  /-- An element with an opening and a closing tag around its children. -/
  | element (name : String) (attributes : List (String × String)) (children : List Markup)
  /-- An element that holds a text. -/
  | text (name : String) (content : String)
deriving Inhabited

namespace Markup

/-- An element with the given children, written as one tag if there are none. -/
def node (name : String) (attributes : List (String × String)) (children : List Markup) : Markup :=
  if children.isEmpty then empty name attributes else element name attributes children

/-- A character in a text or an attribute value. -/
def escapeChar (c : Char) : List Char :=
  if c = '<' then "&lt;".toList
  else if c = '>' then "&gt;".toList
  else if c = '&' then "&amp;".toList
  else if c = '\'' then "&apos;".toList
  else if c = '"' then "&quot;".toList
  else [c]

/-- A text or an attribute value. -/
def escape (s : String) : String := String.ofList (s.toList.flatMap escapeChar)

/-- The name of an element and its attributes. -/
def header (name : String) (attributes : List (String × String)) : String :=
  attributes.foldl (fun text (key, value) => text ++ " " ++ key ++ "=\"" ++ escape value ++ "\"")
    name

/-- The indentation of a level. -/
def indent (level : Nat) : String := String.ofList (List.replicate (2 * level) ' ')

mutual

/-- The lines of an element at an indentation level. -/
def lines (level : Nat) : Markup → List String
  | empty name attributes => [indent level ++ "<" ++ header name attributes ++ "/>"]
  | element name attributes children =>
    (indent level ++ "<" ++ header name attributes ++ ">") :: linesOfAll (level + 1) children ++
      [indent level ++ "</" ++ name ++ ">"]
  | text name content =>
    [indent level ++ "<" ++ name ++ ">" ++ escape content ++ "</" ++ name ++ ">"]

/-- The lines of several elements. -/
def linesOfAll (level : Nat) : List Markup → List String
  | [] => []
  | m :: ms => lines level m ++ linesOfAll level ms

end

/-- The document with the given root. -/
def document (root : Markup) : String :=
  "<?xml version=\"1.0\" encoding=\"utf-8\"?>\n" ++ String.intercalate "\n" (lines 0 root) ++ "\n"

end Markup

end Schemata

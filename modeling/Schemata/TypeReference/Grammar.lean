import Schemata.Name
import Schemata.Text.Blank

/-!
# How type references are written

A reference is a name, `Collection(…)` around a reference or `Ref(…)` around one; blanks around any
of these do not count.  `TypeSyntax.parse?` reads a reference and `TypeSyntax.display` writes it.
-/

namespace Schemata

/-- The shape of a written type reference. -/
inductive TypeSyntax where
  | named (name : Name)
  | collection (element : TypeSyntax)
  | ref (entity : TypeSyntax)
deriving DecidableEq, Repr

namespace TypeSyntax

/-- The reference as text. -/
def display : TypeSyntax → Name
  | named name => name
  | collection element => s!"Collection({element.display})"
  | ref entity => s!"Ref({entity.display})"

/-- Whether the text can be a name: no parentheses, no spaces and something on both sides of every
dot. -/
def isName (cs : List Char) : Bool :=
  !cs.isEmpty && !cs.any (fun c => c == '(' || c == ')' || c == ' ') &&
    (Text.pieces (· == '.') cs).all (!·.isEmpty)

/-- What stands between an opening and a closing parenthesis at the end. -/
def wrapped (start : List Char) (cs : List Char) : Option (List Char) :=
  (Text.strip start cs).bind (Text.stripEnd ')')

theorem length_lt_of_wrapped {start cs inner : List Char} (h : wrapped start cs = some inner) :
    inner.length < cs.length := by
  obtain ⟨rest, hr, hi⟩ := Option.bind_eq_some_iff.1 h
  rw [Text.strip_eq_some_iff] at hr
  rw [Text.stripEnd_eq_some_iff] at hi
  simp [hr, hi]
  omega

theorem length_trim_le (isBlank : Char → Bool) (cs : List Char) :
    (Text.trim isBlank cs).length ≤ cs.length := by
  have dropped (cs : List Char) : (Text.trimStart isBlank cs).length ≤ cs.length :=
    (List.dropWhile_sublist isBlank).length_le
  have := dropped (Text.trimStart isBlank cs).reverse
  have := dropped cs
  simp only [Text.trim, List.length_reverse] at *
  omega

/-- Reads a reference. -/
def read (cs : List Char) : Option TypeSyntax :=
  match _hc : wrapped "Collection(".toList (Text.trim Text.isBlank cs) with
  | some inner => (read inner).map collection
  | none =>
    match _hr : wrapped "Ref(".toList (Text.trim Text.isBlank cs) with
    | some inner => (read inner).map ref
    | none =>
      let name := Text.trim Text.isBlank cs
      if isName name then some (named (String.ofList name)) else none
termination_by cs.length
decreasing_by
  · have := length_lt_of_wrapped _hc
    have := length_trim_le Text.isBlank cs
    omega
  · have := length_lt_of_wrapped _hr
    have := length_trim_le Text.isBlank cs
    omega

/-- Reads a reference from text. -/
def parse? (text : Name) : Option TypeSyntax := read text.toList

end TypeSyntax

end Schemata

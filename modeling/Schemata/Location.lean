import Schemata.Name

/-!
# Where a declaration stands

A `Location` names a document and a span of zero-based positions in it.  The location with no
document and an all-zero span is the unknown one; it is what a declaration built without a
document carries.  Texts for people count lines and columns from one.
-/

namespace Schemata

/-- A zero-based line and column. -/
structure Position where
  line : Nat
  column : Nat
deriving DecidableEq, Repr, Inhabited

/-- A stretch of a document, from its first position to its last. -/
structure Span where
  start : Position
  stop : Position
deriving DecidableEq, Repr, Inhabited

/-- A span of a document. -/
structure Location where
  document : Name
  span : Span
deriving DecidableEq, Repr, Inhabited

namespace Position

/-- The start of a document. -/
def origin : Position := ⟨0, 0⟩

/-- Earlier line first, then earlier column. -/
def compare (p q : Position) : Ordering :=
  (Ord.compare p.line q.line).then (Ord.compare p.column q.column)

/-- The position as `line:column`, counted from one. -/
def display (p : Position) : String := s!"{p.line + 1}:{p.column + 1}"

end Position

namespace Span

/-- The span that begins and ends at one position. -/
def point (line column : Nat) : Span := ⟨⟨line, column⟩, ⟨line, column⟩⟩

/-- Whether a position lies in the span, both ends included. -/
def contains (s : Span) (p : Position) : Bool := s.start.compare p != .gt && p.compare s.stop != .gt

end Span

namespace Location

/-- No document and the all-zero span. -/
def unknown : Location := ⟨"", Span.point 0 0⟩

/-- Whether nothing is known about the place. -/
def isUnknown (l : Location) : Bool := decide (l = unknown)

/-- The document and the start of the span, as `document:line:column`. -/
def display (l : Location) : String :=
  if l.isUnknown then "<unknown>" else l.document ++ ":" ++ l.span.start.display

end Location

end Schemata

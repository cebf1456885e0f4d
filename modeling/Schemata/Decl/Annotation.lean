import Schemata.Decl.Expr

/-!
# Annotations as they are declared

An annotation applies a term to an element.  It stands inline with the element or in a block that
names its target.  A value annotation gives the term one value; a type annotation uses a structured
type as a term and gives its properties values.
-/

namespace Schemata.Decl

/-- What an annotation says. -/
inductive AnnotationContent where
  /-- The value of the term. -/
  | value (expr : Expr)
  /-- The values of the properties of a type used as a term. -/
  | properties (bindings : List (Binding Expr))
deriving DecidableEq, Inhabited

/-- The application of a term. -/
structure Annotation where
  term : Name
  qualifier : Option Name
  content : AnnotationContent
  location : Location
deriving DecidableEq, Inhabited

/-- Annotations that stand apart from their target. -/
structure Block where
  /-- A qualified name, or a qualified name and a member after a slash. -/
  target : Name
  qualifier : Option Name
  annotations : List Annotation
  location : Location
deriving DecidableEq, Inhabited

/-- The roots of the expression trees of an annotation: its value, or those of its bindings. -/
def Annotation.roots (a : Annotation) : List Expr :=
  match a.content with
  | .value expr => [expr]
  | .properties bindings => bindings.map (·.value)

end Schemata.Decl

import Schemata.Association
import Schemata.Types.PropertyType

/-!
# Property paths

A path names a property by way of others: each segment but the last leads to a structured type, by a
structural property or by a navigation property, and the last names a structural property there.
-/

namespace Schemata.Catalog

variable (c : Catalog)

/-- The placeholder for the property that a path should lead to. -/
def missingAlong (segments : List Name) (location : Location) (message : String) : Placeholder :=
  .withMessage .unresolvedProperty (joinPath segments) location message

/-- The placeholder for a path that has a segment which a type does not have. -/
def missingSegment (fail : String → Placeholder) (t : Declared .type) (segment : Name) :
    Placeholder :=
  fail s!"property '{segment}' could not be found on type '{(c.type t).qualifiedName}'"

/-- The type to which a structural property of a type leads, if it holds a declared one. -/
def elementAlong (fail : String → Placeholder) (t : Declared .type) (segment : Name) :
    Option (Element (Declared .type)) → Element (Declared .type)
  | some type => type
  | none =>
    let owner := (c.type t).qualifiedName
    .placeholder
      (fail s!"property '{segment}' of type '{owner}' is primitive and has no properties")

/-- The type to which one segment leads.  A structural property hides a navigation property. -/
def pathStep (fail : String → Placeholder) (t : Declared .type) (segment : Name) :
    Element (Declared .type) :=
  match c.findProperty? t segment with
  | some p => c.elementAlong fail t segment (c.propertyElement? p)
  | none =>
    match c.findNavigation? t segment with
    | some n => c.navigationTarget n
    | none => .placeholder (c.missingSegment fail t segment)

/-- The property that a path beginning in a type leads to, as a model sees it. -/
def followPath (m : ModelId) (fail : String → Placeholder) (t : Declared .type) :
    List Name → Element (Handle .property)
  | [] => .placeholder (fail "empty property path")
  | [last] =>
    .ofOption (c.missingSegment fail t last) ((c.findProperty? t last).bind (c.handleFor m))
  | segment :: rest => (c.pathStep fail t segment).bind fun t => followPath m fail t rest

/-- The type in which a path begins, where the paths begin in `context?`. -/
def pathStart (context? : Option (Declared .type)) (segments : List Name) (location : Location) :
    Element (Declared .type) :=
  let fail := missingAlong segments location
  match segments.getLast?, context? with
  | none, _ => .placeholder (fail "empty property path")
  | some last, none =>
    .placeholder
      (fail s!"property '{last}' could not be found: the expression has no binding context")
  | some _, some t => .declared t

/-- The property that a path leads to, as a model sees it, where the paths begin in `context?`. -/
def pathHandle (m : ModelId) (context? : Option (Declared .type)) (segments : List Name)
    (location : Location) : Element (Handle .property) :=
  (pathStart context? segments location).bind fun t =>
    c.followPath m (missingAlong segments location) t segments

end Schemata.Catalog

import Schemata.Catalog.Basic
import Schemata.Number.Integer
import Schemata.TypeReference.Basic

/-!
# Enumerations

The members of an enumeration have whole numbers as values, within the range of the underlying type.
A member without a declared value follows the last member with a valid one.
-/

namespace Schemata

/-- A member of an enumeration, by its place in the declaration. -/
structure EnumMember where
  type : Declared .type
  index : Nat
deriving DecidableEq, Repr

namespace Catalog

variable (c : Catalog)

/-- The declaration of an enumeration. -/
def enum? (t : Declared .type) : Option EnumEntry := (c.type t).body.enum?

/-- The type of the values of an enumeration; none if the type is none. -/
def underlying? (t : Declared .type) : Option TypeReference :=
  (c.enum? t).map fun body =>
    match body.underlying? with
    | none => .primitive .int32 false
    | some name =>
      match (PrimitiveKind.ofQualified? name).filter (·.isIntegral) with
      | some kind => .primitive kind false
      | none =>
        .placeholder
          (.bad name (.error .wrongTypeReference (c.type t).location
            s!"'{name}' is not an integral type and cannot underlie an enum"))
          false

/-! ### Values -/

/-- The numbers that members may have: all of 64 bits if the underlying type is no integral one. -/
def memberRange (t : Declared .type) : Number.Range :=
  (((c.underlying? t).bind (·.primitive?)).bind (·.range?)).getD Number.int64Range

/-- The value of one member, where a member without a declared value has the value `next`. -/
def memberValue (range : Number.Range) (next : Int) (m : Decl.EnumMember) :
    Except Diagnostic Int :=
  let invalid (message : String) : Except Diagnostic Int :=
    .error (.error .invalidConstant m.location message)
  let checked (value : Int) : Except Diagnostic Int :=
    if range.contains value then .ok value
    else invalid s!"value {value} of enum member '{m.name}' is out of range"
  match m.value? with
  | none => checked next
  | some text =>
    match Number.int64? text with
    | none => invalid s!"'{text}' is not a valid value for enum member '{m.name}'"
    | some value => checked value

/-- The number after a value; the largest of 64 bits has none and is followed by itself. -/
def successor (value : Int) : Int := min (value + 1) Number.int64Range.max

/-- The values of members of which the first has the value `next` if it declares none. -/
def valuesFrom (range : Number.Range) (next : Int) :
    List Decl.EnumMember → List (Except Diagnostic Int)
  | [] => []
  | m :: ms =>
    let value := memberValue range next m
    let next := match value with
      | .ok v => successor v
      | .error _ => next
    value :: valuesFrom range next ms

/-- The values of the members of an enumeration, in the order of declaration. -/
def memberValues (t : Declared .type) : List (Except Diagnostic Int) :=
  match c.enum? t with
  | some body => valuesFrom (c.memberRange t) 0 body.members
  | none => []

/-! ### Members -/

/-- The declarations of the members. -/
def memberDecls (t : Declared .type) : List Decl.EnumMember :=
  match c.enum? t with
  | some body => body.members
  | none => []

/-- The members of an enumeration, in the order of declaration. -/
def members (t : Declared .type) : List EnumMember :=
  (List.range (c.memberDecls t).length).map (⟨t, ·⟩)

/-- The declaration of a member. -/
def memberDecl (m : EnumMember) : Decl.EnumMember := (c.memberDecls m.type).getD m.index default

/-- The first member that has the name. -/
def findMember? (t : Declared .type) (name : Name) : Option EnumMember :=
  (c.members t).find? fun m => (c.memberDecl m).name = name

/-- The enumeration and the member, joined by a slash. -/
def memberPath (m : EnumMember) : Name :=
  s!"{(c.type m.type).qualifiedName}/{(c.memberDecl m).name}"

/-- The value of a member, if it has a valid one. -/
def valueOf? (m : EnumMember) : Option Int :=
  match (c.memberValues m.type)[m.index]? with
  | some (.ok value) => some value
  | _ => none

end Catalog

end Schemata

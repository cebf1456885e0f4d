import Schemata.Types.Containment
import Schemata.Types.Enum
import Schemata.Types.Members
import Schemata.Primitive.Literal

/-!
# The types and default values of properties

The type of a property is what its declaration refers to, or a placeholder if the property would
make the declaring type contain itself.  A default value must be a literal of a built-in type or
name members of an enumeration.
-/

namespace Schemata.Catalog

variable (c : Catalog)

/-- The placeholder for a type that cannot be held by value. -/
def cyclicHolding (kind : TypeKind) (name declaring : Name) (location : Location) : Placeholder :=
  .withMessage (if kind = .entity then .cyclicEntity else .cyclicComplex) name location
    (s!"{kind.display} '{name}' is cyclic: holding it by value in '{declaring}' makes " ++
      s!"'{declaring}' contain itself")

/-- The type of a property. -/
def propertyType (p : Declared .property) : TypeReference :=
  let d := c.property p
  let declaring := c.declaringType p
  match c.typeReference (c.typeSchema declaring) d.typeName d.nullable d.location with
  | .declared ⟨.self, id⟩ nullable =>
    let kind := c.kind ⟨p.model, id⟩
    if kind ≠ .enum && c.wouldContainItself p.model id d.declaring then
      .placeholder
        (cyclicHolding kind (c.type ⟨p.model, id⟩).qualifiedName (c.type declaring).qualifiedName
          d.location)
        nullable
    else .declared ⟨.self, id⟩ nullable
  | reference => reference

/-- The declared type that a property holds, or holds a collection of. -/
def propertyElement? (p : Declared .property) : Option (Element (Declared .type)) :=
  c.elementOf? p.model (c.propertyType p)

/-! ### Default values -/

/-- Whether every piece of a text between commas and spaces is a member of the enumeration or a
number. -/
def isEnumText (t : Declared .type) (text : String) : Bool :=
  (Text.words (fun ch => ch == ',' || ch == ' ') text.toList).all fun word =>
    let word := String.ofList word
    (c.findMember? t word).isSome || (Number.int64? word).isSome

/-- Why a text is no default value of a type; nothing is said of a type that is not there. -/
def defaultFault? (m : ModelId) (type : TypeReference) (text : String) : Option String :=
  match type with
  | .primitive kind _ =>
    match kind.parse text with
    | .ok _ => none
    | .error e => some e.message
  | .declared h _ =>
    let t := c.locate m h
    let name := (c.type t).qualifiedName
    match c.kind t with
    | .enum =>
      if c.isEnumText t text then none
      else some s!"'{text}' is not a member of enum type '{name}'"
    | kind => some s!"default values are not supported for {kind.display} '{name}'"
  | .collection .. | .entityReference .. =>
    some "default values are not supported for collection or reference types"
  | .placeholder .. => none

/-- What is wrong with a default value, if the model's options say that it is checked. -/
def defaultDiagnostics (m : ModelId) (type : TypeReference) (default? : Option String)
    (location : Location) : List Diagnostic :=
  if (c.model m).options.checkDefaults then
    ((default?.bind (c.defaultFault? m type)).map (.error .invalidDefaultValue location)).toList
  else []

end Schemata.Catalog

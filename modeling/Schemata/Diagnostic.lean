import Schemata.Location

/-!
# Diagnostics

Resolution never fails: every problem is described by a `Diagnostic`, which says where it lies,
what class of problem it is and, in words, what is wrong.  Classes have codes in three hundreds:
references that name nothing, declarations that cannot stand, and expressions or literals of the
wrong form.
-/

namespace Schemata

/-- How grave a diagnostic is. -/
inductive Severity where
  | error
  | warning
deriving DecidableEq, Repr, Inhabited

/-- The word for a severity. -/
def Severity.name : Severity → String
  | error => "Error"
  | warning => "Warning"

/-- The three families of diagnostic codes. -/
inductive Category where
  | reference
  | declaration
  | expression
deriving DecidableEq, Repr

/-- A few words on the family. -/
def Category.display : Category → String
  | reference => "reference error"
  | declaration => "declaration error"
  | expression => "expression error"

/-- The class of a diagnostic. -/
inductive DiagnosticCode where
  /-- A type name names nothing. -/
  | unresolvedType
  /-- A term name names nothing. -/
  | unresolvedTerm
  /-- A property name names nothing in the type it is sought in. -/
  | unresolvedProperty
  /-- A container name names nothing. -/
  | unresolvedContainer
  /-- An entity set name names nothing in the container it is sought in. -/
  | unresolvedEntitySet
  /-- An association name names nothing. -/
  | unresolvedAssociation
  /-- A role is not that of an end of the association. -/
  | unresolvedRole
  /-- A path names no member of an enumeration. -/
  | unresolvedEnumMember
  /-- A label is carried by no element of the schema. -/
  | unresolvedLabel
  /-- The target of an annotation block names nothing. -/
  | unresolvedTarget
  /-- An earlier declaration of the same sort has the qualified name. -/
  | duplicateDeclaration
  /-- An earlier member of the same owner has the name. -/
  | duplicateMember
  /-- A declared name is no identifier. -/
  | invalidName
  /-- A complex type is held by itself or derives from itself. -/
  | cyclicComplex
  /-- An entity type is held by itself or derives from itself. -/
  | cyclicEntity
  /-- A base type is of another kind than the type derived from it. -/
  | wrongBase
  /-- A type reference is malformed or names a type of a kind not allowed there. -/
  | wrongTypeReference
  /-- An expression has the wrong number of operands. -/
  | malformedExpression
  /-- A constant is no literal of its type. -/
  | invalidConstant
  /-- A default value is no value of its type. -/
  | invalidDefaultValue
deriving DecidableEq, Repr, Inhabited

namespace DiagnosticCode

/-- All classes, in the order of their codes. -/
def all : List DiagnosticCode :=
  [unresolvedType, unresolvedTerm, unresolvedProperty, unresolvedContainer, unresolvedEntitySet,
    unresolvedAssociation, unresolvedRole, unresolvedEnumMember, unresolvedLabel, unresolvedTarget,
    duplicateDeclaration, duplicateMember, invalidName, cyclicComplex, cyclicEntity, wrongBase,
    wrongTypeReference, malformedExpression, invalidConstant, invalidDefaultValue]

/-- The symbolic name of a class. -/
def name : DiagnosticCode → Name
  | unresolvedType => "BadUnresolvedType"
  | unresolvedTerm => "BadUnresolvedTerm"
  | unresolvedProperty => "BadUnresolvedProperty"
  | unresolvedContainer => "BadUnresolvedEntityContainer"
  | unresolvedEntitySet => "BadUnresolvedEntitySet"
  | unresolvedAssociation => "BadUnresolvedAssociation"
  | unresolvedRole => "BadUnresolvedNavigationRole"
  | unresolvedEnumMember => "BadUnresolvedEnumMember"
  | unresolvedLabel => "BadUnresolvedLabeledElement"
  | unresolvedTarget => "BadUnresolvedTarget"
  | duplicateDeclaration => "DuplicateDeclaration"
  | duplicateMember => "DuplicateMember"
  | invalidName => "InvalidName"
  | cyclicComplex => "BadCyclicComplex"
  | cyclicEntity => "BadCyclicEntity"
  | wrongBase => "BadBaseType"
  | wrongTypeReference => "BadTypeReference"
  | malformedExpression => "MalformedExpression"
  | invalidConstant => "InvalidConstant"
  | invalidDefaultValue => "InvalidDefaultValue"

/-- The class of that symbolic name. -/
def ofName? (name : Name) : Option DiagnosticCode := all.find? (·.name == name)

/-- The code of a class. -/
def code : DiagnosticCode → String
  | unresolvedType => "E1001"
  | unresolvedTerm => "E1002"
  | unresolvedProperty => "E1003"
  | unresolvedContainer => "E1004"
  | unresolvedEntitySet => "E1005"
  | unresolvedAssociation => "E1006"
  | unresolvedRole => "E1007"
  | unresolvedEnumMember => "E1008"
  | unresolvedLabel => "E1009"
  | unresolvedTarget => "E1010"
  | duplicateDeclaration => "E1101"
  | duplicateMember => "E1102"
  | invalidName => "E1103"
  | cyclicComplex => "E1104"
  | cyclicEntity => "E1105"
  | wrongBase => "E1106"
  | wrongTypeReference => "E1107"
  | malformedExpression => "E1201"
  | invalidConstant => "E1202"
  | invalidDefaultValue => "E1203"

/-- The family of a class. -/
def category : DiagnosticCode → Category
  | unresolvedType | unresolvedTerm | unresolvedProperty | unresolvedContainer
  | unresolvedEntitySet | unresolvedAssociation | unresolvedRole | unresolvedEnumMember
  | unresolvedLabel | unresolvedTarget => .reference
  | duplicateDeclaration | duplicateMember | invalidName | cyclicComplex | cyclicEntity
  | wrongBase | wrongTypeReference => .declaration
  | malformedExpression | invalidConstant | invalidDefaultValue => .expression

/-- What to say when there is nothing more precise to say. -/
def defaultMessage : DiagnosticCode → String
  | unresolvedType => "type not found"
  | unresolvedTerm => "term not found"
  | unresolvedProperty => "property not found"
  | unresolvedContainer => "entity container not found"
  | unresolvedEntitySet => "entity set not found"
  | unresolvedAssociation => "association not found"
  | unresolvedRole => "association role not found"
  | unresolvedEnumMember => "enum member not found"
  | unresolvedLabel => "labeled element not found"
  | unresolvedTarget => "annotation target not found"
  | duplicateDeclaration => "duplicate declaration"
  | duplicateMember => "duplicate member"
  | invalidName => "invalid name"
  | cyclicComplex => "cyclic complex type"
  | cyclicEntity => "cyclic entity type"
  | wrongBase => "invalid base type"
  | wrongTypeReference => "invalid type reference"
  | malformedExpression => "malformed expression"
  | invalidConstant => "invalid constant"
  | invalidDefaultValue => "invalid default value"

/-- Different classes have different codes. -/
theorem code_injective {a b : DiagnosticCode} (h : a.code = b.code) : a = b := by
  revert h; cases a <;> cases b <;> decide

end DiagnosticCode

/-- A problem, where it lies and what is wrong. -/
structure Diagnostic where
  location : Location
  code : DiagnosticCode
  message : String
  severity : Severity
deriving DecidableEq, Repr, Inhabited

namespace Diagnostic

/-- An error with a message of its own. -/
def error (code : DiagnosticCode) (location : Location) (message : String) : Diagnostic :=
  ⟨location, code, message, .error⟩

/-- An error with the message of its class. -/
def ofCode (code : DiagnosticCode) (location : Location) : Diagnostic :=
  error code location code.defaultMessage

/-- The same problem as a warning. -/
def asWarning (d : Diagnostic) : Diagnostic := { d with severity := .warning }

/-- Whether the diagnostic is an error. -/
def isError (d : Diagnostic) : Bool := decide (d.severity = .error)

/-- The diagnostic on one line. -/
def display (d : Diagnostic) : String :=
  d.location.display ++ ": [" ++ d.code.code ++ "] " ++ d.message

end Diagnostic

end Schemata

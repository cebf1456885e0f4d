import Schemata.Diagnostic

/-!
# Placeholders

Where a reference cannot be resolved, a `Placeholder` stands in for the element it should have
named.  It carries the name that failed, a tag for what was sought and why it failed, and at least
one diagnostic.  An `Element` is a declared element or a placeholder: whoever reads an element gets
an answer from either, a neutral one from the latter.
-/

namespace Schemata

/-- What a placeholder stands in for. -/
inductive PlaceholderKind where
  /-- An element that is declared and cannot be used here. -/
  | bad
  | unresolvedType
  | unresolvedProperty
  | unresolvedTerm
  | unresolvedContainer
  | unresolvedEntitySet
  | unresolvedAssociation
  | unresolvedRole
  | unresolvedEnumMember
  | unresolvedLabel
  /-- A complex type that holds itself or derives from itself. -/
  | cyclicComplex
  /-- An entity type that holds itself or derives from itself. -/
  | cyclicEntity
deriving DecidableEq, Repr, Inhabited

namespace PlaceholderKind

/-- All kinds. -/
def all : List PlaceholderKind :=
  [bad, unresolvedType, unresolvedProperty, unresolvedTerm, unresolvedContainer,
    unresolvedEntitySet, unresolvedAssociation, unresolvedRole, unresolvedEnumMember,
    unresolvedLabel, cyclicComplex, cyclicEntity]

/-- The symbolic name of a kind. -/
def name : PlaceholderKind → Name
  | bad => "Bad"
  | unresolvedType => "UnresolvedType"
  | unresolvedProperty => "UnresolvedProperty"
  | unresolvedTerm => "UnresolvedTerm"
  | unresolvedContainer => "UnresolvedContainer"
  | unresolvedEntitySet => "UnresolvedEntitySet"
  | unresolvedAssociation => "UnresolvedAssociation"
  | unresolvedRole => "UnresolvedRole"
  | unresolvedEnumMember => "UnresolvedEnumMember"
  | unresolvedLabel => "UnresolvedLabeledElement"
  | cyclicComplex => "CyclicComplex"
  | cyclicEntity => "CyclicEntity"

/-- The kind of that symbolic name. -/
def ofName? (name : Name) : Option PlaceholderKind := all.find? (·.name == name)

/-- Whether the element is part of a cycle. -/
def isCyclic : PlaceholderKind → Bool
  | cyclicComplex | cyclicEntity => true
  | _ => false

/-- Whether nothing has the name. -/
def isUnresolved : PlaceholderKind → Bool
  | bad | cyclicComplex | cyclicEntity => false
  | _ => true

/-- The class of the diagnostic that comes with such a placeholder. -/
def code : PlaceholderKind → DiagnosticCode
  | bad => .wrongTypeReference
  | unresolvedType => .unresolvedType
  | unresolvedProperty => .unresolvedProperty
  | unresolvedTerm => .unresolvedTerm
  | unresolvedContainer => .unresolvedContainer
  | unresolvedEntitySet => .unresolvedEntitySet
  | unresolvedAssociation => .unresolvedAssociation
  | unresolvedRole => .unresolvedRole
  | unresolvedEnumMember => .unresolvedEnumMember
  | unresolvedLabel => .unresolvedLabel
  | cyclicComplex => .cyclicComplex
  | cyclicEntity => .cyclicEntity

/-- The noun for the missing element. -/
def noun : PlaceholderKind → String
  | bad => "element"
  | unresolvedType => "type"
  | unresolvedProperty => "property"
  | unresolvedTerm => "term"
  | unresolvedContainer => "entity container"
  | unresolvedEntitySet => "entity set"
  | unresolvedAssociation => "association"
  | unresolvedRole => "association role"
  | unresolvedEnumMember => "enum member"
  | unresolvedLabel => "labeled element"
  | cyclicComplex => "complex type"
  | cyclicEntity => "entity type"

end PlaceholderKind

/-- What stands in for an element that could not be resolved. -/
structure Placeholder where
  kind : PlaceholderKind
  /-- The name that failed. -/
  name : Name
  diagnostics : List Diagnostic
deriving DecidableEq, Repr, Inhabited

namespace Placeholder

/-- A placeholder with one diagnostic, of the kind's class. -/
def withMessage (kind : PlaceholderKind) (name : Name) (location : Location) (message : String) :
    Placeholder :=
  ⟨kind, name, [.error kind.code location message]⟩

/-- Nothing has the name. -/
def unresolved (kind : PlaceholderKind) (name : Name) (location : Location) : Placeholder :=
  withMessage kind name location s!"{kind.noun} '{name}' could not be found"

/-- The element of that name is part of a cycle. -/
def cyclic (kind : PlaceholderKind) (name : Name) (location : Location) : Placeholder :=
  withMessage kind name location s!"{kind.noun} '{name}' is part of a cycle"

/-- The element of that name cannot be used, as the diagnostic says. -/
def bad (name : Name) (d : Diagnostic) : Placeholder := ⟨.bad, name, [d]⟩

end Placeholder

/-- A declared element, or the placeholder that stands in for it. -/
inductive Element (α : Type) where
  | declared (element : α)
  | placeholder (p : Placeholder)
deriving DecidableEq, Repr

namespace Element

variable {α β : Type}

/-- The declared element, if it is one. -/
def declared? : Element α → Option α
  | declared a => some a
  | placeholder _ => none

/-- The placeholder, if it is one. -/
def placeholder? : Element α → Option Placeholder
  | declared _ => none
  | placeholder p => some p

/-- Whether a placeholder stands in for the element. -/
def isPlaceholder (e : Element α) : Bool := e.placeholder?.isSome

/-- Acts on the declared element and keeps a placeholder. -/
def map (f : α → β) : Element α → Element β
  | declared a => declared (f a)
  | placeholder p => placeholder p

/-- Goes on from the declared element and keeps a placeholder. -/
def bind (e : Element α) (f : α → Element β) : Element β :=
  match e with
  | declared a => f a
  | placeholder p => placeholder p

/-- The declared element, or a placeholder for nothing. -/
def ofOption (missing : Placeholder) : Option α → Element α
  | some a => declared a
  | none => placeholder missing

/-- The diagnostics that the placeholder carries; a declared element carries none. -/
def diagnostics : Element α → List Diagnostic
  | declared _ => []
  | placeholder p => p.diagnostics

theorem map_eq_declared_iff {e : Element α} {f : α → β} {b : β} :
    e.map f = declared b ↔ ∃ a, e = declared a ∧ f a = b := by
  cases e <;> simp [map]

theorem bind_eq_declared_iff {e : Element α} {f : α → Element β} {b : β} :
    e.bind f = declared b ↔ ∃ a, e = declared a ∧ f a = declared b := by
  cases e <;> simp [bind]

theorem placeholder?_eq_none_iff {e : Element α} : e.placeholder? = none ↔ ∃ a, e = declared a := by
  cases e <;> simp [placeholder?]

/-- The simple name, which a placeholder reads off the name that failed. -/
def name (declaredName : α → Name) : Element α → Name
  | declared a => declaredName a
  | placeholder p =>
    match splitQualified p.name with
    | some (_, name) => name
    | none => p.name

/-- The namespace, which a placeholder reads off the name that failed. -/
def namespaceName (declaredNamespace : α → Name) : Element α → Name
  | declared a => declaredNamespace a
  | placeholder p =>
    match splitQualified p.name with
    | some (ns, _) => ns
    | none => ""

/-- The qualified name, which for a placeholder is the name that failed. -/
def qualifiedName (declaredName : α → Name) : Element α → Name
  | declared a => declaredName a
  | placeholder p => p.name

end Element

end Schemata

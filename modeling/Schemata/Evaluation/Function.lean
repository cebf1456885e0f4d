import Schemata.Evaluation.Value
import Schemata.TypeReference.Basic

/-!
# Functions that expressions may call

`EvalError` is why an expression has no value, and `EvalError.message` says it.  An `Evaluator`
holds the functions that can be called by name; of two with one name, the last one counts.
-/

namespace Schemata

/-! ### Errors -/

/-- Why an expression has no value. -/
inductive EvalError where
  /-- Part of the expression is not resolved or not well formed. -/
  | diagnostic (d : Diagnostic)
  /-- A path goes on from a value that has no properties. -/
  | notStructured (segment : Name) (found : Value)
  /-- The test of a choice is no truth value. -/
  | nonBooleanTest (found : Value)
  | invalidCast (value : Value) (target : TypeReference)
  /-- No function has the name. -/
  | unknownFunction (name : Name)
  /-- A function refuses its arguments. -/
  | function (name : Name) (reason : String)
  /-- A labeled expression is reached while it is evaluated. -/
  | cyclicLabel (name : Name)

/-- The words for the target of a conversion. -/
def TypeReference.describe : TypeReference → String
  | primitive kind _ => kind.display
  | collection element _ => s!"Collection({element.describe})"
  | entityReference entity _ => s!"Ref({entity.describe})"
  | declared .. => "declared type"
  | placeholder p _ => p.name

namespace EvalError

/-- The first thing that is wrong with an element that is not there. -/
def ofPlaceholder (p : Placeholder) : EvalError :=
  diagnostic (p.diagnostics.headD (.ofCode .malformedExpression .unknown))

/-- What an error says. -/
def message : EvalError → String
  | diagnostic d => d.display
  | notStructured segment found => s!"cannot read '{segment}' from a {found.sort} value"
  | nonBooleanTest found => s!"if test must evaluate to a Boolean, found {found.display}"
  | invalidCast value target => s!"cannot cast {value.display} to {target.describe}"
  | unknownFunction name => s!"function '{name}' is not registered"
  | function name reason => s!"function '{name}' failed: {reason}"
  | cyclicLabel name => s!"labeled element '{name}' refers to itself"

end EvalError

/-! ### Functions -/

/-- A function on values. -/
abbrev ValueFunction := List Value → Except EvalError Value

/-- The functions that can be called, the last one first. -/
structure Evaluator where
  functions : List (Name × ValueFunction)

namespace Evaluator

/-- No functions. -/
def empty : Evaluator := ⟨[]⟩

/-- Adds a function, which hides an earlier one of its name. -/
def register (ev : Evaluator) (name : Name) (f : ValueFunction) : Evaluator :=
  ⟨(name, f) :: ev.functions⟩

/-- The function of that name. -/
def function? (ev : Evaluator) (name : Name) : Option ValueFunction := ev.functions.lookup name

/-! ### The built-in functions -/

/-- The name of the function that joins texts. -/
def concatName : Name := "odata.concat"

/-- The name of the function that encodes a text for use in an address. -/
def uriEncodeName : Name := "odata.uriEncode"

/-- The text that a value adds to a joined one: null adds nothing. -/
def concatPiece : Value → Except EvalError String
  | .null => .ok ""
  | .primitive value => .ok value.display
  | other => .error (.function concatName s!"cannot concatenate a {other.sort} value")

/-- Joins the texts of the arguments. -/
def concat : ValueFunction := fun arguments => do
  let pieces ← arguments.mapM concatPiece
  return .string ("".intercalate pieces)

/-- Whether a byte is written as it is in an address. -/
def isUnreserved (b : UInt8) : Bool :=
  let c := Char.ofNat b.toNat
  b < 128 && (c.isAlphanum || c == '-' || c == '.' || c == '_' || c == '~')

/-- A text with every byte that is not unreserved written as a percent sign and two digits. -/
def uriEncode (text : String) : String :=
  String.ofList (text.toUTF8.toList.flatMap fun b =>
    if isUnreserved b then [Char.ofNat b.toNat] else '%' :: PrimitiveValue.hexByte b)

/-- Encodes the text of the only argument. -/
def encode : ValueFunction
  | [.primitive value] => .ok (.string (uriEncode value.display))
  | _ => .error (.function uriEncodeName "expects exactly one primitive argument")

/-- The built-in functions. -/
def standard : Evaluator :=
  (empty.register concatName concat).register uriEncodeName encode

end Evaluator

end Schemata

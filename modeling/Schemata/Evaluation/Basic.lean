import Schemata.Evaluation.Conversion
import Schemata.Evaluation.Labels

/-!
# Evaluation

`Catalog.evaluate` computes the value of an expression on a context value, usually the record that
describes the annotated instance.  What could not be resolved in the expression becomes an error
here and nowhere earlier.

The names of the labels that are being evaluated are kept, and a label whose name is among them is
not evaluated again.
-/

namespace Schemata.Catalog

variable (c : Catalog)

/-! ### Leaves -/

/-- What stands at the end of a path in a value.  A property that is not there is null, and so is
what stands in null. -/
def readPath (value : Value) : List Name → Except EvalError Value
  | [] => .ok value
  | segment :: rest =>
    match value with
    | .record _ fields =>
      match fields.lookup segment with
      | some next => readPath next rest
      | none => .ok .null
    | .null => .ok .null
    | other => .error (.notStructured segment other)

/-- Two 64-bit numbers joined bit by bit. -/
def bitOr (a b : Int) : Int := (Int64.ofInt a ||| Int64.ofInt b).toInt

/-- Members of an enumeration as one value: their names, and their values joined bit by bit.  A
member without a valid value counts as zero. -/
def combine (members : List (Element EnumMember)) : Except EvalError Value := do
  let ms ← members.mapM fun
    | .declared member => .ok member
    | .placeholder p => .error (.ofPlaceholder p)
  let type := match ms.getLast? with
    | some member => (c.type member.type).qualifiedName
    | none => ""
  return .enum type (" ".intercalate (ms.map fun member => (c.memberDecl member).name))
    ((ms.map fun member => (c.valueOf? member).getD 0).foldl bitOr 0)

/-! ### Evaluation -/

/-- The value of an expression on a context value, where the labels named in `stack` are being
evaluated. -/
def eval (ev : Evaluator) (context : Value) (stack : List Name) (e : ExprRef) :
    Except EvalError Value :=
  match _hv : c.view e with
  | .constant _ _ (.ok value) => .ok (.primitive value)
  | .constant _ _ (.error d) => .error (.diagnostic d)
  | .null => .ok .null
  | .path segments =>
    match c.pathTarget e segments with
    | .placeholder p => .error (.ofPlaceholder p)
    | .declared _ => readPath context segments
  | .enumMember members => c.combine members
  | .cond test ifTrue ifFalse => do
    let outcome ← eval ev context stack test
    match outcome.bool? with
    | some true => eval ev context stack ifTrue
    | some false => eval ev context stack ifFalse
    | none => throw (.nonBooleanTest outcome)
  | .cast type operand => do
    let value ← eval ev context stack operand
    c.convert e.owner.model value type
  | .isType type operand => do
    let value ← eval ev context stack operand
    return .bool (← c.hasType e.owner.model value type)
  | .record type? fields => do
    let type := (type?.bind (c.elementOf? e.owner.model)).bind (·.declared?)
    let values ← fields.attach.mapM fun ⟨field, _⟩ => do
      return (field.name, ← eval ev context stack field.value)
    return .ofFields (type.map fun t => (c.type t).qualifiedName) values
  | .collection _ elements => do
    let values ← elements.attach.mapM fun ⟨element, _⟩ => eval ev context stack element
    return .collection values
  | .apply function arguments => do
    match ev.function? function with
    | none => throw (.unknownFunction function)
    | some f =>
      let values ← arguments.attach.mapM fun ⟨argument, _⟩ => eval ev context stack argument
      f values
  | .labeled name operand =>
    if name ∈ stack then .error (.cyclicLabel name) else eval ev context (name :: stack) operand
  | .labelRef (.declared target) => eval ev context stack target
  | .labelRef (.placeholder p) => .error (.ofPlaceholder p)
  | .malformed p => .error (.ofPlaceholder p)
termination_by c.evalMeasure stack e
decreasing_by
  iterate 5
    exact c.evalLt_of_mem_children (by simp [_hv]) (by simp [_hv, ExprView.children])
  · exact c.evalLt_of_mem_children (by simp [_hv])
      (by simpa [_hv, ExprView.children] using ⟨_, ‹_›, rfl⟩)
  iterate 2
    exact c.evalLt_of_mem_children (by simp [_hv]) (by simpa [_hv, ExprView.children])
  · exact c.evalLt_of_view_labeled _hv ‹_›
  · exact c.evalLt_of_view_labelRef _hv

/-- The value of an expression on a context value. -/
def evaluate (ev : Evaluator) (context : Value) (e : ExprRef) : Except EvalError Value :=
  c.eval ev context [] e

end Schemata.Catalog

import Schemata.Evaluation.Basic

/-!
# The calls of an evaluation

`Catalog.eval` is given the labels that are being evaluated and gives them unchanged to every
operand.  An evaluator that keeps one stack of labels instead puts the name of a label on it, goes
on below the label and takes the name away again.  `Catalog.procedure` is the body of such an
evaluator: a `Procedure` is a tree of nested calls, with changes of the stack between them.
`Catalog.Ends` runs procedures, one nested call after the other, and `Catalog.Makes` says which
nested calls a call makes on the way and with which stack.  Neither supposes that a run ends or
that it leaves the stack alone.

* `Procedure.Gives` follows a procedure when the answers of its nested calls are known;
* `gives_procedure`: with the answers of `eval` a call gives what `eval` gives, and each nested call
  is smaller;
* `wellFounded_makes_and_callEnds_iff`: calls nest finitely deep, and each ends with the result of
  `eval` and the stack it began with.
-/

namespace Schemata

/-- The label of a labeled expression. -/
def ExprView.label? : ExprView → Option Name
  | labeled name _ => some name
  | _ => none

/-! ### Procedures -/

/-- A call of the evaluator: the expression, and the names of the labels on the stack. -/
structure EvalCall where
  stack : List Name
  expr : ExprRef

/-- What a call does until it has a result. -/
inductive Procedure (α : Type) where
  /-- Ends with a value or an error. -/
  | done (result : Except EvalError α)
  /-- Calls the evaluator and goes on with what comes of it. -/
  | call (e : ExprRef) (next : Except EvalError Value → Procedure α)
  /-- Puts a name on the stack. -/
  | push (name : Name) (next : Procedure α)
  /-- Takes the last name from the stack. -/
  | pop (next : Procedure α)
  /-- Looks at the stack. -/
  | peek (next : List Name → Procedure α)

namespace Procedure

/-- Goes on after a value; an error ends the whole procedure, whatever is on the stack. -/
protected def bind {α β : Type} : Procedure α → (α → Procedure β) → Procedure β
  | done (.ok a), f => f a
  | done (.error x), _ => done (.error x)
  | call e next, f => call e fun result => (next result).bind f
  | push name next, f => push name (next.bind f)
  | pop next, f => pop (next.bind f)
  | peek next, f => peek fun stack => (next stack).bind f

instance : Monad Procedure where
  pure a := done (.ok a)
  bind := Procedure.bind

theorem bind_done {α : Type} (p : Procedure α) : p.bind (fun a => done (.ok a)) = p := by
  induction p with
  | done result => cases result <;> rfl
  | call e next ih => exact congrArg (call e) (funext ih)
  | push name next ih => exact congrArg (push name) ih
  | pop next ih => exact congrArg pop ih
  | peek next ih => exact congrArg peek (funext ih)

theorem bind_bind {α β γ : Type} (p : Procedure α) (f : α → Procedure β) (g : β → Procedure γ) :
    (p.bind f).bind g = p.bind fun a => (f a).bind g := by
  induction p with
  | done result => cases result <;> rfl
  | call e next ih => exact congrArg (call e) (funext ih)
  | push name next ih => exact congrArg (push name) ih
  | pop next ih => exact congrArg pop ih
  | peek next ih => exact congrArg peek (funext ih)

instance : LawfulMonad Procedure := .mk' Procedure bind_done (fun _ _ => rfl) bind_bind

/-- The value of another expression. -/
def nested (e : ExprRef) : Procedure Value := call e done

end Procedure

namespace Catalog

variable (c : Catalog) (ev : Evaluator) (context : Value)

/-- What a call does to evaluate an expression. -/
def procedure (e : ExprRef) : Procedure Value :=
  match c.view e with
  | .constant _ _ (.ok value) => return .primitive value
  | .constant _ _ (.error d) => .done (.error (.diagnostic d))
  | .null => return .null
  | .path segments =>
    match c.pathTarget e segments with
    | .placeholder p => .done (.error (.ofPlaceholder p))
    | .declared _ => .done (readPath context segments)
  | .enumMember members => .done (c.combine members)
  | .cond test ifTrue ifFalse => do
    let outcome ← .nested test
    match outcome.bool? with
    | some true => .nested ifTrue
    | some false => .nested ifFalse
    | none => .done (.error (.nonBooleanTest outcome))
  | .cast type operand => do
    let value ← .nested operand
    .done (c.convert e.owner.model value type)
  | .isType type operand => do
    let value ← .nested operand
    return .bool (← .done (c.hasType e.owner.model value type))
  | .record type? fields => do
    let type := (type?.bind (c.elementOf? e.owner.model)).bind (·.declared?)
    let values ← fields.mapM fun field => do return (field.name, ← .nested field.value)
    return .ofFields (type.map fun t => (c.type t).qualifiedName) values
  | .collection _ elements => do
    let values ← elements.mapM .nested
    return .collection values
  | .apply function arguments =>
    match ev.function? function with
    | none => .done (.error (.unknownFunction function))
    | some f => do
      let values ← arguments.mapM .nested
      .done (f values)
  | .labeled name operand =>
    .peek fun stack =>
      if name ∈ stack then .done (.error (.cyclicLabel name))
      else .push name (.call operand fun result => .pop (.done result))
  | .labelRef (.declared target) => .nested target
  | .labelRef (.placeholder p) => .done (.error (.ofPlaceholder p))
  | .malformed p => .done (.error (.ofPlaceholder p))

/-! ### Runs -/

/-- Running a procedure with a stack ends with a result and with a stack that it leaves. -/
inductive Ends : List Name → Procedure Value → Except EvalError Value → List Name → Prop
  | done {stack : List Name} {result : Except EvalError Value} :
    Ends stack (.done result) result stack
  | call {stack between left : List Name} {e : ExprRef} {inner result : Except EvalError Value}
    {next : Except EvalError Value → Procedure Value}
    (first : Ends stack (c.procedure ev context e) inner between)
    (rest : Ends between (next inner) result left) : Ends stack (.call e next) result left
  | push {stack left : List Name} {name : Name} {result : Except EvalError Value}
    {next : Procedure Value} (rest : Ends (name :: stack) next result left) :
    Ends stack (.push name next) result left
  | pop {stack left : List Name} {result : Except EvalError Value} {next : Procedure Value}
    (rest : Ends stack.tail next result left) : Ends stack (.pop next) result left
  | peek {stack left : List Name} {result : Except EvalError Value}
    {next : List Name → Procedure Value} (rest : Ends stack (next stack) result left) :
    Ends stack (.peek next) result left

/-- Running a procedure with a stack comes to a nested call. -/
inductive Reaches : List Name → Procedure Value → EvalCall → Prop
  | here {stack : List Name} {e : ExprRef} {next : Except EvalError Value → Procedure Value} :
    Reaches stack (.call e next) ⟨stack, e⟩
  | after {stack between : List Name} {e : ExprRef} {inner : Except EvalError Value}
    {next : Except EvalError Value → Procedure Value} {k : EvalCall}
    (first : c.Ends ev context stack (c.procedure ev context e) inner between)
    (rest : Reaches between (next inner) k) : Reaches stack (.call e next) k
  | push {stack : List Name} {name : Name} {next : Procedure Value} {k : EvalCall}
    (rest : Reaches (name :: stack) next k) : Reaches stack (.push name next) k
  | pop {stack : List Name} {next : Procedure Value} {k : EvalCall}
    (rest : Reaches stack.tail next k) : Reaches stack (.pop next) k
  | peek {stack : List Name} {next : List Name → Procedure Value} {k : EvalCall}
    (rest : Reaches stack (next stack) k) : Reaches stack (.peek next) k

/-- A call ends with a result and with a stack that it leaves. -/
def CallEnds (k : EvalCall) (result : Except EvalError Value) (left : List Name) : Prop :=
  c.Ends ev context k.stack (c.procedure ev context k.expr) result left

/-- One call makes the other on the way. -/
def Makes (outer inner : EvalCall) : Prop :=
  c.Reaches ev context outer.stack (c.procedure ev context outer.expr) inner

end Catalog

/-! ### Following a procedure with known answers -/

namespace Procedure

variable {answer : List Name → ExprRef → Except EvalError Value} {P : EvalCall → Prop}
  {α β : Type} {stack left : List Name}

/-- The procedure gives a result and leaves a stack if nested calls have the answers `answer` and
leave the stack as it was; all its nested calls fulfil `P`. -/
def Gives (answer : List Name → ExprRef → Except EvalError Value) (P : EvalCall → Prop)
    (stack : List Name) : Procedure α → Except EvalError α → List Name → Prop
  | done result', result, left => result = result' ∧ left = stack
  | call e next, result, left =>
    P ⟨stack, e⟩ ∧ (next (answer stack e)).Gives answer P stack result left
  | push name next, result, left => next.Gives answer P (name :: stack) result left
  | pop next, result, left => next.Gives answer P stack.tail result left
  | peek next, result, left => (next stack).Gives answer P stack result left

theorem gives_done (result : Except EvalError α) :
    (done result).Gives answer P stack result stack :=
  ⟨rfl, rfl⟩

theorem gives_nested {e : ExprRef} (h : P ⟨stack, e⟩) :
    (nested e).Gives answer P stack (answer stack e) stack :=
  ⟨h, rfl, rfl⟩

theorem Gives.bind {p : Procedure α} {f : α → Procedure β} {result : Except EvalError α}
    {g : α → Except EvalError β} (hp : p.Gives answer P stack result left)
    (hf : ∀ a, (f a).Gives answer P left (g a) left) :
    (p >>= f).Gives answer P stack (result >>= g) left := by
  induction p generalizing stack with
  | done result' =>
    obtain ⟨rfl, rfl⟩ := hp
    cases result with
    | ok a => exact hf a
    | error x => exact gives_done _
  | call e next ih => exact ⟨hp.1, ih _ hp.2⟩
  | push name next ih => exact ih hp
  | pop next ih => exact ih hp
  | peek next ih => exact ih _ hp

/-- Nested calls of siblings are all made with the same stack. -/
theorem Gives.mapM {as : List α} {f : α → Procedure β} {g : α → Except EvalError β}
    (h : ∀ a ∈ as, (f a).Gives answer P stack (g a) stack) :
    (as.mapM f).Gives answer P stack (as.mapM g) stack := by
  induction as with
  | nil => exact gives_done _
  | cons a as ih =>
    have hrest := ih fun b hb => h b (List.mem_cons_of_mem a hb)
    rw [List.mapM_cons, List.mapM_cons]
    exact (h a List.mem_cons_self).bind fun b => hrest.bind fun bs => gives_done _

end Procedure

namespace Catalog

open Procedure

variable {c : Catalog} {ev : Evaluator} {context : Value} {stack left : List Name} {e : ExprRef}

/-! ### One call -/

variable (c) in
/-- The nested call is smaller than a call of `e` with `stack`, and it is made with the stack that
all nested calls of that call are made with: the stack of the call and the label of `e`. -/
def IsBelow (stack : List Name) (e : ExprRef) (k : EvalCall) : Prop :=
  EvalLt (c.evalMeasure k.stack k.expr) (c.evalMeasure stack e) ∧
    k.stack = (c.view e).label?.toList ++ stack

theorem isBelow_of_mem_children (stack : List Name) {v : ExprView} {child : ExprRef}
    (hv : c.view e = v) (hl : v.label? = none) (h : child ∈ v.children) :
    c.IsBelow stack e ⟨stack, child⟩ := by
  subst hv
  refine ⟨c.evalLt_of_mem_children (fun name operand hv => ?_) h, by rw [hl]; rfl⟩
  rw [hv] at hl
  cases hl

/-- **One call.**  If nested calls give what `eval` gives and leave the stack as it was, so does the
call itself, and all nested calls are below it. -/
theorem gives_procedure (stack : List Name) (e : ExprRef) :
    (c.procedure ev context e).Gives (c.eval ev context) (c.IsBelow stack e) stack
      (c.eval ev context stack e) stack := by
  unfold procedure
  fun_cases eval
  case case1 hv | case2 hv | case3 hv | case6 hv | case17 hv | case18 hv =>
    rw [hv]
    exact gives_done _
  case case4 hv p hpath | case5 hv p hpath =>
    rw [hv]
    dsimp only
    rw [hpath]
    exact gives_done _
  case case7 test ifTrue ifFalse hv =>
    have hchild (child : ExprRef) (h : child ∈ [test, ifTrue, ifFalse]) :
        c.IsBelow stack e ⟨stack, child⟩ := isBelow_of_mem_children stack hv rfl h
    rw [hv]
    refine (gives_nested (hchild test (by simp))).bind fun outcome => ?_
    cases outcome.bool? with
    | none => exact gives_done _
    | some b =>
      cases b
      · exact gives_nested (hchild ifFalse (by simp))
      · exact gives_nested (hchild ifTrue (by simp))
  case case8 hv =>
    have hoperand := isBelow_of_mem_children stack hv rfl List.mem_cons_self
    rw [hv]
    exact (gives_nested hoperand).bind fun value => gives_done _
  case case9 hv =>
    have hoperand := isBelow_of_mem_children stack hv rfl List.mem_cons_self
    rw [hv]
    exact (gives_nested hoperand).bind fun value => (gives_done _).bind fun b => gives_done _
  -- operands are called one after another, all with the same stack
  case case10 fields hv _ =>
    rw [hv, List.mapM_subtype (g := fun field => do
      return (field.name, ← c.eval ev context stack field.value)) (fun _ _ => rfl),
      List.unattach_attach]
    refine (Gives.mapM fun field hfield => ?_).bind fun values => gives_done _
    have hvalue := isBelow_of_mem_children stack hv rfl (List.mem_map_of_mem hfield)
    exact (gives_nested hvalue).bind fun value => gives_done _
  case case11 elements hv =>
    rw [hv, List.mapM_subtype (g := c.eval ev context stack) (fun _ _ => rfl),
      List.unattach_attach]
    refine (Gives.mapM fun element helement => ?_).bind fun values => gives_done _
    exact gives_nested (isBelow_of_mem_children stack hv rfl helement)
  case case12 hv hf =>
    rw [hv]
    dsimp only
    rw [hf]
    exact gives_done _
  case case13 arguments hv f hf =>
    rw [hv, List.mapM_subtype (g := c.eval ev context stack) (fun _ _ => rfl),
      List.unattach_attach]
    dsimp only
    rw [hf]
    refine (Gives.mapM fun argument hargument => ?_).bind fun values => gives_done _
    exact gives_nested (isBelow_of_mem_children stack hv rfl hargument)
  case case14 name operand hv hmem =>
    rw [hv]
    dsimp only [Gives]
    rw [if_pos hmem]
    exact gives_done _
  case case15 name operand hv hmem =>
    have hbelow : c.IsBelow stack e ⟨name :: stack, operand⟩ :=
      ⟨c.evalLt_of_view_labeled hv hmem, by rw [hv]; rfl⟩
    rw [hv]
    dsimp only [Gives]
    rw [if_neg hmem]
    -- what was put on the stack is taken from it, whatever comes of the operand
    exact ⟨hbelow, rfl, rfl⟩
  case case16 target hv =>
    have hbelow : c.IsBelow stack e ⟨stack, target⟩ :=
      ⟨c.evalLt_of_view_labelRef hv, by rw [hv]; rfl⟩
    rw [hv]
    exact gives_nested hbelow

/-! ### All calls -/

/-- Where each nested call ends as `eval` says, following a procedure is running it. -/
theorem ends_iff_of_gives {p : Procedure Value} {P : EvalCall → Prop}
    {result result' : Except EvalError Value} {left' : List Name}
    (hp : p.Gives (c.eval ev context) P stack result left)
    (hcalls : ∀ k, P k → ∀ result left, c.CallEnds ev context k result left ↔
      result = c.eval ev context k.stack k.expr ∧ left = k.stack) :
    c.Ends ev context stack p result' left' ↔ result' = result ∧ left' = left := by
  induction p generalizing stack with
  | done result'' =>
    obtain ⟨rfl, rfl⟩ := hp
    constructor
    · intro h
      cases h
      exact ⟨rfl, rfl⟩
    · rintro ⟨rfl, rfl⟩
      exact .done
  | call e next ih =>
    obtain ⟨hcall, hnext⟩ := hp
    have hend := hcalls _ hcall
    rw [← ih _ hnext]
    constructor
    · intro h
      cases h with
      | call first rest =>
        obtain ⟨rfl, rfl⟩ := (hend _ _).1 first
        exact rest
    · exact fun h => .call ((hend _ _).2 ⟨rfl, rfl⟩) h
  | push name next ih =>
    rw [← ih hp]
    exact ⟨fun h => by cases h; assumption, .push⟩
  | pop next ih =>
    rw [← ih hp]
    exact ⟨fun h => by cases h; assumption, .pop⟩
  | peek next ih =>
    rw [← ih _ hp]
    exact ⟨fun h => by cases h; assumption, .peek⟩

/-- Where each nested call ends as `eval` says, those that are reached are those followed. -/
theorem of_reaches_of_gives {p : Procedure Value} {P : EvalCall → Prop} {k : EvalCall}
    {result : Except EvalError Value} (hp : p.Gives (c.eval ev context) P stack result left)
    (hcalls : ∀ k, P k → ∀ result left, c.CallEnds ev context k result left →
      result = c.eval ev context k.stack k.expr ∧ left = k.stack)
    (h : c.Reaches ev context stack p k) : P k := by
  induction h with
  | here => exact hp.1
  | after first rest ih =>
    obtain ⟨rfl, rfl⟩ := hcalls _ hp.1 _ _ first
    exact ih hp.2
  | push rest ih => exact ih hp
  | pop rest ih => exact ih hp
  | peek rest ih => exact ih hp

variable (c) in
/-- Measures of calls get smaller finitely often. -/
theorem wellFounded_evalLt : WellFounded fun inner outer : EvalCall =>
    EvalLt (c.evalMeasure inner.stack inner.expr) (c.evalMeasure outer.stack outer.expr) :=
  InvImage.wf (fun k : EvalCall => c.evalMeasure k.stack k.expr)
    (Prod.lex Nat.lt_wfRel (Prod.lex Nat.lt_wfRel Nat.lt_wfRel)).wf

/-- A call ends in one way: with the result of `eval` and the stack that it began with. -/
theorem callEnds_iff (k : EvalCall) {result : Except EvalError Value} :
    c.CallEnds ev context k result left ↔
      result = c.eval ev context k.stack k.expr ∧ left = k.stack := by
  induction k using c.wellFounded_evalLt.induction generalizing result left with
  | h k ih =>
    refine ends_iff_of_gives (gives_procedure k.stack k.expr) fun inner hinner result left => ?_
    exact ih inner hinner.1

theorem isBelow_of_makes {outer inner : EvalCall} (h : c.Makes ev context outer inner) :
    c.IsBelow outer.stack outer.expr inner :=
  of_reaches_of_gives (gives_procedure outer.stack outer.expr)
    (fun k _ _ _ => (callEnds_iff k).1) h

/-- **Evaluation comes to an end.**  For every evaluator, context, stack and expression: calls do
not nest for ever; a call ends with the result of `eval` and with the stack that it began with, and
in no other way; and all calls that a call makes are made with one stack.  In particular an
evaluation, which begins with no labels, ends with the result of `evaluate`. -/
theorem wellFounded_makes_and_callEnds_iff (c : Catalog) (ev : Evaluator) (context : Value) :
    (WellFounded fun inner outer => c.Makes ev context outer inner) ∧
      (∀ k result left, c.CallEnds ev context k result left ↔
        result = c.eval ev context k.stack k.expr ∧ left = k.stack) ∧
      (∀ outer inner inner', c.Makes ev context outer inner → c.Makes ev context outer inner' →
        inner.stack = inner'.stack) ∧
      ∀ e, c.CallEnds ev context ⟨[], e⟩ (c.evaluate ev context e) [] := by
  refine ⟨?_, fun k result left => callEnds_iff k, ?_, fun e => (callEnds_iff _).2 ⟨rfl, rfl⟩⟩
  · exact Subrelation.wf (fun h => (isBelow_of_makes h).1) c.wellFounded_evalLt
  · intro outer inner inner' h h'
    rw [(isBelow_of_makes h).2, (isBelow_of_makes h').2]

end Catalog

end Schemata

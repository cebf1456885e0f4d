import Mathlib.Data.List.Nodup
import Mathlib.Logic.Relation
import Schemata.Proofs.Evaluation.Calls
import Schemata.Proofs.Evaluation.Traversal

/-!
# When an evaluation is refused as a cycle

A labeled expression is refused if a label of its name is on the stack.  The names on the stack are
those of the labeled expressions that are being evaluated (`IsOpen.stack_eq`), so what is refused is
a second label of one name below the first, be it that of the same expression or not.

An error that one call comes to itself (`Procedure.Raises`) is passed on by all calls around it
(`Procedure.PassesOn`).  So an evaluation ends in a cycle if and only if some call of it is refused,
or a function says so (`evaluate_eq_cyclicLabel_iff`).  Where the labels of a schema have different
names, it does so only if an expression is reached again while it is being evaluated.
-/

namespace Schemata

/-- The expressions that a view leads to: its operands, or what its label refers to. -/
def ExprView.successors : ExprView → List ExprRef
  | labelRef (.declared target) => [target]
  | v => v.children

theorem ExprView.mem_successors_iff {v : ExprView} {next : ExprRef} :
    next ∈ v.successors ↔ next ∈ v.children ∨ v = .labelRef (.declared next) := by
  cases v with
  | labelRef target => cases target <;> simp [successors, children, eq_comm]
  | _ => simp [successors]

/-! ### Where an error comes from -/

namespace Procedure

variable {α β : Type} {answer : List Name → ExprRef → Except EvalError Value}
  {P : EvalCall → Prop} {x : EvalError} {stack left : List Name} {result : Except EvalError α}

/-- The procedure comes to an error itself, if nested calls have the answers `answer`: none of those
on its way has that error. -/
def Raises (answer : List Name → ExprRef → Except EvalError Value) (x : EvalError)
    (stack : List Name) : Procedure α → Prop
  | done result => result = .error x
  | call e next => answer stack e ≠ .error x ∧ (next (answer stack e)).Raises answer x stack
  | push name next => next.Raises answer x (name :: stack)
  | pop next => next.Raises answer x stack.tail
  | peek next => (next stack).Raises answer x stack

/-- The procedure calls nothing any more and ends in an error. -/
def EndsIn (x : EvalError) : Procedure α → Prop
  | done result => result = .error x
  | call .. => False
  | push _ next | pop next => next.EndsIn x
  | peek next => ∀ stack, (next stack).EndsIn x

/-- The procedure calls expressions of a set only and ends in whatever error a nested call has. -/
def PassesOn (S : ExprRef → Prop) : Procedure α → Prop
  | done _ => True
  | call e next => S e ∧ (∀ x, (next (.error x)).EndsIn x) ∧ ∀ v, (next (.ok v)).PassesOn S
  | push _ next | pop next => next.PassesOn S
  | peek next => ∀ stack, (next stack).PassesOn S

theorem gives_unique {P' : EvalCall → Prop} {p : Procedure α} {result' : Except EvalError α}
    {left' : List Name} (h : p.Gives answer P stack result left)
    (h' : p.Gives answer P' stack result' left') : result = result' := by
  induction p generalizing stack with
  | done => exact h.1.trans h'.1.symm
  | call e next ih => exact ih _ h.2 h'.2
  | push name next ih => exact ih h h'
  | pop next ih => exact ih h h'
  | peek next ih => exact ih _ h h'

/-! ### Errors that a procedure raises -/

theorem eq_error_of_raises {p : Procedure α} (hp : p.Gives answer P stack result left)
    (h : p.Raises answer x stack) : result = .error x := by
  induction p generalizing stack with
  | done result' => exact hp.1.trans h
  | call e next ih => exact ih _ hp.2 h.2
  | push name next ih => exact ih hp h
  | pop next ih => exact ih hp h
  | peek next ih => exact ih _ hp h

theorem not_raises_nested (e : ExprRef) : ¬ (nested e).Raises answer x stack :=
  fun h => h.1 h.2

/-- Of two procedures the first one raises an error, or the second one does after it. -/
theorem raises_bind {p : Procedure α} {f : α → Procedure β}
    (hp : p.Gives answer P stack result left) (h : (p >>= f).Raises answer x stack) :
    p.Raises answer x stack ∨ ∃ a, result = .ok a ∧ (f a).Raises answer x left := by
  induction p generalizing stack with
  | done result' =>
    obtain ⟨rfl, rfl⟩ := hp
    cases result with
    | ok a => exact .inr ⟨a, rfl, h⟩
    | error y =>
      obtain rfl : y = x := Except.error.inj h
      exact .inl rfl
  | call e next ih => exact (ih _ hp.2 h.2).imp (⟨h.1, ·⟩) id
  | push name next ih => exact ih hp h
  | pop next ih => exact ih hp h
  | peek next ih => exact ih _ hp h

/-- After a nested call it is what follows that raises an error. -/
theorem raises_nested_bind {f : Value → Procedure β} {e : ExprRef}
    (h : (nested e >>= f).Raises answer x stack) :
    ∃ v, answer stack e = .ok v ∧ (f v).Raises answer x stack :=
  (raises_bind (P := fun _ => True) (gives_nested trivial) h).resolve_left (not_raises_nested e)

theorem not_raises_mapM {as : List α} {f : α → Procedure β} {g : α → Except EvalError β}
    (hgives : ∀ a ∈ as, (f a).Gives answer P stack (g a) stack)
    (hraises : ∀ a ∈ as, ¬ (f a).Raises answer x stack) : ¬ (as.mapM f).Raises answer x stack := by
  induction as with
  | nil => exact fun h => by cases h
  | cons a as ih =>
    have hgives' := fun b hb => hgives b (List.mem_cons_of_mem a hb)
    have hrest := ih hgives' fun b hb => hraises b (List.mem_cons_of_mem a hb)
    rw [List.mapM_cons]
    intro h
    rcases raises_bind (hgives a List.mem_cons_self) h with h | ⟨b, -, h⟩
    · exact hraises a List.mem_cons_self h
    · rcases raises_bind (Gives.mapM hgives') h with h | ⟨bs, -, h⟩
      · exact hrest h
      · cases h

/-- After nested calls of siblings it is what follows that raises an error. -/
theorem raises_mapM_nested_bind {f : List Value → Procedure β} {es : List ExprRef}
    (h : (es.mapM nested >>= f).Raises answer x stack) :
    ∃ vs, es.mapM (answer stack) = .ok vs ∧ (f vs).Raises answer x stack := by
  have hgives : ∀ e ∈ es, (nested e).Gives answer (fun _ => True) stack (answer stack e) stack :=
    fun e _ => gives_nested trivial
  exact (raises_bind (Gives.mapM hgives) h).resolve_left
    (not_raises_mapM hgives fun e _ => not_raises_nested e)

/-! ### Errors that a procedure passes on -/

theorem EndsIn.bind {p : Procedure α} (hp : p.EndsIn x) (f : α → Procedure β) :
    (p >>= f).EndsIn x := by
  induction p with
  | done result' =>
    obtain rfl : result' = .error x := hp
    exact (rfl : (Except.error x : Except EvalError β) = .error x)
  | call e next ih => exact hp.elim
  | push name next ih => exact ih hp
  | pop next ih => exact ih hp
  | peek next ih => exact fun stack => ih stack (hp stack)

theorem passesOn_nested {S : ExprRef → Prop} {e : ExprRef} (he : S e) : (nested e).PassesOn S :=
  ⟨he, fun _ => rfl, fun _ => trivial⟩

theorem PassesOn.bind {S : ExprRef → Prop} {p : Procedure α} {f : α → Procedure β}
    (hp : p.PassesOn S) (hf : ∀ a, (f a).PassesOn S) : (p >>= f).PassesOn S := by
  induction p with
  | done result' =>
    cases result' with
    | ok a => exact hf a
    | error y => exact trivial
  | call e next ih => exact ⟨hp.1, fun y => (hp.2.1 y).bind f, fun v => ih _ (hp.2.2 v)⟩
  | push name next ih => exact ih hp
  | pop next ih => exact ih hp
  | peek next ih => exact fun stack => ih stack (hp stack)

theorem PassesOn.mapM {S : ExprRef → Prop} {f : α → Procedure β} {as : List α}
    (hf : ∀ a ∈ as, (f a).PassesOn S) : (as.mapM f).PassesOn S := by
  induction as with
  | nil => exact trivial
  | cons a as ih =>
    have hrest := ih fun b hb => hf b (List.mem_cons_of_mem a hb)
    rw [List.mapM_cons]
    exact (hf a List.mem_cons_self).bind fun b => hrest.bind fun bs => trivial

end Procedure

namespace Catalog

open Procedure

variable {c : Catalog} {ev : Evaluator} {context : Value} {stack left : List Name} {e : ExprRef}
  {x : EvalError} {p : Procedure Value} {k : EvalCall} {result : Except EvalError Value}
  {name : Name}

theorem ends_procedure_iff : c.Ends ev context stack (c.procedure ev context e) result left ↔
    result = c.eval ev context stack e ∧ left = stack := callEnds_iff ⟨stack, e⟩

theorem eq_error_of_endsIn (hp : p.EndsIn x) (h : c.Ends ev context stack p result left) :
    result = .error x := by
  induction h with
  | done => exact hp
  | call => exact hp.elim
  | push _ ih | pop _ ih => exact ih hp
  | peek _ ih => exact ih (hp _)

theorem not_reaches_of_endsIn (hp : p.EndsIn x) : ¬ c.Reaches ev context stack p k := by
  intro h
  induction h with
  | here | after => exact hp
  | push _ ih | pop _ ih => exact ih hp
  | peek _ ih => exact ih (hp _)

section passesOn

variable {S : ExprRef → Prop} (hp : p.PassesOn S) (hreach : c.Reaches ev context stack p k)
include hp hreach

/-- Calls that are reached are of expressions of the set. -/
theorem mem_of_reaches : S k.expr := by
  induction hreach with
  | here => exact hp.1
  | @after _ _ _ inner _ _ _ rest ih =>
    cases inner with
    | ok v => exact ih (hp.2.2 v)
    | error y => exact (not_reaches_of_endsIn (hp.2.1 y) rest).elim
  | push _ ih | pop _ ih => exact ih hp
  | peek _ ih => exact ih (hp _)

/-- The error of a nested call is the error of the procedure. -/
theorem eq_error_of_reaches (hk : c.eval ev context k.stack k.expr = .error x)
    (h : c.Ends ev context stack p result left) : result = .error x := by
  induction hreach with
  | @here stack e next =>
    cases h with
    | call first rest =>
      obtain ⟨rfl, -⟩ := ends_procedure_iff.1 first
      rw [hk] at rest
      exact eq_error_of_endsIn (hp.2.1 x) rest
  | @after stack between e inner next k first rest ih =>
    obtain ⟨rfl, rfl⟩ := ends_procedure_iff.1 first
    cases h with
    | call first' rest' =>
      obtain ⟨hinner, hbetween⟩ := ends_procedure_iff.1 first'
      rw [hinner, hbetween] at rest'
      -- after an error there would be no further call
      cases hinner : c.eval ev context between e with
      | ok v => exact ih (hinner ▸ hp.2.2 v) hk rest'
      | error y => exact (not_reaches_of_endsIn (hinner ▸ hp.2.1 y) rest).elim
  | push _ ih =>
    cases h with
    | push rest => exact ih hp hk rest
  | pop _ ih =>
    cases h with
    | pop rest => exact ih hp hk rest
  | peek _ ih =>
    cases h with
    | peek rest => exact ih (hp _) hk rest

end passesOn

/-- A procedure raises the error that it ends in, or a nested call has it. -/
theorem raises_or_exists_reaches (h : c.Ends ev context stack p result left)
    (hx : result = .error x) : p.Raises (c.eval ev context) x stack ∨
      ∃ k, c.Reaches ev context stack p k ∧ c.eval ev context k.stack k.expr = .error x := by
  induction h with
  | done => exact .inl hx
  | @call stack between left e inner result next first rest _ ih =>
    obtain ⟨rfl, rfl⟩ := ends_procedure_iff.1 first
    by_cases he : c.eval ev context between e = .error x
    · exact .inr ⟨_, .here, he⟩
    · exact (ih hx).imp (⟨he, ·⟩) fun ⟨k, hreach, hk⟩ => ⟨k, .after first hreach, hk⟩
  | push _ ih => exact (ih hx).imp id fun ⟨k, hreach, hk⟩ => ⟨k, .push hreach, hk⟩
  | pop _ ih => exact (ih hx).imp id fun ⟨k, hreach, hk⟩ => ⟨k, .pop hreach, hk⟩
  | peek _ ih => exact (ih hx).imp id fun ⟨k, hreach, hk⟩ => ⟨k, .peek hreach, hk⟩

/-! ### One call -/

variable (c) in
/-- Evaluation goes on from an expression to an operand, or to what a label refers to. -/
def LeadsTo (e next : ExprRef) : Prop := next ∈ (c.view e).successors

/-- What an expression leads to is in its schema. -/
theorem LeadsTo.exprSchema_eq {next : ExprRef} (h : c.LeadsTo e next) :
    c.exprSchema next = c.exprSchema e := by
  rcases ExprView.mem_successors_iff.1 h with h | h
  · exact c.exprSchema_of_mem_operands (c.mem_operands_of_mem_children h)
  · exact (c.of_view_labelRef h).1

theorem passesOn_procedure (e : ExprRef) :
    (c.procedure ev context e).PassesOn (c.LeadsTo e) := by
  have hchild {v : ExprView} {child : ExprRef} (hv : c.view e = v) (h : child ∈ v.children) :
      c.LeadsTo e child := ExprView.mem_successors_iff.2 (.inl (hv ▸ h))
  unfold procedure
  split
  case h_4 => split <;> exact trivial
  case h_6 test ifTrue ifFalse hv =>
    refine (passesOn_nested (hchild hv (by simp [ExprView.children]))).bind fun outcome => ?_
    split
    · exact passesOn_nested (hchild hv (by simp [ExprView.children]))
    · exact passesOn_nested (hchild hv (by simp [ExprView.children]))
    · exact trivial
  case h_7 hv => exact (passesOn_nested (hchild hv List.mem_cons_self)).bind fun value => trivial
  case h_8 hv =>
    refine (passesOn_nested (hchild hv List.mem_cons_self)).bind fun value => ?_
    exact PassesOn.bind (p := .done _) trivial fun b => trivial
  case h_9 hv =>
    refine (PassesOn.mapM fun field hfield => ?_).bind fun values => trivial
    exact (passesOn_nested (hchild hv (List.mem_map_of_mem hfield))).bind fun value => trivial
  case h_10 hv =>
    exact (PassesOn.mapM fun element h => passesOn_nested (hchild hv h)).bind fun values => trivial
  case h_11 hv =>
    split
    · exact trivial
    · exact (PassesOn.mapM fun argument h => passesOn_nested (hchild hv h)).bind
        fun values => trivial
  case h_12 hv =>
    intro stack
    dsimp only
    split
    · exact trivial
    · exact ⟨hchild hv List.mem_cons_self, fun x => rfl, fun v => trivial⟩
  case h_13 hv => exact passesOn_nested (ExprView.mem_successors_iff.2 (.inr hv))
  all_goals exact trivial

theorem leadsTo_of_makes {outer inner : EvalCall} (h : c.Makes ev context outer inner) :
    c.LeadsTo outer.expr inner.expr :=
  mem_of_reaches (passesOn_procedure outer.expr) h

/-- **One call.**  A call ends in an error if and only if it raises it or a nested call ends in
it. -/
theorem eval_eq_error_iff (k : EvalCall) : c.eval ev context k.stack k.expr = .error x ↔
    (c.procedure ev context k.expr).Raises (c.eval ev context) x k.stack ∨
      ∃ inner, c.Makes ev context k inner ∧
        c.eval ev context inner.stack inner.expr = .error x := by
  have hends : c.CallEnds ev context k (c.eval ev context k.stack k.expr) k.stack :=
    (callEnds_iff k).2 ⟨rfl, rfl⟩
  constructor
  · exact fun hx => raises_or_exists_reaches hends hx
  · rintro (hraises | ⟨inner, hmakes, hx⟩)
    · exact eq_error_of_raises (gives_procedure k.stack k.expr) hraises
    · exact eq_error_of_reaches (passesOn_procedure k.expr) hmakes hx hends

/-! ### Errors that are no cycles -/

theorem bind_eq_error {α β : Type} {y : Except EvalError α} {f : α → Except EvalError β}
    (h : (y >>= f) = .error x) : y = .error x ∨ ∃ a, y = .ok a ∧ f a = .error x := by
  cases y with
  | ok a => exact .inr ⟨a, rfl, h⟩
  | error z => exact .inl (congrArg _ (Except.error.inj h))

theorem readPath_ne_cyclicLabel (value : Value) (segments : List Name) :
    readPath value segments ≠ .error (.cyclicLabel name) := by
  induction segments generalizing value with
  | nil => exact fun h => by cases h
  | cons segment rest ih =>
    unfold readPath
    split
    · split
      · exact ih _
      · exact fun h => by cases h
    · exact fun h => by cases h
    · exact fun h => by cases h

theorem combine_ne_cyclicLabel (members : List (Element EnumMember)) :
    c.combine members ≠ .error (.cyclicLabel name) := by
  intro h
  rcases bind_eq_error h with h | ⟨ms, -, h⟩
  · obtain ⟨member, -, h⟩ := exists_mem_of_mapM_eq_error h
    cases member <;> cases h
  · cases h

theorem hasType_ne_cyclicLabel (m : ModelId) (value : Value) (type : TypeReference) :
    c.hasType m value type ≠ .error (.cyclicLabel name) := by
  induction type generalizing value with
  | collection element n ih =>
    intro h
    unfold hasType at h
    split at h
    · cases h
    · cases value with
      | collection items =>
        rcases bind_eq_error h with h | ⟨bs, -, h⟩
        · obtain ⟨item, -, h⟩ := exists_mem_of_mapM_eq_error h
          exact ih item h
        · cases h
      | _ => cases h
  | primitive | declared | entityReference | placeholder =>
    unfold hasType
    split
    · exact fun h => by cases h
    · cases value <;> exact fun h => by cases h

theorem convert_ne_cyclicLabel (m : ModelId) (value : Value) (type : TypeReference) :
    c.convert m value type ≠ .error (.cyclicLabel name) := by
  unfold convert
  split
  · exact fun h => by cases h
  · split
    · exact fun h => by cases h
    · split <;> exact fun h => by cases h
    · exact fun h => by cases h
    · intro h
      rcases bind_eq_error h with h | ⟨b, -, h⟩
      · exact hasType_ne_cyclicLabel m value type h
      · cases b <;> cases h

/-! ### Calls that raise a cycle -/

variable (c) in
/-- The call is of a labeled expression, and a label of its name is on the stack. -/
def IsRefused (k : EvalCall) (name : Name) : Prop :=
  (c.view k.expr).label? = some name ∧ name ∈ k.stack

variable (c ev context) in
/-- The call applies a function, and for the values of the arguments the function gives the
error. -/
def FunctionGives (k : EvalCall) (x : EvalError) : Prop :=
  ∃ function arguments f values, c.view k.expr = .apply function arguments ∧
    ev.function? function = some f ∧
    arguments.mapM (c.eval ev context k.stack) = .ok values ∧ f values = .error x

theorem ExprView.eq_labeled_of_label? {v : ExprView} (h : v.label? = some name) :
    ∃ operand, v = .labeled name operand := by
  cases v <;> cases h
  exact ⟨_, rfl⟩

theorem eval_of_isRefused (h : c.IsRefused k name) :
    c.eval ev context k.stack k.expr = .error (.cyclicLabel name) := by
  obtain ⟨hlabel, hmem⟩ := h
  obtain ⟨operand, hv⟩ := ExprView.eq_labeled_of_label? hlabel
  refine eq_error_of_raises (gives_procedure k.stack k.expr) ?_
  unfold procedure
  rw [hv]
  dsimp only [Raises]
  rw [if_pos hmem]
  exact rfl

theorem eval_of_functionGives (h : c.FunctionGives ev context k x) :
    c.eval ev context k.stack k.expr = .error x := by
  obtain ⟨function, arguments, f, values, hv, hf, hvalues, hx⟩ := h
  have hgives : (c.procedure ev context k.expr).Gives (c.eval ev context) (fun _ => True) k.stack
      (.error x) k.stack := by
    have hrun : (arguments.mapM (c.eval ev context k.stack) >>= f) = .error x := by
      rw [hvalues]
      exact hx
    unfold procedure
    rw [hv, ← hrun]
    dsimp only
    rw [hf]
    exact (Gives.mapM fun e _ => gives_nested trivial).bind fun values => gives_done _
  exact gives_unique (gives_procedure k.stack k.expr) hgives

theorem makes_of_view_labeled {operand : ExprRef} (hv : c.view e = .labeled name operand)
    (hname : name ∉ stack) : c.Makes ev context ⟨stack, e⟩ ⟨name :: stack, operand⟩ := by
  unfold Makes procedure
  rw [hv]
  refine .peek ?_
  rw [if_neg hname]
  exact .push .here

theorem makes_of_view_labelRef {target : ExprRef} (hv : c.view e = .labelRef (.declared target)) :
    c.Makes ev context ⟨stack, e⟩ ⟨stack, target⟩ := by
  unfold Makes procedure
  rw [hv]
  exact .here

theorem raises_cyclicLabel
    (h : (c.procedure ev context k.expr).Raises (c.eval ev context) (.cyclicLabel name) k.stack) :
    c.IsRefused k name ∨ c.FunctionGives ev context k (.cyclicLabel name) := by
  have hdone {α : Type} {result : Except EvalError α}
      (h : (Procedure.done result).Raises (c.eval ev context) (.cyclicLabel name) k.stack) :
      result = .error (.cyclicLabel name) := h
  unfold procedure at h
  split at h
  case h_1 | h_2 | h_3 | h_14 | h_15 => cases hdone h
  case h_4 =>
    split at h
    · cases hdone h
    · exact (readPath_ne_cyclicLabel _ _ (hdone h)).elim
  case h_5 => exact (combine_ne_cyclicLabel _ (hdone h)).elim
  case h_6 =>
    obtain ⟨outcome, -, h⟩ := raises_nested_bind h
    split at h
    · exact (not_raises_nested _ h).elim
    · exact (not_raises_nested _ h).elim
    · cases hdone h
  case h_7 =>
    obtain ⟨value, -, h⟩ := raises_nested_bind h
    exact (convert_ne_cyclicLabel _ _ _ (hdone h)).elim
  case h_8 =>
    obtain ⟨value, -, h⟩ := raises_nested_bind h
    rcases raises_bind (P := fun _ => True) (gives_done _) h with h | ⟨b, -, h⟩
    · exact (hasType_ne_cyclicLabel _ _ _ (hdone h)).elim
    · cases hdone h
  case h_9 fields _ =>
    have hgives (field : RecordField) :
        (nested field.value >>= fun v => Procedure.done (.ok (field.name, v))).Gives
          (c.eval ev context) (fun _ => True) k.stack
          (c.eval ev context k.stack field.value >>= fun v => .ok (field.name, v)) k.stack :=
      (gives_nested trivial).bind fun v => gives_done _
    rcases raises_bind (Gives.mapM fun field _ => hgives field) h with h | ⟨values, -, h⟩
    · refine (not_raises_mapM (fun field _ => hgives field) (fun field _ h => ?_) h).elim
      obtain ⟨v, -, h⟩ := raises_nested_bind h
      cases hdone h
    · cases hdone h
  case h_10 =>
    obtain ⟨values, -, h⟩ := raises_mapM_nested_bind h
    cases hdone h
  case h_11 function arguments hv =>
    split at h
    · cases hdone h
    case h_2 f hf =>
      obtain ⟨values, hvalues, h⟩ := raises_mapM_nested_bind h
      exact .inr ⟨function, arguments, f, values, hv, hf, hvalues, hdone h⟩
  case h_12 label operand hv =>
    dsimp only [Raises] at h
    split at h
    case isTrue hmem =>
      cases hdone h
      exact .inl ⟨by rw [hv]; rfl, hmem⟩
    case isFalse => exact (h.1 h.2).elim
  case h_13 => exact (not_raises_nested _ h).elim

/-! ### Open calls -/

variable (c ev context) in
/-- The calls that are open at some moment of an evaluation, the innermost first: each has been made
by the next one, and the last one is of the expression that is evaluated. -/
inductive IsOpen (e : ExprRef) : List EvalCall → Prop
  | start : IsOpen e [⟨[], e⟩]
  | call {inner outer : EvalCall} {calls : List EvalCall} (h : IsOpen e (outer :: calls))
    (hmakes : c.Makes ev context outer inner) : IsOpen e (inner :: outer :: calls)

variable (c) in
/-- The call is of an expression that is labeled so. -/
def HasLabel (k : EvalCall) (name : Name) : Prop := (c.view k.expr).label? = some name

variable {calls : List EvalCall}

/-- The names on the stack are those of the labels that are being evaluated. -/
theorem IsOpen.stack_eq (h : c.IsOpen ev context e (k :: calls)) :
    k.stack = calls.filterMap fun outer => (c.view outer.expr).label? := by
  generalize hopen : k :: calls = opened at h
  induction h generalizing k calls with
  | start =>
    cases hopen
    rfl
  | @call inner outer rest _ hmakes ih =>
    cases hopen
    rw [(isBelow_of_makes hmakes).2, ih rfl, List.filterMap_cons]
    cases (c.view outer.expr).label? <;> rfl

theorem IsOpen.mem_stack_iff (h : c.IsOpen ev context e (k :: calls)) :
    name ∈ k.stack ↔ ∃ outer ∈ calls, c.HasLabel outer name := by
  rw [h.stack_eq, List.mem_filterMap]
  rfl

theorem IsOpen.exprSchema_eq (h : c.IsOpen ev context e calls) :
    ∀ k ∈ calls, c.exprSchema k.expr = c.exprSchema e := by
  induction h with
  | start => exact List.forall_mem_singleton.2 rfl
  | call _ hmakes ih =>
    refine List.forall_mem_cons.2 ⟨?_, ih⟩
    exact (leadsTo_of_makes hmakes).exprSchema_eq.trans (ih _ List.mem_cons_self)

theorem exists_isOpen_iff : (∃ calls, c.IsOpen ev context e (k :: calls)) ↔
    Relation.ReflTransGen (c.Makes ev context) ⟨[], e⟩ k := by
  constructor
  · rintro ⟨calls, h⟩
    generalize hopen : k :: calls = opened at h
    induction h generalizing k calls with
    | start =>
      cases hopen
      exact .refl
    | call _ hmakes ih =>
      cases hopen
      exact (ih _ rfl).tail hmakes
  · intro h
    induction h with
    | refl => exact ⟨[], .start⟩
    | tail _ hmakes ih =>
      obtain ⟨calls, hopen⟩ := ih
      exact ⟨_, hopen.call hmakes⟩

/-! ### All calls -/

/-- A call ends in a cycle if and only if on its way a call is refused or a function gives a
cycle. -/
theorem eval_eq_cyclicLabel_iff (k : EvalCall) :
    c.eval ev context k.stack k.expr = .error (.cyclicLabel name) ↔
      ∃ inner, Relation.ReflTransGen (c.Makes ev context) k inner ∧
        (c.IsRefused inner name ∨ c.FunctionGives ev context inner (.cyclicLabel name)) := by
  constructor
  · induction k using c.wellFounded_evalLt.induction with
    | h k ih =>
      intro hx
      rcases (eval_eq_error_iff k).1 hx with hraises | ⟨next, hmakes, hx⟩
      · exact ⟨k, .refl, raises_cyclicLabel hraises⟩
      · obtain ⟨inner, hreach, hinner⟩ := ih next (isBelow_of_makes hmakes).1 hx
        exact ⟨inner, hreach.head hmakes, hinner⟩
  · rintro ⟨inner, hreach, hinner⟩
    induction hreach using Relation.ReflTransGen.head_induction_on with
    | refl => exact hinner.elim eval_of_isRefused eval_of_functionGives
    | head hmakes _ ih => exact (eval_eq_error_iff _).2 (.inr ⟨_, hmakes, ih⟩)

/-! ### Labels with different names -/

/-- Where the labels of a schema have different names, expressions of the schema with labels of one
name are the same. -/
theorem HasLabel.expr_eq {k' : EvalCall} (hk : c.HasLabel k name) (hk' : c.HasLabel k' name)
    (hschema : c.exprSchema k'.expr = c.exprSchema k.expr)
    (hnames : (((c.model (c.exprSchema k.expr).model).labels (c.exprSchema k.expr).id).map
      (·.name)).Nodup) : k'.expr = k.expr := by
  obtain ⟨operand, hv⟩ := ExprView.eq_labeled_of_label? hk
  obtain ⟨operand', hv'⟩ := ExprView.eq_labeled_of_label? hk'
  obtain ⟨ops, hform⟩ := c.form_of_view_labeled hv
  obtain ⟨ops', hform'⟩ := c.form_of_view_labeled hv'
  have hmem := c.mem_labels hform
  have hmem' := c.mem_labels hform'
  have hmodel : k'.expr.owner.model = k.expr.owner.model := congrArg (·.model) hschema
  rw [hschema] at hmem'
  obtain ⟨-, howner, hplace⟩ :=
    Model.Label.mk.inj (List.inj_on_of_nodup_map hnames hmem' hmem rfl)
  obtain ⟨_, ⟨⟨m, id⟩, place⟩⟩ := k
  obtain ⟨_, ⟨⟨m', id'⟩, place'⟩⟩ := k'
  obtain rfl : m' = m := hmodel
  obtain rfl : id' = id := howner
  obtain rfl : place' = place := hplace
  rfl

variable (c ev context) in
/-- On the way of an evaluation an expression that is labeled so is reached again while it is being
evaluated. -/
def Reenters (e : ExprRef) (name : Name) : Prop :=
  ∃ k calls, c.IsOpen ev context e (k :: calls) ∧ c.HasLabel k name ∧
    ∃ outer ∈ calls, outer.expr = k.expr

/-- **Which evaluations are refused as a cycle.**  An evaluation ends in a cycle if and only if on
its way a labeled expression is reached while one with a label of the same name is being evaluated,
or a function gives that error.  So whenever an expression is reached again, this is found out; and
where the labels of the schema have different names, nothing else is taken for a cycle. -/
theorem evaluate_eq_cyclicLabel_iff (c : Catalog) (ev : Evaluator) (context : Value) (e : ExprRef)
    (name : Name) :
    (c.evaluate ev context e = .error (.cyclicLabel name) ↔
      ∃ k calls, c.IsOpen ev context e (k :: calls) ∧
        (c.HasLabel k name ∧ (∃ outer ∈ calls, c.HasLabel outer name) ∨
          c.FunctionGives ev context k (.cyclicLabel name))) ∧
    (c.Reenters ev context e name → c.evaluate ev context e = .error (.cyclicLabel name)) ∧
    ((((c.model (c.exprSchema e).model).labels (c.exprSchema e).id).map (·.name)).Nodup →
      (∀ function f values, ev.function? function = some f →
        f values ≠ .error (.cyclicLabel name)) →
      (c.evaluate ev context e = .error (.cyclicLabel name) ↔ c.Reenters ev context e name)) := by
  have hiff : c.evaluate ev context e = .error (.cyclicLabel name) ↔
      ∃ k calls, c.IsOpen ev context e (k :: calls) ∧
        (c.HasLabel k name ∧ (∃ outer ∈ calls, c.HasLabel outer name) ∨
          c.FunctionGives ev context k (.cyclicLabel name)) := by
    refine (eval_eq_cyclicLabel_iff ⟨[], e⟩).trans (exists_congr fun k => ?_)
    rw [← exists_isOpen_iff, ← exists_and_right]
    refine exists_congr fun calls => and_congr_right fun hopen => or_congr_left ?_
    exact and_congr_right fun _ => hopen.mem_stack_iff
  have hreenters (h : c.Reenters ev context e name) :
      c.evaluate ev context e = .error (.cyclicLabel name) := by
    obtain ⟨k, calls, hopen, hlabel, outer, houter, hsame⟩ := h
    refine hiff.2 ⟨k, calls, hopen, .inl ⟨hlabel, outer, houter, ?_⟩⟩
    rw [HasLabel, hsame]
    exact hlabel
  refine ⟨hiff, hreenters, fun hnames hfunctions => ⟨fun h => ?_, hreenters⟩⟩
  obtain ⟨k, calls, hopen, ⟨hlabel, outer, houter, hlabel'⟩ | hgives⟩ := hiff.1 h
  · -- both are in the schema of `e`, where one name is one label
    have hk := hopen.exprSchema_eq k List.mem_cons_self
    have hk' := hopen.exprSchema_eq outer (List.mem_cons_of_mem k houter)
    refine ⟨k, calls, hopen, hlabel, outer, houter, hlabel.expr_eq hlabel' (hk'.trans hk.symm) ?_⟩
    rw [hk]
    exact hnames
  · obtain ⟨function, _, f, values, -, hf, -, hx⟩ := hgives
    exact absurd hx (hfunctions function f values hf)

/-- A schema with a term and an annotation of it. -/
def annotatedTermSchema (value : Decl.Expr) : Decl.Schema :=
  let term := { Decl.Term.make "T" "Edm.Int32" with annotations := [.value "NS.T" value] }
  (Decl.Schema.make "NS").addItem (.term term)

/-- A label that refers to itself. -/
theorem evaluate_eq_cyclicLabel_iff_loop :
    let schema := annotatedTermSchema (.labeled "A" (.ofForm (.labelRef "A")))
    let c := initial.add { Options.standard with includeCore := false } [] [schema]
    let e : ExprRef := ⟨⟨1, ⟨0⟩⟩, 0⟩
    c.Reenters .empty .null e "A" ∧ c.evaluate .empty .null e = .error (.cyclicLabel "A") := by
  intro schema c e
  have hlabel : (c.view e).label? = some "A" := by decide +kernel
  have hnames : (((c.model (c.exprSchema e).model).labels (c.exprSchema e).id).map
      (·.name)).Nodup := by
    decide +kernel
  obtain ⟨operand, hv⟩ := ExprView.eq_labeled_of_label? hlabel
  obtain rfl : operand = ⟨⟨1, ⟨0⟩⟩, 1⟩ := by
    have hchildren : (c.view e).children = [⟨⟨1, ⟨0⟩⟩, 1⟩] := by decide +kernel
    rw [hv] at hchildren
    exact (List.cons.inj hchildren).1
  have hv' : c.view ⟨⟨1, ⟨0⟩⟩, 1⟩ = .labelRef (.declared e) := by
    have hnext : e ∈ (c.view ⟨⟨1, ⟨0⟩⟩, 1⟩).successors := by decide +kernel
    exact (ExprView.mem_successors_iff.1 hnext).resolve_left (by decide +kernel)
  have hreenters : c.Reenters .empty .null e "A" :=
    ⟨⟨["A"], e⟩, _, (IsOpen.start.call (makes_of_view_labeled hv nofun)).call
      (makes_of_view_labelRef hv'), hlabel, ⟨[], e⟩, by simp, rfl⟩
  refine ⟨hreenters, ?_⟩
  exact ((evaluate_eq_cyclicLabel_iff c .empty .null e "A").2.2 hnames nofun).2 hreenters

/-- A label in a label of the same name refers to nothing, but it is refused as a cycle. -/
theorem not_reenters_and_evaluate_eq_cyclicLabel :
    let schema := annotatedTermSchema (.labeled "A" (.labeled "A" (.int 1)))
    let c := initial.add { Options.standard with includeCore := false } [] [schema]
    let e : ExprRef := ⟨⟨1, ⟨0⟩⟩, 0⟩
    ¬ c.Reenters .standard .null e "A" ∧
      c.evaluate .standard .null e = .error (.cyclicLabel "A") := by
  intro schema c e
  let inner : ExprRef := ⟨⟨1, ⟨0⟩⟩, 1⟩
  let last : ExprRef := ⟨⟨1, ⟨0⟩⟩, 2⟩
  have hnext : (c.view e).successors = [inner] := by decide +kernel
  have hnext' : (c.view inner).successors = [last] := by decide +kernel
  have hnext'' : (c.view last).successors = [] := by decide +kernel
  have hlabel : (c.view e).label? = some "A" := by decide +kernel
  have hlabel' : (c.view inner).label? = some "A" := by decide +kernel
  constructor
  · -- evaluation only descends, so no expression is open twice
    have hopen (opened : List EvalCall) (h : c.IsOpen .standard .null e opened) :
        opened.map (·.expr) ∈ [[e], [inner, e], [last, inner, e]] := by
      induction h with
      | start => exact List.mem_cons_self
      | @call k outer calls _ hmakes ih =>
        have hstep : k.expr ∈ (c.view outer.expr).successors := leadsTo_of_makes hmakes
        simp only [List.map_cons, List.mem_cons, List.cons.injEq, List.not_mem_nil, or_false] at ih
        rcases ih with ⟨houter, hcalls⟩ | ⟨houter, hcalls⟩ | ⟨houter, -⟩
        · rw [houter, hnext, List.mem_singleton] at hstep
          simp [hstep, houter, hcalls]
        · rw [houter, hnext', List.mem_singleton] at hstep
          simp [hstep, houter, hcalls]
        · rw [houter, hnext''] at hstep
          cases hstep
    rintro ⟨k, calls, h, -, outer, houter, hsame⟩
    have hnodup : ∀ es ∈ [[e], [inner, e], [last, inner, e]], es.Nodup := by decide
    have hk := hnodup _ (hopen _ h)
    rw [List.map_cons, List.nodup_cons] at hk
    exact hk.1 (List.mem_map.2 ⟨outer, houter, hsame⟩)
  · obtain ⟨operand, hv⟩ := ExprView.eq_labeled_of_label? hlabel
    obtain rfl : operand = inner := by
      rw [hv] at hnext
      exact (List.cons.inj hnext).1
    exact (eval_eq_cyclicLabel_iff ⟨[], e⟩).2
      ⟨⟨["A"], inner⟩, .single (makes_of_view_labeled hv nofun), .inl ⟨hlabel', List.mem_cons_self⟩⟩

end Catalog

end Schemata

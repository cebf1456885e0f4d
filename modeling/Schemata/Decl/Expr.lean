import Schemata.Location
import Schemata.Primitive.Kind

/-!
# Expressions as they are declared

An annotation gives a term a value by an expression.  A declared expression is a tree: each node has
a form, `ExprForm`, and a location.  Forms with a fixed number of operands hold a list of them all
the same, so that a tree with a wrong number can be declared and reported later.

`Expr.children` lists the direct operands of a node in the order of declaration.  Equality of trees
is decidable (`Expr.beq_eq_true_iff`).
-/

namespace Schemata.Decl

/-- The assignment of a value to a property. -/
structure Binding (ε : Type) where
  property : Name
  value : ε
  location : Location
deriving DecidableEq, Repr, Inhabited

/-- The form of a node, with operands of type `ε`. -/
inductive ExprForm (ε : Type) where
  /-- A literal. -/
  | constant (kind : ConstantKind) (text : String)
  /-- No value. -/
  | null
  /-- The value of a property, found segment by segment. -/
  | path (segments : List Name)
  /-- One member of an enumeration, or several separated by blanks. -/
  | enumMember (path : Name)
  /-- A choice; three operands: the test and the two outcomes. -/
  | cond (operands : List ε)
  /-- A conversion to a type; one operand. -/
  | cast (typeName : Name) (operands : List ε)
  /-- A test of the type; one operand. -/
  | isType (typeName : Name) (operands : List ε)
  /-- A structured value. -/
  | record (typeName : Option Name) (properties : List (Binding ε))
  /-- A collection of values. -/
  | collection (typeName : Option Name) (elements : List ε)
  /-- The call of a function. -/
  | apply (function : Name) (arguments : List ε)
  /-- An expression with a label; one operand. -/
  | labeled (name : Name) (operands : List ε)
  /-- The value of the expression with a label. -/
  | labelRef (name : Name)
deriving DecidableEq, Repr, Inhabited

/-- The operands of a form, in the order of declaration. -/
def ExprForm.operands {ε : Type} : ExprForm ε → List ε
  | cond ops | cast _ ops | isType _ ops | collection _ ops | apply _ ops | labeled _ ops => ops
  | record _ properties => properties.map (·.value)
  | constant .. | null | path _ | enumMember _ | labelRef _ => []

/-- A declared expression. -/
inductive Expr where
  | node (form : ExprForm Expr) (location : Location)

namespace Expr

instance : Inhabited Expr := ⟨node .null .unknown⟩

/-- The form of the root. -/
def form : Expr → ExprForm Expr
  | node form _ => form

/-- Where the expression stands. -/
def location : Expr → Location
  | node _ location => location

/-- The direct operands, in the order of declaration. -/
def children (e : Expr) : List Expr := e.form.operands

/-- An operand is smaller than the expression it belongs to. -/
theorem sizeOf_lt_of_mem_children {e child : Expr} (h : child ∈ e.children) :
    sizeOf child < sizeOf e := by
  cases e with
  | node form location =>
    unfold children Expr.form at h
    cases form <;> simp only [ExprForm.operands, List.not_mem_nil] at h
    case record typeName properties =>
      obtain ⟨b, hb, rfl⟩ := List.mem_map.1 h
      have := List.sizeOf_lt_of_mem hb
      cases b
      simp_all
      omega
    all_goals
      have := List.sizeOf_lt_of_mem h
      simp
      omega

/-! ### Equality -/

mutual

/-- Whether two expressions are equal. -/
def beq : Expr → Expr → Bool
  | node (.constant k t) l, node (.constant k' t') l' => k == k' && t == t' && l == l'
  | node .null l, node .null l' => l == l'
  | node (.path s) l, node (.path s') l' => s == s' && l == l'
  | node (.enumMember p) l, node (.enumMember p') l' => p == p' && l == l'
  | node (.cond es) l, node (.cond es') l' => beqAll es es' && l == l'
  | node (.cast t es) l, node (.cast t' es') l' => t == t' && beqAll es es' && l == l'
  | node (.isType t es) l, node (.isType t' es') l' => t == t' && beqAll es es' && l == l'
  | node (.record t bs) l, node (.record t' bs') l' => t == t' && beqBindings bs bs' && l == l'
  | node (.collection t es) l, node (.collection t' es') l' => t == t' && beqAll es es' && l == l'
  | node (.apply f es) l, node (.apply f' es') l' => f == f' && beqAll es es' && l == l'
  | node (.labeled n es) l, node (.labeled n' es') l' => n == n' && beqAll es es' && l == l'
  | node (.labelRef n) l, node (.labelRef n') l' => n == n' && l == l'
  | _, _ => false

/-- Whether two lists of expressions are equal. -/
def beqAll : List Expr → List Expr → Bool
  | [], [] => true
  | e :: es, e' :: es' => beq e e' && beqAll es es'
  | _, _ => false

/-- Whether two lists of assignments are equal. -/
def beqBindings : List (Binding Expr) → List (Binding Expr) → Bool
  | [], [] => true
  | ⟨p, e, l⟩ :: bs, ⟨p', e', l'⟩ :: bs' => p == p' && beq e e' && l == l' && beqBindings bs bs'
  | _, _ => false

end

mutual

theorem eq_of_beq : (a b : Expr) → beq a b = true → a = b
  | node f l, node f' l' => by
    cases f <;> cases f' <;> simp only [beq, Bool.and_eq_true, beq_iff_eq, Bool.false_eq_true,
      false_implies, node.injEq]
    case constant.constant => rintro ⟨⟨rfl, rfl⟩, rfl⟩; exact ⟨rfl, rfl⟩
    case null.null => exact fun h => ⟨trivial, h⟩
    case path.path => rintro ⟨rfl, rfl⟩; exact ⟨rfl, rfl⟩
    case enumMember.enumMember => rintro ⟨rfl, rfl⟩; exact ⟨rfl, rfl⟩
    case labelRef.labelRef => rintro ⟨rfl, rfl⟩; exact ⟨rfl, rfl⟩
    case cond.cond es es' => exact fun ⟨h, hl⟩ => ⟨by rw [eq_of_beqAll es es' h], hl⟩
    case record.record t bs t' bs' =>
      exact fun ⟨⟨ht, h⟩, hl⟩ => ⟨by rw [ht, eq_of_beqBindings bs bs' h], hl⟩
    case cast.cast t es t' es' =>
      exact fun ⟨⟨ht, h⟩, hl⟩ => ⟨by rw [ht, eq_of_beqAll es es' h], hl⟩
    case isType.isType t es t' es' =>
      exact fun ⟨⟨ht, h⟩, hl⟩ => ⟨by rw [ht, eq_of_beqAll es es' h], hl⟩
    case collection.collection t es t' es' =>
      exact fun ⟨⟨ht, h⟩, hl⟩ => ⟨by rw [ht, eq_of_beqAll es es' h], hl⟩
    case apply.apply t es t' es' =>
      exact fun ⟨⟨ht, h⟩, hl⟩ => ⟨by rw [ht, eq_of_beqAll es es' h], hl⟩
    case labeled.labeled t es t' es' =>
      exact fun ⟨⟨ht, h⟩, hl⟩ => ⟨by rw [ht, eq_of_beqAll es es' h], hl⟩

theorem eq_of_beqAll : (a b : List Expr) → beqAll a b = true → a = b
  | [], [] => by simp
  | [], _ :: _ => by simp [beqAll]
  | _ :: _, [] => by simp [beqAll]
  | x :: xs, y :: ys => by
    simp only [beqAll, Bool.and_eq_true, List.cons.injEq]
    exact fun ⟨h, h'⟩ => ⟨eq_of_beq x y h, eq_of_beqAll xs ys h'⟩

theorem eq_of_beqBindings : (a b : List (Binding Expr)) → beqBindings a b = true → a = b
  | [], [] => by simp
  | [], _ :: _ => by simp [beqBindings]
  | _ :: _, [] => by simp [beqBindings]
  | ⟨_, x, _⟩ :: xs, ⟨_, y, _⟩ :: ys => by
    simp only [beqBindings, Bool.and_eq_true, beq_iff_eq, List.cons.injEq, Binding.mk.injEq]
    exact fun ⟨⟨⟨hp, h⟩, hl⟩, h'⟩ => ⟨⟨hp, eq_of_beq x y h, hl⟩, eq_of_beqBindings xs ys h'⟩

end

mutual

theorem beq_self : (a : Expr) → beq a a = true
  | node f _ => by cases f <;> simp [beq, beqAll_self, beqBindings_self]

theorem beqAll_self : (a : List Expr) → beqAll a a = true
  | [] => rfl
  | x :: xs => by simp [beqAll, beq_self x, beqAll_self xs]

theorem beqBindings_self : (a : List (Binding Expr)) → beqBindings a a = true
  | [] => rfl
  | ⟨_, x, _⟩ :: xs => by simp [beqBindings, beq_self x, beqBindings_self xs]

end

theorem beq_eq_true_iff (a b : Expr) : beq a b = true ↔ a = b :=
  ⟨eq_of_beq a b, fun h => h ▸ beq_self a⟩

instance : DecidableEq Expr := fun a b => decidable_of_iff _ (beq_eq_true_iff a b)

end Expr

end Schemata.Decl

import Schemata.Proofs.Catalog.Handles
import Schemata.Proofs.Evaluation.Conversion
import Schemata.Proofs.Evaluation.Traversal
import Schemata.Proofs.Expr.View
import Schemata.Proofs.Types.Ancestry

/-!
# Records and their types

The value of a record keeps the full name of its type and not the type itself.  A type test looks
that name up again, and in another way than the schema that holds the expression did: not with
aliases, and as one who looks at the model from outside.

Both come to the same type.  What a reference leads to has the name that was looked for
(`FoundAt.qualifiedNameOf_locate`), so under its own name it is found again
(`Refers.find?_qualifiedName`).  Hence a record passes the test for its declared type
and for the bases above it and for nothing else, and is converted to these types only
(`eval_isType_and_cast_of_record`).
-/

namespace Schemata.Catalog

variable {c : Catalog} {m : ModelId} {s : Declared .schema} {name : Name} {h : Handle .type}
  {t : Declared .type} {location : Location} {nullable : Bool}

/-! ### The name of what is found -/

/-- What a name leads to has that name. -/
theorem FoundAt.qualifiedNameOf_locate (hm : c.TellsReferencesApart m) {k : SymbolKind}
    {h : Handle k.element} (hf : FoundAt c m k name h) :
    (c.model (c.locate m h).model).qualifiedNameOf k (c.locate m h).id = name := by
  have hnamed {r : ModelId} {id : Id k.element} (hid : (c.model r).first? k name = some id) :
      (c.model r).qualifiedNameOf k id = name := by
    rw [Model.first?_eq_find?] at hid
    simpa using List.find?_some hid
  cases hf with
  | here hid => exact hnamed hid
  | there hr hid =>
    rw [hm.locate_referenced hr]
    exact hnamed hid

variable (c) in
/-- Some name leads to the type, as the model sees it. -/
def Refers (m : ModelId) (t : Declared .type) : Prop :=
  ∃ name h, c.handle? m .type name = some h ∧ t = c.locate m h

/-- What some name leads to is found again under its own full name. -/
theorem Refers.find?_qualifiedName (hc : c.IsBuilt) (hm : c.TellsReferencesApart m)
    (ht : c.Refers m t) : c.find? m .type (c.type t).qualifiedName = some t := by
  obtain ⟨name, h, hh, rfl⟩ := ht
  have hname : (c.type (c.locate m h)).qualifiedName = name :=
    (foundAt_of_handle? hh).qualifiedNameOf_locate hm
  have hfound : (c.handle? m .type name).map (c.locate m) = c.find? m .type name :=
    (locate_handle?_eq_find?_iff (hc.nodup_references m)).2 hm.not_isFar
  rw [hname, ← hfound, hh, Option.map_some]

/-- An instance is one of its own type and of the bases above it. -/
theorem Refers.isInstance_iff (hc : c.IsBuilt) (hm : c.TellsReferencesApart m)
    (ht : c.Refers m t) (target : Declared .type) :
    c.isInstance m (some (c.type t).qualifiedName) target = true ↔
      Relation.ReflTransGen (Chain.Follows c.declaredBase?) t target := by
  unfold isInstance
  dsimp only
  rw [ht.find?_qualifiedName hc hm]
  dsimp only
  exact derivesFrom_iff

/-! ### Type references -/

/-- The declared type at the bottom of a reference is one that a name leads to. -/
theorem refers_of_referenceOf {syn : TypeSyntax} {n : Bool}
    (ht : (c.referenceOf s nullable location syn).elementType = .declared h n) :
    c.Refers s.model (c.locate s.model h) := by
  have hofElement {found : Element (Handle .type)} {n' : Bool}
      (h' : (TypeReference.ofElement n' found).elementType = .declared h n) :
      found = .declared h := by
    cases found <;> cases h'
    rfl
  -- collections and references to entities hold one name each
  induction syn with
  | named name =>
    unfold referenceOf at ht
    split at ht
    · cases ht
    · exact ⟨_, h, resolve_eq_declared_iff.1 (hofElement ht), rfl⟩
  | collection element ih => exact ih ht
  | ref entity =>
    cases entity with
    | named name => exact ⟨_, h, resolve?_of_resolveType (hofElement ht), rfl⟩
    | collection | ref => cases ht

theorem refers_of_typeReference {text : Name}
    (ht : c.elementOf? s.model (c.typeReference s text nullable location) =
      some (.declared t)) : c.Refers s.model t := by
  unfold elementOf? at ht
  split at ht
  case h_1 h n helement =>
    cases ht
    unfold typeReference at helement
    split at helement
    · exact refers_of_referenceOf helement
    · cases helement
  case h_2 | h_3 => cases ht

/-! ### Evaluation -/

variable {ev : Evaluator} {context value : Value} {stack : List Name} {e operand : ExprRef}
  {type : TypeReference} {type? : Option TypeReference} {fields : List RecordField}

theorem eval_isType (hv : c.view e = .isType type operand)
    (hoperand : c.eval ev context stack operand = .ok value) :
    c.eval ev context stack e = (c.hasType e.owner.model value type).map .bool := by
  rw [eval]
  split
  all_goals cases hv.symm.trans ‹_›
  rw [hoperand]
  rfl

theorem eval_cast (hv : c.view e = .cast type operand)
    (hoperand : c.eval ev context stack operand = .ok value) :
    c.eval ev context stack e = c.convert e.owner.model value type := by
  rw [eval]
  split
  all_goals cases hv.symm.trans ‹_›
  rw [hoperand]
  rfl

theorem hasType_record {values : List (Name × Value)} {n : Bool} :
    c.hasType m (.record (some name) values) (.declared h n) =
      .ok (c.isInstance m (some name) (c.locate m h)) := rfl

/-- A record of which the fields have values has a value, and that has the name of its type. -/
theorem exists_eval_record (hv : c.view e = .record (some type) fields)
    (htype : c.elementOf? e.owner.model type = some (.declared t))
    (hfields : ∀ field ∈ fields, ∃ v, c.eval ev context stack field.value = .ok v) :
    ∃ values, c.eval ev context stack e =
      .ok (.record (some (c.type t).qualifiedName) values) := by
  obtain ⟨values, hvalues⟩ := exists_mapM_eq_ok (f := fun field : RecordField => do
      return (field.name, ← c.eval ev context stack field.value)) fun field hfield => by
    obtain ⟨v, hv⟩ := hfields field hfield
    exact ⟨(field.name, v), by rw [hv]; rfl⟩
  rw [eval]
  split
  all_goals cases hv.symm.trans ‹_›
  rw [List.mapM_subtype (g := fun field => do
    return (field.name, ← c.eval ev context stack field.value)) (fun _ _ => rfl),
    List.unattach_attach, hvalues, Option.bind_some, htype]
  exact ⟨_, rfl⟩

/-- The type of a record is read from a name. -/
theorem exists_exprType_of_view_record (hv : c.view e = .record (some type) fields) :
    ∃ text, type = c.exprType e text := by
  unfold view viewWith at hv
  dsimp only at hv
  split at hv
  case h_9 hreferences =>
    cases hv
    unfold references at hreferences
    split at hreferences
    · cases hreferences
    · split at hreferences
      case h_4 =>
        obtain ⟨text, -, rfl⟩ := Option.map_eq_some_iff.1 (ExprReferences.record.inj hreferences).1
        exact ⟨text, rfl⟩
      all_goals cases hreferences
  all_goals cases hv

theorem refers_of_view_record (hv : c.view e = .record (some type) fields)
    (htype : c.elementOf? e.owner.model type = some (.declared t)) :
    c.Refers e.owner.model t := by
  obtain ⟨text, rfl⟩ := exists_exprType_of_view_record hv
  exact refers_of_typeReference htype

/-- **A record is an instance of its declared type** and of the bases above it, and of nothing else,
be they declared in the model or in one that it references and whatever they are called.  If its
fields have values, then so does the record; the type test of it says just that, and these are the
types to which it is converted, without being changed.  In particular it passes the test for its own
type under each name of it. -/
theorem eval_isType_and_cast_of_record (hc : c.IsBuilt) (hm : c.TellsReferencesApart e.owner.model)
    (hv : c.view e = .record (some type) fields)
    (htype : c.elementOf? e.owner.model type = some (.declared t))
    (hfields : ∀ field ∈ fields, ∃ v, c.eval ev context stack field.value = .ok v) :
    ∃ value, c.eval ev context stack e = .ok value ∧
      (∀ test h n, c.view test = .isType (.declared h n) e →
        ∃ b, c.eval ev context stack test = .ok (.bool b) ∧
          (b = true ↔ Relation.ReflTransGen (Chain.Follows c.declaredBase?) t
            (c.locate e.owner.model h))) ∧
      (∀ cast h n, c.view cast = .cast (.declared h n) e → ∀ w,
        c.eval ev context stack cast = .ok w ↔
          w = value ∧ Relation.ReflTransGen (Chain.Follows c.declaredBase?) t
            (c.locate e.owner.model h)) ∧
      ∀ test h n, c.view test = .isType (.declared h n) e → c.locate e.owner.model h = t →
        c.eval ev context stack test = .ok (.bool true) := by
  obtain ⟨values, hvalue⟩ := exists_eval_record hv htype hfields
  have hinstance := (refers_of_view_record hv htype).isInstance_iff hc hm
  -- who tests the record stands in its model, so its name is looked up where its type was found
  have hmodel {outer : ExprRef} (h : e ∈ (c.view outer).children) :
      outer.owner.model = e.owner.model := by
    rw [c.owner_of_mem_operands (c.mem_operands_of_mem_children h)]
  have htested {test : ExprRef} {h : Handle .type} {n : Bool}
      (htest : c.view test = .isType (.declared h n) e) :
      c.eval ev context stack test = .ok (.bool (c.isInstance e.owner.model
        (some (c.type t).qualifiedName) (c.locate e.owner.model h))) := by
    rw [eval_isType htest hvalue, hmodel (by rw [htest]; exact List.mem_cons_self), hasType_record]
    rfl
  refine ⟨_, hvalue, fun test h n htest => ⟨_, htested htest, hinstance _⟩,
    fun cast h n hcast w => ?_, fun test h n htest hself => ?_⟩
  · rw [eval_cast hcast hvalue, hmodel (by rw [hcast]; exact List.mem_cons_self),
      convert_eq_ok_iff rfl (fun hnull => by cases hnull), hasType_record, Except.ok.injEq,
      hinstance]
  · rw [htested htest, (hinstance _).2]
    rw [hself]

/-- A record with one field. -/
def derivedRecord : Decl.Expr := .ofForm (.record (some "Self.Derived") [.make "P" .null])

/-- A schema with a type that has its base in another model, and a test whether a record of the type
is of that base. -/
def derivedSchema : Decl.Schema :=
  let derived := { Decl.Structured.make "Derived" with base? := some "Lib.Base" }
  let term := { Decl.Term.make "T" "Edm.Boolean" with
    annotations := [.value "NS.T" (.ofForm (.isType "Lib.Base" [derivedRecord]))] }
  { Decl.Schema.make "NS" with alias? := some "Self", items := [.complexType derived, .term term] }

/-- Two more models, of which the second references the first. -/
def derived : Catalog :=
  let options := { Options.standard with includeCore := false }
  (initial.add options [] [(Decl.Schema.make "Lib").addItem (.complexType (.make "Base"))]).add
    options [1] [derivedSchema]

/-- The record passes the test. -/
theorem eval_isType_and_cast_of_record_derived :
    let a : Declared .annot := ⟨2, ⟨0⟩⟩
    derived.IsBuilt ∧ derived.TellsReferencesApart 2 ∧
      (∃ fields, derived.view ⟨a, 1⟩ =
          .record (some (derived.exprType ⟨a, 1⟩ "Self.Derived")) fields ∧
        ∀ field ∈ fields, ∃ v, derived.eval .standard .null [] field.value = .ok v) ∧
      derived.elementOf? 2 (derived.exprType ⟨a, 1⟩ "Self.Derived") =
        some (.declared ⟨2, ⟨0⟩⟩) ∧
      derived.eval .standard .null [] ⟨a, 0⟩ = .ok (.bool true) := by
  intro a
  have hc : derived.IsBuilt := by
    refine .add (.add .initial _ (fun _ h => absurd h List.not_mem_nil) _) _ ?_ _
    decide +kernel
  have hm : derived.TellsReferencesApart 2 := by decide +kernel
  have ha : a ∈ derived.elements 2 .annot := by decide +kernel
  have htype : derived.elementOf? 2 (derived.exprType ⟨a, 1⟩ "Self.Derived") =
      some (.declared ⟨2, ⟨0⟩⟩) := by decide +kernel
  have hshows (place : Nat) (form : Decl.ExprForm Decl.Expr)
      (hform : (derived.exprDecl ⟨a, place⟩).form = form) :
      derived.Shows ⟨a, place⟩ form (derived.view ⟨a, place⟩) :=
    hform ▸ hc.shows_view_of_owner ha rfl
  have htest : derived.view ⟨a, 0⟩ = .isType (.declared (.referenced 0 ⟨0⟩) true) ⟨a, 1⟩ := by
    have hops : derived.operands ⟨a, 0⟩ = [⟨a, 1⟩] := by decide +kernel
    have hbase : derived.exprType ⟨a, 0⟩ "Lib.Base" = .declared (.referenced 0 ⟨0⟩) true := by
      decide +kernel
    have hview := hshows 0 (.isType "Lib.Base" [derivedRecord]) (by decide +kernel)
    generalize derived.view ⟨a, 0⟩ = v at hview ⊢
    cases hview with
    | isType hops' => rw [hbase, (List.cons.inj (hops.symm.trans hops')).1]
    | malformed harity hne =>
      cases harity
      exact absurd (congrArg List.length hops) hne
  have hrecord : ∃ fields, derived.view ⟨a, 1⟩ =
        .record (some (derived.exprType ⟨a, 1⟩ "Self.Derived")) fields ∧
      fields.map (·.value) = [⟨a, 2⟩] := by
    have hops : derived.operands ⟨a, 1⟩ = [⟨a, 2⟩] := by decide +kernel
    have hview := hshows 1 (.record (some "Self.Derived") [.make "P" .null]) (by decide +kernel)
    generalize derived.view ⟨a, 1⟩ = v at hview ⊢
    cases hview with
    | record _ hvalues => exact ⟨_, rfl, hvalues.trans hops⟩
    | malformed harity => cases harity
  have hvalue : derived.eval .standard .null [] ⟨a, 2⟩ = .ok .null := by
    have hview := hshows 2 .null (by decide +kernel)
    rw [eval]
    generalize derived.view ⟨a, 2⟩ = v at hview ⊢
    cases hview with
    | null => rfl
    | malformed harity => cases harity
  obtain ⟨fields, hview, hvalues⟩ := hrecord
  have hfields : ∀ field ∈ fields, ∃ v, derived.eval .standard .null [] field.value = .ok v := by
    intro field hfield
    have hmem : field.value ∈ fields.map (·.value) := List.mem_map_of_mem hfield
    rw [hvalues] at hmem
    rw [List.mem_singleton.1 hmem]
    exact ⟨_, hvalue⟩
  refine ⟨hc, hm, ⟨fields, hview, hfields⟩, htype, ?_⟩
  obtain ⟨-, -, hpasses, -⟩ := eval_isType_and_cast_of_record hc hm hview htype hfields
  obtain ⟨b, hb, hiff⟩ := hpasses _ _ _ htest
  have hbase : derived.declaredBase? ⟨2, ⟨0⟩⟩ = some ⟨1, ⟨0⟩⟩ := by decide +kernel
  rw [hb, hiff.2 (.single hbase)]

end Schemata.Catalog

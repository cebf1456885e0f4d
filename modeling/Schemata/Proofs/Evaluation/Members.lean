import Schemata.Evaluation.Basic
import Schemata.Proofs.Evaluation.Traversal
import Schemata.Proofs.Expr.View
import Schemata.Proofs.Types.Enum

/-!
# Members of enumerations as values

The path of an enumeration expression is cut at blanks, and each word names a member (`Names`).
Members of one enumeration, each with a valid value, join to a value of that enumeration: the
bitwise or of their values (`Joins`).

An expression has a value if and only if each word names a member.  The value is the bitwise or of
the valid values, with the name of the last member's enumeration.  So it is what the members join
to if there are members, all of one enumeration and with valid values, and it is something else
otherwise (`eval_enumMember_eq_ok_iff`).
-/

namespace Schemata.Catalog

variable {c : Catalog} {e : ExprRef} {path word : Name} {m : EnumMember} {ms : List EnumMember}
  {values : List Int} {number : Int} {value : Value} {x : EvalError}

/-! ### Bits -/

/-- A 64-bit number has a bit if and only if one of the values has it. -/
structure IsBitwiseOr (values : List Int) (number : Int) : Prop where
  contains : Number.int64Range.contains number = true
  bit_iff : ∀ n, (BitVec.ofInt 64 number).getLsbD n = true ↔
    ∃ v ∈ values, (BitVec.ofInt 64 v).getLsbD n = true

theorem toInt_ofInt_of_contains (h : Number.int64Range.contains number = true) :
    (BitVec.ofInt 64 number).toInt = number := by
  obtain ⟨hge, hle⟩ := of_decide_eq_true h
  exact BitVec.toInt_ofInt_eq_self (by decide) hge (Int.lt_add_one_of_le hle)

/-- The bits say which number it is. -/
theorem IsBitwiseOr.unique {a b : Int} (ha : IsBitwiseOr values a) (hb : IsBitwiseOr values b) :
    a = b := by
  rw [← toInt_ofInt_of_contains ha.contains, ← toInt_ofInt_of_contains hb.contains]
  refine congrArg _ (BitVec.eq_of_getLsbD_eq fun n _ => ?_)
  exact Bool.eq_iff_iff.2 ((ha.bit_iff n).trans (hb.bit_iff n).symm)

theorem contains_bitOr (a b : Int) : Number.int64Range.contains (bitOr a b) = true :=
  decide_eq_true ⟨Int64.le_toInt _, Int.le_of_lt_add_one (Int64.toInt_lt _)⟩

theorem ofInt_bitOr (a b : Int) :
    BitVec.ofInt 64 (bitOr a b) = BitVec.ofInt 64 a ||| BitVec.ofInt 64 b := by
  rw [bitOr, ← Int64.toInt_toBitVec, BitVec.ofInt_toInt, Int64.toBitVec_or, Int64.toBitVec_ofInt,
    Int64.toBitVec_ofInt]

/-- One step: a further value brings its bits in. -/
theorem IsBitwiseOr.bitOr (h : IsBitwiseOr values number) (v : Int) :
    IsBitwiseOr (values ++ [v]) (bitOr number v) where
  contains := contains_bitOr number v
  bit_iff n := by
    rw [ofInt_bitOr, BitVec.getLsbD_or, Bool.or_eq_true, h.bit_iff]
    simp only [List.mem_append, List.mem_singleton, or_and_right, exists_or, exists_eq_left]

theorem isBitwiseOr_nil : IsBitwiseOr [] 0 where
  contains := by decide
  bit_iff n := by simp

theorem isBitwiseOr_foldl (values : List Int) : IsBitwiseOr values (values.foldl bitOr 0) := by
  have hrun (before : List Int) (number : Int) (h : IsBitwiseOr before number) :
      IsBitwiseOr (before ++ values) (values.foldl Catalog.bitOr number) := by
    induction values generalizing before number with
    | nil => simpa using h
    | cons v values ih => simpa using ih (before ++ [v]) _ (h.bitOr v)
  exact hrun [] 0 isBitwiseOr_nil

/-- Zeros bring no bits in. -/
theorem isBitwiseOr_filterMap (f : EnumMember → Option Int) (ms : List EnumMember) :
    IsBitwiseOr (ms.filterMap f) ((ms.map fun m => (f m).getD 0).foldl bitOr 0) := by
  obtain ⟨hcontains, hbit⟩ := isBitwiseOr_foldl (ms.map fun m => (f m).getD 0)
  refine ⟨hcontains, fun n => (hbit n).trans ?_⟩
  simp only [List.mem_map, List.mem_filterMap, exists_exists_and_eq_and]
  constructor
  · rintro ⟨m, hm, hn⟩
    cases hf : f m with
    | none => simp [hf] at hn
    | some v => exact ⟨v, ⟨m, hm, hf⟩, by simpa [hf] using hn⟩
  · rintro ⟨v, ⟨m, hm, hf⟩, hn⟩
    exact ⟨m, hm, by simpa [hf] using hn⟩

/-! ### Names -/

/-- The words of a path of members: what stands between blanks. -/
def memberWords (path : Name) : List Name :=
  (Text.words Text.isBlank path.toList).map String.ofList

section

variable (c e)

/-- The member that a word names, if it names one: what stands before its first slash leads to an
enumeration, and the member is the first of that name there. -/
def memberAt? (word : Name) : Option EnumMember := do
  let (typeName, memberName) ← splitPath word
  let h ← c.resolve? (c.exprSchema e) .type typeName
  c.findMember? (c.locate e.owner.model h) memberName

/-- The words name the members, in the same order. -/
def Names (words : List Name) (ms : List EnumMember) : Prop :=
  List.Forall₂ (fun word m => c.memberAt? e word = some m) words ms

/-- The error for a word that names no member. -/
def memberError (word : Name) : EvalError :=
  .diagnostic (.error .unresolvedEnumMember (c.exprDecl e).location
    s!"enum member '{word}' could not be found")

/-- The member that a word names, or the error. -/
def readMember (word : Name) : Except EvalError EnumMember :=
  (c.memberAt? e word).elim (.error (c.memberError e word)) .ok

end

theorem map_memberHandle (word : Name) :
    (c.memberHandle e word).map (fun (h, place) => ⟨c.locate e.owner.model h, place⟩) =
      .ofOption (.unresolved .unresolvedEnumMember word (c.exprDecl e).location)
        (c.memberAt? e word) := by
  unfold memberHandle memberAt?
  cases splitPath word with
  | none => rfl
  | some parts =>
    obtain ⟨typeName, memberName⟩ := parts
    cases hh : c.resolve? (c.exprSchema e) .type typeName with
    | none => simp only [hh, Option.bind_eq_bind, Option.bind_some, Option.bind_none]; rfl
    | some h =>
      simp only [hh, Option.bind_eq_bind, Option.bind_some, findMember?_eq]
      cases (c.memberDecls (c.locate e.owner.model h)).findIdx? (·.name = memberName) <;> rfl

theorem readMember_eq_ok_iff : c.readMember e word = .ok m ↔ c.memberAt? e word = some m := by
  unfold readMember
  cases c.memberAt? e word <;> simp

theorem readMember_eq_error_iff :
    c.readMember e word = .error x ↔ c.memberAt? e word = none ∧ x = c.memberError e word := by
  unfold readMember
  cases c.memberAt? e word <;> simp [eq_comm]

/-! ### Values -/

section

variable (c)

/-- The names of members, with blanks between them. -/
def memberNames (ms : List EnumMember) : Name :=
  " ".intercalate (ms.map fun m => (c.memberDecl m).name)

/-- The value is what members of one enumeration join to: the bitwise or of their values, which are
all valid. -/
inductive Joins (ms : List EnumMember) : Value → Prop
  | mk {t : Declared .type} {values : List Int} {number : Int} (hne : ms ≠ [])
    (htype : ∀ m ∈ ms, m.type = t)
    (hvalues : List.Forall₂ (fun m v => c.valueOf? m = some v) ms values)
    (hnumber : IsBitwiseOr values number) :
    Joins ms (.enum (c.type t).qualifiedName (c.memberNames ms) number)

/-- The value is what any members are taken for: the bitwise or of those of their values that are
valid, as a value of the last member's enumeration, or of one without a name. -/
inductive IsTakenFor (ms : List EnumMember) : Value → Prop
  | mk {number : Int} (hnumber : IsBitwiseOr (ms.filterMap c.valueOf?) number) :
    IsTakenFor ms (.enum ((ms.getLast?.map fun m => (c.type m.type).qualifiedName).getD "")
      (c.memberNames ms) number)

end

theorem isSome_of_forall₂ {α β : Type} {f : α → Option β} {as : List α} {bs : List β}
    (h : List.Forall₂ (fun a b => f a = some b) as bs) : ∀ a ∈ as, (f a).isSome = true := by
  induction h with
  | nil => exact nofun
  | cons h _ ih => exact List.forall_mem_cons.2 ⟨Option.isSome_of_eq_some h, ih⟩

theorem forall₂_filterMap {α β : Type} {f : α → Option β} {as : List α}
    (h : ∀ a ∈ as, (f a).isSome = true) :
    List.Forall₂ (fun a b => f a = some b) as (as.filterMap f) := by
  induction as with
  | nil => exact .nil
  | cons a as ih =>
    obtain ⟨b, hb⟩ := Option.isSome_iff_exists.1 (h a List.mem_cons_self)
    rw [List.filterMap_cons_some hb]
    exact .cons hb (ih fun a' ha' => h a' (List.mem_cons_of_mem a ha'))

/-- What members are taken for is what they join to if they are members of one enumeration with
valid values. -/
theorem IsTakenFor.joins_iff (h : c.IsTakenFor ms value) :
    c.Joins ms value ↔ ms ≠ [] ∧ (∃ t, ∀ m ∈ ms, m.type = t) ∧
      ∀ m ∈ ms, (c.valueOf? m).isSome = true := by
  constructor
  · rintro ⟨hne, htype, hvalues, -⟩
    exact ⟨hne, ⟨_, htype⟩, isSome_of_forall₂ hvalues⟩
  · rintro ⟨hne, ⟨t, htype⟩, hvalid⟩
    cases h with
    | mk hnumber =>
      rw [List.getLast?_eq_some_getLast hne, Option.map_some, Option.getD_some,
        htype _ (List.getLast_mem hne)]
      exact .mk hne htype (forall₂_filterMap hvalid) hnumber

theorem IsTakenFor.unique {v w : Value} (hv : c.IsTakenFor ms v) (hw : c.IsTakenFor ms w) :
    v = w := by
  cases hv with
  | mk hv =>
    cases hw with
    | mk hw => rw [hv.unique hw]

/-- Members are taken for a value. -/
theorem isTakenFor_of_members (ms : List EnumMember) : c.IsTakenFor ms
    (.enum ((ms.getLast?.map fun m => (c.type m.type).qualifiedName).getD "") (c.memberNames ms)
      ((ms.map fun m => (c.valueOf? m).getD 0).foldl bitOr 0)) :=
  .mk (isBitwiseOr_filterMap c.valueOf? ms)

theorem IsTakenFor.of_eq {type names : Name}
    (htype : (ms.getLast?.map fun m => (c.type m.type).qualifiedName).getD "" = type)
    (hnames : c.memberNames ms = names)
    (hnumber : (ms.map fun m => (c.valueOf? m).getD 0).foldl bitOr 0 = number) :
    c.IsTakenFor ms (.enum type names number) := by
  subst htype hnames hnumber
  exact isTakenFor_of_members ms

/-! ### Evaluation -/

variable {ev : Evaluator} {context : Value} {stack : List Name}

theorem view_enumMember (hform : (c.exprDecl e).form = .enumMember path) :
    c.view e = .enumMember ((memberWords path).map fun word =>
      .ofOption (.unresolved .unresolvedEnumMember word (c.exprDecl e).location)
        (c.memberAt? e word)) := by
  have hreferences : c.references e =
      .enumMembers ((memberWords path).map (c.memberHandle e)) := by
    unfold references malformed? memberWords
    rw [hform, List.map_map]
    rfl
  unfold view viewWith
  rw [hform, hreferences]
  dsimp only
  rw [List.map_map]
  simp only [Function.comp_def, map_memberHandle]

theorem combine_map (words : List Name) :
    c.combine (words.map fun word =>
      .ofOption (.unresolved .unresolvedEnumMember word (c.exprDecl e).location)
        (c.memberAt? e word)) =
      (do
        let ms ← words.mapM (c.readMember e)
        return .enum ((ms.getLast?.map fun m => (c.type m.type).qualifiedName).getD "")
          (c.memberNames ms) ((ms.map fun m => (c.valueOf? m).getD 0).foldl bitOr 0)) := by
  unfold combine
  rw [List.mapM_map]
  refine congr (congrArg bind (congrArg (List.mapM · words) (funext fun word => ?_)))
    (funext fun ms => ?_)
  · unfold readMember
    rw [Function.comp_apply]
    cases c.memberAt? e word <;> rfl
  · cases ms.getLast? <;> rfl

theorem eval_enumMember (hform : (c.exprDecl e).form = .enumMember path) :
    c.eval ev context stack e = (do
      let ms ← (memberWords path).mapM (c.readMember e)
      return .enum ((ms.getLast?.map fun m => (c.type m.type).qualifiedName).getD "")
        (c.memberNames ms) ((ms.map fun m => (c.valueOf? m).getD 0).foldl bitOr 0)) := by
  have hview := view_enumMember hform
  rw [eval]
  split
  all_goals cases hview.symm.trans ‹_›
  exact combine_map _

theorem mapM_readMember_eq_ok_iff {words : List Name} :
    words.mapM (c.readMember e) = .ok ms ↔ c.Names e words ms := by
  rw [mapM_eq_ok_iff]
  simp only [readMember_eq_ok_iff]
  rfl

/-- The value of an expression is what the members that its words name are taken for. -/
theorem eval_enumMember_eq_ok_iff (hform : (c.exprDecl e).form = .enumMember path) :
    c.eval ev context stack e = .ok value ↔
      ∃ ms, c.Names e (memberWords path) ms ∧ c.IsTakenFor ms value := by
  rw [eval_enumMember hform]
  constructor
  · intro h
    cases hms : (memberWords path).mapM (c.readMember e) with
    | error x =>
      rw [hms] at h
      cases h
    | ok ms =>
      rw [hms] at h
      cases h
      exact ⟨ms, mapM_readMember_eq_ok_iff.1 hms, isTakenFor_of_members ms⟩
  · rintro ⟨ms, hms, hvalue⟩
    rw [mapM_readMember_eq_ok_iff.2 hms, hvalue.unique (isTakenFor_of_members ms)]
    rfl

theorem eval_enumMember_eq_error_iff (hform : (c.exprDecl e).form = .enumMember path) :
    c.eval ev context stack e = .error x ↔ ∃ before word after,
      memberWords path = before ++ word :: after ∧
        (∀ w ∈ before, (c.memberAt? e w).isSome = true) ∧ c.memberAt? e word = none ∧
          x = c.memberError e word := by
  have herror : c.eval ev context stack e = .error x ↔
      (memberWords path).mapM (c.readMember e) = .error x := by
    rw [eval_enumMember hform]
    cases (memberWords path).mapM (c.readMember e) with
    | error y => constructor <;> exact fun h => by cases h; rfl
    | ok ms => constructor <;> exact fun h => by cases h
  rw [herror, mapM_eq_error_iff]
  simp only [readMember_eq_ok_iff, readMember_eq_error_iff, Option.isSome_iff_exists]

/-- **Words that name members have a value.**  An expression has a value if and only if each of its
words names a member, and otherwise the first word that names none is the error.  The value is what
the members join to if and only if there is one at least, all are of one enumeration and each has a
valid value. -/
theorem eval_enumMember_joins_iff (hform : (c.exprDecl e).form = .enumMember path) :
    (∀ value, c.eval ev context stack e = .ok value ↔
      ∃ ms, c.Names e (memberWords path) ms ∧ c.IsTakenFor ms value ∧
        (c.Joins ms value ↔ ms ≠ [] ∧ (∃ t, ∀ m ∈ ms, m.type = t) ∧
          ∀ m ∈ ms, (c.valueOf? m).isSome = true)) ∧
      ∀ x, c.eval ev context stack e = .error x ↔ ∃ before word after,
        memberWords path = before ++ word :: after ∧
          (∀ w ∈ before, (c.memberAt? e w).isSome = true) ∧ c.memberAt? e word = none ∧
            x = c.memberError e word := by
  refine ⟨fun value => (eval_enumMember_eq_ok_iff hform).trans ?_, fun x =>
    eval_enumMember_eq_error_iff hform⟩
  constructor
  · rintro ⟨ms, hms, hvalue⟩
    exact ⟨ms, hms, hvalue, hvalue.joins_iff⟩
  · rintro ⟨ms, hms, hvalue, -⟩
    exact ⟨ms, hms, hvalue⟩

/-- One more model of one schema, with two enumerations and an expression of members of them. -/
def flagged (path : Name) : Catalog :=
  let e := { Decl.Enum.make "E" with members :=
    [⟨"A", some "1", .unknown⟩, ⟨"B", some "2", .unknown⟩, ⟨"C", some "x", .unknown⟩] }
  let f := { Decl.Enum.make "F" with members := [⟨"D", some "2", .unknown⟩] }
  let term := { Decl.Term.make "T" "NS.E" with
    annotations := [.value "NS.T" (.ofForm (.enumMember path))] }
  initial.add { Options.standard with includeCore := false } []
    [{ Decl.Schema.make "NS" with items := [.enumType e, .enumType f, .term term] }]

theorem isBuilt_flagged (path : Name) : (flagged path).IsBuilt :=
  .add_nil .initial _ _

/-- Two members of an enumeration join to a value of it. -/
theorem eval_enumMember_joins_iff_flagged :
    let e : ExprRef := ⟨⟨1, ⟨0⟩⟩, 0⟩
    let c := flagged "NS.E/A NS.E/B"
    let ms : List EnumMember := [⟨⟨1, ⟨0⟩⟩, 0⟩, ⟨⟨1, ⟨0⟩⟩, 1⟩]
    (c.exprDecl e).form = .enumMember "NS.E/A NS.E/B" ∧
      c.eval .standard .null [] e = .ok (.enum "NS.E" "A B" 3) ∧
      c.Joins ms (.enum "NS.E" "A B" 3) := by
  intro e c ms
  have hform : (c.exprDecl e).form = .enumMember "NS.E/A NS.E/B" := by decide +kernel
  have hwords : memberWords "NS.E/A NS.E/B" = ["NS.E/A", "NS.E/B"] := by decide +kernel
  have hnames : c.Names e (memberWords "NS.E/A NS.E/B") ms :=
    hwords ▸ .cons (by decide +kernel) (.cons (by decide +kernel) .nil)
  have hvalue : c.IsTakenFor ms (.enum "NS.E" "A B" 3) :=
    .of_eq (by decide +kernel) (by decide +kernel) (by decide +kernel)
  have hok : c.eval .standard .null [] e = .ok (.enum "NS.E" "A B" 3) ↔ _ :=
    (eval_enumMember_joins_iff hform).1 _
  exact ⟨hform, hok.2 ⟨ms, hnames, hvalue, hvalue.joins_iff⟩, hvalue.joins_iff.2
    ⟨List.cons_ne_nil _ _, ⟨⟨1, ⟨0⟩⟩, by decide +kernel⟩, by decide +kernel⟩⟩

/-- **Not all that has a value joins to one.**  An expression without words has a value, and so have
a member without a valid value and members of two enumerations. -/
theorem not_forall_joins :
    (¬ ∀ (c : Catalog) (e : ExprRef) (path : Name) (value : Value), c.IsBuilt →
        (c.exprDecl e).form = .enumMember path → c.evaluate .standard .null e = .ok value →
        memberWords path ≠ []) ∧
      (¬ ∀ (c : Catalog) (e : ExprRef) (path : Name) (value : Value), c.IsBuilt →
        (c.exprDecl e).form = .enumMember path → c.evaluate .standard .null e = .ok value →
        ∀ ms, c.Names e (memberWords path) ms → ∀ m ∈ ms, (c.valueOf? m).isSome = true) ∧
      ¬ ∀ (c : Catalog) (e : ExprRef) (path : Name) (value : Value), c.IsBuilt →
        (c.exprDecl e).form = .enumMember path → c.evaluate .standard .null e = .ok value →
        ∀ ms, c.Names e (memberWords path) ms → ∃ t, ∀ m ∈ ms, m.type = t := by
  let e : ExprRef := ⟨⟨1, ⟨0⟩⟩, 0⟩
  have hok {path : Name} (ms : List EnumMember)
      (hform : ((flagged path).exprDecl e).form = .enumMember path)
      (hms : (flagged path).Names e (memberWords path) ms) :
      ∃ value, (flagged path).evaluate .standard .null e = .ok value :=
    ⟨_, (eval_enumMember_eq_ok_iff hform).2 ⟨ms, hms, isTakenFor_of_members ms⟩⟩
  refine ⟨fun h => ?_, fun h => ?_, fun h => ?_⟩
  · have hform : ((flagged " ").exprDecl e).form = .enumMember " " := by decide +kernel
    have hwords : memberWords " " = [] := by decide +kernel
    obtain ⟨value, hvalue⟩ := hok [] hform (hwords ▸ .nil)
    exact h _ e " " value (isBuilt_flagged _) hform hvalue hwords
  · have hform : ((flagged "NS.E/C").exprDecl e).form = .enumMember "NS.E/C" := by decide +kernel
    have hwords : memberWords "NS.E/C" = ["NS.E/C"] := by decide +kernel
    have hms : (flagged "NS.E/C").Names e (memberWords "NS.E/C") [⟨⟨1, ⟨0⟩⟩, 2⟩] :=
      hwords ▸ .cons (by decide +kernel) .nil
    obtain ⟨value, hvalue⟩ := hok _ hform hms
    have hvalid := h _ e _ value (isBuilt_flagged _) hform hvalue _ hms _ List.mem_cons_self
    exact absurd hvalid (by decide +kernel)
  · have hform : ((flagged "NS.E/A NS.F/D").exprDecl e).form = .enumMember "NS.E/A NS.F/D" := by
      decide +kernel
    have hwords : memberWords "NS.E/A NS.F/D" = ["NS.E/A", "NS.F/D"] := by decide +kernel
    have hms : (flagged "NS.E/A NS.F/D").Names e (memberWords "NS.E/A NS.F/D")
        [⟨⟨1, ⟨0⟩⟩, 0⟩, ⟨⟨1, ⟨1⟩⟩, 0⟩] :=
      hwords ▸ .cons (by decide +kernel) (.cons (by decide +kernel) .nil)
    obtain ⟨value, hvalue⟩ := hok _ hform hms
    obtain ⟨t, ht⟩ := h _ e _ value (isBuilt_flagged _) hform hvalue _ hms
    have htypes := (ht _ List.mem_cons_self).trans
      (ht _ (List.mem_cons_of_mem _ List.mem_cons_self)).symm
    exact absurd htypes (by decide)

end Schemata.Catalog

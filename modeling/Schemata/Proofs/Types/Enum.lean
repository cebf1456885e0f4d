import Schemata.Proofs.Catalog.Built
import Schemata.Validation

/-!
# What members of an enumeration are worth

A member has the value that it declares, or one more than the nearest member before it that has a
valid value (`numberOf?`).  If that number lies outside the underlying type, or if what is declared
is no number, the member is reported and has no value (`IsValueOf`).

All members keep to this but for those that come right after the largest number of 64 bits: there is
no number after it, and such a member has the same value again (`isValueOf_memberValues_iff`).
-/

namespace Schemata.Catalog

variable {c : Catalog} {t : Declared .type} {range : Number.Range} {next v : Int}
  {m : Decl.EnumMember} {ms : List Decl.EnumMember} {value : Except Diagnostic Int}
  {before : List (Except Diagnostic Int)} {i : Nat}

/-! ### Members by name -/

/-- The members of an enumeration are found as their declarations are. -/
theorem findMember?_eq (t : Declared .type) (name : Name) :
    c.findMember? t name = ((c.memberDecls t).findIdx? (·.name = name)).map (⟨t, ·⟩) := by
  have hname (i : Nat) (hi : i < (c.memberDecls t).length) :
      c.memberDecl ⟨t, i⟩ = (c.memberDecls t)[i] := by
    simp [memberDecl, List.getD_eq_getElem?_getD, hi]
  rw [findMember?, members, List.find?_map]
  refine congrArg (Option.map _) (Option.ext fun i => ?_)
  rw [List.find?_range_eq_some, List.findIdx?_eq_some_iff_getElem]
  simp only [Function.comp_apply, List.mem_range, decide_eq_true_eq]
  constructor
  · rintro ⟨hi, hlt, hbefore⟩
    refine ⟨hlt, hname i hlt ▸ hi, fun j hj => ?_⟩
    have hne := hbefore j hj
    rw [hname j (Nat.lt_trans hj hlt)] at hne
    simpa using hne
  · rintro ⟨hlt, hi, hbefore⟩
    refine ⟨(hname i hlt).symm ▸ hi, hlt, fun j hj => ?_⟩
    rw [hname j (Nat.lt_trans hj hlt)]
    simpa using hbefore j hj

theorem isSome_findMember?_iff {name : Name} :
    (c.findMember? t name).isSome = true ↔ ∃ m ∈ c.memberDecls t, m.name = name := by
  rw [findMember?_eq, Option.isSome_map, List.findIdx?_isSome, List.any_eq_true]
  simp only [decide_eq_true_eq]

/-! ### The number of a member -/

/-- The value of the nearest member with a valid one, among members with the given values. -/
def lastValid? (values : List (Except Diagnostic Int)) : Option Int :=
  (values.filterMap Except.toOption).getLast?

/-- The number that a member declares, or `next` if it declares none. -/
def numberOr (next : Int) (m : Decl.EnumMember) : Option Int :=
  match m.value? with
  | some text => Number.int64? text
  | none => some next

/-- The number that a member stands for after members with the values `before`: what it declares, or
one more than the nearest valid value, or zero if there is none. -/
def numberOf? (before : List (Except Diagnostic Int)) (m : Decl.EnumMember) : Option Int :=
  numberOr (((lastValid? before).map (· + 1)).getD 0) m

/-- What becomes of a member that stands for the number `number?`: this is its value if it lies in
the range, and otherwise the member is reported. -/
inductive IsValueOf (range : Number.Range) (m : Decl.EnumMember) (number? : Option Int) :
    Except Diagnostic Int → Prop
  | valid {v : Int} (hnumber : number? = some v) (hrange : range.contains v = true) :
    IsValueOf range m number? (.ok v)
  /-- The number is no value of the underlying type. -/
  | outside {v : Int} (hnumber : number? = some v) (hrange : ¬ range.contains v = true) :
    IsValueOf range m number? (.error (.error .invalidConstant m.location
      s!"value {v} of enum member '{m.name}' is out of range"))
  /-- What is declared is no number. -/
  | malformed {text : String} (htext : m.value? = some text) (hnumber : number? = none) :
    IsValueOf range m number? (.error (.error .invalidConstant m.location
      s!"'{text}' is not a valid value for enum member '{m.name}'"))

/-- One step: a member with the number that it declares, or with `next`. -/
theorem isValueOf_memberValue (range : Number.Range) (next : Int) (m : Decl.EnumMember) :
    IsValueOf range m (numberOr next m) (memberValue range next m) := by
  have hnumber : numberOr next m = _ := numberOr.eq_def next m
  unfold memberValue
  cases htext : m.value? with
  | none =>
    rw [htext] at hnumber
    dsimp only
    split
    case isTrue h => exact .valid hnumber h
    case isFalse h => exact .outside hnumber h
  | some text =>
    rw [htext] at hnumber
    dsimp only at hnumber ⊢
    cases hread : Number.int64? text with
    | none => exact .malformed htext (hnumber.trans hread)
    | some v =>
      dsimp only
      split
      case isTrue h => exact .valid (hnumber.trans hread) h
      case isFalse h => exact .outside (hnumber.trans hread) h

/-! ### All members -/

@[simp]
theorem length_valuesFrom (range : Number.Range) (next : Int) (ms : List Decl.EnumMember) :
    (valuesFrom range next ms).length = ms.length := by
  induction ms generalizing next with
  | nil => rfl
  | cons m ms ih => simp [valuesFrom, ih]

/-- What a member without a declared value counts on from. -/
def nextAfter (next : Int) (before : List (Except Diagnostic Int)) : Int :=
  ((lastValid? before).map successor).getD next

theorem nextAfter_cons_error (next : Int) (d : Diagnostic) (before : List (Except Diagnostic Int)) :
    nextAfter next (.error d :: before) = nextAfter next before := rfl

theorem nextAfter_cons_ok (next v : Int) (before : List (Except Diagnostic Int)) :
    nextAfter next (.ok v :: before) = nextAfter (successor v) before := by
  have hvalid : lastValid? (.ok v :: before) = some ((lastValid? before).getD v) :=
    List.getLast?_cons
  rw [nextAfter, hvalid, nextAfter]
  cases lastValid? before <;> rfl

/-- Each member has its value after those before it. -/
theorem getElem?_valuesFrom (range : Number.Range) (next : Int) (ms : List Decl.EnumMember)
    (i : Nat) :
    (valuesFrom range next ms)[i]? =
      ms[i]?.map (memberValue range (nextAfter next ((valuesFrom range next ms).take i))) := by
  induction ms generalizing next i with
  | nil => rfl
  | cons m ms ih =>
    unfold valuesFrom
    cases i with
    | zero => rfl
    | succ i =>
      rw [List.getElem?_cons_succ, List.getElem?_cons_succ, List.take_succ_cons]
      -- an invalid value leaves the counter as it is
      cases memberValue range next m with
      | ok v =>
        rw [nextAfter_cons_ok]
        exact ih _ i
      | error d =>
        rw [nextAfter_cons_error]
        exact ih _ i

/-- Valid values lie in the range. -/
theorem contains_of_mem_valuesFrom (h : .ok v ∈ valuesFrom range next ms) :
    range.contains v = true := by
  obtain ⟨i, hi⟩ := List.mem_iff_getElem?.1 h
  rw [getElem?_valuesFrom] at hi
  obtain ⟨m, -, hm⟩ := Option.map_eq_some_iff.1 hi
  have hvalue := isValueOf_memberValue range (nextAfter next ((valuesFrom range next ms).take i)) m
  rw [hm] at hvalue
  cases hvalue with
  | valid _ hrange => exact hrange

/-! ### Enumerations -/

theorem memberValues_eq (t : Declared .type) :
    c.memberValues t = valuesFrom (c.memberRange t) 0 (c.memberDecls t) := by
  unfold memberValues memberDecls
  cases c.enum? t <;> rfl

theorem memberRange_eq {kind : PrimitiveKind} {n : Bool}
    (hkind : c.underlying? t = some (.primitive kind n)) (hrange : kind.range? = some range) :
    c.memberRange t = range := by
  rw [memberRange, hkind]
  show kind.range?.getD _ = range
  rw [hrange, Option.getD_some]

/-- No integral type goes beyond 64 bits, and only one goes as far. -/
theorem le_max_of_range? {kind : PrimitiveKind} (hrange : kind.range? = some range)
    (hv : range.contains v = true) :
    v ≤ Number.int64Range.max ∧ (v = Number.int64Range.max → kind = .int64) := by
  have hv : range.min ≤ v ∧ v ≤ range.max := of_decide_eq_true hv
  cases kind <;> cases hrange <;> simp_all [Number.int64Range] <;> omega

/-- The last valid value is a valid value. -/
theorem mem_of_lastValid? (h : lastValid? before = some v) : .ok v ∈ before := by
  obtain ⟨value, hvalue, hv⟩ := List.mem_filterMap.1 (List.mem_of_getLast? h)
  cases value with
  | error d => cases hv
  | ok w =>
    cases hv
    exact hvalue

/-- The member declares no value and the nearest valid one before it is the largest of 64 bits,
which no other number follows. -/
def FollowsLargest (before : List (Except Diagnostic Int)) (m : Decl.EnumMember) : Prop :=
  m.value? = none ∧ lastValid? before = some Number.int64Range.max

/-- Members count on without a bound as long as the values before stay below the largest number. -/
theorem numberOr_nextAfter (hle : ∀ v, .ok v ∈ before → v ≤ Number.int64Range.max)
    (hfollows : ¬ FollowsLargest before m) :
    numberOr (nextAfter 0 before) m = numberOf? before m := by
  unfold numberOf? numberOr
  cases htext : m.value? with
  | some text => rfl
  | none =>
    dsimp only
    unfold nextAfter
    cases hlast : lastValid? before with
    | none => rfl
    | some v =>
      have hmax : v ≠ Number.int64Range.max := fun hv => hfollows ⟨htext, hv ▸ hlast⟩
      have hle := hle v (mem_of_lastValid? hlast)
      have hsuccessor : successor v = v + 1 := by
        unfold successor
        omega
      exact congrArg some hsuccessor

/-- After the largest number comes the same number again. -/
theorem memberValue_of_followsLargest (hcontains : range.contains Number.int64Range.max = true)
    (h : FollowsLargest before m) :
    memberValue range (nextAfter next before) m = .ok Number.int64Range.max := by
  obtain ⟨htext, hlast⟩ := h
  have hnext : nextAfter next before = Number.int64Range.max := by
    rw [nextAfter, hlast]
    rfl
  rw [memberValue, htext, hnext]
  exact if_pos hcontains

theorem not_isValueOf_of_followsLargest (h : FollowsLargest before m) :
    ¬ IsValueOf range m (numberOf? before m) (.ok Number.int64Range.max) := by
  intro hvalue
  cases hvalue with
  | valid hnumber =>
    rw [numberOf?, numberOr, h.1, h.2] at hnumber
    cases hnumber

theorem mem_typeDiagnostics_of_mem_memberValues {d : Diagnostic}
    (hd : .error d ∈ c.memberValues t) : d ∈ c.typeDiagnostics t :=
  List.mem_append_right _ (List.mem_filterMap.2 ⟨_, hd, rfl⟩)

/-- **Members count on.**  In an enumeration with an integral type as its underlying type each
member has the number that it declares, or one more than the nearest valid value before it, and is
reported if this is no value of the type; the exceptions are the members that come after the largest
number of 64 bits.  These have that number again. -/
theorem isValueOf_memberValues_iff {kind : PrimitiveKind}
    (hkind : c.underlying? t = some (.primitive kind false)) (hrange : kind.range? = some range) :
    (c.memberValues t).length = (c.memberDecls t).length ∧
      ∀ i m, (c.memberDecls t)[i]? = some m → ∃ value, (c.memberValues t)[i]? = some value ∧
        c.valueOf? ⟨t, i⟩ = value.toOption ∧
        (∀ d, value = .error d → d ∈ c.typeDiagnostics t) ∧
        let before := (c.memberValues t).take i
        (IsValueOf range m (numberOf? before m) value ↔ ¬ FollowsLargest before m) ∧
          (FollowsLargest before m → kind = .int64 ∧ value = .ok Number.int64Range.max) := by
  have hvalues : c.memberValues t = valuesFrom range 0 (c.memberDecls t) := by
    rw [memberValues_eq, memberRange_eq hkind hrange]
  refine ⟨by rw [hvalues, length_valuesFrom], fun i m hm => ?_⟩
  let before := (c.memberValues t).take i
  have hcontains (v : Int) (hv : .ok v ∈ before) : range.contains v = true := by
    have hv : .ok v ∈ c.memberValues t := List.mem_of_mem_take hv
    rw [hvalues] at hv
    exact contains_of_mem_valuesFrom hv
  have hle (v : Int) (hv : .ok v ∈ before) := le_max_of_range? hrange (hcontains v hv)
  have hvalue : (c.memberValues t)[i]? = some (memberValue range (nextAfter 0 before) m) := by
    show _ = some (memberValue range (nextAfter 0 ((c.memberValues t).take i)) m)
    rw [hvalues, getElem?_valuesFrom, hm]
    rfl
  have hfollows (h : FollowsLargest before m) :
      kind = .int64 ∧ memberValue range (nextAfter 0 before) m = .ok Number.int64Range.max :=
    have hlast := mem_of_lastValid? h.2
    ⟨(hle _ hlast).2 rfl, memberValue_of_followsLargest (hcontains _ hlast) h⟩
  refine ⟨_, hvalue, ?_, fun d hd => ?_, ⟨fun hnumber h => ?_, fun h => ?_⟩, hfollows⟩
  · unfold valueOf?
    dsimp only
    rw [hvalue]
    cases memberValue range (nextAfter 0 before) m <;> rfl
  · exact mem_typeDiagnostics_of_mem_memberValues (hd ▸ List.mem_of_getElem? hvalue)
  · rw [(hfollows h).2] at hnumber
    exact not_isValueOf_of_followsLargest h hnumber
  · have hnumber := isValueOf_memberValue range (nextAfter 0 before) m
    rwa [numberOr_nextAfter (fun v hv => (hle v hv).1) h] at hnumber

/-- One more model of one schema, which declares an enumeration. -/
def enumerated (underlying : Name) (members : List Decl.EnumMember) : Catalog :=
  let enum := { Decl.Enum.make "E" with underlying? := some underlying, members }
  initial.add { Options.standard with includeCore := false } []
    [(Decl.Schema.make "NS").addItem (.enumType enum)]

/-- After the largest number of a type all members are reported, each as having the same number. -/
theorem isValueOf_memberValues_iff_bytes :
    let last : Decl.EnumMember := ⟨"D", none, .unknown⟩
    let c := enumerated "Edm.SByte"
      [⟨"A", some "126", .unknown⟩, ⟨"B", none, .unknown⟩, ⟨"C", none, .unknown⟩, last]
    let t : Declared .type := ⟨1, ⟨0⟩⟩
    c.underlying? t = some (.primitive .sbyte false) ∧
      PrimitiveKind.sbyte.range? = some ⟨-128, 127⟩ ∧
      c.valueOf? ⟨t, 1⟩ = some 127 ∧ c.valueOf? ⟨t, 3⟩ = none ∧
      Diagnostic.error .invalidConstant .unknown "value 128 of enum member 'D' is out of range" ∈
        c.typeDiagnostics t := by
  intro last c t
  have hkind : c.underlying? t = some (.primitive .sbyte false) := by decide +kernel
  have hrange : PrimitiveKind.sbyte.range? = some ⟨-128, 127⟩ := rfl
  obtain ⟨-, hmembers⟩ := isValueOf_memberValues_iff hkind hrange
  obtain ⟨value, hvalue, hvalueOf, hreported, hiff, -⟩ := hmembers 3 last (by decide +kernel)
  have hnumber : numberOf? ((c.memberValues t).take 3) last = some 128 := by decide +kernel
  have hlast : lastValid? ((c.memberValues t).take 3) = some 127 := by decide +kernel
  have hfollows : ¬ FollowsLargest ((c.memberValues t).take 3) last := by
    rintro ⟨-, h⟩
    rw [hlast] at h
    cases h
  have hvalue' := hiff.2 hfollows
  rw [hnumber] at hvalue'
  have herror : value = .error (.error .invalidConstant .unknown
      "value 128 of enum member 'D' is out of range") := by
    cases hvalue' with
    | valid hv hcontains =>
      cases hv
      exact absurd hcontains (by decide)
    | outside hv =>
      cases hv
      rfl
    | malformed _ hv => cases hv
  refine ⟨hkind, hrange, by decide +kernel, ?_, hreported _ herror⟩
  rw [hvalueOf, herror]
  rfl

/-- **Two members can have one value by counting on.**  After the largest number of 64 bits a member
without a declared value has that number again and is not reported. -/
theorem not_forall_isValueOf_memberValues :
    ¬ ∀ (c : Catalog) (t : Declared .type) (kind : PrimitiveKind) (range : Number.Range),
        c.IsBuilt → c.underlying? t = some (.primitive kind false) → kind.range? = some range →
        ∀ i m value, (c.memberDecls t)[i]? = some m → (c.memberValues t)[i]? = some value →
          IsValueOf range m (numberOf? ((c.memberValues t).take i) m) value := by
  intro h
  let last : Decl.EnumMember := ⟨"B", none, .unknown⟩
  let c := enumerated "Edm.Int64" [⟨"A", some "9223372036854775807", .unknown⟩, last]
  have hc : c.IsBuilt := .add_nil .initial _ _
  have hvalue := h c ⟨1, ⟨0⟩⟩ .int64 Number.int64Range hc (by decide +kernel) rfl 1 last
    (.ok 9223372036854775807) (by decide +kernel) (by decide +kernel)
  have hnumber : numberOf? ((c.memberValues ⟨1, ⟨0⟩⟩).take 1) last = some 9223372036854775808 := by
    decide +kernel
  rw [hnumber] at hvalue
  cases hvalue with
  | valid hv => cases hv

end Schemata.Catalog

import Schemata.Proofs.Evaluation

/-!
# Type tests and conversions agree

A built-in type admits more values than it has itself: whole numbers are also decimals and
floating-point numbers.  `PrimitiveKind.Holds` is the narrower notion.  A conversion keeps the
values that the type holds, and only those (`convert?_eq_self_iff`), and what it gives is held by
the type (`holds_of_convert?`); so a conversion can be repeated and its result passes the type test.
Conversely no value that passes the test is refused (`exists_convert?_of_admits`).

All other types leave a value as it is or refuse it, as the type test says
(`convert_of_primitive?_eq_none`).  `convert_agrees_with_hasType` puts the two together.
-/

namespace Schemata

theorem TypeReference.placeholder?_eq_some_iff {type : TypeReference} {p : Placeholder} :
    type.placeholder? = some p ↔ ∃ n, type.elementType = .placeholder p n := by
  unfold placeholder?
  cases type.elementType <;> simp

/-! ### The values that a built-in type has itself -/

namespace PrimitiveKind

variable {kind : PrimitiveKind} {v w : PrimitiveValue} {text : String}

/-- The type has the value itself, not only when the value is turned into another form. -/
inductive Holds : PrimitiveKind → PrimitiveValue → Prop
  /-- A whole number in the range of an integral type. -/
  | integer {kind : PrimitiveKind} {range : Number.Range} {i : Int}
      (hrange : kind.range? = some range) (hi : range.contains i = true) : Holds kind (.integer i)
  /-- Single-precision numbers are kept with double precision. -/
  | single (x : Number.Binary64) : Holds .single (.float x)
  /-- The type is the one that the value has by itself. -/
  | self {kind : PrimitiveKind} {v : PrimitiveValue} (hkind : v.kind = kind)
      (hne : kind ≠ .int64) : Holds kind v

/-- A whole number that is read for an integral type lies in its range. -/
theorem holds_of_integral {range : Number.Range} (hrange : kind.range? = some range)
    (h : Literal.integral kind text = .ok v) : kind.Holds v := by
  obtain ⟨i, -, hcontains, rfl⟩ := Literal.integral_eq_ok_iff.1 h
  exact .integer hrange (hcontains range hrange)

theorem holds_of_shaped {isShaped : List Char → Bool} {value : String → PrimitiveValue}
    (hvalue : kind.Holds (value text)) (h : Literal.shaped kind text isShaped value = .ok v) :
    kind.Holds v := by
  obtain ⟨-, rfl⟩ := Literal.shaped_eq_ok_iff.1 h
  exact hvalue

/-- A literal of a type writes a value that the type holds. -/
theorem holds_of_parse (h : kind.parse text = .ok v) : kind.Holds v := by
  cases kind with
  | byte | sbyte | int16 | int32 | int64 => exact holds_of_integral rfl h
  | decimal | guid | dateTime | dateTimeOffset | time =>
    unfold parse at h
    refine holds_of_shaped ?_ h
    exact .self rfl (by decide)
  | string =>
    cases h
    exact .self rfl (by decide)
  | stream => cases h
  | binary | boolean | double =>
    simp only [parse] at h
    split at h
    · cases h
      exact .self rfl (by decide)
    · cases h
  | single =>
    simp only [parse] at h
    split at h
    · split at h
      · cases h
      · cases h
        exact .single _
    · cases h

/-! ### Conversions to a built-in type -/

/-- Only whole numbers are of the widest integral type by themselves. -/
theorem exists_eq_integer (h : v.kind = .int64) : ∃ i, v = .integer i := by
  cases v with
  | integer i => exact ⟨i, rfl⟩
  | _ => cases h

/-- Beyond the values that it holds, a type admits whole numbers only. -/
theorem holds_or_of_admits (h : kind.admits v = true) :
    kind.Holds v ∨ ∃ i, v = .integer i ∧ (kind = .double ∨ kind = .single ∨ kind = .decimal) := by
  unfold admits at h
  split at h
  case h_1 hrange => exact .inl (.integer hrange h)
  case h_2 hother =>
    split at h
    · exact .inl (.self rfl (by decide))
    · exact .inr ⟨_, rfl, by simp⟩
    · exact .inl (.single _)
    · exact .inr ⟨_, rfl, by simp⟩
    · exact .inl (.self rfl (by decide))
    · exact .inr ⟨_, rfl, by simp⟩
    · -- all other values are of the type by themselves, and whole numbers have been dealt with
      refine .inl (.self (eq_of_beq h) ?_)
      rintro rfl
      obtain ⟨i, hi⟩ := exists_eq_integer (eq_of_beq h)
      exact hother i _ hi rfl

theorem Holds.admits (h : kind.Holds v) : kind.admits v = true := by
  cases h with
  | integer hrange hi => simp only [PrimitiveKind.admits, hrange, hi]
  | single => rfl
  | self hkind hne =>
    subst hkind
    cases v
    case integer => exact absurd rfl hne
    all_goals rfl

theorem Holds.convert? (h : kind.Holds v) : kind.convert? v = some v := by
  have hadmits := h.admits
  cases h with
  | integer hrange hi =>
    cases kind with
    | byte | sbyte | int16 | int32 | int64 => exact if_pos hadmits
    | _ => cases hrange
  | single => rfl
  | self hkind hne =>
    subst hkind
    cases v
    case integer => exact absurd rfl hne
    all_goals rfl

/-- What a conversion gives is a value that the type holds. -/
theorem holds_of_convert? (h : kind.convert? v = some w) : kind.Holds w := by
  unfold convert? at h
  split at h
  case isTrue hstring =>
    cases h
    exact .self hstring.symm (by simp [hstring])
  case isFalse hstring =>
    split at h
    case h_1 text =>
      cases hparse : kind.parse text with
      | ok _ =>
        rw [hparse] at h
        cases h
        exact holds_of_parse hparse
      | error _ =>
        rw [hparse] at h
        cases h
    case h_2 | h_4 =>
      cases h
      exact .self rfl (by decide)
    case h_3 =>
      cases h
      exact .single _
    case h_5 hdouble hsingle hdecimal =>
      split at h
      case isTrue hadmits =>
        cases h
        refine (holds_or_of_admits hadmits).resolve_right ?_
        -- the whole numbers that the type does not hold have been converted before
        rintro ⟨i, rfl, rfl | rfl | rfl⟩
        · exact hdouble i rfl rfl
        · exact hsingle i rfl rfl
        · exact hdecimal i rfl rfl
      case isFalse => cases h

/-- A conversion keeps the values that the type holds, and no others. -/
theorem convert?_eq_self_iff : kind.convert? v = some v ↔ kind.Holds v :=
  ⟨holds_of_convert?, Holds.convert?⟩

/-- No value that the type admits is refused. -/
theorem exists_convert?_of_admits (h : kind.admits v = true) :
    ∃ w, kind.convert? v = some w ∧ kind.Holds w := by
  obtain hv | ⟨i, rfl, rfl | rfl | rfl⟩ := holds_or_of_admits h
  · exact ⟨v, hv.convert?, hv⟩
  · exact ⟨_, rfl, .self rfl (by decide)⟩
  · exact ⟨_, rfl, .single _⟩
  · exact ⟨_, rfl, .self rfl (by decide)⟩

end PrimitiveKind

namespace Catalog

variable {c : Catalog} {m : ModelId} {type : TypeReference} {value w : Value}

/-! ### Types that are not built in -/

/-- A type that is not built in leaves a value as it is or refuses it. -/
theorem convert_of_primitive?_eq_none (htype : type.primitive? = none) (hvalue : value ≠ .null) :
    c.convert m value type =
      (do if ← c.hasType m value type then return value else throw (.invalidCast value type)) := by
  cases hp : type.placeholder? with
  | some p =>
    unfold convert hasType
    rw [hp]
    rfl
  | none =>
    unfold convert
    rw [hp]
    dsimp only
    split
    · exact absurd rfl hvalue
    · cases htype
    · cases htype
    · rfl

/-- A type that is not built in converts just the values that pass its test, to themselves. -/
theorem convert_eq_ok_iff (htype : type.primitive? = none) (hvalue : value ≠ .null) :
    c.convert m value type = .ok w ↔ w = value ∧ c.hasType m value type = .ok true := by
  rw [convert_of_primitive?_eq_none htype hvalue]
  cases c.hasType m value type with
  | error e => exact iff_of_false (fun h => by cases h) (fun h => by cases h.2)
  | ok passes =>
    cases passes with
    | false => exact iff_of_false (fun h => by cases h) (fun h => by cases h.2)
    | true =>
      constructor
      · intro h
        cases h
        exact ⟨rfl, rfl⟩
      · rintro ⟨rfl, -⟩
        rfl

/-! ### Built-in types -/

variable {kind : PrimitiveKind} {n : Bool}

/-- Only primitive values are of a built-in type. -/
theorem hasType_primitive_eq_ok_true_iff (hvalue : value ≠ .null) :
    c.hasType m value (.primitive kind n) = .ok true ↔
      ∃ v, value = .primitive v ∧ kind.admits v = true := by
  have hnone : (TypeReference.primitive kind n).placeholder? = none := rfl
  unfold hasType
  rw [hnone]
  cases value with
  | null => exact absurd rfl hvalue
  | primitive v => simp
  | enum | record | collection => simp

/-- Only primitive values are converted to a built-in type. -/
theorem convert_primitive_eq_ok_iff (hvalue : value ≠ .null) :
    c.convert m value (.primitive kind n) = .ok w ↔
      ∃ v v', value = .primitive v ∧ kind.convert? v = some v' ∧ w = .primitive v' := by
  have hnone : (TypeReference.primitive kind n).placeholder? = none := rfl
  unfold convert
  rw [hnone]
  cases value with
  | null => exact absurd rfl hvalue
  | primitive v => cases hv : kind.convert? v <;> simp [hv, eq_comm]
  | enum | record | collection => simp

/-! ### All types -/

/-- What passes the type test can be converted. -/
theorem exists_convert_of_hasType (hvalue : value ≠ .null)
    (h : c.hasType m value type = .ok true) : ∃ w, c.convert m value type = .ok w := by
  cases htype : type.primitive? with
  | none => exact ⟨value, (convert_eq_ok_iff htype hvalue).2 ⟨rfl, h⟩⟩
  | some kind =>
    cases type with
    | primitive kind n =>
      obtain ⟨v, rfl, hv⟩ := (hasType_primitive_eq_ok_true_iff hvalue).1 h
      obtain ⟨v', hv', -⟩ := PrimitiveKind.exists_convert?_of_admits hv
      exact ⟨.primitive v', (convert_primitive_eq_ok_iff hvalue).2 ⟨v, v', rfl, hv', rfl⟩⟩
    | _ => cases htype

/-- What a conversion gives passes the type test, and converting it again does not change it. -/
theorem hasType_and_convert_of_convert (hvalue : value ≠ .null)
    (h : c.convert m value type = .ok w) :
    c.hasType m w type = .ok true ∧ c.convert m w type = .ok w := by
  cases htype : type.primitive? with
  | none =>
    obtain ⟨rfl, hw⟩ := (convert_eq_ok_iff htype hvalue).1 h
    exact ⟨hw, h⟩
  | some kind =>
    cases type with
    | primitive kind n =>
      -- the value may have changed, but it is now one that the type holds
      obtain ⟨v, v', rfl, hv', rfl⟩ := (convert_primitive_eq_ok_iff hvalue).1 h
      have hholds := PrimitiveKind.holds_of_convert? hv'
      have hne : Value.primitive v' ≠ .null := fun hnull => by cases hnull
      exact ⟨(hasType_primitive_eq_ok_true_iff hne).2 ⟨v', rfl, hholds.admits⟩,
        (convert_primitive_eq_ok_iff hne).2 ⟨v', v', rfl, hholds.convert?, rfl⟩⟩
    | _ => cases htype

/-- A type test ends in a diagnostic if what is left of the type without its collections and entity
references is a placeholder, and a conversion then ends in the same one. -/
theorem hasType_eq_diagnostic_iff {d : Diagnostic} :
    c.hasType m value type = .error (.diagnostic d) ↔
      ∃ p, type.placeholder? = some p ∧ EvalError.ofPlaceholder p = .diagnostic d := by
  cases hp : type.placeholder? with
  | none => simpa using isQuiet_hasType hp value d
  | some p =>
    unfold hasType
    rw [hp]
    simp

theorem convert_eq_diagnostic_iff {d : Diagnostic} :
    c.convert m value type = .error (.diagnostic d) ↔
      ∃ p, type.placeholder? = some p ∧ EvalError.ofPlaceholder p = .diagnostic d := by
  cases hp : type.placeholder? with
  | none => simpa using isQuiet_convert hp value d
  | some p =>
    unfold convert
    rw [hp]
    simp

/-- **Type tests and conversions agree** on every value but null.  What passes the test can be
converted; what a conversion gives passes the test and is not changed by a second conversion; only
built-in types change a value.  Both end in a diagnostic, and then in the same one, if and only if
there is a placeholder at the bottom of the type. -/
theorem convert_agrees_with_hasType (hvalue : value ≠ .null) :
    (c.hasType m value type = .ok true → ∃ w, c.convert m value type = .ok w) ∧
      (∀ w, c.convert m value type = .ok w →
        c.hasType m w type = .ok true ∧ c.convert m w type = .ok w) ∧
      (type.primitive? = none → ∀ w, c.convert m value type = .ok w → w = value) ∧
      (∀ d, c.hasType m value type = .error (.diagnostic d) ↔
        c.convert m value type = .error (.diagnostic d)) ∧
      ((∃ d, c.convert m value type = .error (.diagnostic d)) ↔
        ∃ p n, type.elementType = .placeholder p n) := by
  refine ⟨exists_convert_of_hasType hvalue, fun w => hasType_and_convert_of_convert hvalue,
    fun htype w h => ((convert_eq_ok_iff htype hvalue).1 h).1, fun d => ?_, ?_⟩
  · rw [hasType_eq_diagnostic_iff, convert_eq_diagnostic_iff]
  · constructor
    · rintro ⟨d, hd⟩
      obtain ⟨p, hp, -⟩ := convert_eq_diagnostic_iff.1 hd
      exact ⟨p, TypeReference.placeholder?_eq_some_iff.1 hp⟩
    · rintro ⟨p, hp⟩
      exact ⟨_, convert_eq_diagnostic_iff.2 ⟨p, TypeReference.placeholder?_eq_some_iff.2 hp, rfl⟩⟩

/-- A whole number becomes a decimal, and stays one. -/
theorem convert_agrees_with_hasType_orders :
    Value.int 7 ≠ .null ∧ orders.hasType 2 (.int 7) (.primitive .decimal false) = .ok true ∧
      ∃ w, orders.convert 2 (.int 7) (.primitive .decimal false) = .ok w ∧
        orders.hasType 2 w (.primitive .decimal false) = .ok true ∧
        orders.convert 2 w (.primitive .decimal false) = .ok w := by
  have hne : Value.int 7 ≠ .null := fun h => by cases h
  have h : orders.hasType 2 (.int 7) (.primitive .decimal false) = .ok true := rfl
  obtain ⟨hconvert, hagain, -⟩ :=
    @convert_agrees_with_hasType orders 2 (.primitive .decimal false) (.int 7) hne
  obtain ⟨w, hw⟩ := hconvert h
  exact ⟨hne, h, w, hw, hagain w hw⟩

end Catalog

end Schemata

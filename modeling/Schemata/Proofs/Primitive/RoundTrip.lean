import Schemata.Proofs.Document.Codec
import Schemata.Proofs.Evaluation.Conversion
import Schemata.Proofs.Primitive.Acceptance

/-!
# Literals read back

A value is written in one way and may be read from several: `0x0a` and `0A` are the same byte,
`+007` and `7` the same number.  Of the texts of a value, `PrimitiveValue.display` is the canonical
one: what is read from any of them is written as a text that reads as the same value
(`PrimitiveKind.parse_display`).  Floating-point numbers are left out, whose infinities are written
in another spelling than they are read.
-/

namespace Schemata

open Literal

/-! ### Whole numbers -/

namespace Number

theorem integer?_of_digits? {cs : List Char} {n : Nat} (h : digits? cs = some n) :
    integer? cs = some (n : Int) := by
  unfold integer?
  split
  · simp [digits?] at h
  · simp [digits?] at h
  · rw [h]
    rfl

theorem integer?_toString (i : Int) : integer? (toString i).toList = some i := by
  cases i with
  | ofNat n => exact integer?_of_digits? (Json.digits?_toString n)
  | negSucc n =>
    have htext : (toString (Int.negSucc n)).toList = '-' :: (toString (n + 1)).toList :=
      String.toList_append
    rw [htext, integer?, Json.digits?_toString]
    rfl

theorem int64?_toString {i : Int} (h : int64Range.contains i = true) :
    int64? (toString i) = some i := by
  rw [int64?, integer?_toString, Option.filter_some, h]
  rfl

end Number

/-- A whole number may be read with a sign and leading zeros; it is written without. -/
theorem Literal.integral_display {kind : PrimitiveKind} {text : String} {v : PrimitiveValue}
    (h : integral kind text = .ok v) : integral kind v.display = .ok v := by
  obtain ⟨i, hread, hrange, rfl⟩ := integral_eq_ok_iff.1 h
  have hi : Number.int64Range.contains i = true := (Option.filter_eq_some_iff.1 hread).2
  exact integral_eq_ok_iff.2 ⟨i, Number.int64?_toString hi, hrange, rfl⟩

/-! ### Bytes -/

namespace PrimitiveValue

theorem hexValue?_hexDigit : ∀ n < 16, Number.hexValue? (hexDigit n) = some n := by decide

theorem hexByte?_hexByte (b : UInt8) : hexByte? (hexByte b) = some b := by
  have hb := b.toNat_lt
  simp only [hexByte, hexByte?, hexValue?_hexDigit (b.toNat / 16) (by omega),
    hexValue?_hexDigit (b.toNat % 16) (by omega), Option.bind_eq_bind, Option.bind_some,
    Option.pure_def, Nat.div_add_mod, UInt8.ofNat_toNat]

theorem hexByte_mem (b : UInt8) : hexByte b ∈ Grammar.hex * Grammar.hex := by
  have hb := b.toNat_lt
  refine mem_hex_mul_hex_iff.2 ⟨_, _, ?_, ?_, rfl⟩
  · rw [isHex, hexValue?_hexDigit (b.toNat / 16) (by omega)]
    rfl
  · rw [isHex, hexValue?_hexDigit (b.toNat % 16) (by omega)]
    rfl

theorem mapM_hexByte? (bytes : List UInt8) :
    (bytes.map hexByte).mapM hexByte? = some bytes := by
  induction bytes with
  | nil => rfl
  | cons b bytes ih => simp [hexByte?_hexByte, ih]

/-- The pairs of digits that bytes are written with read as the bytes. -/
theorem binary?_hexByte (bytes : List UInt8) : binary? (bytes.flatMap hexByte) = some bytes := by
  have hpairs : ∀ pair ∈ bytes.map hexByte, pair ∈ Grammar.hex * Grammar.hex :=
    List.forall_mem_map.2 fun b _ => hexByte_mem b
  have hself : hexDigits (bytes.map hexByte).flatten = (bytes.map hexByte).flatten :=
    hexDigits_eq_self (mem_kstar_hex_mul_hex_iff.1 (Language.join_mem_kstar hpairs)).2
  rw [List.flatMap_def, binary?, hself, hexBytes_flatten hpairs, mapM_hexByte?]
  rfl

theorem parse_binary_display (bytes : List UInt8) :
    PrimitiveKind.binary.parse (binary bytes).display = .ok (.binary bytes) := by
  rw [PrimitiveKind.parse, display, String.toList_ofList, binary?_hexByte]

end PrimitiveValue

/-! ### Identifiers -/

theorem toLower_toLower (c : Char) : c.toLower.toLower = c.toLower := by
  by_cases h : c.val ≥ 'A'.val ∧ c.val ≤ 'Z'.val
  · have hlower : c.toLower.val = c.val + 32 := congrArg Char.val (dif_pos h)
    refine dif_neg fun h' => ?_
    simp only [hlower, ge_iff_le, UInt32.le_iff_toNat_le, UInt32.toNat_add] at h h'
    change 65 ≤ c.val.toNat ∧ c.val.toNat ≤ 90 at h
    change 65 ≤ (c.val.toNat + 32) % 4294967296 ∧ (c.val.toNat + 32) % 4294967296 ≤ 90 at h'
    omega
  · have hc : c.toLower = c := dif_neg h
    rw [hc, hc]

theorem toLower_mem_hex {c : Char} (h : isHex c = true) : isHex c.toLower = true := by
  have hsmall : c.toNat < 128 :=
    Nat.lt_succ_of_le (UInt32.le_iff_toNat_le.1 (Char.utf8Size_eq_one_iff.1 (utf8Size_of_isHex h)))
  have hall : ∀ n < 128, isHex (Char.ofNat n) = true → isHex (Char.ofNat n).toLower = true := by
    decide
  simpa using hall c.toNat hsmall (by simpa using h)

theorem map_toLower_mem_guid {cs : List Char} (h : cs ∈ Grammar.guid) :
    cs.map Char.toLower ∈ Grammar.guid := by
  have hlower {n : Nat} {g : List Char} (hg : g ∈ Grammar.hex ^ n) :
      g.map Char.toLower ∈ Grammar.hex ^ n := by
    rw [hex_eq, Grammar.mem_one_pow_iff] at hg ⊢
    exact ⟨by rw [List.length_map, hg.1],
      List.forall_mem_map.2 fun c hc => toLower_mem_hex (hg.2 c hc)⟩
  simp only [Grammar.guid, Grammar.mem_mul_singleton_mul_iff] at h ⊢
  obtain ⟨_, ⟨_, ⟨_, ⟨a, ha, b, hb, rfl⟩, c, hc, rfl⟩, d, hd, rfl⟩, e, he, rfl⟩ := h
  simp only [List.map_append, List.map_cons]
  exact ⟨_, ⟨_, ⟨_, ⟨_, hlower ha, _, hlower hb, rfl⟩, _, hlower hc, rfl⟩, _, hlower hd, rfl⟩, _,
    hlower he, rfl⟩

namespace PrimitiveKind

theorem parse_display {kind : PrimitiveKind} {text : String} {v : PrimitiveValue}
    (hdouble : kind ≠ .double) (hsingle : kind ≠ .single) (h : kind.parse text = .ok v) :
    kind.parse v.display = .ok v := by
  cases kind with
  | double => exact absurd rfl hdouble
  | single => exact absurd rfl hsingle
  | stream => cases h
  | byte | sbyte | int16 | int32 | int64 => exact integral_display h
  | string =>
    cases h
    rfl
  | binary =>
    rw [parse] at h
    split at h
    · cases h
      exact PrimitiveValue.parse_binary_display _
    · cases h
  | boolean =>
    rw [parse] at h
    split at h
    · next b _ =>
      cases h
      cases b <;> decide
    · cases h
  | guid =>
    rw [parse, shaped_eq_ok_iff] at h ⊢
    obtain ⟨hshape, rfl⟩ := h
    constructor
    · rw [PrimitiveValue.display, String.toList_ofList, isGuid_iff]
      exact map_toLower_mem_guid (isGuid_iff.1 hshape)
    · rw [PrimitiveValue.display, String.toList_ofList, List.map_map]
      congr 3
      exact funext fun c => (toLower_toLower c).symm
  | decimal | dateTime | dateTimeOffset | time =>
    obtain ⟨hshape, rfl⟩ := shaped_eq_ok_iff.1 h
    exact shaped_eq_ok_iff.2 ⟨hshape, rfl⟩

/-- A text that is a literal of the type is turned into what the literal writes. -/
theorem convert?_display {kind : PrimitiveKind} {v : PrimitiveValue}
    (h : kind.parse v.display = .ok v) : kind.convert? (.string v.display) = some v := by
  unfold convert?
  split
  · subst kind
    exact congrArg some (Except.ok.inj h)
  · change (kind.parse v.display).toOption = some v
    rw [h]
    rfl

end PrimitiveKind

/-- **Literals read back.**  What a literal writes is written as a literal of the same value, so
that the conversion of the value to text can be undone.  Every list of bytes is written as a literal
of it. -/
theorem parse_display_and_convert_back :
    (∀ (kind : PrimitiveKind) (text : String) (v : PrimitiveValue),
      kind ≠ .double → kind ≠ .single → kind.parse text = .ok v →
        kind.parse v.display = .ok v ∧
          ∀ (c : Catalog) (m : ModelId) (n n' : Bool),
            (c.convert m (.primitive v) (.primitive .string n) >>= fun w =>
              c.convert m w (.primitive kind n')) = .ok (.primitive v)) ∧
      ∀ bytes : List UInt8,
        PrimitiveKind.binary.parse (PrimitiveValue.binary bytes).display = .ok (.binary bytes) := by
  refine ⟨fun kind text v hdouble hsingle h => ?_, PrimitiveValue.parse_binary_display⟩
  have hparse := PrimitiveKind.parse_display hdouble hsingle h
  refine ⟨hparse, fun c m n n' => ?_⟩
  have hne (u : PrimitiveValue) : Value.primitive u ≠ .null := nofun
  have htext : c.convert m (.primitive v) (.primitive .string n) =
      .ok (.primitive (.string v.display)) :=
    (Catalog.convert_primitive_eq_ok_iff (hne v)).2 ⟨v, _, rfl, rfl, rfl⟩
  have hback : c.convert m (.primitive (.string v.display)) (.primitive kind n') =
      .ok (.primitive v) :=
    (Catalog.convert_primitive_eq_ok_iff (hne _)).2
      ⟨_, v, rfl, PrimitiveKind.convert?_display hparse, rfl⟩
  rw [htext]
  exact hback

/-- An identifier is written in lower case, and read from that text as well. -/
theorem parse_display_and_convert_back_guid :
    PrimitiveKind.guid.parse "21EC2020-3AEA-1069-A2DD-08002B30309D" =
        .ok (.guid "21ec2020-3aea-1069-a2dd-08002b30309d") ∧
      PrimitiveKind.guid.parse "21ec2020-3aea-1069-a2dd-08002b30309d" =
        .ok (.guid "21ec2020-3aea-1069-a2dd-08002b30309d") := by
  have hread : PrimitiveKind.guid.parse "21EC2020-3AEA-1069-A2DD-08002B30309D" =
      .ok (.guid "21ec2020-3aea-1069-a2dd-08002b30309d") := by decide +kernel
  exact ⟨hread, (parse_display_and_convert_back.1 .guid _ _ nofun nofun hread).1⟩

end Schemata

import Mathlib.Algebra.Group.Nat.Defs
import Mathlib.Data.List.Basic
import Schemata.Document.Decode
import Schemata.Proofs.Json

/-!
# Decoders that undo encoders

A value of a document is written and read by an encoder and a decoder.  The decoder gets the number
of arrays and objects that it may still enter, so it undoes the encoder only on values that are not
nested deeper, and only where their numbers are of 64 bits (`Json.Fits`).  `IsCodec` says that this
is all that can go wrong, and that what the decoder finds, in whatever form, can be written so that
it fits.  The lemmas here build codecs of lists and objects from those of their parts.
-/

namespace Schemata

namespace Json

/-! ### Nesting and numbers -/

mutual

/-- How deep arrays and objects are nested. -/
def depth : Json → Nat
  | array elements => depthOfElements elements + 1
  | object members => depthOfMembers members + 1
  | null | bool _ | number _ | string _ => 0

/-- The depth of the deepest of several values. -/
def depthOfElements : List Json → Nat
  | [] => 0
  | e :: es => max (depth e) (depthOfElements es)

/-- The depth of the deepest value of several members. -/
def depthOfMembers : List (Option String × Json) → Nat
  | [] => 0
  | (_, v) :: ms => max (depth v) (depthOfMembers ms)

end

mutual

/-- The whole numbers in a value. -/
def numbers : Json → List Nat
  | number literal => (Number.digits? literal.toList).toList
  | array elements => numbersOfElements elements
  | object members => numbersOfMembers members
  | null | bool _ | string _ => []

/-- The whole numbers in several values. -/
def numbersOfElements : List Json → List Nat
  | [] => []
  | e :: es => numbers e ++ numbersOfElements es

/-- The whole numbers in the values of several members. -/
def numbersOfMembers : List (Option String × Json) → List Nat
  | [] => []
  | (_, v) :: ms => numbers v ++ numbersOfMembers ms

end

theorem depthOfElements_le_iff {elements : List Json} {d : Nat} :
    depthOfElements elements ≤ d ↔ ∀ e ∈ elements, e.depth ≤ d := by
  induction elements with
  | nil => simp [depthOfElements]
  | cons e es ih => rw [depthOfElements, Nat.max_le, ih, List.forall_mem_cons]

theorem depthOfMembers_le_iff {members : List (Option String × Json)} {d : Nat} :
    depthOfMembers members ≤ d ↔ ∀ m ∈ members, m.2.depth ≤ d := by
  induction members with
  | nil => simp [depthOfMembers]
  | cons m ms ih => rw [depthOfMembers, Nat.max_le, ih, List.forall_mem_cons]

theorem mem_numbersOfElements {elements : List Json} {n : Nat} :
    n ∈ numbersOfElements elements ↔ ∃ e ∈ elements, n ∈ e.numbers := by
  induction elements with
  | nil => simp [numbersOfElements]
  | cons e es ih => rw [numbersOfElements, List.mem_append, ih, List.exists_mem_cons_iff]

theorem mem_numbersOfMembers {members : List (Option String × Json)} {n : Nat} :
    n ∈ numbersOfMembers members ↔ ∃ m ∈ members, n ∈ m.2.numbers := by
  induction members with
  | nil => simp [numbersOfMembers]
  | cons m ms ih => rw [numbersOfMembers, List.mem_append, ih, List.exists_mem_cons_iff]

/-- Whether a value is nested no deeper than `d` and holds no number beyond 64 bits. -/
structure Fits (d : Nat) (j : Json) : Prop where
  depth_le : j.depth ≤ d
  lt_of_mem_numbers : ∀ n ∈ j.numbers, n < 2 ^ 64

theorem fits_iff {d : Nat} {j : Json} : j.Fits d ↔ j.depth ≤ d ∧ ∀ n ∈ j.numbers, n < 2 ^ 64 :=
  ⟨fun h => ⟨h.depth_le, h.lt_of_mem_numbers⟩, fun h => ⟨h.1, h.2⟩⟩

theorem digits?_toString (n : Nat) : Number.digits? (toString n).toList = some n := by
  have hvalue : Number.ofDigits (Nat.toDigits 10 n) = n := by
    have h := Nat.ofDigitChars_ten_toDigits (n := n)
    rwa [Nat.ofDigitChars_eq_foldl] at h
  have hall : (Nat.toDigits 10 n).all Char.isDigit = true := List.all_eq_true.2 isDigit_of_mem
  rw [toList_toString, Number.digits?, hall, hvalue]
  simp [Nat.toDigits_ne_nil]

@[simp]
theorem fits_null (d : Nat) : null.Fits d := ⟨Nat.zero_le d, by simp [numbers]⟩

@[simp]
theorem fits_bool (d : Nat) (b : Bool) : (bool b).Fits d := ⟨Nat.zero_le d, by simp [numbers]⟩

@[simp]
theorem fits_text (d : Nat) (s : String) : (text s).Fits d :=
  ⟨Nat.zero_le d, by simp [numbers, text]⟩

@[simp]
theorem fits_text? (d : Nat) (s? : Option String) : (text? s?).Fits d := by
  cases s? with
  | none => exact fits_null d
  | some s => exact fits_text d s

@[simp]
theorem fits_nat {d n : Nat} : (nat n).Fits d ↔ n < 2 ^ 64 := by
  rw [fits_iff, nat, depth, numbers, digits?_toString]
  simp

@[simp]
theorem not_fits_array_zero (elements : List Json) : ¬ (array elements).Fits 0 := fun h =>
  Nat.not_succ_le_zero _ h.depth_le

@[simp]
theorem fits_array_succ {elements : List Json} {d : Nat} :
    (array elements).Fits (d + 1) ↔ ∀ e ∈ elements, e.Fits d := by
  simp only [fits_iff, depth, numbers, Nat.add_le_add_iff_right, depthOfElements_le_iff,
    mem_numbersOfElements, forall_exists_index, and_imp, forall_and]
  exact and_congr_right fun _ => ⟨fun h e he n => h n e he, fun h n e he => h e he n⟩

theorem fits_object_succ {members : List (Option String × Json)} {d : Nat} :
    (object members).Fits (d + 1) ↔ ∀ m ∈ members, m.2.Fits d := by
  simp only [fits_iff, depth, numbers, Nat.add_le_add_iff_right, depthOfMembers_le_iff,
    mem_numbersOfMembers, forall_exists_index, and_imp, forall_and]
  exact and_congr_right fun _ => ⟨fun h m hm n => h n m hm, fun h n m hm => h m hm n⟩

@[simp]
theorem not_fits_ofMembers_zero (members : List (String × Json)) : ¬ (ofMembers members).Fits 0 :=
  fun h => Nat.not_succ_le_zero _ h.depth_le

@[simp]
theorem fits_ofMembers_succ {members : List (String × Json)} {d : Nat} :
    (ofMembers members).Fits (d + 1) ↔ ∀ m ∈ members, m.2.Fits d := by
  rw [ofMembers, fits_object_succ, List.forall_mem_map]

@[simp]
theorem not_fits_tagged_zero (tag : String) (value : Json) : ¬ (tagged tag value).Fits 0 :=
  not_fits_ofMembers_zero _

@[simp]
theorem fits_tagged_succ {tag : String} {value : Json} {d : Nat} :
    (tagged tag value).Fits (d + 1) ↔ value.Fits d := by
  rw [tagged, fits_ofMembers_succ, List.forall_mem_singleton]

end Json

namespace Document

open Json

/-! ### Codecs -/

/-- Whether a decoder and an encoder belong together: what is encoded is decoded again, unless it
does not fit, and what is decoded, whatever from, fits when it is encoded. -/
structure IsCodec {α : Type} (d : Nat) (decode : Json → Option α) (encode : α → Json) : Prop where
  decode_encode_eq_some_iff : ∀ a b, decode (encode a) = some b ↔ (encode a).Fits d ∧ a = b
  fits_of_decode : ∀ j a, decode j = some a → (encode a).Fits d

namespace IsCodec

variable {α β : Type} {d : Nat} {decode : Json → Option α} {encode : α → Json}

theorem map_eq_some_iff (h : IsCodec d decode encode) {f : α → β} {a : α} {b : β} :
    (decode (encode a)).map f = some b ↔ (encode a).Fits d ∧ f a = b := by
  rw [Option.map_eq_some_iff]
  constructor
  · rintro ⟨a', ha, rfl⟩
    obtain ⟨hfits, rfl⟩ := (h.decode_encode_eq_some_iff a a').1 ha
    exact ⟨hfits, rfl⟩
  · rintro ⟨hfits, rfl⟩
    exact ⟨a, (h.decode_encode_eq_some_iff a a).2 ⟨hfits, rfl⟩, rfl⟩

theorem exists_of_map (h : IsCodec d decode encode) {f : α → β} {j : Json} {b : β}
    (hj : (decode j).map f = some b) : ∃ a, (encode a).Fits d ∧ f a = b := by
  obtain ⟨a, ha, rfl⟩ := Option.map_eq_some_iff.1 hj
  exact ⟨a, h.fits_of_decode j a ha, rfl⟩

end IsCodec

/-! ### Lists -/

theorem mapM_map_eq_some {α β γ : Type} {f : β → Option γ} {g : α → β} {h : α → γ} {as : List α}
    (hf : ∀ a ∈ as, f (g a) = some (h a)) : (as.map g).mapM f = some (as.map h) := by
  induction as with
  | nil => rfl
  | cons a as ih =>
    rw [List.forall_mem_cons] at hf
    simp [hf.1, ih hf.2]

namespace IsCodec

variable {α : Type} {d : Nat} {decode : Json → Option α} {encode : α → Json}

theorem mapM_map_eq_some_iff (h : IsCodec d decode encode) {as bs : List α} :
    (as.map encode).mapM decode = some bs ↔ (∀ j ∈ as.map encode, j.Fits d) ∧ as = bs := by
  induction as generalizing bs with
  | nil => simp
  | cons a as ih =>
    simp only [List.map_cons, List.mapM_cons, Option.bind_eq_bind, Option.pure_def,
      Option.bind_eq_some_iff, h.decode_encode_eq_some_iff, ih, Option.some.injEq,
      List.forall_mem_cons]
    constructor
    · rintro ⟨_, ⟨ha, rfl⟩, _, ⟨has, rfl⟩, rfl⟩
      exact ⟨⟨ha, has⟩, rfl⟩
    · rintro ⟨⟨ha, has⟩, rfl⟩
      exact ⟨a, ⟨ha, rfl⟩, as, ⟨has, rfl⟩, rfl⟩

theorem fits_of_mapM (h : IsCodec d decode encode) {js : List Json} {as : List α}
    (hjs : js.mapM decode = some as) : ∀ j ∈ as.map encode, j.Fits d := by
  induction js generalizing as with
  | nil =>
    cases hjs
    simp
  | cons j js ih =>
    simp only [List.mapM_cons, Option.bind_eq_bind, Option.pure_def, Option.bind_eq_some_iff,
      Option.some.injEq] at hjs
    obtain ⟨a, ha, as, has, rfl⟩ := hjs
    rw [List.map_cons, List.forall_mem_cons]
    exact ⟨h.fits_of_decode j a ha, ih has⟩

end IsCodec

/-- A codec of the elements, one level further in, gives one of lists. -/
theorem isCodec_list_of_lt {α : Type} {decode : Nat → Json → Option α} {encode : α → Json} {d : Nat}
    (h : ∀ d' < d, IsCodec d' (decode d') encode) :
    IsCodec d (decodeList decode d) (encodeList encode) where
  decode_encode_eq_some_iff as bs := by
    cases d with
    | zero => simp [decodeList, encodeList]
    | succ d =>
      have helements := h d (Nat.lt_succ_self d)
      rw [encodeList, decodeList, helements.mapM_map_eq_some_iff, fits_array_succ]
  fits_of_decode j as hj := by
    unfold decodeList at hj
    split at hj
    case h_1 d elements =>
      have helements := h d (Nat.lt_succ_self d)
      rw [encodeList, fits_array_succ]
      exact helements.fits_of_mapM hj
    case h_2 => cases hj

theorem isCodec_list {α : Type} {decode : Nat → Json → Option α} {encode : α → Json}
    (h : ∀ d, IsCodec d (decode d) encode) (d : Nat) :
    IsCodec d (decodeList decode d) (encodeList encode) :=
  isCodec_list_of_lt fun d' _ => h d'

/-! ### Fields -/

theorem lookup_of_mem {name : String} {value : Json} {members : List (String × Json)}
    (hmem : (name, value) ∈ members) (hnodup : (members.map (·.1)).Nodup) :
    lookup name members = some (some value) := by
  have honly : members.filter (·.1 == name) = [(name, value)] := by
    induction members with
    | nil => cases hmem
    | cons m ms ih =>
      rw [List.map_cons, List.nodup_cons] at hnodup
      rcases List.mem_cons.1 hmem with rfl | hmem
      · have hother : ms.filter (·.1 == name) = [] := by
          refine List.filter_eq_nil_iff.2 fun m hm hname => hnodup.1 ?_
          exact List.mem_map.2 ⟨m, hm, beq_iff_eq.1 hname⟩
        rw [List.filter_cons_of_pos (by simp), hother]
      · have hne : ¬ (m.1 == name) = true := fun hname =>
          hnodup.1 (beq_iff_eq.1 hname ▸ List.mem_map.2 ⟨(name, value), hmem, rfl⟩)
        rw [List.filter_cons, if_neg hne, ih hmem hnodup.2]
  rw [lookup, honly]

/-- The fields of an object with just those members in their order are their values. -/
theorem fields_ofMembers {names : List String} {members : List (String × Json)}
    (hnames : members.map (·.1) = names) (hnodup : names.Nodup) :
    fields names (ofMembers members) = some (members.map fun m => some m.2) := by
  subst hnames
  have hspelled : (members.map fun m => (some m.1, m.2)).mapM
      (fun m : Option String × Json => m.1.map fun name => (name, m.2)) =
        some (members.map fun m => m) :=
    mapM_map_eq_some fun _ _ => rfl
  rw [List.map_id'] at hspelled
  rw [ofMembers, fields, hspelled]
  exact mapM_map_eq_some fun m hm => lookup_of_mem hm hnodup

section

variable {α : Type} (decode : Nat → Json → Option α) {d : Nat} {names : List String}
  {body : Nat → List (Option Json) → Option α} (hzero : ∀ j, decode 0 j = none)
  (hsucc : ∀ d j, decode (d + 1) j = (fields names j).bind (body d))
include hzero hsucc

/-- A decoder that enters an object and goes on with the values of its fields decodes an object with
these fields if it may be entered and what comes next undoes the values. -/
theorem decode_ofMembers_eq_some_iff {members : List (String × Json)} {a : α} {p : Prop}
    (hnames : members.map (·.1) = names) (hnodup : names.Nodup)
    (hbody : ∀ d' < d, body d' (members.map fun m => some m.2) = some a ↔
      (∀ m ∈ members, m.2.Fits d') ∧ p) :
    decode d (ofMembers members) = some a ↔ (ofMembers members).Fits d ∧ p := by
  cases d with
  | zero =>
    rw [hzero]
    simp
  | succ d =>
    rw [hsucc, fields_ofMembers hnames hnodup, Option.bind_some, hbody d (Nat.lt_succ_self d),
      fits_ofMembers_succ]

/-- What such a decoder finds, it finds in the values of fields. -/
theorem exists_of_decode {j : Json} {a : α} (h : decode d j = some a) :
    ∃ d' values, d = d' + 1 ∧ body d' values = some a := by
  cases d with
  | zero =>
    rw [hzero] at h
    cases h
  | succ d =>
    rw [hsucc] at h
    obtain ⟨values, -, hvalues⟩ := Option.bind_eq_some_iff.1 h
    exact ⟨d, values, rfl, hvalues⟩

end

/-- An encoder that writes fields and a decoder that reads them belong together if what the decoder
goes on with undoes the values of the fields. -/
theorem IsCodec.ofFields {α : Type} {decode : Nat → Json → Option α} {encode : α → Json} {d : Nat}
    {names : List String} {members : α → List (String × Json)}
    {body : Nat → List (Option Json) → Option α} (hencode : ∀ a, encode a = ofMembers (members a))
    (hzero : ∀ j, decode 0 j = none)
    (hsucc : ∀ d j, decode (d + 1) j = (fields names j).bind (body d))
    (hnames : ∀ a, (members a).map (·.1) = names) (hnodup : names.Nodup)
    (hbody : ∀ d' < d, ∀ a b, body d' ((members a).map fun m => some m.2) = some b ↔
      (∀ m ∈ members a, m.2.Fits d') ∧ a = b)
    (hfits : ∀ d' < d, ∀ values a, body d' values = some a → ∀ m ∈ members a, m.2.Fits d') :
    IsCodec d (decode d) encode where
  decode_encode_eq_some_iff a b := by
    rw [hencode]
    exact decode_ofMembers_eq_some_iff decode hzero hsucc (hnames a) hnodup fun d' hd =>
      hbody d' hd a b
  fits_of_decode j a h := by
    obtain ⟨d', values, rfl, hvalues⟩ := exists_of_decode decode hzero hsucc h
    rw [hencode, fits_ofMembers_succ]
    exact hfits d' (Nat.lt_succ_self d') values a hvalues

/-! ### Alternatives -/

/-- A decoder that enters an object for an alternative decodes the alternative of a tag if the
object may be entered and what it does inside undoes the content. -/
theorem decode_tagged_eq_some_iff {α : Type} (decode : Nat → Json → Option α) {d : Nat}
    {tag : String} {content : Json} {a : α} {p : Prop}
    (hzero : decode 0 (tagged tag content) = none)
    (hsucc : ∀ d' < d, decode (d' + 1) (tagged tag content) = some a ↔ content.Fits d' ∧ p) :
    decode d (tagged tag content) = some a ↔ (tagged tag content).Fits d ∧ p := by
  cases d with
  | zero =>
    rw [hzero]
    simp
  | succ d => rw [hsucc d (Nat.lt_succ_self d), fits_tagged_succ]

/-! ### Values of fields -/

@[simp]
theorem required_some {α : Type} (decode : Json → Option α) (j : Json) :
    required decode (some j) = decode j := rfl

@[simp]
theorem decodeText_text (s : String) : decodeText (text s) = some s := rfl

@[simp]
theorem decodeBool_bool (b : Bool) : decodeBool (bool b) = some b := rfl

@[simp]
theorem optional_decodeText (s? : Option String) :
    optional decodeText (some (text? s?)) = some s? := by
  cases s? <;> rfl

/-- What is decoded from a field that may not be missing fits when it is encoded. -/
theorem IsCodec.fits_of_required {α : Type} {d : Nat} {decode : Json → Option α}
    {encode : α → Json} (h : IsCodec d decode encode) {value? : Option Json} {a : α}
    (ha : required decode value? = some a) : (encode a).Fits d := by
  obtain ⟨j, -, hj⟩ := Option.bind_eq_some_iff.1 ha
  exact h.fits_of_decode j a hj

end Document

end Schemata

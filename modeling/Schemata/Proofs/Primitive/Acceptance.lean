import Mathlib.Tactic.IntervalCases
import Mathlib.Tactic.Ring
import Schemata.Primitive.Literal
import Schemata.Proofs.Evaluation.Traversal
import Schemata.Proofs.Primitive.Grammar

/-!
# The recognisers of literals

The recognisers do not follow the grammars.  They cut a text at separators, some of which are also
part of other fields, or at a byte offset, and hold the pieces against widths and bounds.  Each
accepts what its grammar has (`PrimitiveKind.accepts_iff_mem_grammar`).  Where a text is cut at a
byte offset, that is never inside a character (`hexBytes_eq_ok`, `dateTimeOffset_eq_ok`): for
hexadecimal digits because the text has been found to be ASCII before, for an offset because the
boundary is asked for.
-/

namespace Schemata

open scoped Computability

namespace Literal

open Grammar

/-! ### Digits -/

theorem utf8Size_of_isDigit {c : Char} (h : c.isDigit = true) : c.utf8Size = 1 := by
  rw [Char.utf8Size_eq_one_iff, UInt32.le_iff_toNat_le]
  simp only [Char.isDigit, Bool.and_eq_true, decide_eq_true_eq, UInt32.le_iff_toNat_le] at h
  exact h.2.trans (by decide)

theorem utf8Size_of_isHex {c : Char} (h : isHex c = true) : c.utf8Size = 1 := by
  rw [Char.utf8Size_eq_one_iff, UInt32.le_iff_toNat_le]
  unfold isHex Number.hexValue? at h
  split at h
  · next hc => exact (UInt32.le_iff_toNat_le.1 hc.2).trans (by decide)
  · split at h
    · next hc => exact (UInt32.le_iff_toNat_le.1 hc.2).trans (by decide)
    · split at h
      · next hc => exact (UInt32.le_iff_toNat_le.1 hc.2).trans (by decide)
      · simp at h

theorem hex_eq : hex = one isHex := by
  refine congrArg one (funext fun c => ?_)
  have hdigit : c.isDigit = true ↔ '0' ≤ c ∧ c ≤ '9' := by
    simp [Char.isDigit, Char.le_def]
  rw [Bool.eq_iff_iff, isHex, Number.hexValue?]
  simp only [Bool.or_eq_true, hdigit, Bool.and_eq_true, decide_eq_true_eq]
  split_ifs <;> simp_all

/-- A separator that is no digit is not among digits. -/
theorem notMem_of_all {p : Char → Bool} {sep : Char} (hsep : p sep = false) {cs : List Char}
    (h : ∀ c ∈ cs, p c = true) : sep ∉ cs := fun hmem => by simp [h sep hmem] at hsep

theorem digitValue_of_isDigit {c : Char} (h : c.isDigit = true) :
    Number.digitValue c < 10 ∧ (Number.digitValue c).digitChar = c := by
  simp only [Char.isDigit, Bool.and_eq_true, decide_eq_true_eq, ge_iff_le,
    UInt32.le_iff_toNat_le] at h
  obtain ⟨hlow, hhigh⟩ : 48 ≤ c.toNat ∧ c.toNat ≤ 57 := h
  have hc := Char.ofNat_toNat c
  generalize c.toNat = n at *
  subst hc
  interval_cases n <;> decide

theorem digitValue_digitChar :
    ∀ n < 10, n.digitChar.isDigit = true ∧ Number.digitValue n.digitChar = n := by decide

/-- Two digits with a value from `low` to `high` write one of these numbers. -/
theorem isField_two_iff {low high : Nat} (hhigh : high < 100) {cs : List Char} :
    isField 2 low high cs = true ↔ cs ∈ twoDigits low high := by
  simp only [isField, Bool.and_eq_true, beq_iff_eq, List.all_eq_true, decide_eq_true_eq,
    mem_twoDigits_iff, List.length_eq_two]
  constructor
  · rintro ⟨⟨⟨a, b, rfl⟩, hall⟩, hlow, hn⟩
    obtain ⟨ha, hachar⟩ := digitValue_of_isDigit (hall a (by simp))
    obtain ⟨hb, hbchar⟩ := digitValue_of_isDigit (hall b (by simp))
    have hvalue : Number.ofDigits [a, b] = 10 * Number.digitValue a + Number.digitValue b := by
      simp [Number.ofDigits]
    rw [hvalue] at hlow hn
    refine ⟨_, hlow, hn, ?_⟩
    rw [show (10 * Number.digitValue a + Number.digitValue b) / 10 = Number.digitValue a by omega,
      show (10 * Number.digitValue a + Number.digitValue b) % 10 = Number.digitValue b by omega,
      hachar, hbchar]
  · rintro ⟨n, hlow, hn, rfl⟩
    obtain ⟨hadigit, ha⟩ := digitValue_digitChar (n / 10) (by omega)
    obtain ⟨hbdigit, hb⟩ := digitValue_digitChar (n % 10) (by omega)
    have hvalue : Number.ofDigits [(n / 10).digitChar, (n % 10).digitChar] = n := by
      simp only [Number.ofDigits, List.foldl_cons, List.foldl_nil, ha, hb]
      omega
    rw [hvalue]
    exact ⟨⟨⟨_, _, rfl⟩, by simp [hadigit, hbdigit]⟩, hlow, hn⟩

theorem ofDigits_lt {cs : List Char} (h : ∀ c ∈ cs, c.isDigit = true) :
    Number.ofDigits cs < 10 ^ cs.length := by
  -- the digits read so far are the state of the fold
  suffices ∀ n, cs.foldl (fun n c => 10 * n + Number.digitValue c) n < (n + 1) * 10 ^ cs.length by
    simpa [Number.ofDigits] using this 0
  induction cs with
  | nil => simp
  | cons c cs ih =>
    intro n
    rw [List.forall_mem_cons] at h
    have hc := (digitValue_of_isDigit h.1).1
    calc cs.foldl (fun n c => 10 * n + Number.digitValue c) (10 * n + Number.digitValue c)
        < (10 * n + Number.digitValue c + 1) * 10 ^ cs.length := ih h.2 _
      _ ≤ (10 * (n + 1)) * 10 ^ cs.length := Nat.mul_le_mul_right _ (by omega)
      _ = (n + 1) * 10 ^ (cs.length + 1) := by ring

theorem isField_year_iff {cs : List Char} : isField 4 0 9999 cs = true ↔ cs ∈ digit ^ 4 := by
  simp only [isField, Bool.and_eq_true, beq_iff_eq, List.all_eq_true, decide_eq_true_eq, digit,
    mem_one_pow_iff, and_iff_left_iff_imp, Nat.zero_le, true_and, and_imp]
  intro hlength hall
  have := ofDigits_lt hall
  rw [hlength] at this
  omega

theorem areHexGroups_iff {groups : List (List Char)} {lengths : List Nat} :
    areHexGroups groups lengths = true ↔ List.Forall₂ (fun g n => g ∈ hex ^ n) groups lengths := by
  induction groups generalizing lengths with
  | nil => cases lengths <;> simp [areHexGroups]
  | cons g groups ih =>
    cases lengths with
    | nil => simp [areHexGroups]
    | cons n lengths => simp [areHexGroups, ih, hex_eq, mem_one_pow_iff]

theorem isDigit_of_mem_twoDigits {low high : Nat} (hhigh : high < 100) {cs : List Char}
    (h : cs ∈ twoDigits low high) : cs.length = 2 ∧ ∀ c ∈ cs, c.isDigit = true := by
  obtain ⟨n, -, hn, rfl⟩ := h
  have htens := (digitValue_digitChar (n / 10) (by omega)).1
  have hones := (digitValue_digitChar (n % 10) (by omega)).1
  exact ⟨rfl, by simp [htens, hones]⟩

theorem notMem_of_mem_twoDigits {low high : Nat} {cs : List Char} (h : cs ∈ twoDigits low high)
    (hhigh : high < 100) (sep : Char) (hsep : sep.isDigit = false) : sep ∉ cs :=
  notMem_of_all hsep (isDigit_of_mem_twoDigits hhigh h).2

/-! ### Numbers -/

/-- The texts of decimals without a sign. -/
theorem mem_unsigned_iff {cs : List Char} :
    cs ∈ digits * (1 + {['.']} * digit∗) + {['.']} * digits ↔
      cs ∈ digits ∨ ∃ whole fraction, cs = whole ++ '.' :: fraction ∧
        (whole ≠ [] ∨ fraction ≠ []) ∧ (∀ c ∈ whole, c.isDigit = true) ∧
          ∀ c ∈ fraction, c.isDigit = true := by
  rw [Language.mem_add, Language.mem_mul, mem_singleton_mul_iff]
  simp only [mem_optional_iff, mem_singleton_mul_iff, mem_digits_iff, digit, mem_kstar_one_iff]
  constructor
  · rintro (⟨whole, ⟨hne, hwhole⟩, _, rfl | ⟨fraction, hfraction, rfl⟩, rfl⟩ |
      ⟨fraction, ⟨hne, hfraction⟩, rfl⟩)
    · exact .inl ⟨by simpa using hne, by simpa using hwhole⟩
    · exact .inr ⟨whole, fraction, rfl, .inl hne, hwhole, hfraction⟩
    · exact .inr ⟨[], fraction, rfl, .inr hne, by simp, hfraction⟩
  · rintro (h | ⟨whole, fraction, rfl, hne, hwhole, hfraction⟩)
    · exact .inl ⟨cs, h, [], .inl rfl, by simp⟩
    · by_cases hw : whole = []
      · subst hw
        exact .inr ⟨fraction, ⟨by simpa using hne, hfraction⟩, rfl⟩
      · exact .inl ⟨whole, ⟨hw, hwhole⟩, _, .inr ⟨fraction, hfraction, rfl⟩, rfl⟩

/-- Where a reader takes an optional opening off a text, the rest is in a language just when the
text is in the language with the opening before it. -/
theorem opened_mem_iff {rest : List Char → List Char} {opening l : Language Char}
    (hrest : ∀ cs, rest cs = cs ∨ ∃ start ∈ opening, start ++ rest cs = cs)
    (hopening : ∀ start ∈ opening, ∀ cs, rest (start ++ cs) = cs) (hl : ∀ cs ∈ l, rest cs = cs)
    {cs : List Char} : rest cs ∈ l ↔ cs ∈ (1 + opening) * l := by
  simp only [Language.mem_mul, mem_optional_iff]
  constructor
  · intro h
    obtain heq | ⟨start, hstart, heq⟩ := hrest cs
    · exact ⟨[], .inl rfl, cs, heq ▸ h, rfl⟩
    · exact ⟨start, .inr hstart, _, h, heq⟩
  · rintro ⟨start, rfl | hstart, ds, hds, rfl⟩
    · rwa [List.nil_append, hl ds hds]
    · rwa [hopening start hstart]

theorem unsigned_eq_self {cs : List Char} (h : ∀ c ∈ cs, c ≠ '+' ∧ c ≠ '-') : unsigned cs = cs := by
  unfold unsigned
  split <;> simp_all

theorem unsigned_mem_iff {l : Language Char} (hl : ∀ cs ∈ l, ∀ c ∈ cs, c ≠ '+' ∧ c ≠ '-')
    {cs : List Char} : unsigned cs ∈ l ↔ cs ∈ (1 + sign) * l := by
  refine opened_mem_iff (fun cs => ?_) ?_ fun cs hcs => unsigned_eq_self (hl cs hcs)
  · unfold unsigned
    split
    · exact .inr ⟨['-'], .inr rfl, rfl⟩
    · exact .inr ⟨['+'], .inl rfl, rfl⟩
    · exact .inl rfl
  · rintro _ (rfl | rfl) cs <;> rfl

theorem isDecimal_iff {cs : List Char} : isDecimal cs = true ↔ cs ∈ decimal := by
  have hsign : ∀ c : Char, c.isDigit = true ∨ c = '.' → c ≠ '+' ∧ c ≠ '-' := by
    rintro c h
    constructor <;> rintro rfl <;> revert h <;> decide
  rw [decimal, ← unsigned_mem_iff, mem_unsigned_iff, isDecimal]
  · generalize unsigned cs = ds
    constructor
    · intro h
      cases hcut : Text.splitFirst '.' ds with
      | none => exact .inl (mem_digits_iff.2 (by simpa [hcut] using h))
      | some cut =>
        obtain ⟨rfl, -⟩ := Text.splitFirst_eq_some_iff.1 hcut
        refine .inr ⟨cut.1, cut.2, rfl, ?_⟩
        simpa [hcut, and_assoc, ← not_and_or] using h
    · rintro (h | ⟨whole, fraction, rfl, hne, hwhole, hfraction⟩)
      · obtain ⟨hne, hall⟩ := mem_digits_iff.1 h
        rw [Text.splitFirst_eq_none_iff.2 (notMem_of_all (by decide) hall)]
        simpa [hne] using hall
      · rw [Text.splitFirst_eq_some_iff.2 ⟨rfl, notMem_of_all (by decide) hwhole⟩]
        simpa [← not_and_or] using And.intro (And.intro hne hwhole) hfraction
  · intro ds h c hc
    rw [mem_unsigned_iff, mem_digits_iff] at h
    refine hsign c ?_
    obtain ⟨-, hall⟩ | ⟨whole, fraction, rfl, -, hwhole, hfraction⟩ := h
    · exact .inl (hall c hc)
    · rw [List.mem_append, List.mem_cons] at hc
      obtain hc | rfl | hc := hc
      · exact .inl (hwhole c hc)
      · exact .inr rfl
      · exact .inl (hfraction c hc)

/-! ### Groups of digits -/

theorem isGuid_iff {cs : List Char} : isGuid cs = true ↔ cs ∈ guid := by
  have hdash : ∀ {n : Nat} {g : List Char}, g ∈ hex ^ n → '-' ∉ g := fun hg =>
    notMem_of_all (by decide) (mem_one_pow_iff.1 hg).2
  simp only [isGuid, areHexGroups_iff, guid, mem_mul_singleton_mul_iff]
  simp only [List.forall₂_cons_right_iff, List.forall₂_nil_right_iff]
  constructor
  · rintro ⟨a, _, ha, ⟨b, _, hb, ⟨c, _, hc, ⟨d, _, hd, ⟨e, _, he, rfl, rfl⟩, rfl⟩, rfl⟩, rfl⟩, h⟩
    obtain ⟨-, -, rfl⟩ := Text.pieces_eq_iff.1 h
    exact ⟨_, ⟨_, ⟨_, ⟨a, ha, b, hb, rfl⟩, c, hc, rfl⟩, d, hd, rfl⟩, e, he, by simp [Text.join]⟩
  · rintro ⟨_, ⟨_, ⟨_, ⟨a, ha, b, hb, rfl⟩, c, hc, rfl⟩, d, hd, rfl⟩, e, he, rfl⟩
    refine ⟨a, _, ha, ⟨b, _, hb, ⟨c, _, hc, ⟨d, _, hd, ⟨e, _, he, rfl, rfl⟩, rfl⟩, rfl⟩, rfl⟩, ?_⟩
    simp only [List.append_assoc, List.cons_append, Text.pieces_append (hdash ha),
      Text.pieces_append (hdash hb), Text.pieces_append (hdash hc), Text.pieces_append (hdash hd),
      Text.pieces_of_notMem (hdash he)]

theorem isDate_iff {cs : List Char} : isDate cs = true ↔ cs ∈ date := by
  simp only [date, mem_mul_singleton_mul_iff]
  constructor
  · intro h
    unfold isDate at h
    split at h
    · next year month day hpieces =>
      obtain ⟨-, -, rfl⟩ := Text.pieces_eq_iff.1 hpieces
      simp only [Bool.and_eq_true, isField_year_iff,
        isField_two_iff (show 12 < 100 by decide), isField_two_iff (show 31 < 100 by decide)] at h
      obtain ⟨⟨hyear, hmonth⟩, hday⟩ := h
      exact ⟨_, ⟨year, hyear, month, hmonth, rfl⟩, day, hday, by simp [Text.join]⟩
    · simp at h
  · rintro ⟨_, ⟨year, hyear, month, hmonth, rfl⟩, day, hday, rfl⟩
    have hyeardash : '-' ∉ year := notMem_of_all (by decide) (mem_one_pow_iff.1 hyear).2
    -- no field holds the separator, so the pieces are the fields
    have hpieces : Text.pieces (· == '-') (year ++ '-' :: month ++ '-' :: day) =
        [year, month, day] := by
      rw [List.append_assoc, List.cons_append, Text.pieces_append hyeardash,
        Text.pieces_append (notMem_of_mem_twoDigits hmonth (by decide) '-' rfl),
        Text.pieces_of_notMem (notMem_of_mem_twoDigits hday (by decide) '-' rfl)]
    rw [isDate, hpieces]
    simp only [Bool.and_eq_true, isField_year_iff, isField_two_iff (show 12 < 100 by decide),
      isField_two_iff (show 31 < 100 by decide)]
    exact ⟨⟨hyear, hmonth⟩, hday⟩

/-- The three forms of a time. -/
theorem mem_time_iff {cs : List Char} :
    cs ∈ time ↔ ∃ hours ∈ twoDigits 0 23, ∃ minutes ∈ twoDigits 0 59,
      cs = hours ++ ':' :: minutes ∨ ∃ seconds ∈ twoDigits 0 59,
        cs = hours ++ ':' :: minutes ++ ':' :: seconds ∨ ∃ fraction ∈ digits,
          cs = hours ++ ':' :: minutes ++ ':' :: seconds ++ '.' :: fraction := by
  rw [time, clock, Language.mem_mul]
  constructor
  · rintro ⟨_, hclock, rest, hrest, rfl⟩
    obtain ⟨hours, hhours, minutes, hminutes, rfl⟩ := mem_mul_singleton_mul_iff.1 hclock
    refine ⟨hours, hhours, minutes, hminutes, ?_⟩
    obtain rfl | hrest := mem_optional_iff.1 hrest
    · exact .inl (List.append_nil _)
    · obtain ⟨_, hseconds, tail, htail, rfl⟩ := Language.mem_mul.1 hrest
      obtain ⟨seconds, hfield, rfl⟩ := mem_singleton_mul_iff.1 hseconds
      refine .inr ⟨seconds, hfield, ?_⟩
      obtain rfl | htail := mem_optional_iff.1 htail
      · exact .inl (by simp)
      · obtain ⟨fraction, hfraction, rfl⟩ := mem_singleton_mul_iff.1 htail
        exact .inr ⟨fraction, hfraction, by simp⟩
  · rintro ⟨hours, hhours, minutes, hminutes, h⟩
    have hclock : hours ++ ':' :: minutes ∈ _ :=
      mem_mul_singleton_mul_iff.2 ⟨hours, hhours, minutes, hminutes, rfl⟩
    obtain rfl | ⟨seconds, hseconds, h⟩ := h
    · exact ⟨_, hclock, [], .inl rfl, List.append_nil _⟩
    · have hcolon := mem_singleton_mul_iff (c := ':').2 ⟨seconds, hseconds, rfl⟩
      obtain rfl | ⟨fraction, hfraction, rfl⟩ := h
      · exact ⟨_, hclock, _, .inr (Language.append_mem_mul hcolon (.inl rfl)), by simp⟩
      · have hpoint := mem_singleton_mul_iff (c := '.').2 ⟨fraction, hfraction, rfl⟩
        exact ⟨_, hclock, _, .inr (Language.append_mem_mul hcolon (.inr hpoint)), by simp⟩

theorem isField_hours_iff {cs : List Char} :
    isField 2 0 23 cs = true ↔ cs ∈ twoDigits 0 23 := isField_two_iff (by decide)

theorem isField_sixty_iff {cs : List Char} :
    isField 2 0 59 cs = true ↔ cs ∈ twoDigits 0 59 := isField_two_iff (by decide)

theorem mem_time_of_isTime {cs : List Char} (h : isTime cs = true) : cs ∈ time := by
  rw [mem_time_iff]
  unfold isTime at h
  split at h
  · next clock fraction hcut =>
    obtain ⟨rfl, -⟩ := Text.splitFirst_eq_some_iff.1 hcut
    split at h
    · next hours minutes seconds hpieces =>
      obtain ⟨-, -, rfl⟩ := Text.pieces_eq_iff.1 hpieces
      simp only [Bool.and_eq_true, isField_hours_iff, isField_sixty_iff] at h
      obtain ⟨⟨⟨⟨hh, hm⟩, hs⟩, hne⟩, hall⟩ := h
      have hfraction : fraction ∈ digits :=
        mem_digits_iff.2 ⟨by simpa using hne, by simpa using hall⟩
      exact ⟨hours, hh, minutes, hm,
        .inr ⟨seconds, hs, .inr ⟨fraction, hfraction, by simp [Text.join]⟩⟩⟩
    · simp at h
  · split at h
    · next hours minutes hpieces =>
      obtain ⟨-, -, rfl⟩ := Text.pieces_eq_iff.1 hpieces
      simp only [Bool.and_eq_true, isField_hours_iff, isField_sixty_iff] at h
      exact ⟨hours, h.1, minutes, h.2, .inl (by simp [Text.join])⟩
    · next hours minutes seconds hpieces =>
      obtain ⟨-, -, rfl⟩ := Text.pieces_eq_iff.1 hpieces
      simp only [Bool.and_eq_true, isField_hours_iff, isField_sixty_iff] at h
      exact ⟨hours, h.1.1, minutes, h.1.2, .inr ⟨seconds, h.2, .inl (by simp [Text.join])⟩⟩
    · simp at h

theorem isTime_of_mem_time {cs : List Char} (h : cs ∈ time) : isTime cs = true := by
  have hpoint {high : Nat} {f : List Char} (hf : f ∈ twoDigits 0 high)
      (hhigh : high < 100 := by decide) : '.' ∉ f := notMem_of_mem_twoDigits hf hhigh '.' rfl
  have hcolon {high : Nat} {f : List Char} (hf : f ∈ twoDigits 0 high)
      (hhigh : high < 100 := by decide) : ':' ∉ f := notMem_of_mem_twoDigits hf hhigh ':' rfl
  obtain ⟨hours, hh, minutes, hm, h⟩ := mem_time_iff.1 h
  obtain rfl | ⟨seconds, hs, h⟩ := h
  · have hclock : '.' ∉ hours ++ ':' :: minutes := by simp [hpoint hh, hpoint hm]
    have hpieces : Text.pieces (· == ':') (hours ++ ':' :: minutes) = [hours, minutes] := by
      rw [Text.pieces_append (hcolon hh), Text.pieces_of_notMem (hcolon hm)]
    simp only [isTime, Text.splitFirst_eq_none_iff.2 hclock, hpieces, Bool.and_eq_true,
      isField_hours_iff, isField_sixty_iff]
    exact ⟨hh, hm⟩
  · have hclock : '.' ∉ hours ++ ':' :: minutes ++ ':' :: seconds := by
      simp [hpoint hh, hpoint hm, hpoint hs]
    have hpieces : Text.pieces (· == ':') (hours ++ ':' :: minutes ++ ':' :: seconds) =
        [hours, minutes, seconds] := by
      rw [List.append_assoc, List.cons_append, Text.pieces_append (hcolon hh),
        Text.pieces_append (hcolon hm), Text.pieces_of_notMem (hcolon hs)]
    obtain rfl | ⟨fraction, hf, rfl⟩ := h
    · simp only [isTime, Text.splitFirst_eq_none_iff.2 hclock, hpieces, Bool.and_eq_true,
        isField_hours_iff, isField_sixty_iff]
      exact ⟨⟨hh, hm⟩, hs⟩
    · obtain ⟨hne, hall⟩ := mem_digits_iff.1 hf
      simp only [isTime, Text.splitFirst_eq_some_iff.2 ⟨rfl, hclock⟩, hpieces, Bool.and_eq_true,
        isField_hours_iff, isField_sixty_iff]
      exact ⟨⟨⟨⟨hh, hm⟩, hs⟩, by simpa using hne⟩, by simpa using hall⟩

theorem isTime_iff {cs : List Char} : isTime cs = true ↔ cs ∈ time :=
  ⟨mem_time_of_isTime, isTime_of_mem_time⟩

theorem notMem_of_mem_date {cs : List Char} (h : cs ∈ date) : 'T' ∉ cs := by
  simp only [date, mem_mul_singleton_mul_iff] at h
  obtain ⟨_, ⟨year, hyear, month, hmonth, rfl⟩, day, hday, rfl⟩ := h
  have hyearT : 'T' ∉ year := notMem_of_all (by decide) (mem_one_pow_iff.1 hyear).2
  simp [hyearT, notMem_of_mem_twoDigits hmonth (by decide) 'T' rfl,
    notMem_of_mem_twoDigits hday (by decide) 'T' rfl]

theorem isDateTime_iff {cs : List Char} : isDateTime cs = true ↔ cs ∈ dateTime := by
  simp only [dateTime, mem_mul_singleton_mul_iff]
  constructor
  · intro h
    unfold isDateTime at h
    split at h
    · next day moment hcut =>
      obtain ⟨rfl, -⟩ := Text.splitFirst_eq_some_iff.1 hcut
      rw [Bool.and_eq_true, isDate_iff, isTime_iff] at h
      exact ⟨day, h.1, moment, h.2, rfl⟩
    · simp at h
  · rintro ⟨day, hday, moment, hmoment, rfl⟩
    rw [isDateTime, Text.splitFirst_eq_some_iff.2 ⟨rfl, notMem_of_mem_date hday⟩]
    exact Bool.and_eq_true_iff.2 ⟨isDate_iff.2 hday, isTime_iff.2 hmoment⟩

/-! ### Offsets -/

theorem byteLength_of_mem_twoDigits {low high : Nat} {cs : List Char} (h : cs ∈ twoDigits low high)
    (hhigh : high < 100) : Text.byteLength cs = 2 := by
  obtain ⟨hlength, hall⟩ := isDigit_of_mem_twoDigits hhigh h
  rw [Text.byteLength_of_ascii fun c hc => utf8Size_of_isDigit (hall c hc), hlength]

theorem byteLength_of_mem_clock {cs : List Char} (h : cs ∈ clock) : Text.byteLength cs = 5 := by
  obtain ⟨hours, hhours, minutes, hminutes, rfl⟩ := mem_mul_singleton_mul_iff.1 h
  rw [Text.byteLength_append, Text.byteLength_cons, byteLength_of_mem_twoDigits hhours (by decide),
    byteLength_of_mem_twoDigits hminutes (by decide)]
  rfl

/-- A time of five bytes has neither seconds nor a fraction. -/
theorem mem_clock_of_mem_time {cs : List Char} (h : cs ∈ time) (hlength : Text.byteLength cs = 5) :
    cs ∈ clock := by
  obtain ⟨start, hclock, rest, -, rfl⟩ := Language.mem_mul.1 h
  rw [Text.byteLength_append, byteLength_of_mem_clock hclock, Nat.add_eq_left] at hlength
  have hrest : rest = [] :=
    List.eq_nil_of_length_eq_zero (Nat.le_zero.1 (hlength ▸ Text.length_le_byteLength rest))
  rwa [hrest, List.append_nil]

theorem mem_time_of_mem_clock {cs : List Char} (h : cs ∈ clock) : cs ∈ time :=
  List.append_nil cs ▸ Language.append_mem_mul h (.inl rfl)

/-- The two forms of a date and time with an offset. -/
theorem mem_dateTimeOffset_iff {cs : List Char} :
    cs ∈ Grammar.dateTimeOffset ↔ ∃ moment ∈ dateTime, cs = moment ++ ['Z'] ∨
      ∃ c shift, (c = '+' ∨ c = '-') ∧ shift ∈ clock ∧ cs = moment ++ c :: shift := by
  rw [Grammar.dateTimeOffset, Language.mem_mul]
  refine exists_congr fun moment => and_congr_right fun _ => ?_
  constructor
  · rintro ⟨_, rfl | h, rfl⟩
    · exact .inl rfl
    · obtain ⟨_, rfl | rfl, shift, hshift, rfl⟩ := Language.mem_mul.1 h
      · exact .inr ⟨_, shift, .inl rfl, hshift, rfl⟩
      · exact .inr ⟨_, shift, .inr rfl, hshift, rfl⟩
  · rintro (rfl | ⟨c, shift, hc, hshift, rfl⟩)
    · exact ⟨['Z'], .inl rfl, rfl⟩
    · refine ⟨_, .inr (Language.append_mem_mul (a := [c]) ?_ hshift), rfl⟩
      obtain rfl | rfl := hc
      · exact .inl rfl
      · exact .inr rfl

/-- An offset does not end in `Z`. -/
theorem stripEnd_of_mem_clock {moment shift : List Char} {c : Char} (h : shift ∈ clock) :
    Text.stripEnd 'Z' (moment ++ c :: shift) = none := by
  rw [Option.eq_none_iff_forall_ne_some]
  intro rest hrest
  rw [Text.stripEnd_eq_some_iff] at hrest
  obtain ⟨hours, -, minutes, hminutes, rfl⟩ := mem_mul_singleton_mul_iff.1 h
  obtain ⟨hlength, hall⟩ := isDigit_of_mem_twoDigits (by decide) hminutes
  have hne : minutes ≠ [] := by
    rintro rfl
    simp at hlength
  have hlast := congrArg List.getLast? hrest
  rw [List.getLast?_concat, List.getLast?_append_of_ne_nil _ (by simp), ← List.cons_append,
    List.getLast?_append_of_ne_nil _ (by simp), List.getLast?_cons_of_ne_nil hne] at hlast
  exact absurd (hall 'Z' (List.mem_of_getLast? hlast)) (by decide)

/-- The cut before the last six bytes of a text with an offset. -/
theorem cutAt?_of_mem_clock {moment shift : List Char} {c : Char} (hc : c = '+' ∨ c = '-')
    (h : shift ∈ clock) : 6 ≤ Text.byteLength (moment ++ c :: shift) ∧
      Text.cutAt? (Text.byteLength (moment ++ c :: shift) - 6) (moment ++ c :: shift) =
        some (moment, c :: shift) := by
  have hsize : c.utf8Size = 1 := by obtain rfl | rfl := hc <;> rfl
  rw [Text.cutAt?_eq_some_iff, Text.byteLength_append, Text.byteLength_cons, hsize,
    byteLength_of_mem_clock h]
  exact ⟨by omega, rfl, by omega⟩

/-- A text that does not end in `Z` is cut once, before its last six bytes. -/
theorem mem_dateTimeOffset_iff_of_cut {cs moment offset : List Char}
    (hz : Text.stripEnd 'Z' cs = none)
    (hcut : Text.cutAt? (Text.byteLength cs - 6) cs = some (moment, offset)) :
    cs ∈ Grammar.dateTimeOffset ↔ moment ∈ dateTime ∧
      ∃ c shift, (c = '+' ∨ c = '-') ∧ shift ∈ clock ∧ offset = c :: shift := by
  rw [mem_dateTimeOffset_iff]
  constructor
  · rintro ⟨moment', hmoment, rfl | ⟨c, shift, hc, hshift, rfl⟩⟩
    · rw [Text.stripEnd_eq_some_iff.2 rfl] at hz
      cases hz
    · rw [(cutAt?_of_mem_clock hc hshift).2] at hcut
      cases hcut
      exact ⟨hmoment, c, shift, hc, hshift, rfl⟩
  · rintro ⟨hmoment, c, shift, hc, hshift, rfl⟩
    exact ⟨moment, hmoment, .inr ⟨c, shift, hc, hshift, (Text.cutAt?_eq_some_iff.1 hcut).1⟩⟩

/-- Behind the cut, the text is read as a sign and a clock. -/
theorem dateTimeOffset_of_cut {cs moment offset : List Char}
    (hz : Text.stripEnd 'Z' cs = none) (hlength : 6 ≤ Text.byteLength cs)
    (hcut : Text.cutAt? (Text.byteLength cs - 6) cs = some (moment, offset)) :
    ∃ b, dateTimeOffset cs = .ok b ∧ (b = true ↔ cs ∈ Grammar.dateTimeOffset) := by
  have hshort :
      (Text.byteLength cs < 6 || !Text.isBoundary (Text.byteLength cs - 6) cs) = false := by
    simpa [Text.isBoundary, hcut] using hlength
  have hcutAt : Text.cutAt (Text.byteLength cs - 6) cs = .ok (moment, offset) := by
    rw [Text.cutAt, hcut]
  have hiff := mem_dateTimeOffset_iff_of_cut hz hcut
  by_cases hsign : (offset.head? == some '+' || offset.head? == some '-') = true
  · obtain ⟨c, shift, rfl, hc⟩ : ∃ c shift, offset = c :: shift ∧ (c = '+' ∨ c = '-') := by
      cases offset <;> simp_all
    have hsize : c.utf8Size = 1 := by obtain rfl | rfl := hc <;> rfl
    have hclock : Text.cutAt 1 (c :: shift) = .ok ([c], shift) :=
      @Text.cutAt_append 1 [c] shift hsize
    have hfive : Text.byteLength shift = 5 := by
      obtain ⟨heq, hmoment⟩ := Text.cutAt?_eq_some_iff.1 hcut
      have hsum := congrArg Text.byteLength heq
      rw [Text.byteLength_append, Text.byteLength_cons, hsize] at hsum
      omega
    refine ⟨isTime shift && isDateTime moment, ?_, ?_⟩
    · simp only [dateTimeOffset, hz, hshort, hcutAt, hsign, hclock, bind, Except.bind, pure,
        Except.pure, ite_true, ite_false, Bool.false_eq_true]
    · rw [hiff, Bool.and_eq_true, isTime_iff, isDateTime_iff]
      constructor
      · rintro ⟨hshift, hmoment⟩
        exact ⟨hmoment, c, shift, hc, mem_clock_of_mem_time hshift hfive, rfl⟩
      · rintro ⟨hmoment, _, _, -, hshift, heq⟩
        cases heq
        exact ⟨mem_time_of_mem_clock hshift, hmoment⟩
  · refine ⟨false, ?_, ?_⟩
    · simp only [dateTimeOffset, hz, hshort, hcutAt, hsign, bind, Except.bind, pure,
        Except.pure, ite_false, Bool.false_eq_true]
    · simp only [Bool.false_eq_true, false_iff, hiff]
      rintro ⟨-, c, shift, rfl | rfl, -, rfl⟩ <;> simp at hsign

/-- **The cuts of a date and time with an offset** are at boundaries, whatever the text. -/
theorem dateTimeOffset_eq_ok (cs : List Char) :
    ∃ b, dateTimeOffset cs = .ok b ∧ (b = true ↔ cs ∈ Grammar.dateTimeOffset) := by
  cases hz : Text.stripEnd 'Z' cs with
  | some moment =>
    refine ⟨isDateTime moment, by rw [dateTimeOffset, hz]; rfl, ?_⟩
    obtain rfl := Text.stripEnd_eq_some_iff.1 hz
    rw [isDateTime_iff, mem_dateTimeOffset_iff]
    constructor
    · exact fun h => ⟨moment, h, .inl rfl⟩
    · rintro ⟨moment', h, heq | ⟨c, shift, -, hshift, heq⟩⟩
      · exact List.append_cancel_right heq ▸ h
      · rw [heq, stripEnd_of_mem_clock hshift] at hz
        cases hz
  | none =>
    by_cases hlong : 6 ≤ Text.byteLength cs ∧
        (Text.cutAt? (Text.byteLength cs - 6) cs).isSome = true
    · obtain ⟨cut, hcut⟩ := Option.isSome_iff_exists.1 hlong.2
      exact dateTimeOffset_of_cut hz hlong.1 hcut
    · have hshort : (Text.byteLength cs < 6 ||
          !Text.isBoundary (Text.byteLength cs - 6) cs) = true := by
        rw [Bool.or_eq_true, decide_eq_true_iff, Text.isBoundary, Bool.not_eq_true']
        by_cases hlength : Text.byteLength cs < 6
        · exact .inl hlength
        · exact .inr (Bool.eq_false_iff.2 fun h => hlong ⟨Nat.not_lt.1 hlength, h⟩)
      refine ⟨false, by simp only [dateTimeOffset, hz, hshort]; rfl, ?_⟩
      simp only [Bool.false_eq_true, false_iff]
      intro h
      obtain ⟨moment, -, rfl | ⟨c, shift, hc, hshift, rfl⟩⟩ := mem_dateTimeOffset_iff.1 h
      · rw [Text.stripEnd_eq_some_iff.2 rfl] at hz
        cases hz
      · obtain ⟨hlength, hcut⟩ := @cutAt?_of_mem_clock moment shift c hc hshift
        exact hlong ⟨hlength, by rw [hcut]; rfl⟩

/-! ### Pairs of hexadecimal digits -/

theorem mem_hex_mul_hex_iff {cs : List Char} :
    cs ∈ hex * hex ↔ ∃ high low, isHex high = true ∧ isHex low = true ∧ cs = [high, low] := by
  rw [hex_eq, Language.mem_mul]
  constructor
  · rintro ⟨_, ⟨high, hhigh, rfl⟩, _, ⟨low, hlow, rfl⟩, rfl⟩
    exact ⟨high, low, hhigh, hlow, rfl⟩
  · rintro ⟨high, low, hhigh, hlow, rfl⟩
    exact ⟨[high], ⟨high, hhigh, rfl⟩, [low], ⟨low, hlow, rfl⟩, rfl⟩

/-- Pairs of hexadecimal digits are the texts of an even number of them. -/
theorem mem_kstar_hex_mul_hex_iff {cs : List Char} :
    cs ∈ (hex * hex)∗ ↔ cs.length % 2 = 0 ∧ ∀ c ∈ cs, isHex c = true := by
  constructor
  · rintro ⟨pairs, rfl, hpairs⟩
    induction pairs with
    | nil => simp
    | cons pair pairs ih =>
      rw [List.forall_mem_cons] at hpairs
      obtain ⟨high, low, hhigh, hlow, rfl⟩ := mem_hex_mul_hex_iff.1 hpairs.1
      obtain ⟨hlength, hall⟩ := ih hpairs.2
      refine ⟨?_, by simpa [hhigh, hlow] using hall⟩
      rw [List.flatten_cons, List.length_append]
      exact (Nat.add_mod_left 2 _).trans hlength
  · rintro ⟨hlength, hall⟩
    induction cs using List.twoStepInduction with
    | nil => exact Language.nil_mem_kstar _
    | singleton c => simp at hlength
    | cons_cons high low cs ih =>
      simp only [List.forall_mem_cons] at hall
      have hpair := mem_hex_mul_hex_iff.2 ⟨high, low, hall.1, hall.2.1, rfl⟩
      have hrest : cs.length % 2 = 0 := (Nat.add_mod_right cs.length 2).symm.trans hlength
      obtain ⟨pairs, rfl, hpairs⟩ := ih hrest hall.2.2
      exact ⟨[high, low] :: pairs, rfl, List.forall_mem_cons.2 ⟨hpair, hpairs⟩⟩

theorem byteLength_of_mem_hex_mul_hex {pair : List Char} (h : pair ∈ hex * hex) :
    Text.byteLength pair = 2 := by
  obtain ⟨high, low, hhigh, hlow, rfl⟩ := mem_hex_mul_hex_iff.1 h
  simp [utf8Size_of_isHex hhigh, utf8Size_of_isHex hlow]

theorem byteLength_flatten {pairs : List (List Char)} (hpairs : ∀ p ∈ pairs, p ∈ hex * hex) :
    Text.byteLength pairs.flatten = 2 * pairs.length := by
  induction pairs with
  | nil => rfl
  | cons pair pairs ih =>
    rw [List.forall_mem_cons] at hpairs
    rw [List.flatten_cons, Text.byteLength_append, byteLength_of_mem_hex_mul_hex hpairs.1,
      ih hpairs.2, List.length_cons]
    omega

/-- The slices of two bytes of pairs of hexadecimal digits are the pairs. -/
theorem hexBytes_flatten {pairs : List (List Char)} (hpairs : ∀ p ∈ pairs, p ∈ hex * hex) :
    hexBytes pairs.flatten = .ok (pairs.mapM hexByte?) := by
  have hlength := byteLength_flatten hpairs
  have hall : pairs.flatten.all isHex = true :=
    List.all_eq_true.2 (mem_kstar_hex_mul_hex_iff.1 (Language.join_mem_kstar hpairs)).2
  have hslices : (List.range pairs.length).mapM
      (fun i => Text.slice (2 * i) (2 * i + 2) pairs.flatten) = .ok pairs := by
    refine mapM_eq_ok_iff.2 (List.forall₂_iff_get.2 ⟨List.length_range, fun i _ hi => ?_⟩)
    rw [List.get_eq_getElem, List.get_eq_getElem, List.getElem_range]
    -- what stands before a pair is the pairs before it
    have hsplit : pairs.flatten =
        (pairs.take i).flatten ++ (pairs[i] ++ (pairs.drop (i + 1)).flatten) := by
      rw [← List.flatten_cons, List.getElem_cons_drop, ← List.flatten_append, List.take_append_drop]
    have hbefore : Text.byteLength (pairs.take i).flatten = 2 * i := by
      rw [byteLength_flatten fun p hp => hpairs p (List.mem_of_mem_take hp),
        List.length_take_of_le hi.le]
    have hpair : Text.byteLength pairs[i] = 2 * i + 2 - 2 * i := by
      rw [byteLength_of_mem_hex_mul_hex (hpairs _ (List.getElem_mem hi)), Nat.add_sub_cancel_left]
    rw [hsplit, Text.slice_append _ hbefore hpair]
  simp [hexBytes, hlength, hall, hslices, bind, Except.bind, pure, Except.pure]

theorem isSome_hexByte? {pair : List Char} (h : pair ∈ hex * hex) :
    (hexByte? pair).isSome = true := by
  obtain ⟨high, low, hhigh, hlow, rfl⟩ := mem_hex_mul_hex_iff.1 h
  obtain ⟨m, hm⟩ := Option.isSome_iff_exists.1 hhigh
  obtain ⟨n, hn⟩ := Option.isSome_iff_exists.1 hlow
  simp [hexByte?, hm, hn]

theorem isSome_mapM_hexByte? {pairs : List (List Char)} (hpairs : ∀ p ∈ pairs, p ∈ hex * hex) :
    (pairs.mapM hexByte?).isSome = true := by
  induction pairs with
  | nil => rfl
  | cons pair pairs ih =>
    rw [List.forall_mem_cons] at hpairs
    obtain ⟨byte, hbyte⟩ := Option.isSome_iff_exists.1 (isSome_hexByte? hpairs.1)
    obtain ⟨bytes, hbytes⟩ := Option.isSome_iff_exists.1 (ih hpairs.2)
    simp [List.mapM_cons, hbyte, hbytes]

/-- **The slices of a binary literal** are at boundaries, whatever the text. -/
theorem hexBytes_eq_ok (cs : List Char) :
    ∃ bytes?, hexBytes cs = .ok bytes? ∧ (bytes?.isSome = true ↔ cs ∈ (hex * hex)∗) := by
  by_cases h : cs ∈ (hex * hex)∗
  · obtain ⟨pairs, rfl, hpairs⟩ := h
    refine ⟨_, hexBytes_flatten hpairs, ?_⟩
    exact iff_of_true (isSome_mapM_hexByte? hpairs) (Language.join_mem_kstar hpairs)
  · refine ⟨none, ?_, by simpa using h⟩
    have hno : ¬ (Text.byteLength cs % 2 = 0 ∧ cs.all isHex = true) := by
      rintro ⟨hlength, hall⟩
      rw [List.all_eq_true] at hall
      rw [Text.byteLength_of_ascii fun c hc => utf8Size_of_isHex (hall c hc)] at hlength
      exact h (mem_kstar_hex_mul_hex_iff.2 ⟨hlength, hall⟩)
    simp only [hexBytes, Bool.and_eq_true, beq_iff_eq, hno, ite_false]
    rfl

theorem hexDigits_eq_self {cs : List Char} (h : ∀ c ∈ cs, isHex c = true) : hexDigits cs = cs := by
  unfold hexDigits
  split
  · exact absurd (h 'x' (by simp)) (by decide)
  · exact absurd (h 'X' (by simp)) (by decide)
  · rfl

theorem hexDigits_mem_iff {cs : List Char} : hexDigits cs ∈ (hex * hex)∗ ↔ cs ∈ binary := by
  refine opened_mem_iff (fun cs => ?_) ?_ fun cs hcs =>
    hexDigits_eq_self (mem_kstar_hex_mul_hex_iff.1 hcs).2
  · unfold hexDigits
    split
    · exact .inr ⟨['0', 'x'], .inl rfl, rfl⟩
    · exact .inr ⟨['0', 'X'], .inr rfl, rfl⟩
    · exact .inl rfl
  · rintro _ (rfl | rfl) cs <;> rfl

end Literal

open Literal

/-- Whether the text is a literal of the type. -/
def PrimitiveKind.Accepts (kind : PrimitiveKind) (text : String) : Prop :=
  ∃ value, kind.parse text = .ok value

namespace PrimitiveKind

theorem accepts_binary_iff {text : String} :
    binary.Accepts text ↔ (binary? text.toList).isSome = true := by
  rw [Accepts, parse]
  cases binary? text.toList <;> simp

theorem accepts_iff_of_parse_eq {kind : PrimitiveKind} {text : String}
    {isShaped : List Char → Bool} {value : String → PrimitiveValue}
    (h : kind.parse text = shaped kind text isShaped value) :
    kind.Accepts text ↔ isShaped text.toList = true := by
  rw [Accepts, h]
  simp only [shaped_eq_ok_iff, exists_and_left, exists_eq, and_true]

/-- **What the types accept** are the texts of their grammars, and on the way no text is cut inside
a character. -/
theorem accepts_iff_mem_grammar (text : String) :
    (binary.Accepts text ↔ text.toList ∈ Grammar.binary) ∧
    (decimal.Accepts text ↔ text.toList ∈ Grammar.decimal) ∧
    (guid.Accepts text ↔ text.toList ∈ Grammar.guid) ∧
    (time.Accepts text ↔ text.toList ∈ Grammar.time) ∧
    (dateTime.Accepts text ↔ text.toList ∈ Grammar.dateTime) ∧
    (dateTimeOffset.Accepts text ↔ text.toList ∈ Grammar.dateTimeOffset) ∧
    hexBytes (hexDigits text.toList) = .ok (binary? text.toList) ∧
    Literal.dateTimeOffset text.toList = .ok (isDateTimeOffset text.toList) := by
  obtain ⟨bytes?, hbytes, hhex⟩ := hexBytes_eq_ok (hexDigits text.toList)
  have hbinary : binary? text.toList = bytes? := by
    rw [binary?, hbytes]
    cases bytes? <;> rfl
  obtain ⟨b, hb, hoffset⟩ := dateTimeOffset_eq_ok text.toList
  have hmoment : isDateTimeOffset text.toList = b := by
    rw [isDateTimeOffset, hb]
    rfl
  refine ⟨?_, ?_, ?_, ?_, ?_, ?_, ?_, ?_⟩
  · rw [accepts_binary_iff, hbinary, hhex, hexDigits_mem_iff]
  · rw [accepts_iff_of_parse_eq (by rw [parse]), isDecimal_iff]
  · rw [accepts_iff_of_parse_eq (by rw [parse]), isGuid_iff]
  · rw [accepts_iff_of_parse_eq (by rw [parse]), isTime_iff]
  · rw [accepts_iff_of_parse_eq (by rw [parse]), isDateTime_iff]
  · rw [accepts_iff_of_parse_eq (by rw [parse]), hmoment, hoffset]
  · rw [hbytes, hbinary]
  · rw [hb, hmoment]

end PrimitiveKind

end Schemata

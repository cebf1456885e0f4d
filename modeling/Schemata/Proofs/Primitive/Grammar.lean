import Mathlib.Computability.Language

/-!
# The grammars of literals

The shapes of the literals as languages, each built from characters by concatenation, alternatives
and repetition.  No recogniser is mentioned: what is accepted is a matter of
`PrimitiveKind.accepts_iff_mem_grammar`.
-/

namespace Schemata

open scoped Computability

namespace Literal.Grammar

/-! ### Languages -/

/-- One character for which `p` holds. -/
def one (p : Char → Bool) : Language Char := {cs | ∃ c, p c = true ∧ cs = [c]}

/-- One ASCII digit. -/
def digit : Language Char := one Char.isDigit

/-- A run of digits, at least one. -/
def digits : Language Char := digit * digit∗

/-- One hexadecimal digit, in either case. -/
def hex : Language Char :=
  one fun c => c.isDigit || ('a' ≤ c && c ≤ 'f') || ('A' ≤ c && c ≤ 'F')

/-- Plus or minus. -/
def sign : Language Char := {['+']} + {['-']}

/-- The numbers from `low` to `high`, each with two digits. -/
def twoDigits (low high : Nat) : Language Char :=
  {cs | ∃ n, low ≤ n ∧ n ≤ high ∧ cs = [(n / 10).digitChar, (n % 10).digitChar]}

/-- Pairs of hexadecimal digits, with an optional `0x` or `0X` before them. -/
def binary : Language Char := (1 + ({['0', 'x']} + {['0', 'X']})) * (hex * hex)∗

/-- An optional sign and digits, with an optional point among or before them or at the end. -/
def decimal : Language Char := (1 + sign) * (digits * (1 + {['.']} * digit∗) + {['.']} * digits)

/-- Five groups of hexadecimal digits joined by dashes. -/
def guid : Language Char :=
  hex ^ 8 * {['-']} * hex ^ 4 * {['-']} * hex ^ 4 * {['-']} * hex ^ 4 * {['-']} * hex ^ 12

/-- Hours and minutes. -/
def clock : Language Char := twoDigits 0 23 * {[':']} * twoDigits 0 59

/-- Hours and minutes, and optionally seconds with an optional fraction. -/
def time : Language Char := clock * (1 + {[':']} * twoDigits 0 59 * (1 + {['.']} * digits))

/-- Year, month and day. -/
def date : Language Char := digit ^ 4 * {['-']} * twoDigits 1 12 * {['-']} * twoDigits 1 31

/-- A date, the letter `T` and a time. -/
def dateTime : Language Char := date * {['T']} * time

/-- A date and time followed by `Z`, or by a sign, hours and minutes. -/
def dateTimeOffset : Language Char := dateTime * ({['Z']} + sign * clock)

/-! ### Membership -/

theorem mem_one_iff {p : Char → Bool} {cs : List Char} :
    cs ∈ one p ↔ ∃ c, p c = true ∧ cs = [c] := Iff.rfl

theorem mem_singleton_iff {ds cs : List Char} : cs ∈ ({ds} : Language Char) ↔ cs = ds := Iff.rfl

theorem mem_sign_iff {cs : List Char} : cs ∈ sign ↔ cs = ['+'] ∨ cs = ['-'] := Iff.rfl

theorem mem_twoDigits_iff {low high : Nat} {cs : List Char} :
    cs ∈ twoDigits low high ↔
      ∃ n, low ≤ n ∧ n ≤ high ∧ cs = [(n / 10).digitChar, (n % 10).digitChar] := Iff.rfl

theorem mem_optional_iff {l : Language Char} {cs : List Char} :
    cs ∈ 1 + l ↔ cs = [] ∨ cs ∈ l := Iff.rfl

theorem mem_singleton_mul_iff {c : Char} {l : Language Char} {cs : List Char} :
    cs ∈ {[c]} * l ↔ ∃ ds ∈ l, cs = c :: ds := by
  simp only [Language.mem_mul, mem_singleton_iff, exists_eq_left, List.singleton_append, eq_comm]

/-- Two parts with a separator between them. -/
theorem mem_mul_singleton_mul_iff {l m : Language Char} {c : Char} {cs : List Char} :
    cs ∈ l * {[c]} * m ↔ ∃ before ∈ l, ∃ after ∈ m, cs = before ++ c :: after := by
  simp only [mul_assoc, Language.mem_mul, mem_singleton_iff, exists_eq_left]
  grind

/-- A repetition of one character is any text of such characters. -/
theorem mem_kstar_one_iff {p : Char → Bool} {cs : List Char} :
    cs ∈ (one p)∗ ↔ ∀ c ∈ cs, p c = true := by
  rw [Language.mem_kstar]
  constructor
  · rintro ⟨parts, rfl, hparts⟩ c hc
    obtain ⟨part, hpart, hc⟩ := List.mem_flatten.1 hc
    obtain ⟨d, hd, rfl⟩ := hparts part hpart
    rwa [List.mem_singleton.1 hc]
  · intro h
    refine ⟨cs.map fun c => [c], by rw [← List.flatMap_def, List.flatMap_singleton'],
      fun part hpart => ?_⟩
    obtain ⟨c, hc, rfl⟩ := List.mem_map.1 hpart
    exact ⟨c, h c hc, rfl⟩

/-- A power of one character is a text of so many such characters. -/
theorem mem_one_pow_iff {p : Char → Bool} {n : Nat} {cs : List Char} :
    cs ∈ one p ^ n ↔ cs.length = n ∧ ∀ c ∈ cs, p c = true := by
  induction n generalizing cs with
  | zero => simp +contextual [List.length_eq_zero_iff]
  | succ n ih =>
    rw [pow_succ', Language.mem_mul]
    constructor
    · rintro ⟨_, ⟨c, hc, rfl⟩, ds, hds, rfl⟩
      obtain ⟨hlength, hall⟩ := ih.1 hds
      exact ⟨by simp [hlength], by simpa [hc] using hall⟩
    · rintro ⟨hlength, hall⟩
      obtain ⟨c, ds, rfl⟩ := List.exists_of_length_succ cs hlength
      rw [List.forall_mem_cons] at hall
      exact ⟨[c], ⟨c, hall.1, rfl⟩, ds, ih.2 ⟨Nat.succ.inj hlength, hall.2⟩, rfl⟩

theorem mem_digits_iff {cs : List Char} :
    cs ∈ digits ↔ cs ≠ [] ∧ ∀ c ∈ cs, c.isDigit = true := by
  rw [digits, Language.mem_mul]
  constructor
  · rintro ⟨_, ⟨c, hc, rfl⟩, ds, hds, rfl⟩
    exact ⟨by simp, by simpa [hc] using mem_kstar_one_iff.1 hds⟩
  · rintro ⟨hne, hall⟩
    obtain ⟨c, ds, rfl⟩ := List.exists_cons_of_ne_nil hne
    rw [List.forall_mem_cons] at hall
    exact ⟨[c], ⟨c, hall.1, rfl⟩, ds, mem_kstar_one_iff.2 hall.2, rfl⟩

end Literal.Grammar

end Schemata

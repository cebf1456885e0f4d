import Mathlib.Data.List.DropRight
import Mathlib.Data.Nat.Digits.Defs
import Schemata.Json.Printer
import Schemata.Json.Reader

/-!
# Reading what is written

`Json.parse?` reads a value back from the text that `Json.pretty` writes for it (`parse?_pretty`).
This holds of values whose strings and names spell texts and whose numbers are written as natural
numbers are (`Json.IsPlain`).

The budget of the reader is no limit: each step of it uses up a character at least, so a budget
above the length of the text covers a value and all that is in it.
-/

namespace Schemata.Json

/-! ### Blanks -/

theorem skipBlanks_cons {c : Char} (hc : c ∉ [' ', '\n', '\r', '\t']) (cs : List Char) :
    skipBlanks (c :: cs) = c :: cs := by
  simp only [List.mem_cons, List.not_mem_nil, or_false, not_or] at hc
  exact List.dropWhile_cons_of_neg (by simp [hc])

theorem skipBlanks_skipBlanks (cs : List Char) : skipBlanks (skipBlanks cs) = skipBlanks cs :=
  List.dropWhile_idempotent _ cs

theorem skipBlanks_lineBreak (level : Nat) (cs : List Char) :
    skipBlanks (lineBreak level ++ cs) = skipBlanks cs := by
  refine List.dropWhile_append_of_pos fun c hc => ?_
  rcases List.mem_cons.1 hc with rfl | hc
  · rfl
  · rw [List.eq_of_mem_replicate hc]
    rfl

theorem takeValue_skipBlanks (budget : Nat) (cs : List Char) :
    takeValue budget (skipBlanks cs) = takeValue budget cs := by
  cases budget with
  | zero => rw [takeValue, takeValue]
  | succ budget => rw [takeValue, takeValue, skipBlanks_skipBlanks]

theorem takeValue_blank (budget : Nat) (cs : List Char) :
    takeValue budget (' ' :: cs) = takeValue budget cs := by
  rw [← takeValue_skipBlanks, ← takeValue_skipBlanks budget cs]
  rfl

theorem takeElements_skipBlanks (budget : Nat) (cs : List Char) :
    takeElements budget (skipBlanks cs) = takeElements budget cs := by
  cases budget with
  | zero => rw [takeElements, takeElements]
  | succ budget => rw [takeElements, takeElements, takeValue_skipBlanks]

theorem takeMembers_skipBlanks (budget : Nat) (cs : List Char) :
    takeMembers budget (skipBlanks cs) = takeMembers budget cs := by
  cases budget with
  | zero => rw [takeMembers, takeMembers]
  | succ budget => rw [takeMembers, takeMembers, skipBlanks_skipBlanks]

theorem takeElements_lineBreak (budget level : Nat) (cs : List Char) :
    takeElements budget (lineBreak level ++ cs) = takeElements budget cs := by
  rw [← takeElements_skipBlanks, skipBlanks_lineBreak, takeElements_skipBlanks]

theorem takeMembers_lineBreak (budget level : Nat) (cs : List Char) :
    takeMembers budget (lineBreak level ++ cs) = takeMembers budget cs := by
  rw [← takeMembers_skipBlanks, skipBlanks_lineBreak, takeMembers_skipBlanks]

/-! ### Strings -/

theorem hexValue?_hexDigit : ∀ n < 16, Number.hexValue? (hexDigit n) = some n := by decide

/-- The four digits of the escape for a control character write its number. -/
theorem hexUnit?_of_lt {n : Nat} (hn : n < 0x20) :
    hexUnit? '0' '0' (hexDigit (n / 16)) (hexDigit (n % 16)) = some n := by
  have hzero : Number.hexValue? '0' = some 0 := rfl
  simp only [hexUnit?, hzero, hexValue?_hexDigit (n / 16) (by omega),
    hexValue?_hexDigit (n % 16) (by omega), Option.bind_eq_bind, Option.bind_some, Option.pure_def,
    Option.some.injEq]
  omega

/-- A spelling without escapes for half a character. -/
def Spelling.ofReversed (reversed : List Char) : Spelling := ⟨reversed, none, true⟩

theorem Spelling.push_ofReversed (reversed : List Char) (c : Char) :
    (ofReversed reversed).push c = ofReversed (c :: reversed) := rfl

theorem Spelling.pushUnit_ofReversed (reversed : List Char) {c : Char} (hc : c.toNat < 0x20) :
    (ofReversed reversed).pushUnit c.toNat = ofReversed (c :: reversed) := by
  rw [pushUnit, if_neg (by omega), if_neg (by omega), Char.ofNat_toNat, push_ofReversed]

theorem takeString_letter (s : Spelling) {letter c : Char} (hc : escaped? letter = some c)
    (cs : List Char) : takeString s ('\\' :: letter :: cs) = takeString (s.push c) cs := by
  have hu : letter ≠ 'u' := by
    rintro rfl
    simp [escaped?] at hc
  simp [takeString, hc, hu]

/-- An escaped character is read as the character. -/
theorem takeString_escapeChar (reversed : List Char) (c : Char) (cs : List Char) :
    takeString (.ofReversed reversed) (escapeChar c ++ cs) =
      takeString (.ofReversed (c :: reversed)) cs := by
  unfold escapeChar
  split_ifs with hquote hslash hb hf hn hr ht hcontrol
  case pos => subst hquote; exact takeString_letter _ rfl cs
  case pos => subst hslash; exact takeString_letter _ rfl cs
  case pos => subst hb; exact takeString_letter _ rfl cs
  case pos => subst hf; exact takeString_letter _ rfl cs
  case pos => subst hn; exact takeString_letter _ rfl cs
  case pos => subst hr; exact takeString_letter _ rfl cs
  case pos => subst ht; exact takeString_letter _ rfl cs
  case pos =>
    simp only [List.cons_append, List.nil_append, takeString, hexUnit?_of_lt hcontrol,
      Spelling.pushUnit_ofReversed reversed hcontrol]
  case neg =>
    rw [List.singleton_append, takeString.eq_def]
    simp [hslash, hcontrol, Spelling.push_ofReversed]

theorem takeString_flatMap (reversed cs rest : List Char) :
    takeString (.ofReversed reversed) (cs.flatMap escapeChar ++ '"' :: rest) =
      some (some (String.ofList (reversed.reverse ++ cs)), rest) := by
  induction cs generalizing reversed with
  | nil => simp [takeString, Spelling.text?, Spelling.ofReversed]
  | cons c cs ih => simp [takeString_escapeChar, ih]

/-- A quoted text is read as the text. -/
theorem takeString_quote (s : String) (rest : List Char) :
    takeString .empty (s.toList.flatMap escapeChar ++ '"' :: rest) = some (some s, rest) := by
  have h := takeString_flatMap [] s.toList rest
  rwa [List.reverse_nil, List.nil_append, String.ofList_toList] at h

/-! ### Numbers -/

/-- Whether the characters can follow an element or a member in an indented text. -/
def IsAfterValue (rest : List Char) : Prop :=
  rest = [] ∨ ∃ cs, rest = ',' :: cs ∨ rest = '\n' :: cs

theorem isAfterValue_nil : IsAfterValue [] := .inl rfl

theorem isAfterValue_lineBreak (level : Nat) (cs : List Char) :
    IsAfterValue (lineBreak level ++ cs) := .inr ⟨_, .inr rfl⟩

theorem isAfterValue_comma (cs : List Char) : IsAfterValue (',' :: cs) := .inr ⟨_, .inl rfl⟩

theorem takeWhile_isDigit_of_isAfterValue {rest : List Char} (hrest : IsAfterValue rest) :
    rest.takeWhile Char.isDigit = [] := by
  rcases hrest with rfl | ⟨cs, rfl | rfl⟩ <;> rfl

theorem dropWhile_isDigit_of_isAfterValue {rest : List Char} (hrest : IsAfterValue rest) :
    rest.dropWhile Char.isDigit = rest := by
  rcases hrest with rfl | ⟨cs, rfl | rfl⟩ <;> rfl

theorem takeFraction_of_isAfterValue {rest : List Char} (hrest : IsAfterValue rest) :
    takeFraction rest = some ([], rest) := by
  rcases hrest with rfl | ⟨cs, rfl | rfl⟩ <;> rfl

theorem takeExponent_of_isAfterValue {rest : List Char} (hrest : IsAfterValue rest) :
    takeExponent rest = some ([], rest) := by
  rcases hrest with rfl | ⟨cs, rfl | rfl⟩ <;> rfl

theorem toList_toString (n : Nat) : (toString n).toList = Nat.toDigits 10 n := by
  rw [Nat.toString_eq_ofList_toDigits, String.toList_ofList]

theorem isDigit_of_mem {n : Nat} : ∀ c ∈ Nat.toDigits 10 n, c.isDigit = true := fun _ hc =>
  Nat.isDigit_of_mem_toDigits (by decide) (by decide) hc

/-- The digits of a positive number do not begin with a zero. -/
theorem head?_toDigits_ne {n : Nat} (hn : 0 < n) : (Nat.toDigits 10 n).head? ≠ some '0' := by
  induction n using Nat.strong_induction_on with
  | _ n ih =>
    by_cases hsmall : n < 10
    · rw [Nat.toDigits_of_lt_base hsmall]
      have hdigit : ∀ d < 10, 0 < d → [Nat.digitChar d].head? ≠ some '0' := by decide
      exact hdigit n hsmall hn
    · rw [Nat.toDigits_of_base_le (by decide) (by omega), List.head?_append_of_ne_nil _
        Nat.toDigits_ne_nil]
      exact ih (n / 10) (by omega) (by omega)

theorem takeUnsigned_toDigits (n : Nat) {rest : List Char} (hrest : IsAfterValue rest) :
    takeUnsigned (Nat.toDigits 10 n ++ rest) = some (Nat.toDigits 10 n, rest) := by
  have hwhole : (Nat.toDigits 10 n ++ rest).takeWhile Char.isDigit = Nat.toDigits 10 n := by
    rw [List.takeWhile_append_of_pos isDigit_of_mem, takeWhile_isDigit_of_isAfterValue hrest,
      List.append_nil]
  have hleft : (Nat.toDigits 10 n ++ rest).dropWhile Char.isDigit = rest := by
    rw [List.dropWhile_append_of_pos isDigit_of_mem, dropWhile_isDigit_of_isAfterValue hrest]
  have hzero : ¬ (1 < (Nat.toDigits 10 n).length ∧ (Nat.toDigits 10 n).head? = some '0') := by
    rintro ⟨hlong, hhead⟩
    rcases Nat.eq_zero_or_pos n with rfl | hn
    · exact absurd hlong (by decide)
    · exact head?_toDigits_ne hn hhead
  simp only [takeUnsigned, hwhole, hleft, takeFraction_of_isAfterValue hrest]
  simp [hzero, Nat.toDigits_ne_nil, takeExponent_of_isAfterValue hrest]

/-! ### Values -/

/-- A value in which strings and names spell texts and numbers are natural numbers. -/
inductive IsPlain : Json → Prop
  | null : IsPlain null
  | bool (b : Bool) : IsPlain (bool b)
  | nat (n : Nat) : IsPlain (nat n)
  | text (s : String) : IsPlain (text s)
  | array {elements : List Json} : (∀ e ∈ elements, IsPlain e) → IsPlain (array elements)
  | object {members : List (Option String × Json)} : (∀ m ∈ members, m.1.isSome) →
    (∀ m ∈ members, IsPlain m.2) → IsPlain (object members)

@[simp]
theorem isPlain_null : null.IsPlain := .null

@[simp]
theorem isPlain_bool (b : Bool) : (bool b).IsPlain := .bool b

@[simp]
theorem isPlain_nat (n : Nat) : (nat n).IsPlain := .nat n

@[simp]
theorem isPlain_text (s : String) : (text s).IsPlain := .text s

@[simp]
theorem isPlain_text? (s? : Option String) : (text? s?).IsPlain := by
  cases s? with
  | none => exact .null
  | some s => exact .text s

theorem isPlain_ofMembers {members : List (String × Json)} (h : ∀ m ∈ members, m.2.IsPlain) :
    (ofMembers members).IsPlain := by
  refine .object (fun m hm => ?_) (fun m hm => ?_)
  · obtain ⟨m', -, rfl⟩ := List.mem_map.1 hm
    rfl
  · obtain ⟨m', hm', rfl⟩ := List.mem_map.1 hm
    exact h m' hm'

theorem isPlain_tagged (tag : String) {value : Json} (h : value.IsPlain) :
    (tagged tag value).IsPlain :=
  isPlain_ofMembers (List.forall_mem_singleton.2 h)

/-- Whether the reader takes the written form of a value off the text before what follows. -/
def IsTaken (j : Json) : Prop :=
  ∀ level budget rest, (prettyAt level j).length ≤ budget → IsAfterValue rest →
    takeValue (budget + 1) (prettyAt level j ++ rest) = some (j, rest)

theorem isTaken_nat (n : Nat) : (nat n).IsTaken := by
  intro level budget rest hbudget hrest
  obtain ⟨c, cs, hcs⟩ := List.exists_cons_of_ne_nil (Nat.toDigits_ne_nil (b := 10) (n := n))
  have hc : c.isDigit = true := isDigit_of_mem (n := n) c (by simp [hcs])
  -- A digit is none of the characters that begin another value or stand before one.
  have hne : ∀ c' : Char, c'.isDigit = false → c ≠ c' := by
    rintro _ hc' rfl
    rw [hc] at hc'
    cases hc'
  have hblank : c ∉ [' ', '\n', '\r', '\t'] := by
    simp [hne ' ' rfl, hne '\n' rfl, hne '\r' rfl, hne '\t' rfl]
  have htake := takeUnsigned_toDigits n hrest
  rw [nat, prettyAt, toList_toString, Nat.toString_eq_ofList_toDigits, takeValue]
  rw [hcs, List.cons_append] at htake ⊢
  rw [skipBlanks_cons hblank]
  simp [hne 'n' rfl, hne 't' rfl, hne 'f' rfl, hne '"' rfl, hne '[' rfl, hne '\x7b' rfl,
    hne '-' rfl, takeNumber, htake]

theorem isTaken_text (s : String) : (text s).IsTaken := by
  intro level budget rest hbudget hrest
  rw [text, prettyAt, quote, takeValue, List.cons_append, List.cons_append,
    skipBlanks_cons (by decide), List.append_assoc, List.singleton_append]
  simp only [takeString_quote, Option.map_some]

theorem takeWord_append (word : String) (j : Json) (rest : List Char) :
    takeWord word j (word.toList ++ rest) = some (j, rest) := by
  simp [takeWord, ← String.length_toList]

theorem isTaken_null : null.IsTaken := by
  intro level budget rest hbudget hrest
  exact takeWord_append "null" null rest

theorem isTaken_bool (b : Bool) : (bool b).IsTaken := by
  intro level budget rest hbudget hrest
  cases b with
  | false => exact takeWord_append "false" (bool false) rest
  | true => exact takeWord_append "true" (bool true) rest

/-! ### Arrays -/

/-- A closing bracket begins no value. -/
theorem takeValue_bracket (budget : Nat) (cs : List Char) :
    takeValue budget (']' :: cs) = none := by
  cases budget with
  | zero => rw [takeValue]
  | succ budget =>
    rw [takeValue, skipBlanks_cons (by decide)]
    simp [takeNumber, takeUnsigned, Char.isDigit]

theorem takeElements_last {budget : Nat} {e : Json} {cs rest left : List Char}
    (he : takeValue budget cs = some (e, rest)) (hrest : skipBlanks rest = ']' :: left) :
    takeElements (budget + 1) cs = some ([e], left) := by
  simp [takeElements, he, hrest]

theorem takeElements_next {budget : Nat} {e : Json} {es : List Json} {cs rest more left : List Char}
    (he : takeValue budget cs = some (e, rest)) (hrest : skipBlanks rest = ',' :: more)
    (hes : takeElements budget more = some (es, left)) :
    takeElements (budget + 1) cs = some (e :: es, left) := by
  simp [takeElements, he, hrest, hes]

/-- Elements are taken with the closing bracket, by induction on those that follow the first. -/
theorem takeElements_append {es : List Json} {e : Json} (he : e.IsTaken)
    (hes : ∀ e ∈ es, e.IsTaken) {level outer budget : Nat} (rest : List Char)
    (hbudget : (prettyAt level e).length + (prettyElements level es).length + 1 ≤ budget) :
    takeElements (budget + 1) (prettyAt level e ++ (prettyElements level es ++
      (lineBreak outer ++ ']' :: rest))) = some (e :: es, rest) := by
  induction es generalizing e budget with
  | nil =>
    obtain ⟨budget, rfl⟩ : ∃ b, budget = b + 1 := ⟨budget - 1, by omega⟩
    refine takeElements_last (he level budget _ (by omega) (isAfterValue_lineBreak _ _)) ?_
    rw [prettyElements, List.nil_append, skipBlanks_lineBreak, skipBlanks_cons (by decide)]
  | cons next es ih =>
    obtain ⟨budget, rfl⟩ : ∃ b, budget = b + 1 := ⟨budget - 1, by omega⟩
    simp only [prettyElements, List.cons_append, List.append_assoc, List.length_append,
      List.length_cons] at hbudget ⊢
    refine takeElements_next (he level budget _ (by omega) (isAfterValue_comma _))
      (skipBlanks_cons (by decide) _) ?_
    rw [takeElements_lineBreak]
    exact ih (hes next (by simp)) (fun e he => hes e (by simp [he])) (by omega)

theorem takeValue_array {budget : Nat} {e : Json} {es : List Json} {cs rest : List Char}
    (h : takeElements budget cs = some (e :: es, rest)) :
    takeValue (budget + 1) ('[' :: cs) = some (array (e :: es), rest) := by
  rw [takeValue, skipBlanks_cons (by decide)]
  rw [← takeElements_skipBlanks] at h
  simp only
  split
  case h_1 left hcs =>
    rw [hcs] at h
    cases budget <;> simp [takeElements, takeValue_bracket] at h
  case h_2 => rw [h, Option.map_some]

theorem isTaken_array {elements : List Json} (h : ∀ e ∈ elements, e.IsTaken) :
    (array elements).IsTaken := by
  intro level budget rest hbudget hrest
  cases elements with
  | nil => simp [prettyAt, takeValue, skipBlanks_cons]
  | cons e es =>
    simp only [prettyAt, List.cons_append, List.append_assoc, List.nil_append, List.length_append,
      List.length_cons] at hbudget ⊢
    obtain ⟨budget, rfl⟩ : ∃ b, budget = b + 1 := ⟨budget - 1, by omega⟩
    refine takeValue_array ?_
    rw [takeElements_lineBreak]
    exact takeElements_append (h e (by simp)) (fun e he => h e (by simp [he])) rest
      (by simp only [lineBreak, List.length_cons] at hbudget; omega)

/-! ### Objects -/

theorem takeMembers_last {budget : Nat} {name : String} {v : Json} {cs rest left : List Char}
    (hv : takeValue budget cs = some (v, rest)) (hrest : skipBlanks rest = '\x7d' :: left) :
    takeMembers (budget + 1) (quote name ++ ':' :: cs) = some ([(some name, v)], left) := by
  simp [takeMembers, quote, skipBlanks_cons, takeString_quote, hv, hrest]

theorem takeMembers_next {budget : Nat} {name : String} {v : Json}
    {ms : List (Option String × Json)} {cs rest more left : List Char}
    (hv : takeValue budget cs = some (v, rest)) (hrest : skipBlanks rest = ',' :: more)
    (hms : takeMembers budget more = some (ms, left)) :
    takeMembers (budget + 1) (quote name ++ ':' :: cs) = some ((some name, v) :: ms, left) := by
  simp [takeMembers, quote, skipBlanks_cons, takeString_quote, hv, hrest, hms]

/-- Members are taken with the closing brace, by induction on those that follow the first. -/
theorem takeMembers_append {ms : List (Option String × Json)} {name : Option String} {v : Json}
    (hname : name.isSome) (hv : v.IsTaken) (hnames : ∀ m ∈ ms, m.1.isSome)
    (hms : ∀ m ∈ ms, m.2.IsTaken) {level outer budget : Nat} (rest : List Char)
    (hbudget : (prettyAt level v).length + (prettyMembers level ms).length + 1 ≤ budget) :
    takeMembers (budget + 1) (quote (name.getD "") ++ ':' :: ' ' :: (prettyAt level v ++
      (prettyMembers level ms ++ (lineBreak outer ++ '\x7d' :: rest)))) =
      some ((name, v) :: ms, rest) := by
  induction ms generalizing name v budget with
  | nil =>
    obtain ⟨budget, rfl⟩ : ∃ b, budget = b + 1 := ⟨budget - 1, by omega⟩
    obtain ⟨name, rfl⟩ := Option.isSome_iff_exists.1 hname
    refine takeMembers_last ((takeValue_blank _ _).trans
      (hv level budget _ (by omega) (isAfterValue_lineBreak _ _))) ?_
    rw [prettyMembers, List.nil_append, skipBlanks_lineBreak, skipBlanks_cons (by decide)]
  | cons m ms ih =>
    obtain ⟨budget, rfl⟩ : ∃ b, budget = b + 1 := ⟨budget - 1, by omega⟩
    obtain ⟨name, rfl⟩ := Option.isSome_iff_exists.1 hname
    simp only [prettyMembers, List.cons_append, List.append_assoc, List.length_append,
      List.length_cons, List.nil_append] at hbudget ⊢
    refine takeMembers_next ((takeValue_blank _ _).trans
      (hv level budget _ (by omega) (isAfterValue_comma _))) (skipBlanks_cons (by decide) _) ?_
    rw [takeMembers_lineBreak]
    exact ih (hnames m (by simp)) (hms m (by simp)) (fun m hm => hnames m (by simp [hm]))
      (fun m hm => hms m (by simp [hm])) (by omega)

theorem takeValue_object {budget : Nat} {m : Option String × Json}
    {ms : List (Option String × Json)} {cs rest : List Char}
    (h : takeMembers budget cs = some (m :: ms, rest)) :
    takeValue (budget + 1) ('\x7b' :: cs) = some (object (m :: ms), rest) := by
  rw [takeValue, skipBlanks_cons (by decide)]
  rw [← takeMembers_skipBlanks] at h
  simp only
  split
  case h_1 left hcs =>
    rw [hcs] at h
    cases budget <;> simp [takeMembers, skipBlanks_cons] at h
  case h_2 => rw [h, Option.map_some]

theorem isTaken_object {members : List (Option String × Json)} (hnames : ∀ m ∈ members, m.1.isSome)
    (h : ∀ m ∈ members, m.2.IsTaken) : (object members).IsTaken := by
  intro level budget rest hbudget hrest
  cases members with
  | nil => simp [prettyAt, takeValue, skipBlanks_cons]
  | cons m ms =>
    simp only [prettyAt, List.cons_append, List.append_assoc, List.nil_append, List.length_append,
      List.length_cons] at hbudget ⊢
    obtain ⟨budget, rfl⟩ : ∃ b, budget = b + 1 := ⟨budget - 1, by omega⟩
    refine takeValue_object ?_
    rw [takeMembers_lineBreak]
    exact takeMembers_append (hnames m (by simp)) (h m (by simp))
      (fun m hm => hnames m (by simp [hm])) (fun m hm => h m (by simp [hm])) rest
      (by simp only [lineBreak, List.length_cons] at hbudget; omega)

theorem IsPlain.isTaken {j : Json} (hj : j.IsPlain) : j.IsTaken := by
  induction hj with
  | null => exact isTaken_null
  | bool b => exact isTaken_bool b
  | nat n => exact isTaken_nat n
  | text s => exact isTaken_text s
  | array _ ih => exact isTaken_array ih
  | object hnames _ ih => exact isTaken_object hnames ih

/-- A value is read back from the text that is written for it. -/
theorem parse?_pretty {j : Json} (hj : j.IsPlain) : parse? j.pretty = some j := by
  have h := hj.isTaken 0 (2 * (prettyAt 0 j).length) [] (by omega) isAfterValue_nil
  rw [List.append_nil] at h
  rw [parse?, pretty, String.toList_ofList]
  simp [h, skipBlanks]

end Schemata.Json

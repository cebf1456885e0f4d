/-!
# Cutting text

Names, paths and literals are read as lists of characters.  This module holds the few ways they
are cut: at every separator (`pieces`), at the first or the last one (`splitFirst`, `splitLast`),
behind a fixed opening (`strip`), before a fixed ending (`stripEnd`) and around blanks (`trim`,
`words`).

`join_pieces` says that cutting at every separator loses nothing and `pieces_eq_iff` that there is
one way to do so, `splitFirst_eq_some_iff` and `splitLast_eq_some_iff` say at which separator the
text is cut, and `strip_eq_some_iff` and `stripEnd_eq_some_iff` say what is taken away.
-/

namespace Schemata.Text

/-! ### At every separator -/

/-- The pieces between the separators: one more than there are separators, empty ones included. -/
def pieces (isSep : Char → Bool) : List Char → List (List Char)
  | [] => [[]]
  | c :: cs =>
    if isSep c then [] :: pieces isSep cs
    else
      match pieces isSep cs with
      | [] => [[c]]
      | p :: ps => (c :: p) :: ps

/-- The non-empty pieces between separators. -/
def words (isSep : Char → Bool) (cs : List Char) : List (List Char) :=
  (pieces isSep cs).filter (!·.isEmpty)

/-- The pieces with one separator character put back between neighbours. -/
def join (sep : List Char) : List (List Char) → List Char
  | [] => []
  | [p] => p
  | p :: q :: ps => p ++ sep ++ join sep (q :: ps)

theorem pieces_ne_nil (isSep : Char → Bool) (cs : List Char) : pieces isSep cs ≠ [] := by
  cases cs with
  | nil => simp [pieces]
  | cons c cs =>
    unfold pieces
    split
    · simp
    · split <;> simp

/-- Putting a separator character back between the pieces gives the text again. -/
theorem join_pieces (sep : Char) (cs : List Char) : join [sep] (pieces (· == sep) cs) = cs := by
  induction cs with
  | nil => rfl
  | cons c cs ih =>
    obtain ⟨p, ps, hp⟩ := List.exists_cons_of_ne_nil (pieces_ne_nil (· == sep) cs)
    unfold pieces
    rw [hp] at ih ⊢
    by_cases h : c = sep
    · simp [h, join, ih]
    · cases ps <;> simp_all [join]

/-- No piece holds a separator. -/
theorem notMem_of_mem_pieces {sep : Char} {cs p : List Char} (hp : p ∈ pieces (· == sep) cs) :
    sep ∉ p := by
  induction cs generalizing p with
  | nil => simp_all [pieces]
  | cons c cs ih =>
    obtain ⟨q, qs, hq⟩ := List.exists_cons_of_ne_nil (pieces_ne_nil (· == sep) cs)
    rw [hq, List.forall_mem_cons] at ih
    unfold pieces at hp
    by_cases h : c = sep <;> grind

/-- A piece without a separator is the first piece of what it is joined to. -/
theorem pieces_append {sep : Char} {p : List Char} (hp : sep ∉ p) (cs : List Char) :
    pieces (· == sep) (p ++ sep :: cs) = p :: pieces (· == sep) cs := by
  induction p with
  | nil => simp [pieces]
  | cons c p ih =>
    rw [List.mem_cons, not_or] at hp
    rw [List.cons_append, pieces, ih hp.2]
    simp [Ne.symm hp.1]

theorem pieces_of_notMem {sep : Char} {p : List Char} (hp : sep ∉ p) :
    pieces (· == sep) p = [p] := by
  induction p with
  | nil => rfl
  | cons c p ih =>
    rw [List.mem_cons, not_or] at hp
    rw [pieces, ih hp.2]
    simp [Ne.symm hp.1]

/-- The pieces are the one way to write the text as texts without a separator, joined. -/
theorem pieces_eq_iff {sep : Char} {cs : List Char} {ps : List (List Char)} :
    pieces (· == sep) cs = ps ↔ ps ≠ [] ∧ (∀ p ∈ ps, sep ∉ p) ∧ cs = join [sep] ps := by
  constructor
  · rintro rfl
    exact ⟨pieces_ne_nil _ cs, fun _ => notMem_of_mem_pieces, (join_pieces sep cs).symm⟩
  · rintro ⟨hne, hnot, rfl⟩
    induction ps with
    | nil => exact absurd rfl hne
    | cons p ps ih =>
      rw [List.forall_mem_cons] at hnot
      cases ps with
      | nil => exact pieces_of_notMem hnot.1
      | cons q qs =>
        rw [join, List.append_assoc, List.singleton_append, pieces_append hnot.1,
          ih (by simp) hnot.2]

/-! ### At one separator -/

/-- What stands before and after the first `sep`. -/
def splitFirst (sep : Char) : List Char → Option (List Char × List Char)
  | [] => none
  | c :: cs =>
    if c = sep then some ([], cs)
    else (splitFirst sep cs).map fun (before, after) => (c :: before, after)

/-- What stands before and after the last `sep`. -/
def splitLast (sep : Char) : List Char → Option (List Char × List Char)
  | [] => none
  | c :: cs =>
    match splitLast sep cs with
    | some (before, after) => some (c :: before, after)
    | none => if c = sep then some ([], cs) else none

theorem splitFirst_eq_some_iff {sep : Char} {cs before after : List Char} :
    splitFirst sep cs = some (before, after) ↔ cs = before ++ sep :: after ∧ sep ∉ before := by
  induction cs generalizing before with
  | nil => simp [splitFirst]
  | cons c cs ih =>
    unfold splitFirst
    by_cases h : c = sep
    · subst h
      cases before with
      | nil => simp
      | cons b bs => simp; grind
    · cases before with
      | nil => simp [h]
      | cons b bs =>
        simp only [h, ↓reduceIte, Option.map_eq_some_iff, Prod.exists, Prod.mk.injEq,
          List.cons_append, List.cons.injEq, List.mem_cons, not_or]
        grind

theorem splitFirst_eq_none_iff {sep : Char} {cs : List Char} :
    splitFirst sep cs = none ↔ sep ∉ cs := by
  induction cs with
  | nil => simp [splitFirst]
  | cons c cs ih =>
    rw [splitFirst, List.mem_cons, not_or]
    by_cases h : c = sep
    · simp [h]
    · simpa [h, Ne.symm h] using ih

theorem splitLast_eq_some_iff {sep : Char} {cs before after : List Char} :
    splitLast sep cs = some (before, after) ↔ cs = before ++ sep :: after ∧ sep ∉ after := by
  have none_iff : ∀ cs : List Char, splitLast sep cs = none ↔ sep ∉ cs := by
    intro cs
    induction cs with
    | nil => simp [splitLast]
    | cons c cs ih =>
      unfold splitLast
      split <;> rename_i h
      · simp_all
      · by_cases hc : c = sep <;> simp_all; grind
  induction cs generalizing before with
  | nil => simp [splitLast]
  | cons c cs ih =>
    unfold splitLast
    split <;> rename_i h
    · rename_i b a
      have hmem : sep ∈ cs := by
        have := mt (none_iff cs).2 (by simp [h])
        simpa using this
      cases before with
      | nil => simp; grind
      | cons d ds =>
        have := @ih ds
        simp only [h, Option.some.injEq, Prod.mk.injEq] at this
        simp only [Option.some.injEq, Prod.mk.injEq, List.cons.injEq, List.cons_append]
        grind
    · have hmem := (none_iff cs).1 h
      by_cases hc : c = sep
      · subst hc
        cases before with
        | nil => simp; grind
        | cons d ds => simp; grind
      · cases before with
        | nil => simp [hc]
        | cons d ds => simp [hc]; grind

/-! ### At the ends -/

/-- What follows the opening `start`, if the text opens so. -/
def strip (start : List Char) (cs : List Char) : Option (List Char) :=
  match start, cs with
  | [], cs => some cs
  | _ :: _, [] => none
  | s :: start, c :: cs => if s = c then strip start cs else none

/-- What precedes the last character, if that is `final`. -/
def stripEnd (final : Char) : List Char → Option (List Char)
  | [] => none
  | [c] => if c = final then some [] else none
  | c :: d :: cs => (stripEnd final (d :: cs)).map (c :: ·)

theorem strip_eq_some_iff {start cs rest : List Char} :
    strip start cs = some rest ↔ cs = start ++ rest := by
  induction start generalizing cs with
  | nil => simp [strip]
  | cons s start ih =>
    cases cs with
    | nil => simp [strip]
    | cons c cs =>
      unfold strip
      by_cases h : s = c <;> simp [h, ih]
      exact fun h' => absurd h'.symm h

theorem stripEnd_eq_some_iff {final : Char} {cs rest : List Char} :
    stripEnd final cs = some rest ↔ cs = rest ++ [final] := by
  induction cs generalizing rest with
  | nil => simp [stripEnd]
  | cons c cs ih =>
    cases cs with
    | nil =>
      unfold stripEnd
      cases rest <;> by_cases h : c = final <;> simp [h]
    | cons d ds =>
      unfold stripEnd
      simp only [Option.map_eq_some_iff, ih]
      cases rest with
      | nil => simp
      | cons r rs => simp; grind

/-- The text without the leading characters for which `isBlank` holds. -/
def trimStart (isBlank : Char → Bool) (cs : List Char) : List Char := cs.dropWhile isBlank

/-- The text without the leading and trailing characters for which `isBlank` holds. -/
def trim (isBlank : Char → Bool) (cs : List Char) : List Char :=
  (trimStart isBlank (trimStart isBlank cs).reverse).reverse

end Schemata.Text

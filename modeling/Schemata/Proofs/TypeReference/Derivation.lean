import Mathlib.Data.List.DropRight
import Schemata.TypeReference.Grammar

/-!
# The grammar of type references

A written reference is derived by a tree (`TypeSyntax.Derivation`): at its leaf stands a name, at
every node above it one of the two wrappers, and at each place blanks may stand on both sides.
No reader is mentioned there: that `TypeSyntax.parse?` accepts what has a derivation, that there is
one derivation only, and that what was read is written so that it reads the same, is
`TypeSyntax.parse?_eq_some_iff_exists_derivation`.

Only ASCII spaces are kept out of names, so a name may hold other blanks, but none at its ends:
there they count as blanks around it.
-/

namespace Schemata

/-! ### Blanks around a text -/

namespace Text

/-- All characters are blank. -/
def IsBlanks (cs : List Char) : Prop := ∀ c ∈ cs, isBlank c = true

/-- Neither the first character nor the last one is blank. -/
structure IsTrimmed (cs : List Char) : Prop where
  head : ∀ c ∈ cs.head?, isBlank c = false
  last : ∀ c ∈ cs.getLast?, isBlank c = false

variable {before core after cs : List Char}

theorem trim_eq_rdropWhile (cs : List Char) :
    trim isBlank cs = (cs.dropWhile isBlank).rdropWhile isBlank := rfl

/-- Trimming takes blanks away from both ends, and nothing else. -/
theorem exists_eq_append_trim (cs : List Char) :
    ∃ before after, IsBlanks before ∧ IsBlanks after ∧ cs = before ++ trim isBlank cs ++ after := by
  refine ⟨cs.takeWhile isBlank, (cs.dropWhile isBlank).rtakeWhile isBlank, ?_, ?_, ?_⟩
  · intro c hc
    exact List.mem_takeWhile_imp hc
  · intro c hc
    exact List.mem_rtakeWhile_imp hc
  · rw [trim_eq_rdropWhile, List.append_assoc, List.rdropWhile_append_rtakeWhile,
      List.takeWhile_append_dropWhile]

theorem isTrimmed_trim (cs : List Char) : IsTrimmed (trim isBlank cs) := by
  rw [trim_eq_rdropWhile]
  constructor
  · intro c hc
    obtain ⟨rest, hrest⟩ := List.rdropWhile_prefix isBlank (cs.dropWhile isBlank)
    have hfirst : (cs.dropWhile isBlank).head? = some c := by
      rw [← hrest, List.head?_append, Option.mem_def.1 hc, Option.some_or]
    have hnot := List.head?_dropWhile_not isBlank cs
    rw [hfirst] at hnot
    simpa using hnot
  · intro c hc
    obtain ⟨hne, rfl⟩ := List.mem_getLast?_eq_getLast hc
    simpa using List.rdropWhile_last_not isBlank _ hne

theorem dropWhile_blanks_append (hb : IsBlanks before) (hc : ∀ c ∈ cs.head?, isBlank c = false) :
    (before ++ cs).dropWhile isBlank = cs := by
  rw [List.dropWhile_append_of_pos hb]
  cases cs with
  | nil => rfl
  | cons c cs => exact List.dropWhile_cons_of_neg (by simp [hc c rfl])

theorem takeWhile_blanks_append (hb : IsBlanks before) (hc : ∀ c ∈ cs.head?, isBlank c = false) :
    (before ++ cs).takeWhile isBlank = before := by
  rw [List.takeWhile_append_of_pos hb]
  cases cs with
  | nil => simp
  | cons c cs => rw [List.takeWhile_cons_of_neg (by simp [hc c rfl]), List.append_nil]

theorem IsTrimmed.head_append (hne : core ≠ []) (hc : IsTrimmed core) (after : List Char) :
    ∀ c ∈ (core ++ after).head?, isBlank c = false := by
  intro c hmem
  rw [List.head?_append_of_ne_nil core hne] at hmem
  exact hc.head c hmem

/-- A trimmed text is what is left when the blanks around it are taken away. -/
theorem trim_append (hne : core ≠ []) (hc : IsTrimmed core) (hb : IsBlanks before)
    (ha : IsBlanks after) : trim isBlank (before ++ core ++ after) = core := by
  have hlast : ∀ c ∈ core.reverse.head?, isBlank c = false := by
    rw [List.head?_reverse]
    exact hc.last
  have hreverse : IsBlanks after.reverse := by
    intro c hmem
    exact ha c (List.mem_reverse.1 hmem)
  rw [trim, trimStart, trimStart, List.append_assoc,
    dropWhile_blanks_append hb (hc.head_append hne after), List.reverse_append,
    dropWhile_blanks_append hreverse hlast, List.reverse_reverse]

/-- There is one way to take the blanks around a trimmed text away. -/
theorem eq_of_append_eq {before' core' after' : List Char} (hne : core ≠ []) (hc : IsTrimmed core)
    (hb : IsBlanks before) (ha : IsBlanks after) (hne' : core' ≠ []) (hc' : IsTrimmed core')
    (hb' : IsBlanks before') (ha' : IsBlanks after')
    (h : before ++ core ++ after = before' ++ core' ++ after') :
    before = before' ∧ core = core' ∧ after = after' := by
  have hcore : core = core' := by
    rw [← trim_append hne hc hb ha, h, trim_append hne' hc' hb' ha']
  subst hcore
  have hbefore : before = before' := by
    rw [List.append_assoc, List.append_assoc] at h
    rw [← takeWhile_blanks_append hb (hc.head_append hne after), h,
      takeWhile_blanks_append hb' (hc.head_append hne after')]
  subst hbefore
  exact ⟨rfl, rfl, List.append_cancel_left h⟩

theorem mem_join_of_mem {sep p : List Char} {ps : List (List Char)} {c : Char} (hp : p ∈ ps)
    (hc : c ∈ p) : c ∈ join sep ps := by
  fun_induction join sep ps with
  | case1 => exact absurd hp List.not_mem_nil
  | case2 q => rwa [← List.mem_singleton.1 hp]
  | case3 q r ps ih =>
    rcases List.mem_cons.1 hp with rfl | hp
    · simp [hc]
    · simp [ih hp]

theorem mem_of_mem_join {sep : Char} {ps : List (List Char)} {c : Char} (hc : c ∈ join [sep] ps) :
    c = sep ∨ ∃ p ∈ ps, c ∈ p := by
  fun_induction join [sep] ps with
  | case1 => exact absurd hc List.not_mem_nil
  | case2 q => exact .inr ⟨q, List.mem_singleton_self q, hc⟩
  | case3 q r ps ih =>
    simp only [List.append_assoc, List.mem_append, List.mem_singleton] at hc
    rcases hc with hc | rfl | hc
    · exact .inr ⟨q, List.mem_cons_self, hc⟩
    · exact .inl rfl
    · rcases ih hc with rfl | ⟨p, hp, hc⟩
      · exact .inl rfl
      · exact .inr ⟨p, List.mem_cons_of_mem q hp, hc⟩

end Text

namespace TypeSyntax

/-! ### Derivations -/

/-- What may be written around a reference. -/
inductive Wrapper where
  | collection
  | ref
deriving DecidableEq

namespace Wrapper

/-- What a wrapper begins with. -/
def opening : Wrapper → List Char
  | collection => ['C', 'o', 'l', 'l', 'e', 'c', 't', 'i', 'o', 'n', '(']
  | ref => ['R', 'e', 'f', '(']

/-- The wrapper around a text. -/
def enclose (w : Wrapper) (cs : List Char) : List Char := w.opening ++ cs ++ [')']

/-- The wrapper around a reference. -/
def wrap : Wrapper → TypeSyntax → TypeSyntax
  | collection => TypeSyntax.collection
  | ref => TypeSyntax.ref

end Wrapper

/-- Characters that are all blank. -/
abbrev Blanks : Type := {cs : List Char // Text.IsBlanks cs}

/-- A name: segments with dots between them, none empty and without parentheses or spaces.  Blanks
at its ends are not part of it. -/
structure BareName where
  segments : List (List Char)
  segments_ne_nil : segments ≠ []
  ne_nil_of_mem : ∀ s ∈ segments, s ≠ []
  plain_of_mem : ∀ s ∈ segments, ∀ c ∈ s, c ∉ ['(', ')', ' ', '.']
  isTrimmed : Text.IsTrimmed (Text.join ['.'] segments)

/-- The name as text. -/
def BareName.text (n : BareName) : List Char := Text.join ['.'] n.segments

/-- How a written reference is made up, blanks included. -/
inductive Derivation where
  | name (before : Blanks) (n : BareName) (after : Blanks)
  | wrapped (before : Blanks) (w : Wrapper) (inner : Derivation) (after : Blanks)

namespace Derivation

/-- The text that is derived. -/
def text : Derivation → List Char
  | name before n after => before.1 ++ n.text ++ after.1
  | wrapped before w inner after => before.1 ++ w.enclose inner.text ++ after.1

/-- The reference that the text stands for. -/
def reference : Derivation → TypeSyntax
  | name _ n _ => .named (String.ofList n.text)
  | wrapped _ w inner _ => w.wrap inner.reference

end Derivation

/-! ### Names -/

theorem Wrapper.mem_enclose (w : Wrapper) (cs : List Char) : '(' ∈ w.enclose cs := by
  cases w <;> simp [enclose, opening]

theorem Wrapper.enclose_ne_nil (w : Wrapper) (cs : List Char) : w.enclose cs ≠ [] :=
  List.ne_nil_of_mem (w.mem_enclose cs)

theorem Wrapper.isTrimmed_enclose (w : Wrapper) (cs : List Char) :
    Text.IsTrimmed (w.enclose cs) := by
  constructor
  · cases w <;> simp [enclose, opening, Text.isBlank]
  · simp [enclose, Text.isBlank]

/-- Of a text between a wrapper and its end one can tell the wrapper and the text. -/
theorem Wrapper.enclose_inj {w w' : Wrapper} {cs cs' : List Char} :
    w.enclose cs = w'.enclose cs' ↔ w = w' ∧ cs = cs' := by
  cases w <;> cases w' <;> simp [enclose, opening]

theorem wrapped_eq_some_iff {w : Wrapper} {cs inner : List Char} :
    wrapped w.opening cs = some inner ↔ cs = w.enclose inner := by
  simp [wrapped, Option.bind_eq_some_iff, Text.strip_eq_some_iff, Text.stripEnd_eq_some_iff,
    Wrapper.enclose]

theorem isName_enclose (w : Wrapper) (cs : List Char) : isName (w.enclose cs) = false := by
  have hany : (w.enclose cs).any (fun c => c == '(' || c == ')' || c == ' ') = true :=
    List.any_eq_true.2 ⟨'(', w.mem_enclose cs, rfl⟩
  simp [isName, hany]

/-- A text can be a name if and only if it has the segments of one. -/
theorem isName_iff {cs : List Char} :
    isName cs = true ↔ ∃ segments : List (List Char), segments ≠ [] ∧ (∀ s ∈ segments, s ≠ []) ∧
      (∀ s ∈ segments, ∀ c ∈ s, c ∉ ['(', ')', ' ', '.']) ∧ cs = Text.join ['.'] segments := by
  have hshape : isName cs = true ↔ cs ≠ [] ∧ (∀ c ∈ cs, c ∉ ['(', ')', ' ']) ∧
      ∀ s ∈ Text.pieces (· == '.') cs, s ≠ [] := by
    simp [isName, and_assoc]
  rw [hshape]
  constructor
  · rintro ⟨-, hplain, hsegments⟩
    refine ⟨_, Text.pieces_ne_nil _ cs, hsegments, ?_, (Text.join_pieces '.' cs).symm⟩
    intro s hs c hc
    have hdot : c ≠ '.' := by
      rintro rfl
      exact Text.notMem_of_mem_pieces hs hc
    have hcs : c ∈ cs := by
      rw [← Text.join_pieces '.' cs]
      exact Text.mem_join_of_mem hs hc
    have := hplain c hcs
    simp_all
  · rintro ⟨segments, hne, hsegments, hplain, rfl⟩
    have hdot : ∀ s ∈ segments, '.' ∉ s := by
      intro s hs hc
      exact hplain s hs '.' hc (by simp)
    have hpieces : Text.pieces (· == '.') (Text.join ['.'] segments) = segments :=
      Text.pieces_eq_iff.2 ⟨hne, hdot, rfl⟩
    obtain ⟨s, hs⟩ := List.exists_mem_of_ne_nil segments hne
    obtain ⟨c, hc⟩ := List.exists_mem_of_ne_nil s (hsegments s hs)
    refine ⟨List.ne_nil_of_mem (Text.mem_join_of_mem hs hc), ?_, ?_⟩
    · intro c hc
      rcases Text.mem_of_mem_join hc with rfl | ⟨s, hs, hc⟩
      · decide
      · have := hplain s hs c hc
        simp_all
    · rwa [hpieces]

theorem BareName.isName_text (n : BareName) : isName n.text = true :=
  isName_iff.2 ⟨n.segments, n.segments_ne_nil, n.ne_nil_of_mem, n.plain_of_mem, rfl⟩

theorem BareName.text_ne_nil (n : BareName) : n.text ≠ [] := by
  intro h
  have hname := n.isName_text
  rw [h] at hname
  exact absurd hname (by decide)

/-- A name has its segments in one way only. -/
theorem BareName.text_injective : Function.Injective BareName.text := by
  intro n n' h
  have hpieces (n : BareName) : Text.pieces (· == '.') n.text = n.segments := by
    refine Text.pieces_eq_iff.2 ⟨n.segments_ne_nil, ?_, rfl⟩
    intro s hs hc
    exact n.plain_of_mem s hs '.' hc (by simp)
  have hsegments : n.segments = n'.segments := by
    rw [← hpieces n, h, hpieces n']
  cases n
  cases n'
  simpa using hsegments

theorem exists_bareName {cs : List Char} (hname : isName cs = true) (hcs : Text.IsTrimmed cs) :
    ∃ n : BareName, n.text = cs := by
  obtain ⟨segments, hne, hsegments, hplain, rfl⟩ := isName_iff.1 hname
  exact ⟨⟨segments, hne, hsegments, hplain, hcs⟩, rfl⟩

/-! ### Reading -/

/-- A wrapper is taken away and what stands inside is read. -/
theorem read_of_enclose {cs inner : List Char} {w : Wrapper}
    (h : Text.trim Text.isBlank cs = w.enclose inner) : read cs = (read inner).map w.wrap := by
  have hcollection : "Collection(".toList = Wrapper.collection.opening := rfl
  have href : "Ref(".toList = Wrapper.ref.opening := rfl
  have hwrapped : wrapped w.opening (Text.trim Text.isBlank cs) = some inner :=
    wrapped_eq_some_iff.2 h
  rw [read, hcollection, href]
  split
  case h_1 inner' h' =>
    obtain ⟨rfl, rfl⟩ := Wrapper.enclose_inj.1 ((wrapped_eq_some_iff.1 h').symm.trans h)
    rfl
  case h_2 hnone =>
    split
    case h_1 inner' h' =>
      obtain ⟨rfl, rfl⟩ := Wrapper.enclose_inj.1 ((wrapped_eq_some_iff.1 h').symm.trans h)
      rfl
    case h_2 hnone' =>
      cases w with
      | collection => exact absurd (hnone.symm.trans hwrapped) (by simp)
      | ref => exact absurd (hnone'.symm.trans hwrapped) (by simp)

/-- Without a wrapper there can only be a name. -/
theorem read_of_forall_ne {cs : List Char}
    (h : ∀ w inner, Text.trim Text.isBlank cs ≠ Wrapper.enclose w inner) :
    read cs = if isName (Text.trim Text.isBlank cs) then
      some (.named (String.ofList (Text.trim Text.isBlank cs))) else none := by
  have hcollection : "Collection(".toList = Wrapper.collection.opening := rfl
  have href : "Ref(".toList = Wrapper.ref.opening := rfl
  rw [read, hcollection, href]
  split
  case h_1 inner h' => exact absurd (wrapped_eq_some_iff.1 h') (h _ inner)
  case h_2 =>
    split
    case h_1 inner h' => exact absurd (wrapped_eq_some_iff.1 h') (h _ inner)
    case h_2 => rfl

/-- **What is read** is a wrapper around something that is read, or a name. -/
theorem read_eq_some_iff {cs : List Char} {t : TypeSyntax} :
    read cs = some t ↔
      (∃ w inner u, Text.trim Text.isBlank cs = Wrapper.enclose w inner ∧ read inner = some u ∧
        t = w.wrap u) ∨
      isName (Text.trim Text.isBlank cs) = true ∧
        t = .named (String.ofList (Text.trim Text.isBlank cs)) := by
  by_cases hwrapper : ∃ w inner, Text.trim Text.isBlank cs = Wrapper.enclose w inner
  · obtain ⟨w, inner, h⟩ := hwrapper
    rw [read_of_enclose h, h, isName_enclose, Option.map_eq_some_iff]
    constructor
    · rintro ⟨u, hu, rfl⟩
      exact .inl ⟨w, inner, u, rfl, hu, rfl⟩
    · rintro (⟨w', inner', u, he, hu, rfl⟩ | ⟨hfalse, -⟩)
      · obtain ⟨rfl, rfl⟩ := Wrapper.enclose_inj.1 he
        exact ⟨u, hu, rfl⟩
      · exact absurd hfalse Bool.false_ne_true
  · have hnone : ∀ w inner, Text.trim Text.isBlank cs ≠ Wrapper.enclose w inner := by
      intro w inner h
      exact hwrapper ⟨w, inner, h⟩
    rw [read_of_forall_ne hnone, Option.ite_none_right_eq_some, Option.some.injEq, eq_comm (a := t)]
    refine (or_iff_right ?_).symm
    rintro ⟨w, inner, -, h, -⟩
    exact hnone w inner h

/-- Parentheses that are missing or left over are read as part of a name, and no name has any. -/
example : parse? "Collection(NS.Point" = none ∧ parse? "Ref(NS.A)(NS.B)" = none ∧
    parse? "Collection (NS.Point)" = none := by
  decide +kernel

/-! ### Derivations and reading -/

namespace Derivation

/-- The blanks before the reference. -/
def before : Derivation → List Char
  | name before _ _ | wrapped before _ _ _ => before.1

/-- The reference without the blanks around it. -/
def core : Derivation → List Char
  | name _ n _ => n.text
  | wrapped _ w inner _ => w.enclose inner.text

/-- The blanks after the reference. -/
def after : Derivation → List Char
  | name _ _ after | wrapped _ _ _ after => after.1

theorem text_eq (d : Derivation) : d.text = d.before ++ d.core ++ d.after := by
  cases d <;> rfl

theorem isBlanks_before (d : Derivation) : Text.IsBlanks d.before := by
  cases d with
  | name before | wrapped before => exact before.2

theorem isBlanks_after (d : Derivation) : Text.IsBlanks d.after := by
  cases d with
  | name _ _ after | wrapped _ _ _ after => exact after.2

theorem core_ne_nil (d : Derivation) : d.core ≠ [] := by
  cases d with
  | name _ n => exact n.text_ne_nil
  | wrapped _ w inner => exact w.enclose_ne_nil inner.text

theorem isTrimmed_core (d : Derivation) : Text.IsTrimmed d.core := by
  cases d with
  | name _ n => exact n.isTrimmed
  | wrapped _ w inner => exact w.isTrimmed_enclose inner.text

theorem trim_text (d : Derivation) : Text.trim Text.isBlank d.text = d.core := by
  rw [text_eq, Text.trim_append d.core_ne_nil d.isTrimmed_core d.isBlanks_before d.isBlanks_after]

/-- The same text has the same blanks at its ends and the same reference between them. -/
theorem core_eq_of_text_eq {d d' : Derivation} (h : d.text = d'.text) :
    d.before = d'.before ∧ d.core = d'.core ∧ d.after = d'.after := by
  rw [text_eq, text_eq] at h
  exact Text.eq_of_append_eq d.core_ne_nil d.isTrimmed_core d.isBlanks_before d.isBlanks_after
    d'.core_ne_nil d'.isTrimmed_core d'.isBlanks_before d'.isBlanks_after h

/-- A name is not a wrapper around something. -/
theorem text_ne_enclose (n : BareName) (w : Wrapper) (cs : List Char) : n.text ≠ w.enclose cs := by
  intro h
  have hname := n.isName_text
  rw [h, isName_enclose] at hname
  exact Bool.false_ne_true hname

/-- **No text is derived in two ways.** -/
theorem text_injective : Function.Injective text := by
  intro d
  induction d with
  | name before n after =>
    intro d' h
    obtain ⟨hb, hc, ha⟩ := core_eq_of_text_eq h
    cases d' with
    | name before' n' after' =>
      rw [Subtype.ext hb, BareName.text_injective hc, Subtype.ext ha]
    | wrapped _ w inner => exact absurd hc (text_ne_enclose n w inner.text)
  | wrapped before w inner after ih =>
    intro d' h
    obtain ⟨hb, hc, ha⟩ := core_eq_of_text_eq h
    cases d' with
    | name _ n => exact absurd hc.symm (text_ne_enclose n w inner.text)
    | wrapped before' w' inner' after' =>
      obtain ⟨rfl, hinner⟩ := Wrapper.enclose_inj.1 hc
      rw [Subtype.ext hb, ih hinner, Subtype.ext ha]

/-- **What is derived is read.** -/
theorem read_text (d : Derivation) : read d.text = some d.reference := by
  induction d with
  | name before n after =>
    refine read_eq_some_iff.2 (.inr ?_)
    rw [trim_text]
    exact ⟨n.isName_text, rfl⟩
  | wrapped before w inner after ih =>
    refine read_eq_some_iff.2 (.inl ⟨w, inner.text, inner.reference, ?_, ih, rfl⟩)
    rw [trim_text]
    rfl

end Derivation

/-- **What is read is derived.**  The induction is on the length of the text, since what stands
inside a wrapper is read after blanks have been taken away. -/
theorem exists_derivation_of_read {cs : List Char} {t : TypeSyntax} (h : read cs = some t) :
    ∃ d : Derivation, d.text = cs ∧ d.reference = t := by
  induction hn : cs.length using Nat.strong_induction_on generalizing cs t with
  | _ n ih =>
    obtain ⟨before, after, hb, ha, hcs⟩ := Text.exists_eq_append_trim cs
    rcases read_eq_some_iff.1 h with ⟨w, inner, u, htrim, hu, rfl⟩ | ⟨hname, rfl⟩
    · have hlength : inner.length < n := by
        have hinner := length_lt_of_wrapped (wrapped_eq_some_iff.2 htrim)
        have htrimmed := length_trim_le Text.isBlank cs
        omega
      obtain ⟨d, hd, rfl⟩ := ih inner.length hlength hu rfl
      refine ⟨.wrapped ⟨before, hb⟩ w d ⟨after, ha⟩, ?_, rfl⟩
      rw [Derivation.text, hd, ← htrim, ← hcs]
    · obtain ⟨name, hn⟩ := exists_bareName hname (Text.isTrimmed_trim cs)
      refine ⟨.name ⟨before, hb⟩ name ⟨after, ha⟩, ?_, ?_⟩
      · rw [Derivation.text, hn, ← hcs]
      · rw [Derivation.reference, hn]

/-! ### Writing -/

/-- The derivation without any blanks. -/
def Derivation.bare : Derivation → Derivation
  | name _ n _ => .name ⟨[], List.forall_mem_nil _⟩ n ⟨[], List.forall_mem_nil _⟩
  | wrapped _ w inner _ =>
    .wrapped ⟨[], List.forall_mem_nil _⟩ w inner.bare ⟨[], List.forall_mem_nil _⟩

theorem toList_display_wrap (w : Wrapper) (t : TypeSyntax) :
    (w.wrap t).display.toList = w.enclose t.display.toList := by
  have hdisplay : (w.wrap t).display = String.ofList w.opening ++ t.display ++ ")" := by
    cases w <;> rfl
  simp [hdisplay, Wrapper.enclose]

namespace Derivation

theorem reference_bare (d : Derivation) : d.bare.reference = d.reference := by
  induction d with
  | name => rfl
  | wrapped _ w inner _ ih => rw [bare, reference, ih, reference]

/-- The written form of a reference is derived without blanks. -/
theorem text_bare (d : Derivation) : d.bare.text = d.reference.display.toList := by
  induction d with
  | name _ n => simp [bare, text, reference, display]
  | wrapped _ w inner _ ih =>
    rw [bare, text, ih, reference, toList_display_wrap, List.nil_append, List.append_nil]

end Derivation

/-- **The grammar of references.**  Whatever the text, reading it comes to an end, since each
wrapper leaves a shorter one.  It gives a reference if and only if the text has a derivation, and
then the one that is derived; no text has two derivations; and a reference that was read is written
so that the same is read again. -/
theorem parse?_eq_some_iff_exists_derivation :
    (∀ text t, parse? text = some t ↔ ∃ d : Derivation, d.text = text.toList ∧ d.reference = t) ∧
      Function.Injective Derivation.text ∧
      ∀ text t, parse? text = some t → parse? t.display = some t := by
  have hparse (text : Name) (t : TypeSyntax) :
      parse? text = some t ↔ ∃ d : Derivation, d.text = text.toList ∧ d.reference = t := by
    constructor
    · intro h
      exact exists_derivation_of_read h
    · rintro ⟨d, hd, rfl⟩
      rw [parse?, ← hd, d.read_text]
  refine ⟨hparse, Derivation.text_injective, ?_⟩
  intro text t h
  obtain ⟨d, -, rfl⟩ := (hparse text t).1 h
  rw [parse?, ← d.text_bare, d.bare.read_text, d.reference_bare]

/-- Blanks around a reference and inside both of its wrappers. -/
theorem parse?_eq_some_iff_exists_derivation_nested :
    parse? "\tCollection( Ref(NS.Customer ) )" = some (.collection (.ref (.named "NS.Customer"))) ∧
      parse? "Collection(Ref(NS.Customer))" = some (.collection (.ref (.named "NS.Customer"))) := by
  have h : parse? "\tCollection( Ref(NS.Customer ) )" =
      some (.collection (.ref (.named "NS.Customer"))) := by
    decide +kernel
  exact ⟨h, parse?_eq_some_iff_exists_derivation.2.2 _ _ h⟩

end TypeSyntax

end Schemata

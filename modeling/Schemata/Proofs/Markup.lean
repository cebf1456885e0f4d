import Mathlib.Data.List.Basic
import Schemata.Markup

/-!
# A document has one reading

Whoever reads a document from the front always knows where he is: a name ends at the first character
that cannot be part of one, a value at the first quotation mark, a text at the first `<`, and the
children of an element at the first tag that is not indented further.  So a document can have come
from one element only (`document_eq_document_iff`).

There is one condition.  An element without children that is written as two tags looks like one that
holds a line break, so one has to know from the names of elements which hold texts; and names must
not hold the characters that end them (`Markup.IsPlain`).
-/

namespace Schemata.Markup

/-! ### Lines as characters -/

/-- The characters of lines, each with its line break. -/
def unlines (ls : List String) : List Char := ls.flatMap fun l => l.toList ++ ['\n']

/-- A text or an attribute value with its escapes. -/
def escaped (s : String) : List Char := s.toList.flatMap escapeChar

/-- An attribute with the blank before it. -/
def attributeChars (a : String × String) : List Char :=
  ' ' :: (a.1.toList ++ '=' :: '"' :: (escaped a.2 ++ ['"']))

/-- The indentation of a level. -/
def indentChars (level : Nat) : List Char := List.replicate (2 * level) ' '

/-- The closing tag of an element. -/
def closing (name : String) : List Char := '<' :: '/' :: (name.toList ++ ['>', '\n'])

theorem toList_header (name : String) (attributes : List (String × String)) :
    (header name attributes).toList = name.toList ++ attributes.flatMap attributeChars := by
  unfold header
  induction attributes generalizing name with
  | nil => simp
  | cons a as ih =>
    obtain ⟨key, value⟩ := a
    rw [List.foldl_cons, ih]
    simp [attributeChars, escaped, escape]

/-- The name of the tags of an element. -/
def name : Markup → String
  | empty name _ | element name _ _ | text name _ => name

/-- The attributes of an element. -/
def attributes : Markup → List (String × String)
  | empty _ attributes | element _ attributes _ => attributes
  | text .. => []

/-- What is written of an element at an indentation level after its name and its attributes. -/
def body (level : Nat) : Markup → List Char
  | empty .. => ['/', '>', '\n']
  | element name _ children =>
    '>' :: '\n' ::
      (unlines (linesOfAll (level + 1) children) ++ (indentChars level ++ closing name))
  | text name content => '>' :: (escaped content ++ closing name)

theorem unlines_lines (level : Nat) (m : Markup) :
    unlines (lines level m) =
      indentChars level ++ '<' ::
        (m.name.toList ++ m.attributes.flatMap attributeChars ++ m.body level) := by
  cases m with
  | empty n as => simp [lines, unlines, indent, indentChars, toList_header, name, attributes, body]
  | element n as children =>
    simp [lines, unlines, indent, indentChars, toList_header, name, attributes, body, closing]
  | text n content =>
    simp [lines, unlines, indent, indentChars, name, attributes, body, closing, escape, escaped]

theorem unlines_linesOfAll_cons (level : Nat) (m : Markup) (ms : List Markup) :
    unlines (linesOfAll level (m :: ms)) =
      unlines (lines level m) ++ unlines (linesOfAll level ms) := by
  simp [linesOfAll, unlines]

theorem toList_intercalate_append (l : String) (ls : List String) :
    (String.intercalate "\n" (l :: ls) ++ "\n").toList = unlines (l :: ls) := by
  induction ls generalizing l with
  | nil => simp [unlines]
  | cons l' ls ih =>
    rw [String.intercalate_cons_cons, String.append_assoc, String.toList_append, ih]
    simp [unlines]

theorem lines_ne_nil (level : Nat) (m : Markup) : lines level m ≠ [] := by
  cases m <;> simp [lines]

/-- All documents begin with the same line. -/
theorem exists_toList_document :
    ∃ first : List Char, ∀ m : Markup, m.document.toList = first ++ unlines (lines 0 m) := by
  have htail (first : String) (m : Markup) :
      (first ++ String.intercalate "\n" (lines 0 m) ++ "\n").toList =
        first.toList ++ unlines (lines 0 m) := by
    obtain ⟨l, ls, hl⟩ := List.exists_cons_of_ne_nil (lines_ne_nil 0 m)
    rw [String.append_assoc, String.toList_append, hl, toList_intercalate_append]
  exact ⟨_, htail _⟩

/-! ### Where names and texts end -/

/-- Whether a character ends a name in a tag. -/
def endsName (c : Char) : Bool := c == ' ' || c == '/' || c == '>' || c == '='

/-- Whether a text can be the name of an element or of an attribute. -/
def isName (s : String) : Bool := s.toList.all fun c => !endsName c

/-- Up to the first character of a sort, two texts are the same if what they begin is. -/
theorem cut_of_all {p : Char → Bool} {a b r s : List Char} {x y : Char}
    (ha : a.all fun c => !p c) (hb : b.all fun c => !p c) (hx : p x) (hy : p y)
    (h : a ++ x :: r = b ++ y :: s) : a = b ∧ x :: r = y :: s := by
  induction a generalizing b with
  | nil =>
    cases b with
    | nil => exact ⟨rfl, h⟩
    | cons d b =>
      obtain ⟨rfl, -⟩ := List.cons.inj h
      simp [hx] at hb
  | cons c a ih =>
    rw [List.all_cons, Bool.and_eq_true] at ha
    cases b with
    | nil =>
      obtain ⟨rfl, -⟩ := List.cons.inj h
      simp [hy] at ha
    | cons d b =>
      rw [List.all_cons, Bool.and_eq_true] at hb
      obtain ⟨rfl, htail⟩ := List.cons.inj h
      obtain ⟨rfl, hr⟩ := ih ha.2 hb.2 htail
      exact ⟨rfl, hr⟩

theorem cut_name {a b : String} {r s : List Char} {x y : Char} (ha : isName a) (hb : isName b)
    (hx : endsName x) (hy : endsName y) (h : a.toList ++ x :: r = b.toList ++ y :: s) :
    a = b ∧ x :: r = y :: s := by
  obtain ⟨hab, hr⟩ := cut_of_all ha hb hx hy h
  exact ⟨String.toList_inj.1 hab, hr⟩

theorem cut_escapeChar {c d : Char} {r s : List Char}
    (h : escapeChar c ++ r = escapeChar d ++ s) : c = d ∧ r = s := by
  unfold escapeChar at h
  split_ifs at h <;> simp_all
  all_goals exact absurd h.1.symm ‹¬d = '&'›

/-- The two characters that end texts and values do not begin an escaped character. -/
theorem escapeChar_append_ne_cons {c x : Char} (hx : x = '<' ∨ x = '"') (r s : List Char) :
    escapeChar c ++ r ≠ x :: s := by
  unfold escapeChar
  rcases hx with rfl | rfl <;> split_ifs <;> simp_all

theorem cut_flatMap_escapeChar {a b r s : List Char} {x : Char} (hx : x = '<' ∨ x = '"')
    (h : a.flatMap escapeChar ++ x :: r = b.flatMap escapeChar ++ x :: s) : a = b ∧ r = s := by
  induction a generalizing b with
  | nil =>
    cases b with
    | nil => exact ⟨rfl, (List.cons.inj h).2⟩
    | cons d b =>
      rw [List.flatMap_cons, List.append_assoc] at h
      exact absurd h.symm (escapeChar_append_ne_cons hx _ _)
  | cons c a ih =>
    rw [List.flatMap_cons, List.append_assoc] at h
    cases b with
    | nil => exact absurd h (escapeChar_append_ne_cons hx _ _)
    | cons d b =>
      rw [List.flatMap_cons, List.append_assoc] at h
      obtain ⟨hcd, htail⟩ := cut_escapeChar h
      obtain ⟨hab, hrs⟩ := ih htail
      exact ⟨by rw [hcd, hab], hrs⟩

theorem cut_escaped {a b : String} {r s : List Char} {x : Char} (hx : x = '<' ∨ x = '"')
    (h : escaped a ++ x :: r = escaped b ++ x :: s) : a = b ∧ r = s := by
  obtain ⟨hab, hrs⟩ := cut_flatMap_escapeChar hx h
  exact ⟨String.toList_inj.1 hab, hrs⟩

/-- Attributes end where the next character is no blank. -/
theorem cut_attributes {as bs : List (String × String)} {r s : List Char} {x y : Char}
    (has : ∀ a ∈ as, isName a.1) (hbs : ∀ b ∈ bs, isName b.1) (hx : x ≠ ' ') (hy : y ≠ ' ')
    (h : as.flatMap attributeChars ++ x :: r = bs.flatMap attributeChars ++ y :: s) :
    as = bs ∧ x :: r = y :: s := by
  induction as generalizing bs with
  | nil =>
    cases bs with
    | nil => exact ⟨rfl, h⟩
    | cons b bs => exact absurd (List.cons.inj h).1 hx
  | cons a as ih =>
    cases bs with
    | nil => exact absurd (List.cons.inj h).1.symm hy
    | cons b bs =>
      obtain ⟨key, value⟩ := a
      obtain ⟨key', value'⟩ := b
      simp only [List.flatMap_cons, attributeChars, List.cons_append, List.append_assoc,
        List.nil_append, List.cons.injEq, true_and] at h
      obtain ⟨rfl, hvalue⟩ :=
        cut_name (has _ List.mem_cons_self) (hbs _ List.mem_cons_self) rfl rfl h
      simp only [List.cons.injEq, true_and] at hvalue
      obtain ⟨rfl, hrest⟩ := cut_escaped (.inr rfl) hvalue
      obtain ⟨rfl, hr⟩ := ih (fun a ha => has a (List.mem_cons_of_mem _ ha))
        (fun b hb => hbs b (List.mem_cons_of_mem _ hb)) hrest
      exact ⟨rfl, hr⟩

/-- Nothing but attributes comes between the name of an element and the end of its first tag. -/
theorem cut_header {a b : String} {as bs : List (String × String)} {r s : List Char} {x y : Char}
    (ha : isName a) (hb : isName b) (has : ∀ a ∈ as, isName a.1) (hbs : ∀ b ∈ bs, isName b.1)
    (hx : x = '/' ∨ x = '>') (hy : y = '/' ∨ y = '>')
    (h : a.toList ++ (as.flatMap attributeChars ++ x :: r) =
      b.toList ++ (bs.flatMap attributeChars ++ y :: s)) :
    a = b ∧ as = bs ∧ x :: r = y :: s := by
  -- the character after the name
  have hends (as : List (String × String)) {z : Char} (hz : z = '/' ∨ z = '>') (t : List Char) :
      ∃ z' t', as.flatMap attributeChars ++ z :: t = z' :: t' ∧ endsName z' := by
    cases as with
    | nil => exact ⟨z, t, rfl, by rcases hz with rfl | rfl <;> rfl⟩
    | cons a as => exact ⟨_, _, rfl, rfl⟩
  have hblank {z : Char} (hz : z = '/' ∨ z = '>') : z ≠ ' ' := by
    rcases hz with rfl | rfl <;> decide
  obtain ⟨x', r', hxr, hx'⟩ := hends as hx r
  obtain ⟨y', s', hys, hy'⟩ := hends bs hy s
  rw [hxr, hys] at h
  obtain ⟨hab, hrest⟩ := cut_name ha hb hx' hy' h
  rw [← hxr, ← hys] at hrest
  exact ⟨hab, cut_attributes has hbs (hblank hx) (hblank hy) hrest⟩

/-! ### Elements -/

/-- Names hold no character that ends a name, and the name of an element says whether it holds a
text. -/
inductive IsPlain (isText : String → Bool) : Markup → Prop
  | empty {name : String} {attributes : List (String × String)} (hn : isName name)
    (ha : ∀ a ∈ attributes, isName a.1) : IsPlain isText (.empty name attributes)
  | element {name : String} {attributes : List (String × String)} {children : List Markup}
    (hn : isName name) (ha : ∀ a ∈ attributes, isName a.1) (ht : isText name = false)
    (hc : ∀ m ∈ children, IsPlain isText m) :
    IsPlain isText (.element name attributes children)
  | text {name content : String} (hn : isName name) (ht : isText name) :
    IsPlain isText (.text name content)

variable {isText : String → Bool} {m m' : Markup}

theorem IsPlain.isName_name (hm : m.IsPlain isText) : isName m.name := by
  cases hm <;> assumption

theorem IsPlain.isName_attributes (hm : m.IsPlain isText) : ∀ a ∈ m.attributes, isName a.1 := by
  cases hm with
  | empty _ ha | element _ ha => exact ha
  | text => exact fun a ha => absurd ha List.not_mem_nil

theorem exists_body (level : Nat) (m : Markup) (r : List Char) :
    ∃ x s, m.body level ++ r = x :: s ∧ (x = '/' ∨ x = '>') := by
  cases m with
  | empty => exact ⟨_, _, rfl, .inl rfl⟩
  | element | text => exact ⟨_, _, rfl, .inr rfl⟩

/-- The first tags of two elements end at the same place. -/
theorem cut_lines (hm : m.IsPlain isText) (hm' : m'.IsPlain isText) {level : Nat} {r s : List Char}
    (h : unlines (lines level m) ++ r = unlines (lines level m') ++ s) :
    m.name = m'.name ∧ m.attributes = m'.attributes ∧ m.body level ++ r = m'.body level ++ s := by
  simp only [unlines_lines, List.append_assoc, List.cons_append, List.append_cancel_left_eq,
    List.cons.injEq, true_and] at h
  obtain ⟨x, r', hr, hx⟩ := exists_body level m r
  obtain ⟨y, s', hs, hy⟩ := exists_body level m' s
  rw [hr, hs] at h ⊢
  exact cut_header hm.isName_name hm'.isName_name hm.isName_attributes hm'.isName_attributes hx hy h

/-- A text that goes on with something on the level above is no child. -/
theorem indentChars_append_ne (level : Nat) (r s : List Char) :
    indentChars level ++ '<' :: r ≠ indentChars (level + 1) ++ s := by
  have hindent : indentChars (level + 1) = indentChars level ++ [' ', ' '] := by
    rw [indentChars, indentChars, Nat.mul_succ, List.replicate_add]
    rfl
  rw [hindent, List.append_assoc]
  intro h
  have hhead := List.append_cancel_left h
  simp at hhead

/-- Children end at the first tag that is not indented further. -/
theorem cut_linesOfAll {ms ms' : List Markup} {level : Nat} {r s : List Char}
    (hcut : ∀ m ∈ ms, ∀ m' ∈ ms', ∀ r s,
      unlines (lines (level + 1) m) ++ r = unlines (lines (level + 1) m') ++ s → m = m' ∧ r = s)
    (h : unlines (linesOfAll (level + 1) ms) ++ (indentChars level ++ '<' :: r) =
      unlines (linesOfAll (level + 1) ms') ++ (indentChars level ++ '<' :: s)) :
    ms = ms' ∧ r = s := by
  induction ms generalizing ms' with
  | nil =>
    cases ms' with
    | nil =>
      have htail := List.append_cancel_left (List.append_cancel_left h)
      exact ⟨rfl, (List.cons.inj htail).2⟩
    | cons m' ms' =>
      rw [unlines_linesOfAll_cons, unlines_lines, List.append_assoc, List.append_assoc] at h
      exact absurd h (indentChars_append_ne level _ _)
  | cons m ms ih =>
    rw [unlines_linesOfAll_cons, List.append_assoc] at h
    cases ms' with
    | nil =>
      rw [unlines_lines, List.append_assoc] at h
      exact absurd h.symm (indentChars_append_ne level _ _)
    | cons m' ms' =>
      rw [unlines_linesOfAll_cons, List.append_assoc] at h
      obtain ⟨rfl, htail⟩ := hcut m List.mem_cons_self m' List.mem_cons_self _ _ h
      obtain ⟨rfl, hrs⟩ := ih (fun n hn n' hn' =>
        hcut n (List.mem_cons_of_mem _ hn) n' (List.mem_cons_of_mem _ hn')) htail
      exact ⟨rfl, hrs⟩

/-- **An element ends where it ends.**  If two texts begin with an element each and are the same,
the elements are the same and so is what follows them. -/
theorem eq_of_unlines_append_eq (hm : m.IsPlain isText) (hm' : m'.IsPlain isText) {level : Nat}
    {r s : List Char} (h : unlines (lines level m) ++ r = unlines (lines level m') ++ s) :
    m = m' ∧ r = s := by
  induction hm generalizing m' level r s with
  | @empty name attributes hn ha =>
    obtain ⟨hname, hattributes, hbody⟩ := cut_lines (.empty hn ha) hm' h
    cases hm' with
    | empty =>
      obtain rfl : name = _ := hname
      obtain rfl : attributes = _ := hattributes
      exact ⟨rfl, List.append_cancel_left hbody⟩
    | element | text => simp [body] at hbody
  | @element name attributes children hn ha ht hc ih =>
    obtain ⟨hname, hattributes, hbody⟩ := cut_lines (.element hn ha ht hc) hm' h
    cases hm' with
    | empty => simp [body] at hbody
    | element _ _ _ hc' =>
      obtain rfl : name = _ := hname
      obtain rfl : attributes = _ := hattributes
      simp only [body, closing, List.cons_append, List.append_assoc, List.cons.injEq,
        true_and] at hbody
      obtain ⟨rfl, hclosing⟩ := cut_linesOfAll (fun n hn n' hn' _ _ => ih n hn (hc' n' hn')) hbody
      simpa using hclosing
    | text _ ht' =>
      -- the names tell them apart
      obtain rfl : name = _ := hname
      rw [ht] at ht'
      cases ht'
  | @text name content hn ht =>
    obtain ⟨hname, -, hbody⟩ := cut_lines (.text hn ht) hm' h
    cases hm' with
    | empty => simp [body] at hbody
    | element _ _ ht' =>
      obtain rfl : name = _ := hname
      rw [ht] at ht'
      cases ht'
    | text =>
      obtain rfl : name = _ := hname
      simp only [body, closing, List.cons_append, List.append_assoc, List.cons.injEq,
        true_and] at hbody
      obtain ⟨rfl, hclosing⟩ := cut_escaped (.inl rfl) hbody
      simpa using hclosing

/-- **A document has one reading.** -/
theorem document_eq_document_iff (hm : m.IsPlain isText) (hm' : m'.IsPlain isText) :
    m.document = m'.document ↔ m = m' := by
  refine ⟨fun h => ?_, congrArg document⟩
  obtain ⟨first, hfirst⟩ := exists_toList_document
  have hchars : m.document.toList = m'.document.toList := congrArg String.toList h
  rw [hfirst m, hfirst m'] at hchars
  have hlines := congrArg (· ++ []) (List.append_cancel_left hchars)
  exact (eq_of_unlines_append_eq hm hm' hlines).1

end Schemata.Markup

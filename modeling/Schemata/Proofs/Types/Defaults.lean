import Schemata.Proofs.Types.Enum

/-!
# Default values of enumerations

The default value of a property or a term that has an enumeration as its type is cut at commas and
spaces.  It denotes a value (`DenotesValue`) if there is a word in it and each word names a member
or is a number that members may have.

What denotes a value is never reported.  Conversely the words are asked no more than to be names or
numbers: a text without words passes, and so does a number outside the underlying type
(`filter_report_eq_nil_iff`).
-/

namespace Schemata.Catalog

variable {c : Catalog} {t : Declared .type} {text word : String} {location : Location}
  {report : List Diagnostic}

/-! ### What denotes a value -/

/-- The words of a default value: what stands between commas and spaces. -/
def defaultWords (text : String) : List String :=
  (Text.words (fun ch => ch == ',' || ch == ' ') text.toList).map String.ofList

section

variable (c t)

/-- The word is the name of a member. -/
def NamesMember (word : String) : Prop := ∃ m ∈ c.memberDecls t, m.name = word

/-- The word is the name of a member or a number that members may have. -/
def DenotesMember (word : String) : Prop :=
  c.NamesMember t word ∨
    ∃ v, Number.int64? word = some v ∧ (c.memberRange t).contains v = true

/-- The text has words, and each of them denotes a member. -/
def DenotesValue (text : String) : Prop :=
  defaultWords text ≠ [] ∧ ∀ word ∈ defaultWords text, c.DenotesMember t word

end

theorem isEnumText_eq_true_iff :
    c.isEnumText t text = true ↔
      ∀ word ∈ defaultWords text, c.NamesMember t word ∨ ∃ v, Number.int64? word = some v := by
  simp only [isEnumText, defaultWords, List.all_eq_true, Bool.or_eq_true, List.forall_mem_map,
    isSome_findMember?_iff, NamesMember]
  simp only [Option.isSome_iff_exists]

/-- What denotes a value passes. -/
theorem isEnumText_of_denotesValue (h : c.DenotesValue t text) : c.isEnumText t text = true :=
  isEnumText_eq_true_iff.2 fun word hword => (h.2 word hword).imp_right fun ⟨v, hv, _⟩ => ⟨v, hv⟩

/-- What passes denotes a value, but for texts without words and numbers that no member has. -/
theorem not_denotesValue_iff (h : c.isEnumText t text = true) :
    ¬ c.DenotesValue t text ↔
      defaultWords text = [] ∨ ∃ word ∈ defaultWords text, ¬ c.NamesMember t word ∧
        ∃ v, Number.int64? word = some v ∧ ¬ (c.memberRange t).contains v = true := by
  rw [isEnumText_eq_true_iff] at h
  constructor
  · intro hnot
    by_contra hothers
    rw [not_or] at hothers
    refine hnot ⟨hothers.1, fun word hword => ?_⟩
    by_cases hname : c.NamesMember t word
    · exact .inl hname
    · obtain ⟨v, hv⟩ := (h word hword).resolve_left hname
      refine .inr ⟨v, hv, ?_⟩
      by_contra hcontains
      exact hothers.2 ⟨word, hword, hname, v, hv, hcontains⟩
  · rintro (hnone | ⟨word, hword, hname, v, hv, hcontains⟩) ⟨hne, hall⟩
    · exact hne hnone
    · rcases hall word hword with hname' | ⟨w, hw, hcontains'⟩
      · exact hname hname'
      · cases hv.symm.trans hw
        exact hcontains hcontains'

/-! ### What is reported -/

variable (c t text) in
/-- A property or a term of the type `t` at a location has the default value `text`, and it is
checked; `report` is all that the property or term reports. -/
inductive ReportsOn : Location → List Diagnostic → Prop
  | property {p : Declared .property} {h : Handle .type} {n : Bool}
    (htype : c.propertyType p = .declared h n) (ht : c.locate p.model h = t)
    (hdefault : (c.property p).default? = some text)
    (hcheck : (c.model p.model).options.checkDefaults = true) :
    ReportsOn (c.property p).location (c.propertyDiagnostics p)
  | term {x : Declared .term} {h : Handle .type} {n : Bool}
    (htype : c.termType x = .declared h n) (ht : c.locate x.model h = t)
    (hdefault : (c.term x).default? = some text)
    (hcheck : (c.model x.model).options.checkDefaults = true) :
    ReportsOn (c.term x).location (c.termDiagnostics x)

theorem defaultDiagnostics_eq {m : ModelId} {h : Handle .type} {n : Bool}
    (hkind : c.kind t = .enum) (ht : c.locate m h = t)
    (hcheck : (c.model m).options.checkDefaults = true) :
    c.defaultDiagnostics m (.declared h n) (some text) location =
      if c.isEnumText t text then []
      else [.error .invalidDefaultValue location
        s!"'{text}' is not a member of enum type '{(c.type t).qualifiedName}'"] := by
  rw [defaultDiagnostics, if_pos hcheck, Option.bind_some]
  unfold defaultFault?
  dsimp only
  rw [ht, hkind]
  dsimp only
  split <;> rfl

/-- Names and types that are there report nothing about default values. -/
theorem filter_append_eq (m : ModelId) (name : Name) (h : Handle .type) (n : Bool)
    (faults : List Diagnostic) (hfaults : ∀ d ∈ faults, d.code = .invalidDefaultValue) :
    (c.nameDiagnostics m name location ++ (TypeReference.declared h n).diagnostics
      ++ faults).filter (·.code = .invalidDefaultValue) = faults := by
  have hname :
      (c.nameDiagnostics m name location).filter (·.code = .invalidDefaultValue) = [] := by
    unfold nameDiagnostics
    split <;> rfl
  have hself : faults.filter (·.code = .invalidDefaultValue) = faults :=
    List.filter_eq_self.2 fun d hd => decide_eq_true (hfaults d hd)
  rw [List.filter_append, List.filter_append, hname, hself]
  rfl

/-- Of what is reported, the default value alone is reported as such. -/
theorem ReportsOn.filter_eq (hkind : c.kind t = .enum) (h : c.ReportsOn t text location report) :
    report.filter (·.code = .invalidDefaultValue) =
      if c.isEnumText t text then []
      else [.error .invalidDefaultValue location
        s!"'{text}' is not a member of enum type '{(c.type t).qualifiedName}'"] := by
  have hcode : ∀ d ∈ (if c.isEnumText t text then []
      else [Diagnostic.error .invalidDefaultValue location
        s!"'{text}' is not a member of enum type '{(c.type t).qualifiedName}'"]),
      d.code = .invalidDefaultValue := by
    split
    · exact fun d hd => absurd hd List.not_mem_nil
    · exact List.forall_mem_singleton.2 rfl
  cases h with
  | property htype ht hdefault hcheck =>
    rw [propertyDiagnostics, propertyDiagnosticsWith, htype, hdefault,
      defaultDiagnostics_eq hkind ht hcheck]
    exact filter_append_eq _ _ _ _ _ hcode
  | term htype ht hdefault hcheck =>
    rw [termDiagnostics, termDiagnosticsWith, htype, hdefault,
      defaultDiagnostics_eq hkind ht hcheck]
    exact filter_append_eq _ _ _ _ _ hcode

/-- **What denotes a value is not reported,** and what is reported is reported once, in these words.
Not reported is a text of which each word names a member or is a number; so what is not reported
denotes a value, unless it has no words or a number in it lies outside the range and names no
member. -/
theorem filter_report_eq_nil_iff (hkind : c.kind t = .enum)
    (h : c.ReportsOn t text location report) :
    let faults := report.filter (·.code = .invalidDefaultValue)
    (faults = [] ∨ faults = [.error .invalidDefaultValue location
        s!"'{text}' is not a member of enum type '{(c.type t).qualifiedName}'"]) ∧
      (faults = [] ↔
        ∀ word ∈ defaultWords text, c.NamesMember t word ∨ ∃ v, Number.int64? word = some v) ∧
      (c.DenotesValue t text → faults = []) ∧
      (faults = [] → (¬ c.DenotesValue t text ↔
        defaultWords text = [] ∨ ∃ word ∈ defaultWords text, ¬ c.NamesMember t word ∧
          ∃ v, Number.int64? word = some v ∧ ¬ (c.memberRange t).contains v = true)) := by
  intro faults
  have hfaults : faults = _ := h.filter_eq hkind
  have hnil : faults = [] ↔ c.isEnumText t text = true := by
    rw [hfaults]
    split <;> simp_all
  refine ⟨?_, ?_, fun hvalue => hnil.2 (isEnumText_of_denotesValue hvalue), fun hnone =>
    not_denotesValue_iff (hnil.1 hnone)⟩
  · rw [hfaults]
    split
    · exact .inl rfl
    · exact .inr rfl
  · rw [hnil, isEnumText_eq_true_iff]

/-- One more model of one schema, which declares an enumeration of small numbers, a term of it and a
type with a property of it, both with a default value. -/
def defaulted (text : String) : Catalog :=
  let enum := { Decl.Enum.make "E" with
    underlying? := some "Edm.SByte", members := [⟨"A", some "1", .unknown⟩] }
  let term := { Decl.Term.make "T" "NS.E" with default? := some text }
  let property := { Decl.Property.make "P" "NS.E" with default? := some text }
  initial.add { Options.standard with includeCore := false } []
    [(((Decl.Schema.make "NS").addItem (.enumType enum)).addItem (.term term)).addItem
      (.complexType ((Decl.Structured.make "C").addProperty property))]

theorem reportsOn_defaulted_term
    (htype : (defaulted text).termType ⟨1, ⟨0⟩⟩ = .declared ⟨.self, ⟨0⟩⟩ true) :
    (defaulted text).ReportsOn ⟨1, ⟨0⟩⟩ text ((defaulted text).term ⟨1, ⟨0⟩⟩).location
      ((defaulted text).termDiagnostics ⟨1, ⟨0⟩⟩) :=
  .term htype rfl rfl rfl

theorem reportsOn_defaulted_property
    (htype : (defaulted text).propertyType ⟨1, ⟨0⟩⟩ = .declared ⟨.self, ⟨0⟩⟩ true) :
    (defaulted text).ReportsOn ⟨1, ⟨0⟩⟩ text ((defaulted text).property ⟨1, ⟨0⟩⟩).location
      ((defaulted text).propertyDiagnostics ⟨1, ⟨0⟩⟩) :=
  .property htype rfl rfl rfl

/-- A member and a number of eight bits are a default value, and neither name nor number is not. -/
theorem filter_report_eq_nil_iff_bytes :
    let t : Declared .type := ⟨1, ⟨0⟩⟩
    (defaulted "A, 100").DenotesValue t "A, 100" ∧
      ((defaulted "A, 100").propertyDiagnostics ⟨1, ⟨0⟩⟩).filter
        (·.code = .invalidDefaultValue) = [] ∧
      ((defaulted "A,B").termDiagnostics ⟨1, ⟨0⟩⟩).filter (·.code = .invalidDefaultValue) =
        [.error .invalidDefaultValue .unknown "'A,B' is not a member of enum type 'NS.E'"] := by
  intro t
  have hvalue : (defaulted "A, 100").DenotesValue t "A, 100" := by
    refine ⟨by decide +kernel, fun word hword => ?_⟩
    have hwords : defaultWords "A, 100" = ["A", "100"] := by decide +kernel
    rw [hwords] at hword
    rcases List.mem_pair.1 hword with rfl | rfl
    · exact .inl ⟨⟨"A", some "1", .unknown⟩, by decide +kernel, rfl⟩
    · exact .inr ⟨100, by decide +kernel, by decide +kernel⟩
  obtain ⟨-, -, hnone, -⟩ := filter_report_eq_nil_iff (c := defaulted "A, 100") (by decide +kernel)
    (reportsOn_defaulted_property (by decide +kernel))
  obtain ⟨hone, hiff, -⟩ := filter_report_eq_nil_iff (c := defaulted "A,B") (by decide +kernel)
    (reportsOn_defaulted_term (by decide +kernel))
  refine ⟨hvalue, hnone hvalue, hone.resolve_left fun hnil => ?_⟩
  rcases hiff.1 hnil "B" (by decide +kernel) with ⟨m, hm, hname⟩ | ⟨v, hv⟩
  · exact absurd hname ((by decide +kernel :
      ∀ m ∈ (defaulted "A,B").memberDecls ⟨1, ⟨0⟩⟩, m.name ≠ "B") m hm)
  · exact absurd hv ((by decide +kernel : Number.int64? "B" = none) ▸ nofun)

/-- **What passes need not denote a value.**  A text without words passes, and so does a number that
no member may have, on properties as on terms. -/
theorem not_forall_denotesValue :
    (¬ ∀ (c : Catalog) (t : Declared .type) (text : String) (location : Location)
        (report : List Diagnostic), c.kind t = .enum → c.ReportsOn t text location report →
        report.filter (·.code = .invalidDefaultValue) = [] → defaultWords text ≠ []) ∧
      ¬ ∀ (c : Catalog) (t : Declared .type) (text : String) (location : Location)
        (report : List Diagnostic), c.kind t = .enum → c.ReportsOn t text location report →
        report.filter (·.code = .invalidDefaultValue) = [] →
          ∀ word ∈ defaultWords text, c.DenotesMember t word := by
  constructor
  · intro h
    refine h (defaulted "") ⟨1, ⟨0⟩⟩ "" _ _ (by decide +kernel)
      (reportsOn_defaulted_term (by decide +kernel)) ?_ (by decide +kernel)
    rw [(reportsOn_defaulted_term (by decide +kernel)).filter_eq (by decide +kernel),
      if_pos (by decide +kernel)]
  · intro h
    have hdenotes := h (defaulted "300") ⟨1, ⟨0⟩⟩ "300" _ _ (by decide +kernel)
      (reportsOn_defaulted_property (by decide +kernel)) (by
        rw [(reportsOn_defaulted_property (by decide +kernel)).filter_eq (by decide +kernel),
          if_pos (by decide +kernel)]) "300" (by decide +kernel)
    rcases hdenotes with ⟨m, hm, hname⟩ | ⟨v, hv, hcontains⟩
    · exact absurd hname ((by decide +kernel :
        ∀ m ∈ (defaulted "300").memberDecls ⟨1, ⟨0⟩⟩, m.name ≠ "300") m hm)
    · have hnumber : Number.int64? "300" = some 300 := by decide +kernel
      cases hnumber.symm.trans hv
      exact absurd hcontains (by decide +kernel)

end Schemata.Catalog

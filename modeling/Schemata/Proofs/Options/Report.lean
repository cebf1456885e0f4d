import Schemata.Proofs.Duplicates
import Schemata.Proofs.Expr.Diagnostics
import Schemata.Proofs.Matching.Validation
import Schemata.Proofs.Options.Answers

/-!
# Options that are turned off

Two options say what is checked: whether declared names are identifiers, and whether default values
are values of their types.  An option that is turned off takes the diagnostics of its own code away
from the report on a model and leaves all others in their order
(`validate_eq_filter_of_options`).  For that, each part of a report is made up of diagnostics that
are always reported and of those that the option is about.
-/

namespace Schemata

/-! ### Codes that options are about -/

/-- Whether diagnostics of the class are reported only if an option says so. -/
def DiagnosticCode.isOptional : DiagnosticCode → Bool
  | invalidName | invalidDefaultValue => true
  | _ => false

/-- Whether diagnostics of a class are reported under the options. -/
def Options.reports (o : Options) : DiagnosticCode → Bool
  | .invalidName => o.checkNames
  | .invalidDefaultValue => o.checkDefaults
  | _ => true

theorem Options.reports_of_isOptional {code : DiagnosticCode} (h : code.isOptional = false)
    (o : Options) : o.reports code = true := by
  cases code <;> first | rfl | cases h

theorem DiagnosticCode.isOptional_of_isOfPlaceholder {code : DiagnosticCode}
    (h : code.isOfPlaceholder = true) : code.isOptional = false := by
  cases code <;> first | rfl | cases h

/-- The diagnostics are reported under all options. -/
def AlwaysReported (ds : List Diagnostic) : Prop := ∀ d ∈ ds, d.code.isOptional = false

namespace AlwaysReported

variable {α : Type} {ds ds' : List Diagnostic}

theorem of_isOfPlaceholder (h : ∀ d ∈ ds, d.code.isOfPlaceholder = true) : AlwaysReported ds :=
  fun d hd => DiagnosticCode.isOptional_of_isOfPlaceholder (h d hd)

theorem nil : AlwaysReported [] := nofun

theorem append (h : AlwaysReported ds) (h' : AlwaysReported ds') : AlwaysReported (ds ++ ds') :=
  List.forall_mem_append.2 ⟨h, h'⟩

theorem flatMap {l : List α} {f : α → List Diagnostic} (h : ∀ a ∈ l, AlwaysReported (f a)) :
    AlwaysReported (l.flatMap f) := by
  intro d hd
  obtain ⟨a, ha, hd⟩ := List.mem_flatMap.1 hd
  exact h a ha d hd

theorem singleton {d : Diagnostic} (h : d.code.isOptional = false) : AlwaysReported [d] :=
  List.forall_mem_singleton.2 h

/-- What is said of repeated names. -/
theorem duplicates {κ : Type} [BEq κ] {key : α → κ} {report : α → Diagnostic} {seen : List κ}
    (h : ∀ a, (report a).code.isOptional = false) (l : List α) :
    AlwaysReported (duplicates key report seen l) := by
  induction l generalizing seen with
  | nil => exact nil
  | cons a l ih =>
    rw [Schemata.duplicates]
    split
    · exact List.forall_mem_cons.2 ⟨h a, ih⟩
    · exact ih

theorem of_element {e : Element α} (h : e.IsExplained) : AlwaysReported e.diagnostics :=
  of_isOfPlaceholder h.isOfPlaceholder

theorem of_typeReference {t : TypeReference} (h : t.IsExplained) : AlwaysReported t.diagnostics :=
  of_isOfPlaceholder h.isOfPlaceholder

theorem of_appliedTerm {τ σ : Type} {t : AppliedTerm τ σ} (h : t.IsExplained) :
    AlwaysReported t.diagnostics := by
  cases t with
  | value => exact of_element h
  | type => exact of_element h

end AlwaysReported

/-- Of the first diagnostics the second ones are left under the options. -/
def Options.Leave (o : Options) (ds ds' : List Diagnostic) : Prop :=
  ds' = ds.filter (o.reports ·.code)

namespace Options.Leave

variable {o : Options} {ds₁ ds₁' ds₂ ds₂' : List Diagnostic}

theorem always (h : AlwaysReported ds₁) : o.Leave ds₁ ds₁ :=
  (List.filter_eq_self.2 fun d hd => o.reports_of_isOptional (h d hd)).symm

theorem append (h₁ : o.Leave ds₁ ds₁') (h₂ : o.Leave ds₂ ds₂') :
    o.Leave (ds₁ ++ ds₂) (ds₁' ++ ds₂') := by
  rw [Leave, List.filter_append, ← h₁, ← h₂]

theorem flatMap {α : Type} {l : List α} {f f' : α → List Diagnostic}
    (h : ∀ a ∈ l, o.Leave (f a) (f' a)) : o.Leave (l.flatMap f) (l.flatMap f') := by
  rw [Leave, List.filter_flatMap]
  exact List.flatMap_congr fun a ha => h a ha

end Options.Leave

namespace Catalog

/-! ### Reports on annotations -/

section annotations

variable {c : Catalog}

theorem alwaysReported_viewWith {e : ExprRef} {references : ExprReferences} {v : ExprView}
    (hr : references.IsExplained) (hv : c.viewWith e references = v) :
    AlwaysReported v.diagnostics := by
  have htypes {type? : Option TypeReference} (ht : ∀ t ∈ type?, t.IsExplained) :
      AlwaysReported (type?.toList.flatMap (·.diagnostics)) :=
    .flatMap fun t hmem => .of_typeReference (ht t (Option.mem_toList.1 hmem))
  unfold viewWith at hv
  dsimp only at hv
  split at hv <;> subst hv
  case h_1 => exact .of_isOfPlaceholder hr.2
  case h_2 kind text _ _ =>
    unfold constantValue
    split
    · exact .nil
    · exact .singleton rfl
  case h_5 members _ =>
    refine .flatMap fun member hmember => ?_
    obtain ⟨h, hh, rfl⟩ := List.mem_map.1 hmember
    exact .of_element ((hr h hh).map _)
  case h_7 | h_8 => exact .of_typeReference hr
  case h_9 | h_10 => exact htypes hr
  case h_13 => exact .of_element hr
  case h_14 => exact .singleton rfl
  all_goals exact .nil

theorem alwaysReported_exprDiagnostics (e : ExprRef) : AlwaysReported (c.exprDiagnostics e) := by
  -- operands lie behind their expression, so there are ever fewer nodes left
  induction hn : c.nodesBehind e using Nat.strong_induction_on generalizing e with
  | _ n ih =>
    rw [exprDiagnostics_eq]
    refine .append (alwaysReported_viewWith (isExplained_references e) rfl) ?_
    refine .flatMap fun child hchild => ih _ ?_ child rfl
    exact hn ▸ c.nodesBehind_lt_of_mem_operands (c.mem_operands_of_mem_children hchild)

theorem alwaysReported_annotationDiagnostics (a : Declared .annot) :
    AlwaysReported (c.annotationDiagnostics a) := by
  refine .append (.append (.of_appliedTerm (c.isExplained_appliedHandle a)) ?_)
    (.flatMap fun e _ => alwaysReported_exprDiagnostics e)
  refine .flatMap fun e he => ?_
  obtain ⟨b, -, rfl⟩ := List.mem_map.1 he
  exact .of_element (c.isExplained_bindingHandle a _ b)

end annotations

/-! ### Reports -/

/-- Whatever the options of other models are, in this one all is checked. -/
def ChecksAll (c : Catalog) (m : ModelId) : Prop :=
  (c.model m).options.checkNames = true ∧ (c.model m).options.checkDefaults = true

namespace SameButOptions

variable {c c' : Catalog} (h : c.SameButOptions c') (hc : c.IsBuilt) {m : ModelId}
  (hall : c.ChecksAll m)

section names

include hall

omit h in
theorem leave_nameDiagnostics (name : Name) (location : Location) :
    (c'.model m).options.Leave (c.nameDiagnostics m name location)
      (c'.nameDiagnostics m name location) := by
  unfold Options.Leave nameDiagnostics
  rw [hall.1]
  cases hcheck : (c'.model m).options.checkNames <;> cases isIdentifier name <;>
    simp [Options.reports, Diagnostic.error, hcheck]

include h hc

theorem leave_defaultDiagnostics {type type' : TypeReference}
    (htype : TypeReference.Rel (OnHandles allSame c m) type type') (default? : Option String)
    (location : Location) :
    (c'.model m).options.Leave (c.defaultDiagnostics m type default? location)
      (c'.defaultDiagnostics m type' default? location) := by
  have hfault : c'.defaultFault? m type' = c.defaultFault? m type :=
    funext fun text => (h.matches_allSame hc).defaultFault? rfl htype text
  unfold Options.Leave defaultDiagnostics
  rw [hall.2, hfault]
  cases hcheck : (c'.model m).options.checkDefaults <;>
    cases default?.bind (c.defaultFault? m type) <;>
    simp [Options.reports, Diagnostic.error, hcheck]

theorem leave_typeDiagnostics (t : Declared .type) (ht : t.model = m) :
    (c'.model m).options.Leave (c.typeDiagnostics t) (c'.typeDiagnostics t) := by
  subst ht
  have H := h.matches_allSame hc
  have ht := alike_allSame t
  have hbase : c'.base? t = c.base? t := h.answer hc (.base t) fun _ => nofun
  have hkey : c'.key t = c.key t := h.answer hc (.key t) fun _ => nofun
  unfold typeDiagnostics typeDiagnosticsWith
  rw [h.type, H.duplicateMembers ht, hbase, hkey, H.underlying? ht, H.memberDecls ht,
    H.memberValues ht]
  refine ((((((leave_nameDiagnostics hall _ _).append (.always ?_)).append
    (.always (.flatMap fun e he => ?_))).append (.always (.flatMap fun e he => ?_))).append
    (.always (.flatMap fun e he => ?_))).append
    (.flatMap fun d _ => leave_nameDiagnostics hall _ _)).append (.always fun d hd => ?_)
  · exact .duplicates (fun _ => rfl) _
  · exact .of_element (isExplained_of_mem_base? (Option.mem_toList.1 he))
  · exact .of_element (isExplained_of_mem_key he)
  · exact .of_typeReference (isExplained_of_mem_underlying? (Option.mem_toList.1 he))
  · rw [code_of_mem_memberValues hd]
    rfl

theorem leave_propertyDiagnostics (p : Declared .property) (hp : p.model = m) :
    (c'.model m).options.Leave (c.propertyDiagnostics p) (c'.propertyDiagnostics p) := by
  subst hp
  have htype : c'.propertyType p = c.propertyType p := h.answer hc (.propertyType p) fun _ => nofun
  have hrel := (h.matches_allSame hc).propertyType (alike_allSame p)
  unfold propertyDiagnostics propertyDiagnosticsWith
  rw [h.property]
  refine ((leave_nameDiagnostics hall _ _).append ?_).append
    (h.leave_defaultDiagnostics hc hall hrel _ _)
  rw [htype]
  exact .always (.of_typeReference (c.isExplained_propertyType p))

theorem leave_termDiagnostics (t : Declared .term) (ht : t.model = m) :
    (c'.model m).options.Leave (c.termDiagnostics t) (c'.termDiagnostics t) := by
  subst ht
  have htype : c'.termType t = c.termType t := h.answer hc (.termType t) fun _ => nofun
  have hrel := (h.matches_allSame hc).termType (alike_allSame t)
  unfold termDiagnostics termDiagnosticsWith
  rw [h.term]
  refine ((leave_nameDiagnostics hall _ _).append ?_).append
    (h.leave_defaultDiagnostics hc hall hrel _ _)
  rw [htype]
  exact .always (.of_typeReference (c.isExplained_termType t))

theorem leave_navigationDiagnostics (n : Declared .navigation) (hn : n.model = m) :
    (c'.model m).options.Leave (c.navigationDiagnostics n) (c'.navigationDiagnostics n) := by
  subst hn
  have hassociation : c'.navigationAssociation n = c.navigationAssociation n :=
    h.answer hc (.association n) fun _ => nofun
  have H := h.matches_allSame hc
  have hsides := H.navigationSides (alike_allSame n) (H.navigationAssociation (alike_allSame n))
  rw [hassociation] at hsides
  unfold navigationDiagnostics navigationDiagnosticsWith
  dsimp only
  rw [h.navigationProperty, hassociation, hsides]
  refine (leave_nameDiagnostics hall _ _).append (.always ?_)
  have hexplained : AlwaysReported (c.navigationAssociation n).diagnostics :=
    .of_element (c.isExplained_navigationAssociation n)
  cases ha : c.navigationAssociation n with
  | placeholder p =>
    rw [ha] at hexplained
    exact hexplained
  | declared a =>
    exact .append (.of_element (c.isExplained_sideOfRole n _ _))
      (.of_element (c.isExplained_sideOfRole n _ _))

theorem leave_associationDiagnostics (a : Declared .association) (ha : a.model = m) :
    (c'.model m).options.Leave (c.associationDiagnostics a) (c'.associationDiagnostics a) := by
  subst ha
  have htypes : c'.endType = c.endType :=
    funext fun e => h.answer hc (.endType e) fun _ => nofun
  unfold associationDiagnostics associationDiagnosticsWith
  rw [h.association, htypes]
  refine ((leave_nameDiagnostics hall _ _).append (.always ?_)).append
    (.always (.flatMap fun t ht => ?_))
  · split
    · exact .singleton rfl
    · exact .nil
  · obtain ⟨e, -, rfl⟩ := List.mem_map.1 ht
    exact .of_element (c.isExplained_endType e)

theorem leave_containerDiagnostics (k : Declared .container) (hk : k.model = m) :
    (c'.model m).options.Leave (c.containerDiagnostics k) (c'.containerDiagnostics k) := by
  subst hk
  have hextended : c'.extended? k = c.extended? k := h.answer hc (.extended k) fun _ => nofun
  unfold containerDiagnostics containerDiagnosticsWith
  rw [h.container, hextended, (h.matches_allSame hc).duplicateSets (alike_allSame k)]
  refine ((leave_nameDiagnostics hall _ _).append (.always ?_)).append
    (.always (.flatMap fun e he => ?_))
  · exact .duplicates (fun _ => rfl) _
  · exact .of_element (isExplained_of_mem_extended? (Option.mem_toList.1 he))

theorem leave_entitySetDiagnostics (s : Declared .entitySet) (hs : s.model = m) :
    (c'.model m).options.Leave (c.entitySetDiagnostics s) (c'.entitySetDiagnostics s) := by
  subst hs
  have htype : c'.entityType s = c.entityType s := h.answer hc (.entityType s) fun _ => nofun
  unfold entitySetDiagnostics entitySetDiagnosticsWith
  rw [h.entitySet, htype]
  exact (leave_nameDiagnostics hall _ _).append
    (.always (.of_element (c.isExplained_entityType s)))

theorem leave_associationSetDiagnostics (s : Declared .associationSet) (hs : s.model = m) :
    (c'.model m).options.Leave (c.associationSetDiagnostics s)
      (c'.associationSetDiagnostics s) := by
  subst hs
  have hassociation : c'.setAssociation s = c.setAssociation s :=
    h.answer hc (.setAssociation s) fun _ => nofun
  have hends : c'.setEnds s = c.setEnds s := h.answer hc (.setEnds s) fun _ => nofun
  have hfound : c'.findEnd? = c.findEnd? := by
    unfold findEnd? endDecl
    simp only [h.association]
  unfold associationSetDiagnostics associationSetDiagnosticsWith
  simp only [h.associationSet, h.association, hassociation, hends, hfound]
  refine ((leave_nameDiagnostics hall _ _).append (.always ?_)).append (.always ?_)
  · exact .of_element (c.isExplained_setAssociation s)
  · refine .flatMap fun e he => .append (.of_element (isExplained_of_mem_setEnds he)) ?_
    refine .flatMap fun a _ => ?_
    split
    · exact .nil
    · exact .singleton rfl

omit hall in
theorem leave_annotationDiagnostics (a : Declared .annot) :
    (c'.model m).options.Leave (c.annotationDiagnostics a) (c'.annotationDiagnostics a) := by
  rw [(h.matches_allSame hc).annotationDiagnostics (alike_allSame a)]
  exact .always (alwaysReported_annotationDiagnostics a)

omit hall in
theorem leave_schemaDiagnostics (s : Declared .schema) :
    (c'.model m).options.Leave (c.schemaDiagnostics s) (c'.schemaDiagnostics s) := by
  rw [(h.matches_allSame hc).schemaDiagnostics (alike_allSame s)]
  refine .always fun d hd => ?_
  obtain ⟨b, -, hd⟩ := List.mem_filterMap.1 hd
  split at hd <;> cases hd
  rfl

theorem leave_diagnosticsOf {k : ElementKind} (x : Declared k) (hx : x.model = m) :
    (c'.model m).options.Leave (c.diagnosticsOf x) (c'.diagnosticsOf x) := by
  cases k with
  | schema => exact h.leave_schemaDiagnostics hc x
  | type => exact h.leave_typeDiagnostics hc hall x hx
  | property => exact h.leave_propertyDiagnostics hc hall x hx
  | navigation => exact h.leave_navigationDiagnostics hc hall x hx
  | association => exact h.leave_associationDiagnostics hc hall x hx
  | term => exact h.leave_termDiagnostics hc hall x hx
  | container => exact h.leave_containerDiagnostics hc hall x hx
  | entitySet => exact h.leave_entitySetDiagnostics hc hall x hx
  | associationSet => exact h.leave_associationSetDiagnostics hc hall x hx
  | annot => exact h.leave_annotationDiagnostics hc x

/-- **Options that are turned off take away what they are about** from a report, and nothing else:
what is left is in the order that it had. -/
theorem leave_validate :
    (c'.model m).options.Leave (c.validate m) (c'.validate m) := by
  have hduplicates : (c'.model m).duplicateDeclarations = (c.model m).duplicateDeclarations := by
    rw [h.model m]
    rfl
  rw [validate_eq, validate_eq, hduplicates]
  refine .append (.always (.duplicates (fun _ => rfl) _)) (.flatMap fun k _ => ?_)
  rw [h.elements]
  exact .flatMap fun x hx => h.leave_diagnosticsOf hc hall x (c.mem_elements.1 hx).1

end names

end SameButOptions

/-! ### One option turned off -/

/-- What a new model references depends on one option only. -/
theorem directReferences_congr (c : Catalog) {o o' : Options} (h : o'.includeCore = o.includeCore)
    (given : List ModelId) (schemas : List Decl.Schema) :
    c.directReferences o' given schemas = c.directReferences o given schemas := by
  rw [directReferences, directReferences, h]

/-- The report under some options is what they leave of the report under which all is checked. -/
theorem validate_add_eq_filter {c : Catalog} (hc : c.IsBuilt) {given : List ModelId}
    (hgiven : ∀ r ∈ given, r < c.models.size) (schemas : List Decl.Schema) {o o' : Options}
    (hcore : o'.includeCore = o.includeCore) (hnames : o.checkNames = true)
    (hdefaults : o.checkDefaults = true) :
    (c.add o' given schemas).validate c.models.size =
      ((c.add o given schemas).validate c.models.size).filter (o'.reports ·.code) := by
  have hoptions (o : Options) : ((c.add o given schemas).model c.models.size).options = o := by
    rw [model_add, Model.options_build]
  have h : (c.add o given schemas).SameButOptions (c.add o' given schemas) :=
    (SameButOptions.refl c).add o o' (by rw [c.directReferences_congr hcore])
  have hleave := h.leave_validate (m := c.models.size) (hc.add o hgiven schemas)
    (by rw [ChecksAll, hoptions]; exact ⟨hnames, hdefaults⟩)
  rwa [hoptions] at hleave

/-- **What options do.**  Turning off the check of names takes from the report on a new model just
the diagnostics of names that are no identifiers, turning off the check of default values just those
of values that are none, and all others keep their order.  Under all options, of the model and of
those that it references, the elements are the same and every question about them has the same
answer, as long as the model references the same. -/
theorem validate_eq_filter_of_options {c : Catalog} (hc : c.IsBuilt) (o : Options)
    {given : List ModelId} (hgiven : ∀ r ∈ given, r < c.models.size)
    (schemas : List Decl.Schema) :
    let report (o : Options) := (c.add o given schemas).validate c.models.size
    report { o with checkNames := false } =
        (report { o with checkNames := true }).filter (·.code ≠ .invalidName) ∧
      report { o with checkDefaults := false } =
        (report { o with checkDefaults := true }).filter (·.code ≠ .invalidDefaultValue) ∧
      ∀ c' o', c.SameButOptions c' →
        c'.allReferences (c'.directReferences o' given schemas) =
          c.allReferences (c.directReferences o given schemas) →
        (c.add o given schemas).SameButOptions (c'.add o' given schemas) ∧
          SameAnswers (c.add o given schemas) (c'.add o' given schemas) := by
  intro report
  have hreport (o' : Options) (hcore : o'.includeCore = o.includeCore) :
      report o' = (report { o with checkNames := true, checkDefaults := true }).filter
        (o'.reports ·.code) := validate_add_eq_filter hc hgiven schemas hcore rfl rfl
  refine ⟨?_, ?_, fun c' o' h hreferences => ?_⟩
  · rw [hreport { o with checkNames := false } rfl, hreport { o with checkNames := true } rfl,
      List.filter_filter]
    refine List.filter_congr fun d _ => ?_
    cases d.code <;> simp [Options.reports]
  · rw [hreport { o with checkDefaults := false } rfl, hreport { o with checkDefaults := true } rfl,
      List.filter_filter]
    refine List.filter_congr fun d _ => ?_
    cases d.code <;> simp [Options.reports]
  · have hadd := h.add o o' hreferences
    exact ⟨hadd, hadd.sameAnswers (hc.add o hgiven schemas)⟩

/-- A schema with one type, the only property of which has a name that is no identifier and a
default value that is none. -/
def misnamedSchema : Decl.Schema :=
  let property := { Decl.Property.make "1st" "Edm.Int32" with default? := some "none" }
  (Decl.Schema.make "A").addItem (.complexType ((Decl.Structured.make "T").addProperty property))

/-- Each option takes away one of two diagnostics. -/
theorem validate_eq_filter_of_options_misnamed :
    let report (o : Options) := (initial.add o [] [misnamedSchema]).validate 1
    let names := (report ⟨false, true, false, false⟩)
    let defaults := (report ⟨false, false, true, false⟩)
    names = (report ⟨false, true, true, false⟩).filter (·.code ≠ .invalidName) ∧
      defaults = (report ⟨false, true, true, false⟩).filter (·.code ≠ .invalidDefaultValue) ∧
      names.map (·.code) = [.invalidDefaultValue] ∧ defaults.map (·.code) = [.invalidName] ∧
      SameAnswers (initial.add ⟨false, true, true, false⟩ [] [misnamedSchema])
        (initial.add ⟨false, false, false, true⟩ [] [misnamedSchema]) := by
  intro report names defaults
  have hgiven : ∀ r ∈ ([] : List ModelId), r < initial.models.size := nofun
  obtain ⟨hnames, hdefaults, hanswers⟩ :=
    validate_eq_filter_of_options .initial ⟨false, true, true, false⟩ hgiven [misnamedSchema]
  exact ⟨hnames, hdefaults, by decide +kernel, by decide +kernel,
    (hanswers initial ⟨false, false, false, true⟩ (.refl initial) rfl).2⟩

end Catalog

end Schemata

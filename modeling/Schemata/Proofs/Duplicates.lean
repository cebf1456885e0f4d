import Mathlib.Data.List.Induction
import Schemata.Proofs.Model.Symbols
import Schemata.Proofs.Placeholder
import Schemata.Validation

/-!
# What is declared twice

A declaration whose name is taken in its space is reported, where it stands and nothing else with
it, and a lookup goes on to lead to the declaration that took the name first.  Likewise a type or a
container reports each member whose name an earlier member of the same owner has, whatever sort of
member that is.

`repeated key l` are the elements of a list whose key an earlier one has.
-/

namespace Schemata

/-! ### Repeated keys -/

section repeated

variable {α κ : Type} [DecidableEq κ]

/-- The elements of a list whose key an earlier one has. -/
def repeated (key : α → κ) (l : List α) : List α :=
  (l.zipIdx.filter fun (a, i) => ∃ b ∈ l.take i, key b = key a).map (·.1)

variable (key : α → κ)

theorem repeated_concat (l : List α) (a : α) :
    repeated key (l ++ [a]) =
      repeated key l ++ if ∃ b ∈ l, key b = key a then [a] else [] := by
  have hbefore : (l.zipIdx.filter fun (a', i) => ∃ b ∈ (l ++ [a]).take i, key b = key a') =
      l.zipIdx.filter fun (a', i) => ∃ b ∈ l.take i, key b = key a' := by
    refine List.filter_congr fun ⟨a', i⟩ hi => ?_
    have hi : i < l.length := by simpa using List.snd_lt_of_mem_zipIdx hi
    simp only [List.take_append_of_le_length (Nat.le_of_lt hi)]
  rw [repeated, List.zipIdx_append, List.filter_append, List.map_append, hbefore, ← repeated]
  refine congrArg (repeated key l ++ ·) ?_
  simp only [List.zipIdx_singleton, Nat.zero_add, List.filter_singleton, List.take_left]
  by_cases h : ∃ b ∈ l, key b = key a
  · rw [if_pos h, decide_eq_true h]
    rfl
  · rw [if_neg h, decide_eq_false h]
    rfl

/-- Lists that have no key in common repeat what each of them does. -/
theorem repeated_append {l l' : List α} (h : ∀ a ∈ l, ∀ b ∈ l', key a ≠ key b) :
    repeated key (l ++ l') = repeated key l ++ repeated key l' := by
  induction l' using List.reverseRecOn with
  | nil => simp [repeated]
  | append_singleton l' b ih =>
    have hrest : ∀ a ∈ l, ∀ x ∈ l', key a ≠ key x :=
      fun a ha x hx => h a ha x (List.mem_append_left _ hx)
    have hcond : (∃ x ∈ l ++ l', key x = key b) ↔ ∃ x ∈ l', key x = key b := by
      constructor
      · rintro ⟨x, hx, hkey⟩
        refine ⟨x, (List.mem_append.1 hx).resolve_left fun hxl => ?_, hkey⟩
        exact h x hxl b (List.mem_append_right _ List.mem_cons_self) hkey
      · rintro ⟨x, hx, hkey⟩
        exact ⟨x, List.mem_append_right _ hx, hkey⟩
    rw [← List.append_assoc, repeated_concat, repeated_concat, ih hrest, List.append_assoc]
    simp only [hcond]

theorem repeated_eq_nil {l : List α} (h : (l.map key).Nodup) : repeated key l = [] := by
  induction l using List.reverseRecOn with
  | nil => rfl
  | append_singleton l a ih =>
    rw [List.map_append, List.map_singleton, ← List.concat_eq_append, List.nodup_concat] at h
    have hnew : ¬ ∃ b ∈ l, key b = key a := by
      rintro ⟨b, hb, hkey⟩
      exact h.1 (hkey ▸ List.mem_map_of_mem hb)
    rw [repeated_concat, ih h.2, if_neg hnew, List.append_nil]

theorem duplicates_concat [BEq κ] [LawfulBEq κ] (report : α → Diagnostic) (seen : List κ)
    (l : List α) (a : α) :
    duplicates key report seen (l ++ [a]) =
      duplicates key report seen l ++
        if key a ∈ seen ∨ ∃ b ∈ l, key b = key a then [report a] else [] := by
  induction l generalizing seen with
  | nil => simp [duplicates]
  | cons b l ih =>
    rw [List.cons_append, duplicates, duplicates]
    split
    case isTrue hb =>
      have hb : key b ∈ seen := by simpa using hb
      have hcond : (key a ∈ seen ∨ ∃ x ∈ l, key x = key a) ↔
          key a ∈ seen ∨ ∃ x ∈ b :: l, key x = key a := by
        simp only [List.mem_cons, exists_eq_or_imp]
        constructor
        · exact Or.imp_right .inr
        · rintro (h | h | h)
          · exact .inl h
          · exact .inl (h ▸ hb)
          · exact .inr h
      rw [ih, List.cons_append]
      simp only [hcond]
    case isFalse =>
      have hcond : (key a ∈ key b :: seen ∨ ∃ x ∈ l, key x = key a) ↔
          key a ∈ seen ∨ ∃ x ∈ b :: l, key x = key a := by
        simp only [List.mem_cons, exists_eq_or_imp, eq_comm (a := key a)]
        tauto
      rw [ih]
      simp only [hcond]

/-- What is reported are the elements whose key an earlier one has. -/
theorem duplicates_eq [BEq κ] [LawfulBEq κ] (report : α → Diagnostic) (l : List α) :
    duplicates key report [] l = (repeated key l).map report := by
  induction l using List.reverseRecOn with
  | nil => rfl
  | append_singleton l a ih =>
    rw [duplicates_concat, repeated_concat, ih, List.map_append]
    simp only [List.not_mem_nil, false_or]
    split <;> rfl

omit [DecidableEq κ] in
theorem duplicates_map {β : Type} [BEq κ] (report : α → Diagnostic) (seen : List κ) (f : β → α)
    (l : List β) :
    duplicates key report seen (l.map f) = duplicates (key ∘ f) (report ∘ f) seen l := by
  induction l generalizing seen with
  | nil => rfl
  | cons b l ih => simp only [List.map_cons, duplicates, ih, Function.comp_apply]

end repeated


/-! ### Declarations of a model -/

namespace Model

variable {m : Model}

/-- What is reported of the declarations of a model: those whose name is taken in their space. -/
theorem IsLaidOut.duplicateDeclarations_eq (hm : m.IsLaidOut) :
    m.duplicateDeclarations =
      (repeated (fun d => (d.1, d.2.1)) (m.declarations.flatMap (·.symbols))).map fun d =>
        .duplicateDeclaration d.1.display d.2.1 d.2.2.location := by
  rw [Model.duplicateDeclarations, flatMap_items, hm.map_symbol, duplicates_map, duplicates_eq]
  rfl

/-- A name is listed as repeated if it is declared at least twice. -/
theorem mem_repeatedSymbols_iff {k : SymbolKind} {name : Name} :
    (k, name) ∈ m.repeatedSymbols ↔ 2 ≤ (m.names k).count name := by
  have hmem : (k, name) ∈ m.repeatedSymbols ↔ name ∈ m.repeatedNames k := by
    simp only [repeatedSymbols, List.mem_flatMap, List.mem_map, Prod.mk.injEq]
    constructor
    · rintro ⟨_, -, _, hn, rfl, rfl⟩
      exact hn
    · intro hn
      exact ⟨k, by cases k <;> decide, name, hn, rfl, rfl⟩
  rw [hmem, repeatedNames, List.mem_filter, List.mem_eraseDups, decide_eq_true_eq]
  exact and_iff_right_of_imp fun h => List.count_pos_iff.1 (Nat.lt_trans Nat.zero_lt_one h)

end Model

/-! ### Members of types and containers -/

namespace Decl

/-- The members of a declaration: the sort of each, its name and where it stands. -/
def Item.members : Item → List (String × Name × Location)
  | complexType d | entityType d =>
    d.properties.map (fun p => ("property", p.name, p.location)) ++
      d.navigation.map fun n => ("navigation property", n.name, n.location)
  | enumType d => d.members.map fun m => ("enum member", m.name, m.location)
  | container d =>
    d.entitySets.map (fun s => ("entity set", s.name, s.location)) ++
      d.associationSets.map fun s => ("association set", s.name, s.location)
  | association _ | term _ => []

end Decl

namespace Catalog

variable {c : Catalog}

theorem members_typeDecl (t : Declared .type) :
    ((c.model t.model).typeDecl t.id).members =
      (c.declaredProperties t).map (fun p =>
          ("property", (c.property p).name, (c.property p).location))
        ++ (c.declaredNavigation t).map (fun n =>
          ("navigation property", (c.navigationProperty n).name, (c.navigationProperty n).location))
        ++ match (c.type t).body.enum? with
          | some body => body.members.map fun m => ("enum member", m.name, m.location)
          | none => [] := by
  unfold declaredProperties declaredNavigation Model.typeDecl type
  cases hbody : ((c.model t.model).type t.id).body <;>
    simp [hbody, TypeBody.structured?, TypeBody.enum?, Decl.Item.members, Model.structuredDecl,
      Model.propertyDecl, Model.navigationDecl, property, navigationProperty, Function.comp_def]

theorem members_containerDecl (k : Declared .container) :
    (Decl.Item.container ((c.model k.model).containerDecl k.id)).members =
      (c.entitySets k).map (fun s => ("entity set", (c.entitySet s).name, (c.entitySet s).location))
        ++ (c.associationSets k).map fun s =>
          ("association set", (c.associationSet s).decl.name, (c.associationSet s).decl.location) := by
  simp [entitySets, associationSets, Decl.Item.members, Model.containerDecl, Model.entitySetDecl,
    container, entitySet, associationSet, Function.comp_def]

/-- The members of a type whose name an earlier one has. -/
theorem duplicateMembers_eq (t : Declared .type) :
    c.duplicateMembers t =
      (repeated (·.2.1) ((c.model t.model).typeDecl t.id).members).map fun (sort, name, location) =>
        .duplicateMember sort name (c.type t).qualifiedName location := by
  rw [members_typeDecl]
  exact duplicates_eq _ _ _

/-- The sets of a container whose name an earlier one has. -/
theorem duplicateSets_eq (k : Declared .container) :
    c.duplicateSets k =
      (repeated (·.2.1) (Decl.Item.container ((c.model k.model).containerDecl k.id)).members).map
        fun (sort, name, location) =>
          .duplicateMember sort name (c.container k).qualifiedName location := by
  rw [members_containerDecl]
  exact duplicates_eq _ _ _

/-! ### Reports -/

section reports

/-- What is reported of something else than repeated members. -/
theorem filter_duplicateMember_eq_nil {ds : List Diagnostic}
    (h : ∀ d ∈ ds, d.code ≠ .duplicateMember) : ds.filter (·.code = .duplicateMember) = [] :=
  List.filter_eq_nil_iff.2 fun d hd hcode => h d hd (of_decide_eq_true hcode)

theorem ne_duplicateMember_of_isOfPlaceholder {code : DiagnosticCode}
    (h : code.isOfPlaceholder = true) : code ≠ .duplicateMember := by
  rintro rfl
  cases h

/-- Placeholders do not report repeated members. -/
theorem filter_diagnostics_of_isExplained {α : Type} (es : List (Element α))
    (h : ∀ e ∈ es, e.IsExplained) :
    (es.flatMap (·.diagnostics)).filter (·.code = .duplicateMember) = [] := by
  refine filter_duplicateMember_eq_nil fun d hd => ?_
  obtain ⟨e, he, hd⟩ := List.mem_flatMap.1 hd
  exact ne_duplicateMember_of_isOfPlaceholder ((h e he).isOfPlaceholder d hd)

theorem filter_nameDiagnostics (m : ModelId) (name : Name) (location : Location) :
    (c.nameDiagnostics m name location).filter (·.code = .duplicateMember) = [] := by
  unfold nameDiagnostics
  split <;> rfl

theorem filter_underlying? (t : Declared .type) :
    ((c.underlying? t).toList.flatMap (·.diagnostics)).filter (·.code = .duplicateMember) = [] := by
  refine filter_duplicateMember_eq_nil fun d hd => ?_
  obtain ⟨r, hr, hd⟩ := List.mem_flatMap.1 hd
  exact ne_duplicateMember_of_isOfPlaceholder
    ((isExplained_of_mem_underlying? (Option.mem_toList.1 hr)).isOfPlaceholder d hd)

theorem code_of_error_memberValue {range : Number.Range} {next : Int} {m : Decl.EnumMember}
    {d : Diagnostic} (hd : memberValue range next m = .error d) : d.code = .invalidConstant := by
  unfold memberValue at hd
  dsimp only at hd
  split at hd
  · split at hd <;> cases hd
    rfl
  · split at hd
    · cases hd
      rfl
    · split at hd <;> cases hd
      rfl

theorem code_of_error_mem_valuesFrom {range : Number.Range} {next : Int}
    {ms : List Decl.EnumMember} {d : Diagnostic} (hd : .error d ∈ valuesFrom range next ms) :
    d.code = .invalidConstant := by
  induction ms generalizing next with
  | nil => cases hd
  | cons m ms ih =>
    rcases List.mem_cons.1 hd with hd | hd
    · exact code_of_error_memberValue hd.symm
    · exact ih hd

/-- A member of an enumeration that has no value has no valid one. -/
theorem code_of_mem_memberValues {t : Declared .type} {d : Diagnostic}
    (hd : d ∈ (c.memberValues t).filterMap fun
      | .ok _ => none
      | .error d => some d) : d.code = .invalidConstant := by
  obtain ⟨value, hvalue, hd⟩ := List.mem_filterMap.1 hd
  cases value with
  | ok => cases hd
  | error d' =>
    cases hd
    unfold memberValues at hvalue
    split at hvalue
    · exact code_of_error_mem_valuesFrom hvalue
    · cases hvalue

theorem filter_memberValues (t : Declared .type) :
    ((c.memberValues t).filterMap fun
        | .ok _ => none
        | .error d => some d).filter (·.code = .duplicateMember) = [] := by
  refine filter_duplicateMember_eq_nil fun d hd => ?_
  rw [code_of_mem_memberValues hd]
  decide

/-- Of what a type reports, only the repeated members are reported as such. -/
theorem filter_typeDiagnostics (t : Declared .type) :
    (c.typeDiagnostics t).filter (·.code = .duplicateMember) = c.duplicateMembers t := by
  have hself : (c.duplicateMembers t).filter (·.code = .duplicateMember) =
      c.duplicateMembers t := by
    rw [duplicateMembers_eq]
    exact List.filter_eq_self.2 (List.forall_mem_map.2 fun _ _ => rfl)
  have hnames : ((c.memberDecls t).flatMap fun m =>
      c.nameDiagnostics t.model m.name m.location).filter (·.code = .duplicateMember) = [] := by
    simp only [List.filter_flatMap, filter_nameDiagnostics]
    exact List.flatMap_eq_nil_iff.2 fun _ _ => rfl
  have hbase := filter_diagnostics_of_isExplained (c.base? t).toList
    fun e he => isExplained_of_mem_base? (Option.mem_toList.1 he)
  have hkey := filter_diagnostics_of_isExplained (c.key t)
    fun e he => isExplained_of_mem_key he
  unfold typeDiagnostics typeDiagnosticsWith
  simp only [List.filter_append, filter_nameDiagnostics, hself, hbase, hkey, filter_underlying?,
    hnames, List.nil_append, List.append_nil]
  exact (congrArg (c.duplicateMembers t ++ ·) (filter_memberValues t)).trans (List.append_nil _)

/-- Of what a container reports, only the repeated sets are reported as such. -/
theorem filter_containerDiagnostics (k : Declared .container) :
    (c.containerDiagnostics k).filter (·.code = .duplicateMember) = c.duplicateSets k := by
  have hself : (c.duplicateSets k).filter (·.code = .duplicateMember) = c.duplicateSets k := by
    rw [duplicateSets_eq]
    exact List.filter_eq_self.2 (List.forall_mem_map.2 fun _ _ => rfl)
  have hextended := filter_diagnostics_of_isExplained (c.extended? k).toList
    fun e he => isExplained_of_mem_extended? (Option.mem_toList.1 he)
  unfold containerDiagnostics containerDiagnosticsWith
  simp only [List.filter_append, filter_nameDiagnostics, hself, hextended, List.nil_append,
    List.append_nil]

end reports

/-! ### The whole model -/

/-- **What is declared twice is reported, and only that.**  In a model that is built from schemas,
each declaration whose name is taken in its space is reported once, where it stands, in document
order; a name leads to the first declaration that takes it, whoever asks; and the names that are
listed as repeated are those that are taken at least twice.  Each type and each container reports
those of its members whose name an earlier member has. -/
theorem duplicates_reported {m : ModelId} {options : Options} {references : List ModelId}
    {schemas : List Decl.Schema} (hm : c.model m = Model.build options references schemas) :
    let symbols := schemas.flatMap (·.symbols)
    (c.model m).duplicateDeclarations =
        (repeated (fun d => (d.1, d.2.1)) symbols).map (fun (k, name, item) =>
          .duplicateDeclaration k.display name item.location) ∧
      (∀ k name, (∃ item, (k, name, item) ∈ symbols) → ∃ id,
        symbols.find? (fun d => d.1 = k ∧ d.2.1 = name) =
            some (k, name, (c.model m).itemDecl (.ofSymbol k id)) ∧
          (symbols.filter (·.1 = k)).findIdx? (·.2.1 = name) = some id.index ∧
          ((c.model m).candidates k name).head? = some id ∧
          c.find? m k name = some ⟨m, id⟩ ∧
          (∀ m' x, c.find? m' k name = some x → x.model = m → x.id = id) ∧
          ∀ s : Declared .schema, s.model = m → ∀ reference, c.expand s reference = name →
            c.resolve? s k reference = some ⟨.self, id⟩) ∧
      (∀ k name, (k, name) ∈ (c.model m).repeatedSymbols ↔
        2 ≤ symbols.countP fun d => d.1 = k ∧ d.2.1 = name) ∧
      (∀ t ∈ c.elements m .type,
        (c.typeDiagnostics t).filter (·.code = .duplicateMember) =
          (repeated (·.2.1) ((c.model m).typeDecl t.id).members).map fun (sort, name, location) =>
            .duplicateMember sort name (c.type t).qualifiedName location) ∧
      ∀ k ∈ c.elements m .container,
        (c.containerDiagnostics k).filter (·.code = .duplicateMember) =
          (repeated (·.2.1) (Decl.Item.container ((c.model m).containerDecl k.id)).members).map
            fun (sort, name, location) =>
              .duplicateMember sort name (c.container k).qualifiedName location := by
  intro symbols
  have hlaid : (c.model m).IsLaidOut := hm ▸ Model.isLaidOut_build _ _ _
  have hsymbols : (c.model m).declarations.flatMap (·.symbols) = symbols := by
    rw [hm, Model.declarations_build]
  have hnames (k : SymbolKind) :
      (c.model m).names k = (symbols.filter (·.1 = k)).map (·.2.1) := by
    rw [hlaid.names_eq, hsymbols]
  refine ⟨?_, fun k name => ?_, fun k name => ?_, fun t ht => ?_, fun k hk => ?_⟩
  · rw [hlaid.duplicateDeclarations_eq, hsymbols]
  · rintro ⟨item, hitem⟩
    have hname : name ∈ (c.model m).names k := by
      rw [hnames]
      exact List.mem_map.2 ⟨_, List.mem_filter.2 ⟨hitem, decide_eq_true rfl⟩, rfl⟩
    obtain ⟨id, hid⟩ := Option.isSome_iff_exists.1 (Model.isSome_first?_iff.2 hname)
    refine ⟨id, hsymbols ▸ hlaid.find?_symbols hid, ?_, ?_, ?_, ?_, ?_⟩
    · obtain ⟨i, hi, rfl⟩ := Option.map_eq_some_iff.1 hid
      rw [hnames, List.idxOf?, List.findIdx?_map] at hi
      simpa only [beq_eq_decide, Function.comp_def] using hi
    · rw [Model.head?_candidates, hid]
    · rw [find?, List.findSome?_cons, hid]
      rfl
    · rintro m' ⟨_, id'⟩ hx rfl
      obtain ⟨r, -, hr⟩ := List.exists_of_findSome?_eq_some hx
      obtain ⟨id'', hid', heq⟩ := Option.map_eq_some_iff.1 hr
      cases heq
      exact Option.some.inj (hid'.symm.trans hid)
    · rintro s rfl reference rfl
      rw [resolve?, handle?, hid]
  · rw [Model.mem_repeatedSymbols_iff, hnames, List.count, List.countP_map, List.countP_filter]
    simp only [Function.comp_apply, beq_eq_decide, ← Bool.decide_and, and_comm]
  · obtain rfl := (c.mem_elements.1 ht).1
    rw [filter_typeDiagnostics, duplicateMembers_eq]
  · obtain rfl := (c.mem_elements.1 hk).1
    rw [filter_containerDiagnostics, duplicateSets_eq]

/-- Two schemas of one namespace.  Both declare a type with the same name, a complex type with two
properties and a navigation property of one name and an enumeration; a term may have the name
too. -/
def clashingSchemas : List Decl.Schema :=
  let property := Decl.Property.make "P" "Edm.Int32"
  let link : Decl.Navigation := ⟨"P", "NS.R", "From", "To", [], .unknown⟩
  [(Decl.Schema.make "NS").addItem (.complexType
      ((((Decl.Structured.make "A").addProperty property).addProperty property).addNavigation link)),
    ((Decl.Schema.make "NS").addItem (.term (.make "A" "Edm.Int32"))).addItem
      (.enumType (.make "A"))]

/-- The enumeration is reported, and of the members of the complex type the last two; the name leads
to the complex type. -/
theorem duplicates_reported_clashingSchemas :
    let c := initial.add { Options.standard with includeCore := false } [] clashingSchemas
    (c.model 1).duplicateDeclarations = [.duplicateDeclaration "type" "NS.A" .unknown] ∧
      c.find? 1 .type "NS.A" = some ⟨1, ⟨0⟩⟩ ∧
      (.type, "NS.A") ∈ (c.model 1).repeatedSymbols ∧
      (c.typeDiagnostics ⟨1, ⟨0⟩⟩).filter (·.code = .duplicateMember) =
        [.duplicateMember "property" "P" "NS.A" .unknown,
          .duplicateMember "navigation property" "P" "NS.A" .unknown] := by
  intro c
  have hm : c.model 1 = _ := initial.model_add _ _ _
  obtain ⟨hreported, hlookup, hrepeated, hmembers, -⟩ := duplicates_reported hm
  refine ⟨hreported.trans (by decide +kernel), ?_, (hrepeated _ _).2 (by decide +kernel),
    (hmembers ⟨1, ⟨0⟩⟩ (by decide +kernel)).trans (by decide +kernel)⟩
  obtain ⟨⟨i⟩, -, hindex, -, hfind, -⟩ := hlookup .type "NS.A" ⟨_, List.mem_cons_self ..⟩
  have hi : some 0 = some i := Eq.trans (by decide +kernel) hindex
  rw [hfind, ← Option.some.inj hi]

end Catalog

end Schemata

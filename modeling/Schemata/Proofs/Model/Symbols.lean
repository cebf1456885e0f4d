import Schemata.Proofs.Catalog
import Schemata.Proofs.Model.Layout

/-!
# The names that a model declares

Each declaration of a schema takes its name, qualified by the schema's namespace, in one of the four
spaces of names.  `Decl.Schema.symbols` says so of the declarations, and the entries of a model say
the same (`IsLaidOut.map_symbol`).  So the names of a kind are those that the declarations take, in
document order (`IsLaidOut.names_eq`), and a name is found where it is declared first
(`IsLaidOut.first?_eq`).
-/

namespace Schemata

namespace Decl

/-- The space in which a declaration takes its name. -/
def Item.space : Item → SymbolKind
  | complexType _ | entityType _ | enumType _ => .type
  | association _ => .association
  | term _ => .term
  | container _ => .container

/-- The spaces and the names that the declarations of a schema take. -/
def Schema.symbols (d : Schema) : List (SymbolKind × Name × Item) :=
  d.items.map fun i => (i.space, qualify d.namespaceName i.name, i)

end Decl

/-- A declaration that takes its name in a space. -/
def ItemId.ofSymbol : (k : SymbolKind) → Id k.element → ItemId
  | .type, id => type id
  | .association, id => association id
  | .term, id => term id
  | .container, id => container id

/-- The number of a declaration that takes its name in a space. -/
def ItemId.as? : (k : SymbolKind) → ItemId → Option (Id k.element)
  | .type, type id => some id
  | .association, association id => some id
  | .term, term id => some id
  | .container, container id => some id
  | _, _ => none

namespace Model

variable {m : Model} {s : Id .schema}

/-- The entries of a kind are those of its elements. -/
theorem toList_entries (m : Model) (k : ElementKind) :
    (m.entries k).toList = (m.ids k).map m.entry := by
  refine List.ext_getElem (by simp [ids, Id.upTo, count]) fun i h h' => ?_
  have hi : i < (m.entries k).size := h
  simp [ids, Id.upTo, entry, Array.getD, hi]

variable (m) in
/-- The declarations of a model, in document order. -/
def items : List ItemId := (m.ids .schema).flatMap fun s => (m.schema s).items

theorem flatMap_items (m : Model) : m.schemas.toList.flatMap (·.items) = m.items := by
  rw [show m.schemas.toList = _ from m.toList_entries .schema, List.flatMap_map]
  rfl

theorem symbol_eq {ns : Name} {i : ItemId} (hi : m.ItemIn s ns i) :
    m.symbol i =
      ((m.itemDecl i).space, qualify ns (m.itemDecl i).name, (m.itemDecl i).location) := by
  cases i with
  | type id =>
    rw [symbol, hi.qualifiedName, itemDecl, typeDecl]
    cases (m.type id).body <;> rfl
  | association id => rw [symbol, hi.qualifiedName]; rfl
  | term id => rw [symbol, hi.qualifiedName]; rfl
  | container id => rw [symbol, hi.qualifiedName]; rfl

/-- The declarations take the names that they were declared with. -/
theorem IsLaidOut.symbols_eq (hm : m.IsLaidOut) :
    m.declarations.flatMap (·.symbols) =
      m.items.map fun i => ((m.symbol i).1, (m.symbol i).2.1, m.itemDecl i) := by
  rw [items, List.map_flatMap, declarations, List.flatMap_map]
  refine List.flatMap_congr fun s hs => ?_
  rw [Decl.Schema.symbols, schemaDecl, List.map_map]
  refine List.map_congr_left fun i hi => ?_
  rw [symbol_eq (hm.schemas s hs i hi)]
  rfl

/-- The declarations stand where they were declared. -/
theorem IsLaidOut.map_symbol (hm : m.IsLaidOut) :
    m.items.map m.symbol =
      (m.declarations.flatMap (·.symbols)).map fun d => (d.1, d.2.1, d.2.2.location) := by
  rw [hm.symbols_eq, List.map_map]
  refine List.map_congr_left fun i hi => ?_
  obtain ⟨s, hs, hi⟩ := List.mem_flatMap.1 hi
  simp only [Function.comp_apply, symbol_eq (hm.schemas s hs i hi)]

theorem insideItem_element (k : SymbolKind) (i : ItemId) :
    m.insideItem i k.element = (ItemId.as? k i).toList := by
  cases k <;> cases i <;>
    simp [insideItem, insideType, insideProperty, insideNavigation, insideAssociation, insideTerm,
      insideContainer, insideEntitySet, ItemId.as?]

/-- The elements that have names in a space are the declarations that take one there. -/
theorem IsLaidOut.ids_element (hm : m.IsLaidOut) (k : SymbolKind) :
    m.ids k.element = m.items.filterMap (ItemId.as? k) := by
  rw [hm.ids, items, List.filterMap_flatMap]
  simp only [List.filterMap_eq_flatMap_toList, ← insideItem_element (m := m)]
  cases k <;> simp [insideSchema, insideBlocks]

variable (m) in
/-- The qualified name of an element that has one. -/
def qualifiedNameOf : (k : SymbolKind) → Id k.element → Name
  | .type, id => (m.type id).qualifiedName
  | .term, id => (m.term id).qualifiedName
  | .container, id => (m.container id).qualifiedName
  | .association, id => (m.association id).qualifiedName

theorem names_eq_map (m : Model) (k : SymbolKind) :
    m.names k = (m.ids k.element).map (m.qualifiedNameOf k) := by
  cases k with
  | type => rw [names, show m.types.toList = _ from m.toList_entries .type, List.map_map]; rfl
  | term => rw [names, show m.terms.toList = _ from m.toList_entries .term, List.map_map]; rfl
  | container =>
    rw [names, show m.containers.toList = _ from m.toList_entries .container, List.map_map]; rfl
  | association =>
    rw [names, show m.associations.toList = _ from m.toList_entries .association, List.map_map]
    rfl

theorem symbol_fst_eq_iff {k : SymbolKind} {i : ItemId} :
    (m.symbol i).1 = k ↔ (ItemId.as? k i).isSome := by
  cases k <;> cases i <;> simp [symbol, ItemId.as?]

theorem symbol_of_as? {k : SymbolKind} {i : ItemId} {id : Id k.element}
    (h : ItemId.as? k i = some id) : (m.symbol i).2.1 = m.qualifiedNameOf k id := by
  cases k <;> cases i <;> cases h <;> rfl

/-- **The names of a kind** are those that the declarations take in its space. -/
theorem IsLaidOut.names_eq (hm : m.IsLaidOut) (k : SymbolKind) :
    m.names k = ((m.declarations.flatMap (·.symbols)).filter (·.1 = k)).map (·.2.1) := by
  rw [names_eq_map, hm.ids_element, hm.symbols_eq]
  generalize m.items = is
  induction is with
  | nil => rfl
  | cons i is ih =>
    rw [List.map_cons]
    cases h : ItemId.as? k i with
    | none =>
      have hk : ¬ (m.symbol i).1 = k := by rw [symbol_fst_eq_iff, h]; simp
      rw [List.filterMap_cons_none h, List.filter_cons_of_neg (by simpa using hk), ih]
    | some id =>
      have hk : (m.symbol i).1 = k := by rw [symbol_fst_eq_iff, h]; simp
      rw [List.filterMap_cons_some h, List.filter_cons_of_pos (by simpa using hk), List.map_cons,
        List.map_cons, ih, symbol_of_as? h]

theorem names_build (options : Options) (references : List ModelId) (schemas : List Decl.Schema)
    (k : SymbolKind) :
    (build options references schemas).names k =
      ((schemas.flatMap (·.symbols)).filter (·.1 = k)).map (·.2.1) := by
  rw [(isLaidOut_build options references schemas).names_eq, declarations_build]

/-! ### Schemas -/

theorem count_schema_build (options : Options) (references : List ModelId)
    (schemas : List Decl.Schema) :
    (build options references schemas).count .schema = schemas.length := by
  have hdeclarations := congrArg List.length (declarations_build options references schemas)
  simpa [declarations, ids, Id.upTo] using hdeclarations

/-- Schemas are numbered in their order. -/
theorem schemaDecl_build {options : Options} {references : List ModelId}
    {schemas : List Decl.Schema} {i : Nat} {d : Decl.Schema} (hd : schemas[i]? = some d) :
    (build options references schemas).schemaDecl ⟨i⟩ = d := by
  have hdeclarations := declarations_build options references schemas
  rw [← hdeclarations, declarations, ids, Id.upTo, List.map_map, List.getElem?_map,
    Option.map_eq_some_iff] at hd
  obtain ⟨j, hj, rfl⟩ := hd
  obtain rfl : i = j := by
    obtain ⟨h, hij⟩ := List.getElem?_eq_some_iff.1 hj
    rw [← hij, List.getElem_range]
  rfl

/-- What a reference stands for depends on what the schema declares alone. -/
theorem expand_congr {m' : Model} {s' : Id .schema} (h : m.schemaDecl s = m'.schemaDecl s')
    (reference : Name) : m.expand s reference = m'.expand s' reference := by
  have haliases (m : Model) (s : Id .schema) : m.aliases s =
      (m.schemaDecl s).alias?.toList.map (·, (m.schemaDecl s).namespaceName) ++
        (m.schemaDecl s).usings.map fun u => (u.aliasName, u.namespaceName) := rfl
  rw [expand, expand, haliases, haliases, h]

/-! ### What a name leads to -/

/-- A name leads to the first element that has it. -/
theorem first?_eq_find? (m : Model) (k : SymbolKind) (name : Name) :
    m.first? k name = (m.ids k.element).find? fun id => m.qualifiedNameOf k id = name := by
  have hids (i : Nat) (h : i < (m.ids k.element).length) : (m.ids k.element)[i] = ⟨i⟩ := by
    simp [ids, Id.upTo]
  refine Option.ext fun id => ?_
  obtain ⟨i⟩ := id
  rw [first?, Option.map_eq_some_iff, List.find?_eq_some_iff_getElem]
  simp only [names_eq_map, List.idxOf?_eq_some_iff, List.getElem_map, List.length_map, hids,
    Id.mk.injEq, decide_eq_true_eq, Bool.not_eq_true', decide_eq_false_iff_not]
  constructor
  · rintro ⟨_, ⟨hlt, hname, hfirst⟩, rfl⟩
    exact ⟨hname, _, hlt, rfl, hfirst⟩
  · rintro ⟨hname, _, hlt, rfl, hfirst⟩
    exact ⟨_, ⟨hlt, hname, hfirst⟩, rfl⟩

theorem first?_build (options : Options) (references : List ModelId) (schemas : List Decl.Schema)
    (k : SymbolKind) (name : Name) :
    (build options references schemas).first? k name =
      ((((schemas.flatMap (·.symbols)).filter (·.1 = k)).map (·.2.1)).idxOf? name).map Id.mk := by
  rw [first?, names_build]

theorem candidates_eq_filter (m : Model) (k : SymbolKind) (name : Name) :
    m.candidates k name = (m.ids k.element).filter fun id => m.qualifiedNameOf k id = name := by
  rw [candidates, names_eq_map, ← List.map_prod_left_eq_zip, List.filterMap_map,
    ← List.filterMap_eq_filter]
  refine List.filterMap_congr fun id _ => ?_
  simp only [Function.comp_apply, Option.guard, decide_eq_true_eq]

/-- Of all declarations with a name, the first one is found. -/
theorem head?_candidates (m : Model) (k : SymbolKind) (name : Name) :
    (m.candidates k name).head? = m.first? k name := by
  rw [candidates_eq_filter, List.head?_filter, first?_eq_find?]

theorem isSome_first?_iff {k : SymbolKind} {name : Name} :
    (m.first? k name).isSome ↔ name ∈ m.names k := by
  rw [first?, Option.isSome_map, List.isSome_idxOf?]

theorem eq_ofSymbol_of_as? {k : SymbolKind} {i : ItemId} {id : Id k.element}
    (h : ItemId.as? k i = some id) : i = .ofSymbol k id := by
  cases k <;> cases i <;> cases h <;> rfl

/-- What a name leads to is the first declaration that takes it. -/
theorem IsLaidOut.find?_symbols (hm : m.IsLaidOut) {k : SymbolKind} {name : Name}
    {id : Id k.element} (h : m.first? k name = some id) :
    (m.declarations.flatMap (·.symbols)).find? (fun d => d.1 = k ∧ d.2.1 = name) =
      some (k, name, m.itemDecl (.ofSymbol k id)) := by
  rw [first?_eq_find?, hm.ids_element, List.find?_filterMap] at h
  obtain ⟨i, hi, hid⟩ := Option.bind_eq_some_iff.1 h
  have hname : m.qualifiedNameOf k id = name := by
    simpa [hid] using List.find?_some hi
  have hwanted : ((fun d : SymbolKind × Name × Decl.Item => decide (d.1 = k ∧ d.2.1 = name)) ∘
      fun i => ((m.symbol i).1, (m.symbol i).2.1, m.itemDecl i)) =
      fun i => (ItemId.as? k i).any fun id => decide (m.qualifiedNameOf k id = name) := by
    funext i
    cases has : ItemId.as? k i with
    | none => simp [symbol_fst_eq_iff, has]
    | some id => simp [symbol_fst_eq_iff, has, symbol_of_as? has]
  rw [hm.symbols_eq, List.find?_map, hwanted, hi, Option.map_some, ← eq_ofSymbol_of_as? hid,
    symbol_of_as? hid, hname, symbol_fst_eq_iff.2 (by rw [hid, Option.isSome_some])]

end Model

end Schemata

import Schemata.Proofs.Matching.Permuted

/-!
# Models with one more schema

A model may declare one more schema after those of another model.  Each schema of the other model is
then declared alike, and the elements of the one are those of the other and those that the new
schema holds (`exists_extended`).  What lies inside a schema is numbered schema by schema, so it has
the same number in both models.  Only annotations of blocks have other numbers: they are numbered
after all schemas.

A name that the new schema does not declare leads to the same element in both models
(`first?_eq_of_declarations`).
-/

namespace Schemata

theorem Id.eq_upTo_of_isPrefix {k : ElementKind} {ids : List (Id k)} {n : Nat}
    (h : ids <+: Id.upTo k n) : ids = Id.upTo k ids.length := by
  have hle : ids.length ≤ n := by simpa [Id.upTo] using h.length_le
  have htake := List.prefix_iff_eq_take.1 h
  rwa [Id.upTo, ← List.map_take, List.take_range, Nat.min_eq_left hle] at htake

/-- Each element of one model is taken for one of the other, and what else there is in the other is
what the schema holds. -/
def Matching.CoversBut (T : Matching) (m m' : Model) (s : Id .schema) : Prop :=
  ∀ k, ∃ ids, List.Forall₂ (T k) (m.ids k) ids ∧ (ids ++ m'.held s k).Perm (m'.ids k)

namespace Model

open Contents (Match)

/-- The other model has the elements of this one and those that its schema `s` holds; what lies
inside a schema of this model keeps its number. -/
structure Extended (T : Matching) (m m' : Model) (s : Id .schema) : Prop extends
    Embedded T m m' where
  covers : T.CoversBut m m' s
  number : ∀ {k : ElementKind} {id : Id k}, id ∈ Contents.concat (m.ids .schema) m.insideSchema k →
    T k id id

variable {m m' : Model} {T : Matching} {d : Decl.Schema}

/-! ### Numbers -/

/-- What lies inside schemas is numbered first. -/
theorem IsLaidOut.isPrefix_insideSchema (hm : m.IsLaidOut) {schemas : List (Id .schema)}
    (h : schemas <+: m.ids .schema) (k : ElementKind) :
    Contents.concat schemas m.insideSchema k <+: m.ids k := by
  obtain ⟨rest, hrest⟩ := h
  rw [hm.ids, ← hrest, Contents.append_apply, Contents.concat_apply, Contents.concat_apply,
    List.flatMap_append, List.append_assoc]
  exact List.prefix_append _ _

/-- But for annotations, all elements lie inside schemas. -/
theorem IsLaidOut.mem_insideSchema (hm : m.IsLaidOut) {k : ElementKind} (hk : k ≠ .annot)
    {id : Id k} (hid : id ∈ m.ids k) : id ∈ Contents.concat (m.ids .schema) m.insideSchema k := by
  rw [hm.ids, Contents.append_apply, insideBlocks, Contents.of_of_ne _ hk.symm,
    List.append_nil] at hid
  exact hid

/-- If each schema is taken for the one with its number, then so is what lies inside schemas. -/
theorem Embedded.number (h : m.Embedded T m') (hschemas : m.ids .schema <+: m'.ids .schema)
    (hself : ∀ s ∈ m.ids .schema, T .schema s s) {k : ElementKind} {id : Id k}
    (hid : id ∈ Contents.concat (m.ids .schema) m.insideSchema k) : T k id id := by
  have hinside (s : Id .schema) (hs : s ∈ m.ids .schema) :
      Match T (m.insideSchema s) (m'.insideSchema s) :=
    ((h.held (hself s hs)).of_append (any_insideSchema (h.same (hself s hs)))).1
  have hmatch := Match.concat (List.forall₂_same.2 hinside) k
  have hbegin := Id.eq_upTo_of_isPrefix (h.isLaidOut.isPrefix_insideSchema (List.prefix_refl _) k)
  have hbegin' := Id.eq_upTo_of_isPrefix (h.isLaidOut'.isPrefix_insideSchema hschemas k)
  -- both sides begin with as many numbers, so these are the same
  have hsame : Contents.concat (m.ids .schema) m'.insideSchema k =
      Contents.concat (m.ids .schema) m.insideSchema k := by
    rw [hbegin, hbegin', hmatch.length_eq]
  rw [hsame] at hmatch
  exact List.forall₂_same.1 hmatch id hid

/-! ### One more schema -/

/-- The schemas of the one model are declared alike in the other, where one comes after them. -/
theorem sameSchema_of_declarations (hdeclarations : m'.declarations = m.declarations ++ [d]) :
    m'.ids .schema = m.ids .schema ++ [⟨m.count .schema⟩] ∧
      List.Forall₂ (m.SameSchema m') (m.ids .schema) (m.ids .schema) ∧
      m'.schemaDecl ⟨m.count .schema⟩ = d := by
  have hcount : m'.count .schema = m.count .schema + 1 := by
    have hlength := congrArg List.length hdeclarations
    simpa [declarations, ids, Id.upTo] using hlength
  have hids : m'.ids .schema = m.ids .schema ++ [⟨m.count .schema⟩] := by
    rw [ids, hcount, Id.upTo, List.range_succ, List.map_append]
    rfl
  rw [declarations, hids, List.map_append, declarations] at hdeclarations
  obtain ⟨hsame, hlast⟩ := List.append_inj hdeclarations (by simp)
  exact ⟨hids, (forall₂_of_map_eq hsame.symm).imp fun _ _ => sameSchema,
    List.singleton_inj.1 hlast⟩

/-- **One more schema** adds what it holds and leaves all else as it is. -/
theorem exists_extended (hm : m.IsLaidOut) (hm' : m'.IsLaidOut) (hc : m.IsConsistent)
    (hc' : m'.IsConsistent) (hdeclarations : m'.declarations = m.declarations ++ [d]) :
    ∃ T, m.Extended T m' ⟨m.count .schema⟩ := by
  obtain ⟨hids, hsame, -⟩ := sameSchema_of_declarations hdeclarations
  have hembedded := embedded_aligned hm hm' hc hc' hsame (.of_eq hids.symm)
  refine ⟨_, hembedded, ?_, ?_⟩
  · intro k
    obtain ⟨ids, hforall, hperm⟩ := exists_aligned hm hsame k
    refine ⟨ids, hforall, (hperm.append_right _).trans ?_⟩
    have hall := hm'.perm_held (.of_eq hids.symm) k
    rwa [Contents.concat_apply, List.flatMap_append, List.flatMap_singleton] at hall
  · refine hembedded.number (hids ▸ List.prefix_append _ _) fun s hs => ?_
    -- each schema is aligned with itself
    obtain ⟨s', hs'⟩ := hembedded.total hs
    have hmem : (s, s') ∈ (m.ids .schema).zip (m.ids .schema) := by
      simpa [Matching.aligned, held_schema] using hs'
    obtain rfl : s = s' := List.forall₂_zip (List.forall₂_same.2 fun _ _ => rfl) hmem
    exact hs'

/-! ### What a name leads to -/

/-- The new schema comes last, so it does not take a name from those before it. -/
theorem first?_eq_of_declarations (hm : m.IsLaidOut) (hm' : m'.IsLaidOut)
    (hdeclarations : m'.declarations = m.declarations ++ [d]) {k : SymbolKind} {name : Name}
    (hname : (k, name) ∉ d.symbols.map fun s => (s.1, s.2.1)) :
    m'.first? k name = m.first? k name := by
  have hnames : m'.names k = m.names k ++ (d.symbols.filter (·.1 = k)).map (·.2.1) := by
    rw [hm'.names_eq, hm.names_eq, hdeclarations, List.flatMap_append, List.flatMap_singleton,
      List.filter_append, List.map_append]
  have hnone : ((d.symbols.filter (·.1 = k)).map (·.2.1)).idxOf? name = none := by
    rw [List.idxOf?_eq_none_iff]
    intro h
    obtain ⟨s, hs, rfl⟩ := List.mem_map.1 h
    obtain ⟨hs, hk⟩ := List.mem_filter.1 hs
    exact hname (List.mem_map.2 ⟨s, hs, by rw [of_decide_eq_true hk]⟩)
  have happend (l l' : List Name) : (l ++ l').idxOf? name =
      (l.idxOf? name).or ((l'.idxOf? name).map (· + l.length)) := List.findIdx?_append
  rw [first?, first?, hnames, happend, hnone, Option.map_none, Option.or_none]

/-- A name that leads to the same number leads to elements that match. -/
theorem Extended.first? {s : Id .schema} (h : m.Extended T m' s) {k : SymbolKind} {name : Name}
    (hfirst : m'.first? k name = m.first? k name) :
    Option.Rel (T k.element) (m.first? k name) (m'.first? k name) := by
  rw [hfirst]
  cases hid : m.first? k name with
  | none => exact .none
  | some id =>
    refine .some (h.number (h.isLaidOut.mem_insideSchema ?_ ?_))
    · cases k <;> decide
    · rw [first?_eq_find?] at hid
      exact List.mem_of_find?_eq_some hid

end Model

end Schemata

import Schemata.Proofs.Matching.Entries

/-!
# Models of the same schemas in another order

If two models declare the same schemas, in whatever order, then the schemas of the one can be put in
the order of the other.  What they hold then has the same shape, and elements that come at the same
place are taken for one another (`Matching.aligned`).  So the models are paired
(`exists_paired`): nothing but the numbers has to do with the order.
-/

namespace Schemata

/-- Elements at the same place are taken for one another. -/
def Matching.aligned (a b : Model.Contents) : Matching :=
  fun k id id' => (id, id') ∈ (a k).zip (b k)

namespace Model

open Contents (Match)

variable {m m' : Model} {a b : Contents}

/-! ### Place by place -/

theorem match_aligned (h : Match .any a b) : Match (.aligned a b) a b :=
  fun k => List.forall₂_iff_zip.2 ⟨(h k).length_eq, id⟩

/-- Where no element comes twice, none is taken for two. -/
theorem biUnique_aligned (h : Match .any a b) {k : ElementKind} (ha : (a k).Nodup)
    (hb : (b k).Nodup) : Relator.BiUnique (Matching.aligned a b k) := by
  have hlength := (h k).length_eq
  have hfst : (((a k).zip (b k)).map Prod.fst).Nodup := by
    rwa [List.map_fst_zip hlength.le]
  have hsnd : (((a k).zip (b k)).map Prod.snd).Nodup := by
    rwa [List.map_snd_zip hlength.ge]
  constructor
  · intro x x' y hx hx'
    exact congrArg Prod.fst (List.inj_on_of_nodup_map hsnd hx hx' rfl)
  · intro x y y' hy hy'
    exact congrArg Prod.snd (List.inj_on_of_nodup_map hfst hy hy' rfl)

/-! ### All that schemas hold -/

theorem held_schema (s : Id .schema) : m.held s .schema = [s] := by
  have hitem (i : ItemId) : m.insideItem i .schema = [] := by
    cases i <;> simp [insideItem, insideType, insideProperty, insideNavigation, insideAssociation,
      insideTerm, insideContainer, insideEntitySet]
  simp [held, insideSchema, insideBlocks, hitem]

/-- In whatever order the schemas are taken, what they hold is all that there is. -/
theorem IsLaidOut.perm_held (hm : m.IsLaidOut) {schemas : List (Id .schema)}
    (hschemas : schemas.Perm (m.ids .schema)) (k : ElementKind) :
    (Contents.concat schemas m.held k).Perm (m.ids k) := by
  have hids : m.ids k = (m.ids .schema).flatMap (m.insideSchema · k) ++
      (m.ids .schema).flatMap fun s => insideBlocks (m.blocksOf s) k := by
    conv_lhs => rw [hm.ids, hm.blocksOf, insideBlocks_flatMap]
    rfl
  rw [hids]
  exact (hschemas.flatMap_right _).trans (List.flatMap_append_perm _ _ _).symm

theorem SameSchema.any_held {s s' : Id .schema} (h : m.SameSchema m' s s') :
    Match .any (m.held s) (m'.held s') :=
  (any_insideSchema h).append (any_insideBlocks h)

section aligned

variable (hm : m.IsLaidOut) (hm' : m'.IsLaidOut) (hc : m.IsConsistent) (hc' : m'.IsConsistent)
  {schemas : List (Id .schema)} (hsame : List.Forall₂ (m.SameSchema m') (m.ids .schema) schemas)
include hm hm' hc hc' hsame

/-- Schemas that are declared alike, each at the place of the other, hold the same; the other model
may have schemas that are left over. -/
theorem embedded_aligned {rest : List (Id .schema)}
    (hperm : (schemas ++ rest).Perm (m'.ids .schema)) :
    m.Embedded (.aligned (.concat (m.ids .schema) m.held) (.concat schemas m'.held)) m' := by
  have hsize := hsame.imp fun _ _ h => h.any_held
  have hmatch := match_aligned (Match.concat hsize)
  have hheld := hmatch.of_concat hsize
  have hids (k : ElementKind) := hm.perm_held (.refl _) k
  have hids' (k : ElementKind) :
      (Contents.concat schemas m'.held k ++ Contents.concat rest m'.held k).Perm (m'.ids k) := by
    have hall := hm'.perm_held hperm k
    rwa [Contents.concat_apply, List.flatMap_append] at hall
  -- of schemas a schema holds itself only, so they are aligned as they are listed
  have hschema {s s' : Id .schema}
      (hs : Matching.aligned (.concat (m.ids .schema) m.held) (.concat schemas m'.held) .schema
        s s') : (s, s') ∈ (m.ids .schema).zip schemas := by
    simpa [Matching.aligned, held_schema] using hs
  constructor
  · exact hm
  · exact hm'
  · exact hc
  · exact hc'
  · exact fun k => biUnique_aligned (.concat hsize) ((hids k).nodup_iff.2 (Id.nodup_upTo _ _))
      ((hids' k).nodup_iff.2 (Id.nodup_upTo _ _)).of_append_left
  · intro k id hid
    obtain ⟨id', -, hid⟩ := exists_of_forall₂ (hmatch k) ((hids k).mem_iff.2 hid)
    exact ⟨id', hid⟩
  · intro k id id' hid
    obtain ⟨hid, hid'⟩ := List.of_mem_zip hid
    exact ⟨(hids k).mem_iff.1 hid, (hids' k).mem_iff.1 (List.mem_append_left _ hid')⟩
  · exact fun hs => List.forall₂_zip hsame (hschema hs)
  · exact fun hs => List.forall₂_zip hheld (hschema hs)

omit hm' hc hc' in
/-- The elements of the one model have counterparts at the same places of what the schemas of the
other hold. -/
theorem exists_aligned (k : ElementKind) :
    ∃ ids, List.Forall₂ (Matching.aligned (.concat (m.ids .schema) m.held)
      (.concat schemas m'.held) k) (m.ids k) ids ∧
      ids.Perm (Contents.concat schemas m'.held k) := by
  have hmatch := match_aligned (Match.concat (hsame.imp fun _ _ h => h.any_held))
  exact List.perm_comp_forall₂ (hm.perm_held (.refl _) k).symm (hmatch k)

/-- Where no schema is left over, the models are paired. -/
theorem paired_aligned (hperm : schemas.Perm (m'.ids .schema)) :
    m.Paired (.aligned (.concat (m.ids .schema) m.held) (.concat schemas m'.held)) m' where
  toEmbedded := embedded_aligned hm hm' hc hc' hsame (by rwa [List.append_nil])
  covers := by
    intro k
    obtain ⟨ids, hforall, hids⟩ := exists_aligned hm hsame k
    exact ⟨ids, hforall, hids.trans (hm'.perm_held hperm k)⟩

end aligned

/-- **The order of the schemas does not matter** to what the elements of a model are. -/
theorem exists_paired (hm : m.IsLaidOut) (hm' : m'.IsLaidOut) (hc : m.IsConsistent)
    (hc' : m'.IsConsistent) (hperm : m.declarations.Perm m'.declarations) :
    ∃ T, m.Paired T m' := by
  have hmap : List.Forall₂ (fun d s' => d = m'.schemaDecl s') m'.declarations (m'.ids .schema) :=
    List.forall₂_map_left_iff.2 (List.forall₂_same.2 fun _ _ => rfl)
  -- the schemas of `m'` in the order in which `m` has them
  obtain ⟨schemas, hschemas, hperm⟩ := List.perm_comp_forall₂ hperm hmap
  exact ⟨_, paired_aligned hm hm' hc hc'
    ((List.forall₂_map_left_iff.1 hschemas).imp fun _ _ => sameSchema) hperm⟩

end Model

end Schemata

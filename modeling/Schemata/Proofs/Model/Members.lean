import Schemata.Proofs.Model.Symbols

/-!
# The members of types and containers

The properties of a model are those that its types declare, type by type and in the order of
declaration, and so are the navigation properties, and the entity sets that its containers declare.
As each member names the element that declares it, an element declares the members that name it, in
the order of their numbers (`IsLaidOut.propertiesOf_eq`, `IsLaidOut.navigationOf_eq`,
`IsLaidOut.entitySets_eq`).
-/

namespace Schemata.Model

variable {m : Model} {k : ElementKind} {o : SymbolKind} {owner : Id o.element}

section parts

variable {α β : Type} [DecidableEq α] {part : α → List β} {l : List α} {a : α}

theorem flatMap_ite_eq (hl : l.Nodup) (hnone : a ∉ l → part a = []) :
    (l.flatMap fun b => if b = a then part b else []) = part a := by
  have hrest {l : List α} (ha : a ∉ l) : (l.flatMap fun b => if b = a then part b else []) = [] :=
    List.flatMap_eq_nil_iff.2 fun b hb => if_neg fun (heq : b = a) => ha (heq ▸ hb)
  by_cases ha : a ∈ l
  · induction l with
    | nil => cases ha
    | cons b l ih =>
      obtain ⟨hb, hl⟩ := List.nodup_cons.1 hl
      rw [List.flatMap_cons]
      rcases List.mem_cons.1 ha with rfl | ha
      · rw [if_pos rfl, hrest hb, List.append_nil]
      · rw [if_neg fun (heq : b = a) => hb (heq ▸ ha), List.nil_append]
        exact ih hl (absurd ha) ha
  · rw [hrest ha, hnone ha]

/-- Where each part of a list has its own key, the elements with one key are a part. -/
theorem filter_flatMap_eq {key : β → α} (hl : l.Nodup) (hkey : ∀ a ∈ l, ∀ b ∈ part a, key b = a)
    (hnone : a ∉ l → part a = []) : (l.flatMap part).filter (key · = a) = part a := by
  rw [List.filter_flatMap]
  refine (List.flatMap_congr fun a' ha' => ?_).trans (flatMap_ite_eq hl hnone)
  split_ifs with heq
  · exact List.filter_eq_self.2 fun b hb => decide_eq_true ((hkey a' ha' b hb).trans heq)
  · refine List.filter_eq_nil_iff.2 fun b hb hba => heq ?_
    exact (hkey a' ha' b hb).symm.trans (of_decide_eq_true hba)

end parts

/-- Each element that has a name is declared in a schema. -/
theorem IsLaidOut.exists_itemIn (hm : m.IsLaidOut) (h : owner ∈ m.ids o.element) :
    ∃ s ns, m.ItemIn s ns (.ofSymbol o owner) := by
  rw [hm.ids_element o] at h
  obtain ⟨i, hi, hio⟩ := List.mem_filterMap.1 h
  obtain ⟨s, hs, hi⟩ := List.mem_flatMap.1 hi
  exact ⟨s, _, eq_ofSymbol_of_as? hio ▸ hm.schemas s hs i hi⟩

/-- An element that is not there has the default entry. -/
theorem entry_of_notMem_ids {id : Id k} (h : id ∉ m.ids k) : m.entry id = default :=
  m.entry_of_count_le (Nat.le_of_not_lt fun hlt => h (Id.mem_upTo.2 hlt))

/-- The elements of a kind that lie inside types alone, or inside containers alone, where each says
in which. -/
theorem IsLaidOut.eq_filter_ids (hm : m.IsLaidOut) (part : Id o.element → List (Id k))
    {declaring : Id k → Id o.element} (hblocks : ∀ bs, insideBlocks bs k = [])
    (hschema : ∀ s, m.insideSchema s k = (m.schema s).items.flatMap (m.insideItem · k))
    (hitem : ∀ i, m.insideItem i k = (ItemId.as? o i).toList.flatMap part)
    (hpart : ∀ s ns a, m.ItemIn s ns (.ofSymbol o a) → ∀ id ∈ part a, declaring id = a)
    (hnone : owner ∉ m.ids o.element → part owner = []) :
    part owner = (m.ids k).filter (declaring · = owner) := by
  have hids : m.ids k = (m.ids o.element).flatMap part := by
    rw [hm.ids, hm.ids_element o, items, Contents.append_apply, Contents.concat_apply, hblocks,
      List.append_nil, List.filterMap_eq_flatMap_toList, List.flatMap_assoc, List.flatMap_assoc]
    refine List.flatMap_congr fun s _ => ?_
    rw [hschema]
    exact List.flatMap_congr fun i _ => hitem i
  rw [hids]
  refine (filter_flatMap_eq (Id.nodup_upTo _ _) (fun a ha => ?_) hnone).symm
  obtain ⟨s, ns, ha⟩ := hm.exists_itemIn ha
  exact hpart s ns a ha

/-- **The properties that a type declares** are those that name it, in order. -/
theorem IsLaidOut.propertiesOf_eq (hm : m.IsLaidOut) (t : Id .type) :
    m.propertiesOf t = (m.ids .property).filter fun p => (m.property p).declaring = t := by
  refine hm.eq_filter_ids (o := .type) m.propertiesOf (fun _ => by simp [insideBlocks])
    (fun _ => by simp [insideSchema]) (fun i => ?_)
    (fun _ _ _ ht p hp => (ht.properties p hp).declaring) fun ht => ?_
  · cases i <;>
      simp [insideItem, insideType, insideProperty, insideNavigation, insideAssociation, insideTerm,
        insideContainer, insideEntitySet, ItemId.as?]
  · rw [propertiesOf, show m.type t = default from entry_of_notMem_ids ht]
    rfl

/-- **The navigation properties that a type declares** are those that name it, in order. -/
theorem IsLaidOut.navigationOf_eq (hm : m.IsLaidOut) (t : Id .type) :
    m.navigationOf t =
      (m.ids .navigation).filter fun n => (m.navigationProperty n).declaring = t := by
  refine hm.eq_filter_ids (o := .type) m.navigationOf (fun _ => by simp [insideBlocks])
    (fun _ => by simp [insideSchema]) (fun i => ?_)
    (fun _ _ _ ht n hn => (ht.navigation n hn).declaring) fun ht => ?_
  · cases i <;>
      simp [insideItem, insideType, insideProperty, insideNavigation, insideAssociation, insideTerm,
        insideContainer, insideEntitySet, ItemId.as?]
  · rw [navigationOf, show m.type t = default from entry_of_notMem_ids ht]
    rfl

/-- **The entity sets that a container declares** are those that name it, in order. -/
theorem IsLaidOut.entitySets_eq (hm : m.IsLaidOut) (c : Id .container) :
    (m.container c).entitySets =
      (m.ids .entitySet).filter fun s => (m.entitySet s).container = c := by
  refine hm.eq_filter_ids (o := .container) (fun c => (m.container c).entitySets)
    (fun _ => by simp [insideBlocks]) (fun _ => by simp [insideSchema]) (fun i => ?_)
    (fun _ _ _ hc s hs => (hc.entitySets s hs).container) fun hc => ?_
  · cases i <;>
      simp [insideItem, insideType, insideProperty, insideNavigation, insideAssociation, insideTerm,
        insideContainer, insideEntitySet, ItemId.as?]
  · rw [show m.container c = default from entry_of_notMem_ids hc]
    rfl

end Schemata.Model

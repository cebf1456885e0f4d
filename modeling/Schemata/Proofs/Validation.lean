import Schemata.Proofs.Expr.Diagnostics
import Schemata.Proofs.Types.Members

/-!
# What a clean report says

If nothing is reported of a model and of the models that it references, no question about its
elements is answered by a placeholder (`isResolved_of_validate`); paths and the fields of records
are apart, for these are followed only when they are read.

Most questions about an element are covered by what is reported of it.  Some are answered by other
elements: a key may be that of a base, and the target of a navigation property is found by way of
the association.  These may be elements of a referenced model.
-/

namespace Schemata

namespace Catalog

variable {c : Catalog} {m : ModelId}

variable (c) in
/-- No question about the elements of a model is answered by a placeholder.  It is not asked where
paths and the fields of records lead. -/
structure IsResolved (m : ModelId) : Prop where
  base : ∀ t ∈ c.elements m .type, ∀ e ∈ c.base? t, e.placeholder? = none
  key : ∀ t ∈ c.elements m .type, ∀ e ∈ c.key t, e.placeholder? = none
  effectiveKey : ∀ t ∈ c.elements m .type, ∀ e ∈ c.effectiveKey t, e.placeholder? = none
  underlying : ∀ t ∈ c.elements m .type, ∀ r ∈ c.underlying? t, r.placeholder? = none
  propertyType : ∀ p ∈ c.elements m .property, (c.propertyType p).placeholder? = none
  propertyElement : ∀ p ∈ c.elements m .property, ∀ e ∈ c.propertyElement? p,
    e.placeholder? = none
  termType : ∀ t ∈ c.elements m .term, (c.termType t).placeholder? = none
  termElement : ∀ t ∈ c.elements m .term, ∀ e ∈ c.termElement? t, e.placeholder? = none
  navigationAssociation : ∀ n ∈ c.elements m .navigation,
    (c.navigationAssociation n).placeholder? = none
  fromEnd : ∀ n ∈ c.elements m .navigation, (c.fromEnd n).placeholder? = none
  toEnd : ∀ n ∈ c.elements m .navigation, (c.toEnd n).placeholder? = none
  navigationTarget : ∀ n ∈ c.elements m .navigation, (c.navigationTarget n).placeholder? = none
  navigationType : ∀ n ∈ c.elements m .navigation, (c.navigationType n).placeholder? = none
  endType : ∀ a ∈ c.elements m .association, ∀ e ∈ ends a, (c.endType e).placeholder? = none
  extended : ∀ k ∈ c.elements m .container, ∀ e ∈ c.extended? k, e.placeholder? = none
  entityType : ∀ s ∈ c.elements m .entitySet, (c.entityType s).placeholder? = none
  setAssociation : ∀ s ∈ c.elements m .associationSet, (c.setAssociation s).placeholder? = none
  setEnds : ∀ s ∈ c.elements m .associationSet, ∀ e ∈ c.setEnds s, e.2.placeholder? = none
  applied : ∀ a ∈ c.elements m .annot, (c.applied a).placeholder? = none
  boundProperty : ∀ a ∈ c.elements m .annot, ∀ i < (c.bindingDecls a).length,
    (c.boundProperty a i).placeholder? = none
  view : ∀ a ∈ c.elements m .annot, ∀ e ∈ c.nodesOf a, (c.view e).IsResolved

theorem validate_eq_nil_iff :
    c.validate m = [] ↔ (c.model m).duplicateDeclarations = [] ∧
      (∀ s ∈ c.elements m .schema, c.schemaDiagnostics s = []) ∧
      (∀ t ∈ c.elements m .type, c.typeDiagnostics t = []) ∧
      (∀ p ∈ c.elements m .property, c.propertyDiagnostics p = []) ∧
      (∀ n ∈ c.elements m .navigation, c.navigationDiagnostics n = []) ∧
      (∀ a ∈ c.elements m .association, c.associationDiagnostics a = []) ∧
      (∀ t ∈ c.elements m .term, c.termDiagnostics t = []) ∧
      (∀ k ∈ c.elements m .container, c.containerDiagnostics k = []) ∧
      (∀ s ∈ c.elements m .entitySet, c.entitySetDiagnostics s = []) ∧
      (∀ s ∈ c.elements m .associationSet, c.associationSetDiagnostics s = []) ∧
      ∀ a ∈ c.elements m .annot, c.annotationDiagnostics a = [] := by
  simp only [validate, List.append_eq_nil_iff, List.flatMap_eq_nil_iff, and_assoc]

/-! ### Types -/

section types

variable {t : Declared .type}

theorem typeDiagnostics_eq_nil (h : c.typeDiagnostics t = []) :
    (∀ e ∈ c.base? t, e.placeholder? = none) ∧ (∀ e ∈ c.key t, e.placeholder? = none) ∧
      ∀ r ∈ c.underlying? t, r.placeholder? = none := by
  simp only [typeDiagnostics, typeDiagnosticsWith, List.append_eq_nil_iff,
    List.flatMap_eq_nil_iff, Option.mem_toList, and_assoc] at h
  obtain ⟨-, -, hbase, hkey, hunderlying, -, -⟩ := h
  refine ⟨fun e he => ?_, fun e he => ?_, fun r hr => ?_⟩
  · exact (isExplained_of_mem_base? he).placeholder?_eq_none (hbase e he)
  · exact (isExplained_of_mem_key he).placeholder?_eq_none (hkey e he)
  · exact (isExplained_of_mem_underlying? hr).placeholder?_eq_none (hunderlying r hr)

/-- The key of a type is one that it or a base of it declares. -/
theorem exists_mem_key_of_mem_effectiveKey {e : Element (Declared .property)}
    (he : e ∈ c.effectiveKey t) : ∃ a ∈ c.ancestry t, e ∈ c.key a := by
  unfold effectiveKey at he
  cases hfound : ((c.ancestry t).map c.key).find? (!·.isEmpty) with
  | none =>
    rw [hfound] at he
    cases he
  | some key =>
    rw [hfound] at he
    obtain ⟨a, ha, rfl⟩ := List.mem_map.1 (List.mem_of_find?_eq_some hfound)
    exact ⟨a, ha, he⟩

theorem placeholder?_of_mem_elementOf? {r : TypeReference} (hr : r.placeholder? = none)
    {e : Element (Declared .type)} (he : e ∈ c.elementOf? m r) : e.placeholder? = none := by
  unfold elementOf? at he
  split at he
  case h_1 =>
    cases he
    rfl
  case h_2 p n hp =>
    rw [TypeReference.placeholder?, hp] at hr
    cases hr
  case h_3 => cases he

theorem propertyDiagnostics_eq_nil {p : Declared .property} (h : c.propertyDiagnostics p = []) :
    (c.propertyType p).placeholder? = none := by
  simp only [propertyDiagnostics, propertyDiagnosticsWith, List.append_eq_nil_iff] at h
  exact (c.isExplained_propertyType p).placeholder?_eq_none h.1.2

theorem termDiagnostics_eq_nil {t : Declared .term} (h : c.termDiagnostics t = []) :
    (c.termType t).placeholder? = none := by
  simp only [termDiagnostics, termDiagnosticsWith, List.append_eq_nil_iff] at h
  exact (c.isExplained_termType t).placeholder?_eq_none h.1.2

end types

/-! ### Associations and navigation -/

section associations

variable {n : Declared .navigation} {a : Declared .association} {e : AssociationEnd}

theorem endAt_eq_declared_iff {association : Element (Declared .association)}
    {side : Element EndSide} :
    endAt association side = .declared e ↔
      association = .declared e.association ∧ side = .declared e.side := by
  obtain ⟨a, s⟩ := e
  cases association <;> cases side <;> simp [endAt, Element.bind, Element.map]

theorem navigationDiagnostics_eq_nil (h : c.navigationDiagnostics n = []) :
    ∃ a fromSide toSide, c.navigationAssociation n = .declared a ∧
      c.fromEnd n = .declared ⟨a, fromSide⟩ ∧ c.toEnd n = .declared ⟨a, toSide⟩ := by
  obtain ⟨-, h⟩ := List.append_eq_nil_iff.1 h
  cases ha : c.navigationAssociation n with
  | placeholder p =>
    rw [ha] at h
    exact absurd h (c.isExplained_navigationAssociation n p (by rw [ha]; rfl)).1
  | declared a =>
    rw [ha] at h
    obtain ⟨hfrom, hto⟩ := List.append_eq_nil_iff.1 h
    have hside (role : Name) (hd : (c.sideOfRole n (.declared a) role).diagnostics = []) :
        ∃ side, c.sideOfRole n (.declared a) role = .declared side :=
      Element.placeholder?_eq_none_iff.1
        ((c.isExplained_sideOfRole n (.declared a) role).placeholder?_eq_none hd)
    obtain ⟨fromSide, hfrom⟩ := hside _ hfrom
    obtain ⟨toSide, hto⟩ := hside _ hto
    refine ⟨a, fromSide, toSide, rfl, ?_, ?_⟩
    · exact endAt_eq_declared_iff.2 ⟨ha, by rw [ha]; exact hfrom⟩
    · exact endAt_eq_declared_iff.2 ⟨ha, by rw [ha]; exact hto⟩

theorem associationDiagnostics_eq_nil (h : c.associationDiagnostics a = []) :
    ∀ e ∈ ends a, (c.endType e).placeholder? = none := by
  intro e he
  have hd := List.flatMap_eq_nil_iff.1 (List.append_eq_nil_iff.1 h).2 (c.endType e)
    (List.mem_map_of_mem he)
  exact (c.isExplained_endType e).placeholder?_eq_none hd

theorem mem_ends (e : AssociationEnd) : e ∈ ends e.association := by
  obtain ⟨a, side⟩ := e
  cases side <;> simp [ends]

theorem mem_elements_of_navigationAssociation (hm : c.TellsReferencesApart n.model)
    (ha : c.navigationAssociation n = .declared a) : a ∈ c.elements a.model .association := by
  obtain ⟨h, hh, rfl⟩ := Element.map_eq_declared_iff.1 ha
  exact mem_elements_of_resolve? hm (resolve_eq_declared_iff.1 hh)

/-- The association of a navigation property is in its model, or in one that this one references. -/
theorem sees_of_navigationAssociation (ha : c.navigationAssociation n = .declared a) :
    c.Sees n.model a.model := by
  obtain ⟨h, -, rfl⟩ := Element.map_eq_declared_iff.1 ha
  exact sees_locate n.model h

theorem sees_of_endType {t : Declared .type} (ht : c.endType e = .declared t) :
    c.Sees e.association.model t.model := by
  obtain ⟨h, -, rfl⟩ := Element.map_eq_declared_iff.1 ht
  exact sees_locate e.association.model h

theorem navigationType_placeholder? (hto : c.toEnd n = .declared e) {t : Declared .type}
    (ht : c.endType e = .declared t) (hm : c.Sees n.model t.model) :
    (c.navigationType n).placeholder? = none := by
  obtain ⟨h, hh⟩ := exists_handleFor hm
  simp only [navigationType, navigationTypeOf, hto, ht, hh]
  cases (c.endDecl e).multiplicity <;> rfl

end associations

/-! ### Containers and annotations -/

section containers

theorem containerDiagnostics_eq_nil {k : Declared .container} (h : c.containerDiagnostics k = []) :
    ∀ e ∈ c.extended? k, e.placeholder? = none := by
  intro e he
  have hd := List.flatMap_eq_nil_iff.1 (List.append_eq_nil_iff.1 h).2 e (Option.mem_toList.2 he)
  exact (isExplained_of_mem_extended? he).placeholder?_eq_none hd

theorem entitySetDiagnostics_eq_nil {s : Declared .entitySet} (h : c.entitySetDiagnostics s = []) :
    (c.entityType s).placeholder? = none :=
  (c.isExplained_entityType s).placeholder?_eq_none (List.append_eq_nil_iff.1 h).2

theorem associationSetDiagnostics_eq_nil {s : Declared .associationSet}
    (h : c.associationSetDiagnostics s = []) :
    (c.setAssociation s).placeholder? = none ∧ ∀ e ∈ c.setEnds s, e.2.placeholder? = none := by
  obtain ⟨h, hends⟩ := List.append_eq_nil_iff.1 h
  refine ⟨(c.isExplained_setAssociation s).placeholder?_eq_none (List.append_eq_nil_iff.1 h).2,
    fun e he => ?_⟩
  have hd := (List.append_eq_nil_iff.1 (List.flatMap_eq_nil_iff.1 hends e he)).1
  exact (isExplained_of_mem_setEnds he).placeholder?_eq_none hd

theorem annotationDiagnostics_eq_nil {a : Declared .annot} (h : c.annotationDiagnostics a = []) :
    (c.applied a).placeholder? = none ∧
      ∀ i < (c.bindingDecls a).length, (c.boundProperty a i).placeholder? = none := by
  obtain ⟨h, -⟩ := List.append_eq_nil_iff.1 h
  obtain ⟨happlied, hbound⟩ := List.append_eq_nil_iff.1 h
  constructor
  · rw [applied, AppliedTerm.placeholder?_map]
    exact (c.isExplained_appliedHandle a).placeholder?_eq_none happlied
  · intro i hi
    have hi' : i < (c.bindingHandles a).length := by rwa [bindingHandles, List.length_map]
    have hmem : (c.bindingHandles a)[i] ∈ c.bindingHandles a := List.getElem_mem hi'
    obtain ⟨b, -, hb⟩ := List.mem_map.1 hmem
    have hexplained : ((c.bindingHandles a)[i]).IsExplained :=
      hb ▸ c.isExplained_bindingHandle a (c.applied a) b
    simp only [boundProperty, boundAt, List.getElem?_eq_getElem hi', Element.placeholder?_map]
    exact hexplained.placeholder?_eq_none (List.flatMap_eq_nil_iff.1 hbound _ hmem)

end containers

/-! ### Models -/

/-- **No placeholder behind a clean report.**  If nothing is reported of a model and of the models
that it references, and it can tell these apart, no question about its elements is answered by a
placeholder. -/
theorem isResolved_of_validate (hc : c.IsBuilt) (hm : c.TellsReferencesApart m)
    (h : c.validate m = [])
    (hreferences : ∀ r ∈ (c.model m).references, c.validate r = []) : c.IsResolved m := by
  have hclean {r : ModelId} (hr : c.Sees m r) : c.validate r = [] :=
    hr.elim (fun hr => hr ▸ h) (hreferences r)
  obtain ⟨-, -, htype, hproperty, hnavigation, hassociation, hterm, hcontainer, hentitySet,
    hassociationSet, hannot⟩ := validate_eq_nil_iff.1 h
  -- a navigation property leads along an association of the model or of one that it references
  have hend {n : Declared .navigation} (hn : n ∈ c.elements m .navigation) :
      ∃ a side t, c.toEnd n = .declared ⟨a, side⟩ ∧ c.endType ⟨a, side⟩ = .declared t ∧
        c.Sees m t.model := by
    obtain ⟨a, -, side, ha, -, hto⟩ := navigationDiagnostics_eq_nil (hnavigation n hn)
    have hnm := (c.mem_elements.1 hn).1
    have hmem := mem_elements_of_navigationAssociation (hnm ▸ hm) ha
    have ham := sees_of_navigationAssociation ha
    rw [hnm] at ham
    obtain ⟨-, -, -, -, -, hassociation, -⟩ := validate_eq_nil_iff.1 (hclean ham)
    obtain ⟨t, ht⟩ := Element.placeholder?_eq_none_iff.1
      (associationDiagnostics_eq_nil (hassociation a hmem) ⟨a, side⟩ (mem_ends _))
    exact ⟨a, side, t, hto, ht, hc.sees_trans ham (sees_of_endType ht)⟩
  constructor
  case base => exact fun t ht => (typeDiagnostics_eq_nil (htype t ht)).1
  case key => exact fun t ht => (typeDiagnostics_eq_nil (htype t ht)).2.1
  case underlying => exact fun t ht => (typeDiagnostics_eq_nil (htype t ht)).2.2
  case effectiveKey =>
    intro t ht e he
    -- the key may be that of a base in a referenced model, where it is reported
    obtain ⟨a, ha, hkey⟩ := exists_mem_key_of_mem_effectiveKey he
    have htm := (c.mem_elements.1 ht).1
    have hmem := hc.mem_elements_of_mem_ancestry (htm ▸ hm) (htm ▸ ht) ha
    have ham := hc.sees_of_mem_ancestry ha
    rw [htm] at ham
    obtain ⟨-, -, htype, -⟩ := validate_eq_nil_iff.1 (hclean ham)
    exact (typeDiagnostics_eq_nil (htype a hmem)).2.1 e hkey
  case propertyType => exact fun p hp => propertyDiagnostics_eq_nil (hproperty p hp)
  case propertyElement =>
    exact fun p hp e => placeholder?_of_mem_elementOf? (propertyDiagnostics_eq_nil (hproperty p hp))
  case termType => exact fun t ht => termDiagnostics_eq_nil (hterm t ht)
  case termElement =>
    exact fun t ht e => placeholder?_of_mem_elementOf? (termDiagnostics_eq_nil (hterm t ht))
  case navigationAssociation =>
    intro n hn
    obtain ⟨a, -, -, ha, -, -⟩ := navigationDiagnostics_eq_nil (hnavigation n hn)
    rw [ha]
    rfl
  case fromEnd =>
    intro n hn
    obtain ⟨a, side, -, -, hfrom, -⟩ := navigationDiagnostics_eq_nil (hnavigation n hn)
    rw [hfrom]
    rfl
  case toEnd =>
    intro n hn
    obtain ⟨a, side, t, hto, -, -⟩ := hend hn
    rw [hto]
    rfl
  case navigationTarget =>
    intro n hn
    obtain ⟨a, side, t, hto, ht, -⟩ := hend hn
    rw [navigationTarget, hto, Element.bind, ht]
    rfl
  case navigationType =>
    intro n hn
    obtain ⟨a, side, t, hto, ht, htm⟩ := hend hn
    exact navigationType_placeholder? hto ht (by rwa [(c.mem_elements.1 hn).1])
  case endType => exact fun a ha => associationDiagnostics_eq_nil (hassociation a ha)
  case extended => exact fun k hk => containerDiagnostics_eq_nil (hcontainer k hk)
  case entityType => exact fun s hs => entitySetDiagnostics_eq_nil (hentitySet s hs)
  case setAssociation =>
    exact fun s hs => (associationSetDiagnostics_eq_nil (hassociationSet s hs)).1
  case setEnds => exact fun s hs => (associationSetDiagnostics_eq_nil (hassociationSet s hs)).2
  case applied => exact fun a ha => (annotationDiagnostics_eq_nil (hannot a ha)).1
  case boundProperty => exact fun a ha => (annotationDiagnostics_eq_nil (hannot a ha)).2
  case view => exact fun a ha e he => hc.isResolved_view_of_mem ha (hannot a ha) he

/-- A schema of items that are linked to one another. -/
def itemSchema : Decl.Schema :=
  let item := ((Decl.Structured.make "Item").addKey "Id").addProperty (.make "Id" "Edm.Int32")
  let link : Decl.Association :=
    ⟨"Link", ⟨"Whole", "R.Item", .one, .unknown⟩, ⟨"Part", "R.Item", .many, .unknown⟩, [], .unknown⟩
  ((Decl.Schema.make "R").addItem (.entityType item)).addItem (.association link)

/-- A schema of orders, which are items of the other schema. -/
def orderSchema : Decl.Schema :=
  let title := Decl.Expr.apply "odata.concat" [.string "Note: ", .path "Note"]
  let order := ({ Decl.Structured.make "Order" with base? := some "R.Item" }
    |>.addProperty (.make "Note" "Edm.String")
    |>.addNavigation ⟨"Lines", "R.Link", "Whole", "Part", [], .unknown⟩
    |>.annotate (.value "S.Title" title)
    |>.annotate (.value "S.State" (.ofForm (.enumMember "S.Stage/Open"))))
  let shop := (Decl.Container.make "Shop").addEntitySet "Orders" "S.Order"
    |>.addAssociationSet "Lines" "R.Link" ("Whole", "Orders") ("Part", "Orders")
  { Decl.Schema.make "S" with
    items := [.entityType order, .enumType ((Decl.Enum.make "Stage").addMember "Open" none),
      .term (.make "Title" "Edm.String"), .term (.make "State" "S.Stage"), .container shop] }

/-- Two more models, of which the second references the first. -/
def orders : Catalog :=
  let options := { Options.standard with includeCore := false }
  (initial.add options [] [itemSchema]).add options [1] [orderSchema]

theorem isBuilt_orders : orders.IsBuilt := by
  refine .add (.add_nil .initial _ _) _ ?_ _
  decide +kernel

/-- The orders have a base, a key and an association in a referenced model. -/
theorem isResolved_of_validate_orders :
    orders.TellsReferencesApart 2 ∧ orders.validate 2 = [] ∧
      (∀ r ∈ (orders.model 2).references, orders.validate r = []) ∧ orders.IsResolved 2 := by
  have hm : orders.TellsReferencesApart 2 := by decide +kernel
  have h : orders.validate 2 = [] := by decide +kernel
  have hreferences : ∀ r ∈ (orders.model 2).references, orders.validate r = [] := by
    decide +kernel
  exact ⟨hm, h, hreferences, isResolved_of_validate isBuilt_orders hm h hreferences⟩

end Catalog

end Schemata

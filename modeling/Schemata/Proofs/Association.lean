import Schemata.Proofs.Catalog.Reachable

/-!
# From one end of an association to the other

Where nothing is wrong with a navigation property, it leads from an end of its association that has
the one role to an end that has the other (`exists_leadsBetween_iff`).  Its type says how many
entities stand at the latter (`TypeReference.Carries`).  Nobody asks whether the two roles differ,
and that is what decides whether the ends do: with one role twice a navigation property leads back
to where it starts (`not_forall_leadsBetween_opposite`).
-/

namespace Schemata

/-- The other side of an association. -/
def EndSide.opposite : EndSide → EndSide
  | .first => .second
  | .second => .first

theorem EndSide.eq_opposite_iff {side other : EndSide} : other = side.opposite ↔ other ≠ side := by
  cases side <;> cases other <;> decide

/-- A type says how many entities there are: many are a collection, and null is allowed if there may
be none. -/
def TypeReference.Carries (type : TypeReference) : Decl.Multiplicity → Prop
  | .many => type.isCollection = true
  | .zeroOrOne => type.isCollection = false ∧ type.nullable = true
  | .one => type.isCollection = false ∧ type.nullable = false

namespace Catalog

variable {c : Catalog} {n : Declared .navigation} {a : Declared .association} {e : AssociationEnd}
  {side toSide : EndSide} {role : Name}

/-- A navigation property leads from one end of an association to one, and says of the latter which
entities there are and how many. -/
structure LeadsBetween (c : Catalog) (n : Declared .navigation) (a : Declared .association)
    (side toSide : EndSide) : Prop where
  association : c.navigationAssociation n = .declared a
  fromEnd : c.fromEnd n = .declared ⟨a, side⟩
  fromRole : (c.endDecl ⟨a, side⟩).role = (c.navigationProperty n).fromRole
  toEnd : c.toEnd n = .declared ⟨a, toSide⟩
  toRole : (c.endDecl ⟨a, toSide⟩).role = (c.navigationProperty n).toRole
  target : c.navigationTarget n = c.endType ⟨a, toSide⟩
  type : (c.navigationType n).Carries (c.endDecl ⟨a, toSide⟩).multiplicity

/-- The end on the side of a role has the role. -/
theorem role_of_sideOfRole (h : c.sideOfRole n (.declared a) role = .declared side) :
    (c.endDecl ⟨a, side⟩).role = role := by
  have hside : (c.findEnd? a role).map (·.side) = some side := by
    unfold sideOfRole at h
    rw [Element.declared?, Option.bind_some] at h
    cases hfind : (c.findEnd? a role).map (·.side) with
    | none =>
      rw [hfind] at h
      cases h
    | some found =>
      rw [hfind] at h
      rw [Element.declared.inj h]
  obtain ⟨e, he, rfl⟩ := Option.map_eq_some_iff.1 hside
  have hends : ∀ e ∈ ends a, e.association = a := by simp [ends]
  have ha : e.association = a := hends e (List.mem_of_find?_eq_some he)
  subst ha
  simpa using List.find?_some he

/-- The type carries the multiplicity of the end. -/
theorem IsBuilt.carries_navigationType (hc : c.IsBuilt) (h : c.toEnd n = .declared e) :
    (c.navigationType n).Carries (c.endDecl e).multiplicity := by
  cases ht : c.endType e with
  | placeholder p =>
    simp only [navigationType, navigationTypeOf, h, ht]
    cases (c.endDecl e).multiplicity with
    | many => rfl
    | zeroOrOne | one => exact ⟨rfl, rfl⟩
  | declared t =>
    obtain ⟨handle, hh⟩ := exists_handleFor (hc.sees_trans (sees_of_endAt h) (sees_of_endType ht))
    simp only [navigationType, navigationTypeOf, h, ht, hh]
    cases (c.endDecl e).multiplicity with
    | many => rfl
    | zeroOrOne | one => exact ⟨rfl, rfl⟩

/-- **From role to role.**  A navigation property with which nothing is wrong leads from an end of
its association to one, and across the association iff its roles differ. -/
theorem exists_leadsBetween_iff (hc : c.IsBuilt) (h : c.navigationDiagnostics n = []) :
    ∃ a side toSide, c.LeadsBetween n a side toSide ∧
      (toSide = side.opposite ↔
        (c.navigationProperty n).fromRole ≠ (c.navigationProperty n).toRole) := by
  obtain ⟨a, side, toSide, ha, hfrom, hto⟩ := navigationDiagnostics_eq_nil h
  have hside := (endAt_eq_declared_iff.1 hfrom).2
  have htoSide := (endAt_eq_declared_iff.1 hto).2
  rw [navigationSides, ha] at hside htoSide
  have hfromRole := role_of_sideOfRole hside
  have htoRole := role_of_sideOfRole htoSide
  refine ⟨a, side, toSide, ⟨ha, hfrom, hfromRole, hto, htoRole, ?_, hc.carries_navigationType hto⟩,
    EndSide.eq_opposite_iff.trans (not_congr ?_)⟩
  · rw [navigationTarget, hto]
    rfl
  · constructor
    · rintro rfl
      rw [← hfromRole, htoRole]
    · intro hrole
      -- a role is looked up in one way, so one role is on one side
      dsimp only at hside htoSide
      rw [hrole, htoSide] at hside
      exact Element.declared.inj hside

/-- An association of a whole, a product, with its parts, and a navigation property of parts between
two roles. -/
def related (fromRole toRole : Name) : Catalog :=
  let product := Decl.Structured.make "Product"
  let part := (Decl.Structured.make "Part").addNavigation
    ⟨"Related", "NS.Holds", fromRole, toRole, [], .unknown⟩
  let holds : Decl.Association :=
    ⟨"Holds", ⟨"Whole", "NS.Product", .zeroOrOne, .unknown⟩, ⟨"Piece", "NS.Part", .many, .unknown⟩,
      [], .unknown⟩
  initial.add { Options.standard with includeCore := false } []
    [{ Decl.Schema.make "NS" with
      items := [.entityType product, .entityType part, .association holds] }]

theorem isBuilt_related (fromRole toRole : Name) : (related fromRole toRole).IsBuilt :=
  .add_nil .initial _ _

/-- From a part to the product that it belongs to, if there is one. -/
theorem exists_leadsBetween_iff_related :
    let c := related "Piece" "Whole"
    let n : Declared .navigation := ⟨1, ⟨0⟩⟩
    c.navigationDiagnostics n = [] ∧ c.navigationTarget n = .declared ⟨1, ⟨0⟩⟩ ∧
      ∃ a side, c.LeadsBetween n a side side.opposite := by
  intro c n
  have h : c.navigationDiagnostics n = [] := by decide +kernel
  obtain ⟨a, side, toSide, hleads, hopposite⟩ := exists_leadsBetween_iff (isBuilt_related _ _) h
  obtain rfl := hopposite.2 (by decide +kernel)
  exact ⟨h, by decide +kernel, a, side, hleads⟩

/-- **Not every navigation property leads across.**  With one role twice it leads back to the end
where it starts, and neither it nor the association is reported. -/
theorem not_forall_leadsBetween_opposite :
    ¬ ∀ (c : Catalog) (n : Declared .navigation) (a : Declared .association), c.IsBuilt →
        c.navigationDiagnostics n = [] → c.navigationAssociation n = .declared a →
        (∀ d ∈ c.associationDiagnostics a, d.code ≠ .duplicateMember) →
        ∃ side, c.fromEnd n = .declared ⟨a, side⟩ ∧ c.toEnd n = .declared ⟨a, side.opposite⟩ := by
  intro h
  have hnone : (related "Piece" "Piece").associationDiagnostics ⟨1, ⟨0⟩⟩ = [] := by decide +kernel
  have hend : (related "Piece" "Piece").fromEnd ⟨1, ⟨0⟩⟩ = .declared ⟨⟨1, ⟨0⟩⟩, .second⟩ ∧
      (related "Piece" "Piece").toEnd ⟨1, ⟨0⟩⟩ = .declared ⟨⟨1, ⟨0⟩⟩, .second⟩ := by
    decide +kernel
  obtain ⟨side, hfrom, hto⟩ := h (related "Piece" "Piece") ⟨1, ⟨0⟩⟩ ⟨1, ⟨0⟩⟩ (isBuilt_related _ _)
    (by decide +kernel) (by decide +kernel) (by simp [hnone])
  rw [hend.1] at hfrom
  rw [hend.2] at hto
  cases hfrom
  cases hto

end Catalog

end Schemata

import Schemata.Proofs.Expr.Diagnostics
import Schemata.Proofs.Session.History

/-!
# Expression trees as they were declared

The expressions of an annotation are nodes of an array, and each of them is asked for on its own.
Still nothing of the declaration is lost: the array is an image of the trees that were declared
(`ExprArena.IsImage`), and whatever was asked before, an expression shows what its declaration says
(`Catalog.Shows`), with its operands in the order of declaration (`isImage_and_shows_view_after`).
-/

namespace Schemata.Session

open Catalog

variable {c : Catalog} {m : ModelId} {a : Declared .annot}

/-- The operands of an expression are declared as its declaration says. -/
theorem map_exprDecl_operands (hc : c.IsBuilt) (ha : a ∈ c.elements m .annot) {e : ExprRef}
    (he : e ∈ c.nodesOf a) : (c.operands e).map c.exprDecl = (c.exprDecl e).children := by
  obtain ⟨rfl, hplace⟩ := mem_nodesOf.1 he
  rw [operands, List.map_map]
  exact (hc.isImage_exprs ha).decl_operands e.place hplace

/-- **Trees are kept as they were declared.**  The array of an annotation's expressions is an image
of the declared trees: each place is that of one root or of one operand, and the places are in the
order in which one comes to them; the roots are its values.  Whatever was asked before, each
expression shows its form and its operands in the order of declaration; it is malformed iff the
number of operands is wrong, and it is never one that could not be resolved. -/
theorem isImage_and_shows_view_after (hc : c.IsBuilt) (ha : a ∈ c.elements m .annot)
    (qs : List Query) :
    (c.annotated a).exprs.IsImage (c.annotated a).roots (c.annotated a).decl.roots ∧
      c.values a = (c.annotated a).roots.map (⟨a, ·⟩) ∧
      ∀ e ∈ c.nodesOf a,
        let view := ((ask c (.view e)).run (after c qs)).1
        let form := (c.exprDecl e).form
        c.Shows e form view ∧
          ((∃ p, view = .malformed p) ↔ form.IsMalformed) ∧
          (¬ form.IsMalformed → view.children.map c.exprDecl = (c.exprDecl e).children) ∧
          view ≠ c.unresolvedView e := by
  refine ⟨hc.isImage_exprs ha, hc.values_eq ha, fun e he => ?_⟩
  have howner := (mem_nodesOf.1 he).1
  have hshows := hc.shows_view_of_owner ha howner
  have hmalformed := hshows.isMalformed_iff (hc.length_operands ha howner)
  rw [run_ask_after]
  refine ⟨hshows, hmalformed, fun hform => ?_, hshows.ne_unresolvedView⟩
  show (c.view e).children.map c.exprDecl = _
  rw [hc.children_view ha howner fun p hp => hform (hmalformed.1 ⟨p, hp⟩)]
  exact map_exprDecl_operands hc ha he

/-- A schema with an annotation of two values, of which the second has a wrong number of
operands. -/
def boundValuesSchema : Decl.Schema :=
  let nested : Decl.Expr :=
    .cond (.bool true) (.collection [.int 1, .labeled "One" .null]) .null
  let wrong : Decl.Expr := .ofForm (.cast "Edm.String" [.int 2, .null])
  let term := { Decl.Term.make "T" "Edm.Int32" with
    annotations := [.typed "NS.C" [.make "Left" nested, .make "Right" wrong]] }
  (Decl.Schema.make "NS").addItem (.term term)

/-- The second value lies behind the whole first one. -/
theorem isImage_and_shows_view_after_boundValues :
    let c := initial.add { Options.standard with includeCore := false } [] [boundValuesSchema]
    let a : Declared .annot := ⟨1, ⟨0⟩⟩
    c.IsBuilt ∧ a ∈ c.elements 1 .annot ∧
      (c.annotated a).exprs.IsImage [0, 7] (c.annotated a).decl.roots ∧
      c.operands ⟨a, 0⟩ = [⟨a, 1⟩, ⟨a, 2⟩, ⟨a, 6⟩] ∧
      ∃ p, ((ask c (.view ⟨a, 7⟩)).run (after c [.resolveAll 1])).1 = .malformed p := by
  intro c a
  have hc : c.IsBuilt := .add .initial _ (fun _ h => absurd h List.not_mem_nil) _
  have ha : a ∈ c.elements 1 .annot := by decide +kernel
  have hroots : (c.annotated a).roots = [0, 7] := by decide +kernel
  have hnode : (⟨a, 7⟩ : ExprRef) ∈ c.nodesOf a := by decide +kernel
  have hform : (c.exprDecl ⟨a, 7⟩).form = .cast "Edm.String" [.int 2, .null] := by decide +kernel
  obtain ⟨himage, -, hviews⟩ := isImage_and_shows_view_after hc ha [.resolveAll 1]
  refine ⟨hc, ha, hroots ▸ himage, by decide +kernel, ?_⟩
  refine (hviews _ hnode).2.1.2 ?_
  rw [hform]
  show (2 : Nat) ≠ 1
  decide

end Schemata.Session

/-!
# Reachable elements

Where each element has a list of successors, `reach` collects all that can be reached from some,
layer by layer: each round adds the successors of the last layer that are new.  It ends when a round
adds nothing; with as many rounds as there are elements and one more the count does not matter.
-/

namespace Schemata.Graph

variable {α : Type} [BEq α]

/-- The new ones among the successors of a layer. -/
def fresh (next : α → List α) (layer seen : List α) : List α :=
  ((layer.flatMap next).filter (!seen.contains ·)).eraseDups

/-- What has been seen and what can be reached from the last layer in `n` rounds. -/
def grow (next : α → List α) : Nat → List α → List α → List α
  | 0, _, seen => seen
  | n + 1, layer, seen =>
    match fresh next layer seen with
    | [] => seen
    | a :: as => grow next n (a :: as) (seen ++ a :: as)

/-- What can be reached from an element in `n` rounds, the element included. -/
def reach (next : α → List α) (n : Nat) (a : α) : List α := grow next n [a] [a]

end Schemata.Graph

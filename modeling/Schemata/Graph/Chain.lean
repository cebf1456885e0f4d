/-!
# Chains

Where each element has at most one successor, the elements that follow one another form a chain.
A chain may run into a circle: `continues` asks whether it goes on for a number of steps, and
`trail` lists its elements up to the first one that comes again.

Both count steps; with as many steps as there are elements and one more the count does not matter.
-/

namespace Schemata.Chain

variable {α : Type} (next : α → Option α)

/-- Whether there are `n` steps to go from an element. -/
def continues : Nat → α → Bool
  | 0, _ => true
  | n + 1, a =>
    match next a with
    | none => false
    | some b => continues n b

variable [DecidableEq α]

/-- An element and those that follow it, up to one that has been seen; at most `n` of them. -/
def trail (seen : List α) : Nat → α → List α
  | 0, _ => []
  | n + 1, a =>
    if a ∈ seen then []
    else
      a :: match next a with
        | none => []
        | some b => trail (a :: seen) n b

end Schemata.Chain

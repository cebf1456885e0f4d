/-!
# Byte offsets

A text is stored as the UTF-8 bytes of its characters, and a few literals are cut at byte offsets.
`byteLength` counts the bytes.  `cutAt?` cuts a text at an offset, which has to be a boundary: it
falls between two characters or at an end of the text.  `cutAt` and `slice` are for the places that
rely on it: the cut that is none is their error.

`cutAt?_eq_some_iff` says where a text is cut.
-/

namespace Schemata.Text

/-- The number of bytes that the text takes. -/
def byteLength : List Char → Nat
  | [] => 0
  | c :: cs => c.utf8Size + byteLength cs

/-- What stands before and after the byte offset, if that is a boundary. -/
def cutAt? : Nat → List Char → Option (List Char × List Char)
  | 0, cs => some ([], cs)
  | _ + 1, [] => none
  | n + 1, c :: cs =>
    if c.utf8Size ≤ n + 1 then
      (cutAt? (n + 1 - c.utf8Size) cs).map fun (before, after) => (c :: before, after)
    else none

/-- Whether the offset falls between two characters or at an end of the text. -/
def isBoundary (offset : Nat) (cs : List Char) : Bool := (cutAt? offset cs).isSome

/-- The offset of a cut that is inside a character or behind the end of the text. -/
structure CutError where
  offset : Nat
deriving DecidableEq, Repr

/-- What stands before and after the byte offset. -/
def cutAt (offset : Nat) (cs : List Char) : Except CutError (List Char × List Char) :=
  match cutAt? offset cs with
  | some cut => .ok cut
  | none => .error ⟨offset⟩

/-- What stands between two byte offsets. -/
def slice (start stop : Nat) (cs : List Char) : Except CutError (List Char) := do
  let (_, rest) ← cutAt start cs
  let (piece, _) ← cutAt (stop - start) rest
  pure piece

@[simp]
theorem byteLength_nil : byteLength [] = 0 := rfl

@[simp]
theorem byteLength_cons (c : Char) (cs : List Char) :
    byteLength (c :: cs) = c.utf8Size + byteLength cs := rfl

theorem byteLength_append (cs ds : List Char) :
    byteLength (cs ++ ds) = byteLength cs + byteLength ds := by
  induction cs with
  | nil => simp
  | cons c cs ih => simp [ih, Nat.add_assoc]

/-- A text is cut at the offset that is the length of what stands before the cut. -/
theorem cutAt?_eq_some_iff {n : Nat} {cs before after : List Char} :
    cutAt? n cs = some (before, after) ↔ cs = before ++ after ∧ byteLength before = n := by
  induction cs generalizing n before after with
  | nil => cases n <;> cases before <;> simp [cutAt?]
  | cons c cs ih =>
    have hpos := c.utf8Size_pos
    cases n with
    | zero => cases before <;> simp [cutAt?]; grind [Char.utf8Size_pos]
    | succ n =>
      rw [cutAt?]
      cases before with
      | nil => split <;> simp
      | cons b bs =>
        split
        · simp only [Option.map_eq_some_iff, Prod.exists, Prod.mk.injEq, List.cons.injEq, ih,
            byteLength_cons, List.cons_append]
          grind
        · simp only [reduceCtorEq, byteLength_cons, List.cons_append, List.cons.injEq, false_iff]
          rintro ⟨⟨rfl, -⟩, h⟩
          omega

theorem cutAt_append {offset : Nat} {before : List Char} (after : List Char)
    (h : byteLength before = offset) : cutAt offset (before ++ after) = .ok (before, after) := by
  rw [cutAt, cutAt?_eq_some_iff.2 ⟨rfl, h⟩]

/-- The slice between two offsets is the piece that so much stands before. -/
theorem slice_append {start stop : Nat} {before piece : List Char} (after : List Char)
    (hstart : byteLength before = start) (hstop : byteLength piece = stop - start) :
    slice start stop (before ++ (piece ++ after)) = .ok piece := by
  simp only [slice, cutAt_append _ hstart, bind, Except.bind, cutAt_append _ hstop, pure,
    Except.pure]

/-- Every character takes a byte at least. -/
theorem length_le_byteLength (cs : List Char) : cs.length ≤ byteLength cs := by
  induction cs with
  | nil => simp
  | cons c cs ih =>
    have := c.utf8Size_pos
    simp only [List.length_cons, byteLength_cons]
    omega

/-- A text of ASCII characters takes one byte for each. -/
theorem byteLength_of_ascii {cs : List Char} (h : ∀ c ∈ cs, c.utf8Size = 1) :
    byteLength cs = cs.length := by
  induction cs with
  | nil => rfl
  | cons c cs ih =>
    rw [List.forall_mem_cons] at h
    rw [byteLength_cons, h.1, ih h.2, List.length_cons, Nat.add_comm]

end Schemata.Text

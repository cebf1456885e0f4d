import Schemata.Text.Pieces
import Schemata.Text.IdentifierClass

/-!
# Names

Every declaration has a simple name in a namespace; a reference usually writes both, joined by a
dot.  A namespace may hold dots itself, so the simple name is what follows the last one.

`qualify` joins the two parts and `splitQualified` takes them apart;
`splitQualified_qualify` says when the second undoes the first.
-/

namespace Schemata

/-- A simple or qualified name, or a path of names. -/
abbrev Name := String

/-- The namespace and the simple name of a qualified name: what stands before and after the last
dot.  Neither may be empty. -/
def splitQualified (qualified : Name) : Option (Name × Name) :=
  match Text.splitLast '.' qualified.toList with
  | some (c :: cs, d :: ds) => some (String.ofList (c :: cs), String.ofList (d :: ds))
  | _ => none

/-- The simple name `name` in `ns`.  In the empty namespace a name stands alone. -/
def qualify (ns name : Name) : Name :=
  if ns.isEmpty then name else ns ++ "." ++ name

/-- Whether `name` may be declared: an underscore or a letter first, then identifier characters. -/
def isIdentifier (name : Name) : Bool :=
  match name.toList with
  | [] => false
  | c :: cs => (c == '_' || Text.isIdentifierStart c) && cs.all Text.isIdentifierContinue

/-- The parts of a path before and after its first slash. -/
def splitPath (path : Name) : Option (Name × Name) :=
  (Text.splitFirst '/' path.toList).map fun (head, rest) => (String.ofList head, String.ofList rest)

/-- The segments of a path with slashes between them. -/
def joinPath (segments : List Name) : Name :=
  String.ofList (Text.join ['/'] (segments.map (·.toList)))

/-- Qualifying with a non-empty namespace is undone by `splitQualified`, for a non-empty simple
name without dots. -/
theorem splitQualified_qualify {ns name : Name} (hns : ns ≠ "") (hname : name ≠ "")
    (hdot : '.' ∉ name.toList) : splitQualified (qualify ns name) = some (ns, name) := by
  have h1 : ns.isEmpty = false := by simpa [String.isEmpty_iff] using hns
  have hl : (qualify ns name).toList = ns.toList ++ '.' :: name.toList := by
    simp [qualify, h1, String.toList_append]
  have hs : Text.splitLast '.' (qualify ns name).toList = some (ns.toList, name.toList) :=
    Text.splitLast_eq_some_iff.2 ⟨hl, hdot⟩
  obtain ⟨c, cs, hc⟩ := List.exists_cons_of_ne_nil (l := ns.toList)
    (fun h => hns (String.toList_eq_nil_iff.1 h))
  obtain ⟨d, ds, hd⟩ := List.exists_cons_of_ne_nil (l := name.toList)
    (fun h => hname (String.toList_eq_nil_iff.1 h))
  unfold splitQualified
  rw [hs, hc, hd]
  simp only [← hc, ← hd, String.ofList_toList]

end Schemata

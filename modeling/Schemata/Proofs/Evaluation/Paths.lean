import Schemata.Evaluation.Basic
import Schemata.Proofs.Catalog.Reachable

/-!
# Paths in values of a type

A path is followed twice: through types, to see which property it names, and through a value, to
read what stands there.  On the way through types a property that holds a collection leads to the
type of the items; a value that is a collection has no properties.

`Catalog.Conforms` says which values a type has, as far as paths can tell.  On such a value the two
walks go together step by step (`Conforms.readPath_cons`), and the second fails where it comes to a
collection and the path goes on, and nowhere else (`IsPath.readPath_eq_error_iff`).  So a path can
be read from all values of its type iff it does not lead through a collection
(`IsPath.forall_conforms_iff`).
-/

namespace Schemata

/-- What the values of a type look like. -/
inductive Shape where
  | builtIn (kind : PrimitiveKind)
  | instanceOf (t : Declared .type)
  | collection (items : Shape)
  /-- Nothing is known of the type. -/
  | unknown
deriving DecidableEq, Repr

namespace Shape

/-- The declared type at the bottom. -/
def type? : Shape → Option (Declared .type)
  | instanceOf t => some t
  | collection items => items.type?
  | builtIn _ | unknown => none

/-- Instances of a type, if it is declared. -/
def ofElement : Element (Declared .type) → Shape
  | .declared t => instanceOf t
  | .placeholder _ => unknown

end Shape

namespace Catalog

section shapes

variable (c : Catalog)

/-- What the values of a type look like to which a model refers.  A reference to an entity is read
as the entity. -/
def shape (m : ModelId) : TypeReference → Shape
  | .primitive kind _ => .builtIn kind
  | .declared h _ => .instanceOf (c.locate m h)
  | .collection element _ => .collection (shape m element)
  | .entityReference entity _ => shape m entity
  | .placeholder .. => .unknown

/-- What stands at the end to which a navigation property leads. -/
def navigationShape (n : Declared .navigation) : Shape :=
  match c.toEnd n with
  | .placeholder _ => .unknown
  | .declared e =>
    match (c.endDecl e).multiplicity with
    | .many => .collection (.ofElement (c.endType e))
    | .zeroOrOne | .one => .ofElement (c.endType e)

/-- What stands under a name in the values of a type.  A structural property hides a navigation
property. -/
def memberShape? (t : Declared .type) (name : Name) : Option Shape :=
  match c.findProperty? t name with
  | some p => some (c.shape p.model (c.propertyType p))
  | none => (c.findNavigation? t name).map c.navigationShape

/-- The values that look like this.  Any value may be null; under the name of a member a structured
value has nothing or what the member says. -/
inductive Conforms : Shape → Value → Prop
  | null {s : Shape} : Conforms s .null
  | builtIn {kind : PrimitiveKind} {value : PrimitiveValue} (h : kind.admits value = true) :
    Conforms (.builtIn kind) (.primitive value)
  | enum {t : Declared .type} {type member : Name} {value : Int} (hk : c.kind t = .enum) :
    Conforms (.instanceOf t) (.enum type member value)
  | record {t : Declared .type} {type? : Option Name} {fields : List (Name × Value)}
    (hk : c.kind t ≠ .enum)
    (hfields : ∀ name value, fields.lookup name = some value →
      ∀ s, c.memberShape? t name = some s → Conforms s value) :
    Conforms (.instanceOf t) (.record type? fields)
  | collection {s : Shape} {items : List Value} (h : ∀ item ∈ items, Conforms s item) :
    Conforms (.collection s) (.collection items)
  | unknown {value : Value} : Conforms .unknown value

/-- A path through types: each segment but the last is that of a member which leads to a declared
type, and the last is that of a structural property. -/
inductive IsPath : Declared .type → List Name → Prop
  | last {t : Declared .type} {segment : Name} {p : Declared .property}
    (h : c.findProperty? t segment = some p) : IsPath t [segment]
  | step {t u : Declared .type} {segment : Name} {rest : List Name} {s : Shape}
    (hs : c.memberShape? t segment = some s) (hu : s.type? = some u) (hrest : IsPath u rest) :
    IsPath t (segment :: rest)

/-- The path goes on behind a member that holds a collection. -/
inductive LeadsThroughCollection : Declared .type → List Name → Prop
  | here {t : Declared .type} {segment next : Name} {rest : List Name} {s : Shape}
    (hs : c.memberShape? t segment = some (.collection s)) :
    LeadsThroughCollection t (segment :: next :: rest)
  | there {t u : Declared .type} {segment : Name} {rest : List Name} {s : Shape}
    (hs : c.memberShape? t segment = some s) (hu : s.type? = some u)
    (hrest : LeadsThroughCollection u rest) : LeadsThroughCollection t (segment :: rest)

end shapes

variable {c : Catalog} {m : ModelId} {t u : Declared .type} {n : Declared .navigation} {s : Shape}
  {segment : Name} {segments rest : List Name} {value : Value} {x : EvalError}

/-! ### Shapes of members -/

theorem type?_shape {type : TypeReference} (h : c.elementOf? m type = some (.declared t)) :
    (c.shape m type).type? = some t := by
  induction type with
  | primitive | placeholder => cases h
  | declared => cases h; rfl
  | collection _ _ ih | entityReference _ _ ih => exact ih h

/-- What stands at the end of a navigation property is what its type says. -/
theorem IsBuilt.shape_navigationType (hc : c.IsBuilt) (hm : c.TellsReferencesApart n.model) :
    c.shape n.model (c.navigationType n) = c.navigationShape n := by
  unfold navigationShape
  cases hto : c.toEnd n with
  | placeholder p =>
    simp only [navigationType, navigationTypeOf, hto]
    rfl
  | declared e =>
    cases ht : c.endType e with
    | placeholder p =>
      simp only [navigationType, navigationTypeOf, hto, ht]
      cases (c.endDecl e).multiplicity <;> rfl
    | declared t =>
      obtain ⟨h, hh, rfl⟩ :=
        exists_handleFor_locate hm (hc.sees_trans (sees_of_endAt hto) (sees_of_endType ht))
      simp only [navigationType, navigationTypeOf, hto, ht, hh]
      cases (c.endDecl e).multiplicity <;> rfl

theorem type?_navigationShape (h : c.navigationTarget n = .declared t) :
    (c.navigationShape n).type? = some t := by
  obtain ⟨e, hto, ht⟩ := Element.bind_eq_declared_iff.1 h
  unfold navigationShape
  rw [hto]
  dsimp only
  rw [ht]
  cases (c.endDecl e).multiplicity <;> rfl

/-- The way through types follows members. -/
theorem exists_memberShape?_of_pathStep {fail : String → Placeholder}
    (h : c.pathStep fail t segment = .declared u) :
    ∃ s, c.memberShape? t segment = some s ∧ s.type? = some u := by
  unfold pathStep at h
  unfold memberShape?
  cases hp : c.findProperty? t segment with
  | some p =>
    rw [hp] at h
    dsimp only at h
    cases helement : c.propertyElement? p with
    | none => rw [helement] at h; cases h
    | some element =>
      rw [helement] at h
      exact ⟨_, rfl, type?_shape (helement.trans (congrArg some h))⟩
  | none =>
    rw [hp] at h
    dsimp only at h
    cases hn : c.findNavigation? t segment with
    | none => rw [hn] at h; cases h
    | some n =>
      rw [hn] at h
      exact ⟨_, rfl, type?_navigationShape h⟩

/-- What resolves is a path through types. -/
theorem isPath_of_followPath {fail : String → Placeholder} {h : Handle .property}
    (hfollow : c.followPath m fail t segments = .declared h) : c.IsPath t segments := by
  induction segments generalizing t with
  | nil => cases hfollow
  | cons segment rest ih =>
    cases rest with
    | nil =>
      unfold followPath at hfollow
      cases hp : c.findProperty? t segment with
      | none => rw [hp] at hfollow; cases hfollow
      | some p => exact .last hp
    | cons next rest =>
      rw [followPath] at hfollow
      · obtain ⟨u, hstep, hrest⟩ := Element.bind_eq_declared_iff.1 hfollow
        obtain ⟨s, hs, hu⟩ := exists_memberShape?_of_pathStep hstep
        exact .step hs hu (ih hrest)
      · simp

theorem isPath_of_pathTarget {e : ExprRef} {p : Declared .property}
    (ht : c.exprContext? e = some t) (hp : c.pathTarget e segments = .declared p) :
    c.IsPath t segments := by
  obtain ⟨h, hh, -⟩ := Element.map_eq_declared_iff.1 hp
  obtain ⟨u, hstart, hfollow⟩ := Element.bind_eq_declared_iff.1 hh
  have hu : u = t := by
    unfold pathStart at hstart
    rw [ht] at hstart
    cases hlast : segments.getLast? with
    | none => rw [hlast] at hstart; cases hstart
    | some last => rw [hlast] at hstart; cases hstart; rfl
  exact hu ▸ isPath_of_followPath hfollow

/-- What has members is no enumeration. -/
theorem kind_ne_enum_of_memberShape? (hs : c.memberShape? t segment = some s) :
    c.kind t ≠ .enum := by
  unfold memberShape? at hs
  cases hp : c.findProperty? t segment with
  | some p =>
    obtain ⟨a, ha, hp⟩ := List.exists_of_findSome?_eq_some hp
    obtain ⟨-, body, hbody, -⟩ := mem_declaredProperties.1 (List.mem_of_find?_eq_some hp)
    exact kind_ne_enum_of_mem_ancestry ha hbody
  | none =>
    rw [hp] at hs
    obtain ⟨n, hn, -⟩ := Option.map_eq_some_iff.1 hs
    obtain ⟨a, ha, hn⟩ := List.exists_of_findSome?_eq_some hn
    have hn := List.mem_of_find?_eq_some hn
    unfold declaredNavigation at hn
    cases hbody : (c.type a).body.structured? with
    | none => rw [hbody] at hn; cases hn
    | some body => exact kind_ne_enum_of_mem_ancestry ha hbody

/-! ### Reading -/

@[simp]
theorem readPath_null (segments : List Name) : readPath .null segments = .ok .null := by
  cases segments <;> rfl

/-- A path is read piece by piece. -/
theorem readPath_append (value : Value) (segments rest : List Name) :
    readPath value (segments ++ rest) = (readPath value segments).bind (readPath · rest) := by
  induction segments generalizing value with
  | nil => rfl
  | cons segment segments ih =>
    cases value with
    | null => simp [Except.bind]
    | record type? fields =>
      rw [List.cons_append, readPath, readPath]
      cases fields.lookup segment with
      | none => simp [Except.bind]
      | some next => exact ih next
    | primitive | enum | collection => rfl

/-- Behind a collection nothing is read. -/
theorem readPath_eq_error_of_append {before after : List Name} {items : List Value}
    (h : readPath value before = .ok (.collection items)) :
    readPath value (before ++ segment :: after) =
      .error (.notStructured segment (.collection items)) := by
  rw [readPath_append, h]
  rfl

/-- **One step.**  Under the name of a member there is nothing in a value of the type, or what the
member says. -/
theorem Conforms.readPath_cons (hv : c.Conforms (.instanceOf t) value)
    (hs : c.memberShape? t segment = some s) :
    (∀ rest, readPath value (segment :: rest) = .ok .null) ∨
      ∃ next, c.Conforms s next ∧
        ∀ rest, readPath value (segment :: rest) = readPath next rest := by
  cases hv with
  | null => exact .inl fun rest => readPath_null _
  | enum hk => exact absurd hk (kind_ne_enum_of_memberShape? hs)
  | @record _ type? fields hk hfields =>
    cases hlookup : fields.lookup segment with
    | none => exact .inl fun rest => by rw [readPath, hlookup]
    | some next =>
      exact .inr ⟨next, hfields _ _ hlookup _ hs, fun rest => by rw [readPath, hlookup]⟩

theorem IsPath.exists_eq_cons (hpath : c.IsPath t segments) :
    ∃ segment rest, segments = segment :: rest := by
  cases hpath with
  | last => exact ⟨_, _, rfl⟩
  | step => exact ⟨_, _, rfl⟩

/-- **The whole way.**  Where a path cannot be read from a value of the type, it leads through a
collection, and a segment follows where a collection has been read. -/
theorem IsPath.of_readPath_eq_error (hpath : c.IsPath t segments)
    (hv : c.Conforms (.instanceOf t) value) (hx : readPath value segments = .error x) :
    c.LeadsThroughCollection t segments ∧
      ∃ before segment after items, segments = before ++ segment :: after ∧
        readPath value before = .ok (.collection items) ∧
        x = .notStructured segment (.collection items) := by
  induction hpath generalizing value with
  | @last t segment p hp =>
    have hs : c.memberShape? t segment = some (c.shape p.model (c.propertyType p)) := by
      rw [memberShape?, hp]
    rcases hv.readPath_cons hs with hnull | ⟨next, -, hnext⟩
    · cases (hnull []).symm.trans hx
    · cases (hnext []).symm.trans hx
  | @step t u segment rest s hs hu hrest ih =>
    rcases hv.readPath_cons hs with hnull | ⟨next, hconforms, hnext⟩
    · cases (hnull rest).symm.trans hx
    · rw [hnext] at hx
      cases s with
      | instanceOf u' =>
        cases hu
        obtain ⟨hleads, before, segment', after, items, rfl, hread, rfl⟩ := ih hconforms hx
        exact ⟨.there hs rfl hleads, segment :: before, segment', after, items, rfl,
          by rw [hnext, hread], rfl⟩
      | collection items =>
        cases hconforms with
        | null => simp at hx
        | @collection _ values _ =>
          -- what is left of the path is not empty, so a segment follows the collection
          obtain ⟨next, after, rfl⟩ := hrest.exists_eq_cons
          cases hx
          exact ⟨.here hs, [segment], next, after, values, rfl, by rw [hnext]; rfl, rfl⟩
      | builtIn | unknown => cases hu

/-- A path fails in a value of the type where a segment follows a collection, and nowhere else. -/
theorem IsPath.readPath_eq_error_iff (hpath : c.IsPath t segments)
    (hv : c.Conforms (.instanceOf t) value) :
    readPath value segments = .error x ↔
      ∃ before segment after items, segments = before ++ segment :: after ∧
        readPath value before = .ok (.collection items) ∧
        x = .notStructured segment (.collection items) := by
  refine ⟨fun hx => (hpath.of_readPath_eq_error hv hx).2, ?_⟩
  rintro ⟨before, segment, after, items, rfl, hread, rfl⟩
  exact readPath_eq_error_of_append hread

/-- A value of a type in which one member has a value. -/
theorem conforms_record (hs : c.memberShape? t segment = some s) {next : Value}
    (hnext : c.Conforms s next) : c.Conforms (.instanceOf t) (.record none [(segment, next)]) := by
  refine .record (kind_ne_enum_of_memberShape? hs) fun name value hlookup s' hs' => ?_
  rw [List.lookup_cons] at hlookup
  cases hname : name == segment with
  | false =>
    rw [hname] at hlookup
    cases hlookup
  | true =>
    rw [hname] at hlookup
    cases hlookup
    obtain rfl : name = segment := by simpa using hname
    cases hs.symm.trans hs'
    exact hnext

theorem readPath_record_singleton (segment : Name) (next : Value) (rest : List Name) :
    readPath (.record none [(segment, next)]) (segment :: rest) = readPath next rest := by
  rw [readPath, List.lookup_cons_self]

theorem exists_readPath_eq_error_of_collection {next : Name}
    (hs : c.memberShape? t segment = some (.collection s)) :
    ∃ value x, c.Conforms (.instanceOf t) value ∧
      readPath value (segment :: next :: rest) = .error x := by
  refine ⟨.record none [(segment, .collection [])], .notStructured next (.collection []),
    conforms_record hs (.collection fun _ h => absurd h List.not_mem_nil), ?_⟩
  rw [readPath_record_singleton]
  rfl

/-- Where a path leads through a collection, some value of the type has one there. -/
theorem LeadsThroughCollection.exists_readPath_eq_error (h : c.LeadsThroughCollection t segments) :
    ∃ value x, c.Conforms (.instanceOf t) value ∧ readPath value segments = .error x := by
  induction h with
  | here hs => exact exists_readPath_eq_error_of_collection hs
  | @there t u segment rest s hs hu hrest ih =>
    cases s with
    | instanceOf u' =>
      cases hu
      obtain ⟨next, x, hnext, hx⟩ := ih
      exact ⟨_, x, conforms_record hs hnext, (readPath_record_singleton ..).trans hx⟩
    | collection items =>
      cases hrest with
      | here | there => exact exists_readPath_eq_error_of_collection hs
    | builtIn | unknown => cases hu

/-- A path can be read from all values of the type iff it does not lead through a collection. -/
theorem IsPath.forall_conforms_iff (hpath : c.IsPath t segments) :
    (∀ value, c.Conforms (.instanceOf t) value → ∃ w, readPath value segments = .ok w) ↔
      ¬ c.LeadsThroughCollection t segments := by
  constructor
  · intro h hleads
    obtain ⟨value, x, hv, hx⟩ := hleads.exists_readPath_eq_error
    obtain ⟨w, hw⟩ := h value hv
    cases hw.symm.trans hx
  · intro hleads value hv
    cases hread : readPath value segments with
    | ok w => exact ⟨w, rfl⟩
    | error x => exact absurd (hpath.of_readPath_eq_error hv hread).1 hleads

/-! ### Evaluation -/

section eval

variable {e : ExprRef} {p : Declared .property} {ev : Evaluator} {stack : List Name}

theorem view_path (hform : (c.exprDecl e).form = .path segments) :
    c.view e = .path segments := by
  have hreferences : c.references e = .none := by
    unfold references malformed?
    rw [hform]
    rfl
  unfold view viewWith
  rw [hform, hreferences]

theorem eval_path {context : Value} (hview : c.view e = .path segments)
    (hp : c.pathTarget e segments = .declared p) :
    c.eval ev context stack e = readPath context segments := by
  rw [eval]
  split
  all_goals cases hview.symm.trans ‹_›
  rw [hp]

/-- **Paths can be read unless a collection is in the way.**  On a value of the type in which its
paths begin, a path that resolves fails iff a segment follows where a collection has been read, and
the error says so.  It can be read from all values of the type iff it does not lead through a
collection. -/
theorem eval_path_of_conforms (hview : c.view e = .path segments) (ht : c.exprContext? e = some t)
    (hp : c.pathTarget e segments = .declared p) :
    (∀ context, c.Conforms (.instanceOf t) context → ∀ x,
      c.eval ev context stack e = .error x ↔
        ∃ before segment after items, segments = before ++ segment :: after ∧
          readPath context before = .ok (.collection items) ∧
          x = .notStructured segment (.collection items)) ∧
      ((∀ context, c.Conforms (.instanceOf t) context →
        ∃ value, c.eval ev context stack e = .ok value) ↔
          ¬ c.LeadsThroughCollection t segments) := by
  have hpath := isPath_of_pathTarget ht hp
  simp only [eval_path hview hp]
  exact ⟨fun context hcontext x => hpath.readPath_eq_error_iff hcontext, hpath.forall_conforms_iff⟩

end eval

/-- Orders that lead to as many lines as the multiplicity says, and a path to the price of a
line. -/
def priced (multiplicity : Decl.Multiplicity) : Catalog :=
  let line := (Decl.Structured.make "Line").addProperty (.make "Price" "Edm.Int32")
  let order := (Decl.Structured.make "Order").addNavigation
      ⟨"Lines", "NS.Holds", "Whole", "Part", [], .unknown⟩
    |>.annotate (.value "NS.Total" (.ofForm (.path ["Lines", "Price"])))
  let holds : Decl.Association :=
    ⟨"Holds", ⟨"Whole", "NS.Order", .one, .unknown⟩, ⟨"Part", "NS.Line", multiplicity, .unknown⟩,
      [], .unknown⟩
  initial.add { Options.standard with includeCore := false } []
    [{ Decl.Schema.make "NS" with
      items := [.entityType order, .entityType line, .association holds] }]

theorem isBuilt_priced (multiplicity : Decl.Multiplicity) : (priced multiplicity).IsBuilt :=
  .add_nil .initial _ _

/-- If there is one line at most, the price can be read from every order. -/
theorem eval_path_of_conforms_priced :
    let c := priced .zeroOrOne
    let e : ExprRef := ⟨⟨1, ⟨0⟩⟩, 0⟩
    c.view e = .path ["Lines", "Price"] ∧ c.exprContext? e = some ⟨1, ⟨0⟩⟩ ∧
      c.pathTarget e ["Lines", "Price"] = .declared ⟨1, ⟨0⟩⟩ ∧
      ∀ context, c.Conforms (.instanceOf ⟨1, ⟨0⟩⟩) context →
        ∃ value, c.eval .standard context [] e = .ok value := by
  intro c e
  have hview : c.view e = .path ["Lines", "Price"] := view_path (by decide +kernel)
  have ht : c.exprContext? e = some ⟨1, ⟨0⟩⟩ := by decide +kernel
  have hp : c.pathTarget e ["Lines", "Price"] = .declared ⟨1, ⟨0⟩⟩ := by decide +kernel
  have hlines : c.memberShape? ⟨1, ⟨0⟩⟩ "Lines" = some (.instanceOf ⟨1, ⟨1⟩⟩) := by decide +kernel
  refine ⟨hview, ht, hp, (eval_path_of_conforms hview ht hp).2.2 fun h => ?_⟩
  cases h with
  | here hs => cases hlines.symm.trans hs
  | there _ _ hrest =>
    cases hrest with
    | there _ _ hnil => cases hnil

/-- **Not every path that resolves can be read.**  Where there are many lines, the path to the price
of a line resolves, and it cannot be read from an order that has a line. -/
theorem not_forall_exists_eval_path :
    ¬ ∀ (c : Catalog) (e : ExprRef) (segments : List Name) (t : Declared .type)
        (p : Declared .property) (context : Value), c.IsBuilt → c.view e = .path segments →
        c.exprContext? e = some t → c.pathTarget e segments = .declared p →
        c.Conforms (.instanceOf t) context →
        ∃ value, c.eval .standard context [] e = .ok value := by
  intro h
  let c := priced .many
  let e : ExprRef := ⟨⟨1, ⟨0⟩⟩, 0⟩
  let line : Value := .record none [("Price", .int 1)]
  have hview : c.view e = .path ["Lines", "Price"] := view_path (by decide +kernel)
  have hp : c.pathTarget e ["Lines", "Price"] = .declared ⟨1, ⟨0⟩⟩ := by decide +kernel
  have hlines : c.memberShape? ⟨1, ⟨0⟩⟩ "Lines" = some (.collection (.instanceOf ⟨1, ⟨1⟩⟩)) := by
    decide +kernel
  have hprice : c.memberShape? ⟨1, ⟨1⟩⟩ "Price" = some (.builtIn .int32) := by decide +kernel
  have hline : c.Conforms (.instanceOf ⟨1, ⟨1⟩⟩) line :=
    conforms_record hprice (.builtIn (by decide +kernel))
  obtain ⟨value, hvalue⟩ := h c e ["Lines", "Price"] ⟨1, ⟨0⟩⟩ ⟨1, ⟨0⟩⟩
    (.record none [("Lines", .collection [line])]) (isBuilt_priced .many) hview
    (by decide +kernel) hp
    (conforms_record hlines (.collection (List.forall_mem_singleton.2 hline)))
  rw [eval_path hview hp, readPath_record_singleton] at hvalue
  cases hvalue

end Catalog

end Schemata

import Schemata.Evaluation.Labels
import Schemata.Proofs.Validation

/-!
# What can be reached from a model

A model lists the models that it references, each once, and with a model it lists all that this one
references.  So whoever goes from a part of a model to another, from one question to the next and
over any number of models, never leaves what the first model sees (`IsBuilt.sees_of_reflTransGen`),
and there is a handle for whatever comes up.

Some readings look an element up first and ask for its handle then.  They have a placeholder ready
in case there is none.  It is never used: what is found is the answer
(`IsBuilt.answersWithWhatIsFound`).
-/

namespace Schemata

/-- Something that one can ask questions of. -/
inductive Subject where
  | model (m : ModelId)
  | element {k : ElementKind} (x : Declared k)
  | associationEnd (e : AssociationEnd)
  | enumMember (member : EnumMember)
  | annotated (e : Annotated)
  | expr (e : ExprRef)

/-- The model that a subject is, or is part of. -/
def Subject.modelId : Subject → ModelId
  | model m => m
  | element x => x.model
  | associationEnd e => e.association.model
  | enumMember member => member.type.model
  | annotated e => e.model
  | expr e => e.owner.model

namespace Catalog

variable {c : Catalog} {m r : ModelId}

/-- One question about a subject is answered by another one. -/
inductive Leads (c : Catalog) : Subject → Subject → Prop
  /-- Whatever belongs to the same model, as do schemas, members and annotations. -/
  | within {x y : Subject} (h : y.modelId = x.modelId) : Leads c x y
  | reference {m r : ModelId} (h : r ∈ (c.model m).references) : Leads c (.model m) (.model r)
  | lookup {m : ModelId} {k : SymbolKind} {name : Name} {x : Declared k.element}
    (h : c.find? m k name = some x) : Leads c (.model m) (.element x)
  /-- The declared type at the bottom of a reference that the model of the subject makes. -/
  | typeReference {x : Subject} {reference : TypeReference} {t : Declared .type}
    (h : c.elementOf? x.modelId reference = some (.declared t)) : Leads c x (.element t)
  | base {t u : Declared .type} (h : c.base? t = some (.declared u)) :
    Leads c (.element t) (.element u)
  | ancestor {t u : Declared .type} (h : u ∈ c.ancestry t) : Leads c (.element t) (.element u)
  | property {t : Declared .type} {p : Declared .property} (h : p ∈ c.properties t) :
    Leads c (.element t) (.element p)
  | namedProperty {t : Declared .type} {name : Name} {p : Declared .property}
    (h : c.findProperty? t name = some p) : Leads c (.element t) (.element p)
  | navigation {t : Declared .type} {n : Declared .navigation} (h : n ∈ c.navigation t) :
    Leads c (.element t) (.element n)
  | namedNavigation {t : Declared .type} {name : Name} {n : Declared .navigation}
    (h : c.findNavigation? t name = some n) : Leads c (.element t) (.element n)
  | key {t : Declared .type} {p : Declared .property} (h : .declared p ∈ c.key t) :
    Leads c (.element t) (.element p)
  | effectiveKey {t : Declared .type} {p : Declared .property}
    (h : .declared p ∈ c.effectiveKey t) : Leads c (.element t) (.element p)
  | navigationAssociation {n : Declared .navigation} {a : Declared .association}
    (h : c.navigationAssociation n = .declared a) : Leads c (.element n) (.element a)
  | fromEnd {n : Declared .navigation} {e : AssociationEnd} (h : c.fromEnd n = .declared e) :
    Leads c (.element n) (.associationEnd e)
  | toEnd {n : Declared .navigation} {e : AssociationEnd} (h : c.toEnd n = .declared e) :
    Leads c (.element n) (.associationEnd e)
  | navigationTarget {n : Declared .navigation} {t : Declared .type}
    (h : c.navigationTarget n = .declared t) : Leads c (.element n) (.element t)
  | endType {e : AssociationEnd} {t : Declared .type} (h : c.endType e = .declared t) :
    Leads c (.associationEnd e) (.element t)
  | extended {k k' : Declared .container} (h : c.extended? k = some (.declared k')) :
    Leads c (.element k) (.element k')
  | namedSet {k : Declared .container} {name : Name} {s : Declared .entitySet}
    (h : c.findEntitySet? k name = some s) : Leads c (.element k) (.element s)
  | entityType {s : Declared .entitySet} {t : Declared .type} (h : c.entityType s = .declared t) :
    Leads c (.element s) (.element t)
  | setAssociation {s : Declared .associationSet} {a : Declared .association}
    (h : c.setAssociation s = .declared a) : Leads c (.element s) (.element a)
  | setEnd {s : Declared .associationSet} {role : Name} {x : Declared .entitySet}
    (h : (role, .declared x) ∈ c.setEnds s) : Leads c (.element s) (.element x)
  | appliedTerm {a : Declared .annot} {t : Declared .term}
    (h : c.applied a = .value (.declared t)) : Leads c (.element a) (.element t)
  | appliedType {a : Declared .annot} {t : Declared .type}
    (h : c.applied a = .type (.declared t)) : Leads c (.element a) (.element t)
  | boundProperty {a : Declared .annot} {i : Nat} {p : Declared .property}
    (h : c.boundProperty a i = .declared p) : Leads c (.element a) (.element p)
  | operand {e child : ExprRef} (h : child ∈ (c.view e).children) : Leads c (.expr e) (.expr child)
  | label {e target : ExprRef} (h : c.view e = .labelRef (.declared target)) :
    Leads c (.expr e) (.expr target)
  | enumMember {e : ExprRef} {members : List (Element EnumMember)} {member : EnumMember}
    (h : c.view e = .enumMember members) (hm : .declared member ∈ members) :
    Leads c (.expr e) (.enumMember member)
  | recordField {e : ExprRef} {type? : Option TypeReference} {fields : List RecordField}
    {field : RecordField} {p : Declared .property} (h : c.view e = .record type? fields)
    (hf : field ∈ fields) (hp : field.property = .declared p) : Leads c (.expr e) (.element p)
  | path {e : ExprRef} {segments : List Name} {p : Declared .property}
    (h : c.pathTarget e segments = .declared p) : Leads c (.expr e) (.element p)

/-! ### Handles -/

section handles

variable {k : ElementKind} {x : Declared k} {h : Handle k}

theorem sees_of_map_locate {e : Element (Handle k)} (h : e.map (c.locate m) = .declared x) :
    c.Sees m x.model := by
  obtain ⟨h', -, rfl⟩ := Element.map_eq_declared_iff.1 h
  exact sees_locate m h'

variable (hm : c.TellsReferencesApart m)
include hm

/-- The handle for an element leads to the element. -/
theorem locate_of_handleFor (hh : c.handleFor m x = some h) : c.locate m h = x := by
  unfold handleFor at hh
  split at hh
  · obtain rfl := Option.some.inj hh
    subst m
    rfl
  · obtain ⟨i, hi, rfl⟩ := Option.map_eq_some_iff.1 hh
    obtain ⟨hlt, hget, -⟩ := List.idxOf?_eq_some_iff.1 hi
    exact hm.locate_referenced (List.getElem?_eq_some_iff.2 ⟨hlt, by simpa using hget⟩) x.id

/-- There is a handle for what a model sees, and it leads there. -/
theorem exists_handleFor_locate (hx : c.Sees m x.model) :
    ∃ h, c.handleFor m x = some h ∧ c.locate m h = x := by
  obtain ⟨h, hh⟩ := exists_handleFor hx
  exact ⟨h, hh, locate_of_handleFor hm hh⟩

/-- What is found among the things that a model sees is the answer, whatever placeholder is ready
in case there is no handle. -/
theorem declared?_map_locate_handleFor {x? : Option (Declared k)} {missing : Placeholder}
    (hx : ∀ x ∈ x?, c.Sees m x.model) :
    ((Element.ofOption missing (x?.bind (c.handleFor m))).map (c.locate m)).declared? = x? := by
  cases x? with
  | none => rfl
  | some x =>
    obtain ⟨h, hh, hl⟩ := exists_handleFor_locate hm (hx x rfl)
    rw [Option.bind_some, hh, ← hl]
    rfl

end handles

/-! ### Where the answers are -/

section sees

variable {t u : Declared .type} {p : Declared .property} {n : Declared .navigation} {name : Name}

theorem sees_of_find? {k : SymbolKind} {x : Declared k.element} (h : c.find? m k name = some x) :
    c.Sees m x.model := by
  obtain ⟨r, hr, hx⟩ := List.exists_of_findSome?_eq_some h
  obtain ⟨id, -, rfl⟩ := Option.map_eq_some_iff.1 hx
  exact List.mem_cons.1 hr

theorem sees_of_elementOf? {reference : TypeReference}
    (h : c.elementOf? m reference = some (.declared t)) : c.Sees m t.model := by
  unfold elementOf? at h
  split at h
  · cases h
    exact sees_locate m _
  · cases h
  · cases h

theorem sees_of_base? (h : c.base? t = some (.declared u)) : c.Sees t.model u.model := by
  obtain ⟨e, -, he⟩ := Option.map_eq_some_iff.1 h
  exact sees_of_map_locate he

theorem sees_of_mem_key (h : .declared p ∈ c.key t) : c.Sees t.model p.model := by
  obtain ⟨e, -, he⟩ := List.mem_map.1 h
  exact sees_of_map_locate he

theorem model_of_mem_declaredProperties (h : p ∈ c.declaredProperties t) : p.model = t.model :=
  (mem_declaredProperties.1 h).1

theorem model_of_mem_declaredNavigation (h : n ∈ c.declaredNavigation t) : n.model = t.model := by
  unfold declaredNavigation at h
  split at h
  · obtain ⟨id, -, rfl⟩ := List.mem_map.1 h
    rfl
  · exact absurd h List.not_mem_nil

/-- The association of an end of a navigation property is that of the property. -/
theorem sees_of_endAt {side : Element EndSide} {e : AssociationEnd}
    (h : endAt (c.navigationAssociation n) side = .declared e) :
    c.Sees n.model e.association.model :=
  sees_of_navigationAssociation (endAt_eq_declared_iff.1 h).1

theorem sees_of_extended? {k k' : Declared .container} (h : c.extended? k = some (.declared k')) :
    c.Sees k.model k'.model := by
  obtain ⟨e, -, he⟩ := Option.map_eq_some_iff.1 h
  exact sees_of_map_locate he

theorem sees_of_mem_setEnds {s : Declared .associationSet} {role : Name}
    {x : Declared .entitySet} (h : (role, .declared x) ∈ c.setEnds s) :
    c.Sees s.model x.model := by
  obtain ⟨e, -, he⟩ := List.mem_map.1 h
  exact sees_of_map_locate (Prod.mk.inj he).2

theorem sees_of_boundProperty {a : Declared .annot} {i : Nat}
    (h : c.boundProperty a i = .declared p) : c.Sees a.model p.model := by
  unfold boundProperty boundAt at h
  split at h
  · exact sees_of_map_locate h
  · cases h

theorem sees_of_applied_value {a : Declared .annot} {t : Declared .term}
    (h : c.applied a = .value (.declared t)) : c.Sees a.model t.model := by
  unfold applied at h
  cases ha : c.appliedHandle a with
  | value e =>
    rw [ha] at h
    exact sees_of_map_locate (AppliedTerm.value.inj h)
  | type e =>
    rw [ha] at h
    cases h

theorem sees_of_applied_type {a : Declared .annot} (h : c.applied a = .type (.declared t)) :
    c.Sees a.model t.model := by
  unfold applied at h
  cases ha : c.appliedHandle a with
  | value e =>
    rw [ha] at h
    cases h
  | type e =>
    rw [ha] at h
    exact sees_of_map_locate (AppliedTerm.type.inj h)

theorem sees_of_view_enumMember {e : ExprRef} {members : List (Element EnumMember)}
    {member : EnumMember} (h : c.view e = .enumMember members) (hm : .declared member ∈ members) :
    c.Sees e.owner.model member.type.model := by
  unfold view viewWith at h
  dsimp only at h
  split at h <;> cases h
  obtain ⟨x, -, hx⟩ := List.mem_map.1 hm
  obtain ⟨⟨hd, place⟩, -, rfl⟩ := Element.map_eq_declared_iff.1 hx
  exact sees_locate _ hd

/-- The property of a field of a record is looked for under the name of the field. -/
theorem exists_fieldHandle_of_view {e : ExprRef} {type? : Option TypeReference}
    {fields : List RecordField} {field : RecordField} (h : c.view e = .record type? fields)
    (hf : field ∈ fields) :
    ∃ d : Decl.Binding Decl.Expr, d.property = field.name ∧
      field.property =
        (c.fieldHandle e (type?.bind (c.elementOf? e.owner.model)) d).map
          (c.locate e.owner.model) := by
  unfold view viewWith at h
  dsimp only at h
  split at h <;> cases h
  rename_i properties handles hform hr
  have hhandles : handles =
      properties.map (c.fieldHandle e (type?.bind (c.elementOf? e.owner.model))) := by
    unfold references at hr
    rw [hform] at hr
    split at hr
    · cases hr
    · cases hr
      rfl
  obtain ⟨⟨d, value, property⟩, hz, rfl⟩ := List.mem_map.1 hf
  refine ⟨d, rfl, ?_⟩
  -- the binding and the handle stand at the same place of their lists
  obtain ⟨i, hi, hget⟩ := List.getElem_of_mem hz
  simp only [hhandles, List.getElem_zip, List.getElem_map, Prod.mk.injEq] at hget
  rw [← hget.2.2, hget.1]

namespace IsBuilt

variable (hc : c.IsBuilt)
include hc

theorem sees_of_mem_properties (h : p ∈ c.properties t) : c.Sees t.model p.model := by
  obtain ⟨a, ha, hp⟩ := mem_properties.1 h
  rw [model_of_mem_declaredProperties hp]
  exact hc.sees_of_mem_ancestry ha

theorem sees_of_findProperty? (h : c.findProperty? t name = some p) : c.Sees t.model p.model := by
  obtain ⟨a, ha, hp⟩ := List.exists_of_findSome?_eq_some h
  rw [model_of_mem_declaredProperties (List.mem_of_find?_eq_some hp)]
  exact hc.sees_of_mem_ancestry ha

theorem sees_of_mem_navigation (h : n ∈ c.navigation t) : c.Sees t.model n.model := by
  obtain ⟨a, ha, hn⟩ := List.mem_flatMap.1 h
  rw [model_of_mem_declaredNavigation hn]
  exact hc.sees_of_mem_ancestry (List.mem_reverse.1 ha)

theorem sees_of_findNavigation? (h : c.findNavigation? t name = some n) :
    c.Sees t.model n.model := by
  obtain ⟨a, ha, hn⟩ := List.exists_of_findSome?_eq_some h
  rw [model_of_mem_declaredNavigation (List.mem_of_find?_eq_some hn)]
  exact hc.sees_of_mem_ancestry ha

theorem sees_of_mem_effectiveKey (h : .declared p ∈ c.effectiveKey t) :
    c.Sees t.model p.model := by
  obtain ⟨a, ha, hp⟩ := exists_mem_key_of_mem_effectiveKey h
  exact hc.sees_trans (hc.sees_of_mem_ancestry ha) (sees_of_mem_key hp)

/-- Two hops: to the association, and from there to the type at its end. -/
theorem sees_of_navigationTarget (h : c.navigationTarget n = .declared t) :
    c.Sees n.model t.model := by
  obtain ⟨e, he, ht⟩ := Element.bind_eq_declared_iff.1 h
  exact hc.sees_trans (sees_of_endAt he) (sees_of_endType ht)

theorem sees_of_mem_extendedChain {k k' : Declared .container} (h : k' ∈ c.extendedChain k) :
    c.Sees k.model k'.model := by
  have hchain := Chain.reflTransGen_of_mem_trail h
  clear h
  induction hchain with
  | refl => exact .inl rfl
  | tail _ hstep ih =>
    obtain ⟨e, he, hd⟩ := Option.bind_eq_some_iff.1 hstep
    cases e with
    | declared => exact hc.sees_trans ih (sees_of_extended? (by rw [he, Option.some.inj hd]))
    | placeholder => cases hd

theorem sees_of_findEntitySet? {k : Declared .container} {s : Declared .entitySet}
    (h : c.findEntitySet? k name = some s) : c.Sees k.model s.model := by
  obtain ⟨k', hk, hs⟩ := List.exists_of_findSome?_eq_some h
  obtain ⟨id, -, rfl⟩ := List.mem_map.1 (List.mem_of_find?_eq_some hs)
  exact hc.sees_of_mem_extendedChain hk

end IsBuilt

end sees

/-! ### Paths -/

section paths

variable {t u : Declared .type} {p : Declared .property}

variable (c) in
/-- The property that a path beginning in a type leads to, in whatever model it is. -/
def propertyAlong? (t : Declared .type) : List Name → Option (Declared .property)
  | [] => none
  | [last] => c.findProperty? t last
  | segment :: rest =>
    (c.pathStep (fun _ => default) t segment).declared?.bind fun t => propertyAlong? t rest

/-- Where a segment leads does not depend on what is said if it leads nowhere. -/
theorem declared?_pathStep (fail fail' : String → Placeholder) (t : Declared .type)
    (segment : Name) :
    (c.pathStep fail t segment).declared? = (c.pathStep fail' t segment).declared? := by
  unfold pathStep
  cases c.findProperty? t segment with
  | none => cases c.findNavigation? t segment <;> rfl
  | some p =>
    dsimp only
    cases c.propertyElement? p <;> rfl

variable (hc : c.IsBuilt)
include hc

theorem IsBuilt.sees_of_pathStep {fail : String → Placeholder} {segment : Name}
    (h : c.pathStep fail t segment = .declared u) : c.Sees t.model u.model := by
  unfold pathStep at h
  split at h
  case h_1 p hp =>
    cases he : c.propertyElement? p with
    | none =>
      rw [he] at h
      cases h
    | some e =>
      rw [he] at h
      obtain rfl : e = .declared u := h
      exact hc.sees_trans (hc.sees_of_findProperty? hp) (sees_of_elementOf? he)
  case h_2 =>
    split at h
    · rename_i n hn
      exact hc.sees_trans (hc.sees_of_findNavigation? hn) (hc.sees_of_navigationTarget h)
    · cases h

/-- A path that begins in a type which a model sees leads where it leads in whatever model. -/
theorem IsBuilt.declared?_followPath {fail : String → Placeholder} {segments : List Name}
    (hm : c.TellsReferencesApart m) (ht : c.Sees m t.model) :
    ((c.followPath m fail t segments).map (c.locate m)).declared? =
      c.propertyAlong? t segments := by
  induction segments generalizing t with
  | nil => rfl
  | cons segment rest ih =>
    cases rest with
    | nil =>
      exact declared?_map_locate_handleFor hm fun p hp =>
        hc.sees_trans ht (hc.sees_of_findProperty? hp)
    | cons next rest =>
      rw [followPath, propertyAlong?, declared?_pathStep _ fail]
      · cases hstep : c.pathStep fail t segment with
        | declared u => exact ih (hc.sees_trans ht (hc.sees_of_pathStep hstep))
        | placeholder p => rfl
      · simp
      · simp

/-- The path of an expression leads to the property that is found along it from the type in which
the expression's paths begin. -/
theorem IsBuilt.declared?_pathTarget {e : ExprRef} (hm : c.TellsReferencesApart e.owner.model)
    (segments : List Name) : (c.pathTarget e segments).declared? =
    (c.exprContext? e).bind (c.propertyAlong? · segments) := by
  unfold pathTarget pathTargetHandle pathHandle pathStart
  cases hcontext : c.exprContext? e with
  | none => cases segments.getLast? <;> rfl
  | some t =>
    cases segments with
    | nil => rfl
    | cons segment rest =>
      have ht : t.model = e.owner.model := by
        obtain ⟨id, -, rfl⟩ := Option.map_eq_some_iff.1 hcontext
        rfl
      rw [List.getLast?_cons]
      exact hc.declared?_followPath hm (.inl ht)

end paths

/-! ### Reachable subjects -/

/-- One question leads from a subject to something that its model sees. -/
theorem IsBuilt.sees_of_leads (hc : c.IsBuilt) {x y : Subject} (h : c.Leads x y) :
    c.Sees x.modelId y.modelId := by
  cases h with
  | within h => exact .inl h
  | reference h => exact .inr h
  | lookup h => exact sees_of_find? h
  | typeReference h => exact sees_of_elementOf? h
  | base h => exact sees_of_base? h
  | ancestor h => exact hc.sees_of_mem_ancestry h
  | property h => exact hc.sees_of_mem_properties h
  | namedProperty h => exact hc.sees_of_findProperty? h
  | navigation h => exact hc.sees_of_mem_navigation h
  | namedNavigation h => exact hc.sees_of_findNavigation? h
  | key h => exact sees_of_mem_key h
  | effectiveKey h => exact hc.sees_of_mem_effectiveKey h
  | navigationAssociation h => exact sees_of_navigationAssociation h
  | fromEnd h | toEnd h => exact sees_of_endAt h
  | navigationTarget h => exact hc.sees_of_navigationTarget h
  | endType h => exact sees_of_endType h
  | extended h => exact sees_of_extended? h
  | namedSet h => exact hc.sees_of_findEntitySet? h
  | entityType h | setAssociation h | path h => exact sees_of_map_locate h
  | setEnd h => exact sees_of_mem_setEnds h
  | appliedTerm h => exact sees_of_applied_value h
  | appliedType h => exact sees_of_applied_type h
  | boundProperty h => exact sees_of_boundProperty h
  | operand h =>
    have howner := c.owner_of_mem_operands (c.mem_operands_of_mem_children h)
    exact .inl (congrArg (fun a : Declared .annot => a.model) howner)
  | label h =>
    have hschema := (c.of_view_labelRef h).1
    exact .inl (congrArg (fun s : Declared .schema => s.model) hschema)
  | enumMember h hm => exact sees_of_view_enumMember h hm
  | recordField h hf hp =>
    obtain ⟨d, -, hd⟩ := exists_fieldHandle_of_view h hf
    exact sees_of_map_locate (hd.symm.trans hp)

/-- Any number of questions lead to something that the first model sees. -/
theorem IsBuilt.sees_of_reflTransGen (hc : c.IsBuilt) {x y : Subject}
    (h : Relation.ReflTransGen c.Leads x y) : c.Sees x.modelId y.modelId := by
  induction h with
  | refl => exact .inl rfl
  | tail _ hstep ih => exact hc.sees_trans ih (hc.sees_of_leads hstep)

/-! ### What is found is the answer -/

variable (c) in
/-- In a model, the readings that look an element up and then ask for its handle answer with what
they find, and if they find nothing there is no declared answer. -/
structure AnswersWithWhatIsFound (m : ModelId) : Prop where
  key : ∀ t : Declared .type, t.model = m → ∀ body ∈ (c.type t).body.structured?,
    (c.key t).map (·.declared?) = body.key.map (c.findProperty? t)
  navigationType : ∀ n : Declared .navigation, n.model = m →
    c.elementOf? m (c.navigationType n) = some (c.navigationTarget n)
  setEnds : ∀ s : Declared .associationSet, s.model = m →
    (c.setEnds s).map (fun e => (e.1, e.2.declared?)) = (c.setEndDecls s).map fun e =>
      (e.role, c.findEntitySet? (c.containerOfAssociationSet s) e.entitySet)
  boundProperty : ∀ a : Declared .annot, a.model = m → ∀ i, ∀ b ∈ (c.bindingDecls a)[i]?,
    (c.boundProperty a i).declared? =
      (appliedType? (c.applied a)).bind (c.findProperty? · b.property)
  recordField : ∀ e : ExprRef, e.owner.model = m → ∀ type? fields,
    c.view e = .record type? fields → ∀ field ∈ fields, field.property.declared? =
      ((type?.bind (c.elementOf? m)).bind (·.declared?)).bind (c.findProperty? · field.name)
  path : ∀ e : ExprRef, e.owner.model = m → ∀ segments,
    (c.pathTarget e segments).declared? = (c.exprContext? e).bind (c.propertyAlong? · segments)

section answers

variable (hc : c.IsBuilt)
include hc

theorem IsBuilt.declared?_key {t : Declared .type} (hm : c.TellsReferencesApart t.model)
    {body : StructuredEntry} (hbody : (c.type t).body.structured? = some body) :
    (c.key t).map (·.declared?) = body.key.map (c.findProperty? t) := by
  simp only [key, keyHandles, hbody, List.map_map]
  refine List.map_congr_left fun name _ => ?_
  exact declared?_map_locate_handleFor hm fun p hp => hc.sees_of_findProperty? hp

/-- At the bottom of the type of a navigation property is the entity type to which it leads. -/
theorem IsBuilt.elementOf?_navigationType {n : Declared .navigation}
    (hm : c.TellsReferencesApart n.model) :
    c.elementOf? n.model (c.navigationType n) = some (c.navigationTarget n) := by
  unfold navigationType navigationTypeOf navigationTarget
  cases hto : c.toEnd n with
  | placeholder p => rfl
  | declared e =>
    rw [Element.bind]
    dsimp only
    cases ht : c.endType e with
    | placeholder p => cases (c.endDecl e).multiplicity <;> rfl
    | declared t =>
      obtain ⟨h, hh, rfl⟩ :=
        exists_handleFor_locate hm (hc.sees_trans (sees_of_endAt hto) (sees_of_endType ht))
      simp only [hh]
      cases (c.endDecl e).multiplicity <;> rfl

theorem IsBuilt.declared?_setEnds {s : Declared .associationSet}
    (hm : c.TellsReferencesApart s.model) :
    (c.setEnds s).map (fun e => (e.1, e.2.declared?)) = (c.setEndDecls s).map fun e =>
      (e.role, c.findEntitySet? (c.containerOfAssociationSet s) e.entitySet) := by
  simp only [setEnds, List.map_map]
  refine List.map_congr_left fun e _ => congrArg (e.role, ·) ?_
  exact declared?_map_locate_handleFor hm fun x hx => hc.sees_of_findEntitySet? hx

theorem IsBuilt.declared?_boundProperty {a : Declared .annot}
    (hm : c.TellsReferencesApart a.model) {i : Nat} {b : Decl.Binding Decl.Expr}
    (hb : (c.bindingDecls a)[i]? = some b) :
    (c.boundProperty a i).declared? =
      (appliedType? (c.applied a)).bind (c.findProperty? · b.property) := by
  simp only [boundProperty, boundAt, bindingHandles, List.getElem?_map, hb, Option.map_some]
  refine declared?_map_locate_handleFor hm fun p hp => ?_
  obtain ⟨t, ht, hp⟩ := Option.bind_eq_some_iff.1 hp
  cases ha : c.applied a with
  | value term =>
    rw [ha] at ht
    cases ht
  | type e =>
    rw [ha] at ht
    obtain rfl : e = .declared t := by
      cases e with
      | declared u => exact congrArg _ (Option.some.inj ht)
      | placeholder q => cases ht
    exact hc.sees_trans (sees_of_applied_type ha) (hc.sees_of_findProperty? hp)

theorem IsBuilt.declared?_recordField {e : ExprRef} (hm : c.TellsReferencesApart e.owner.model)
    {type? : Option TypeReference} {fields : List RecordField}
    (h : c.view e = .record type? fields) {field : RecordField} (hf : field ∈ fields) :
    field.property.declared? =
      ((type?.bind (c.elementOf? e.owner.model)).bind (·.declared?)).bind
        (c.findProperty? · field.name) := by
  obtain ⟨d, hname, hd⟩ := exists_fieldHandle_of_view h hf
  rw [hd, ← hname]
  refine declared?_map_locate_handleFor hm fun p hp => ?_
  obtain ⟨t, ht, hp⟩ := Option.bind_eq_some_iff.1 hp
  obtain ⟨element, helement, ht⟩ := Option.bind_eq_some_iff.1 ht
  obtain ⟨reference, -, helement⟩ := Option.bind_eq_some_iff.1 helement
  obtain rfl : element = .declared t := by
    cases element with
    | declared u => exact congrArg _ (Option.some.inj ht)
    | placeholder q => cases ht
  exact hc.sees_trans (sees_of_elementOf? helement) (hc.sees_of_findProperty? hp)

/-- The placeholders for elements without a handle are never used. -/
theorem IsBuilt.answersWithWhatIsFound (hm : c.TellsReferencesApart m) :
    c.AnswersWithWhatIsFound m where
  key _ ht _ hbody := hc.declared?_key (ht ▸ hm) hbody
  navigationType _ hn := hn ▸ hc.elementOf?_navigationType (hn ▸ hm)
  setEnds _ hs := hc.declared?_setEnds (hs ▸ hm)
  boundProperty _ ha _ _ hb := hc.declared?_boundProperty (ha ▸ hm) hb
  recordField _ he _ _ h _ hf := he ▸ hc.declared?_recordField (he ▸ hm) h hf
  path _ he segments := hc.declared?_pathTarget (he ▸ hm) segments

end answers

/-- **Nothing is out of sight.**  A model lists each model that it references once, and all that
these reference.  If it can tell them apart, there is a handle for whatever stands in a model that
one comes to from a part of it, however one goes on, and the handle leads there.  And where the
model looks something up and asks for its handle, what is found is the answer. -/
theorem references_closed_and_exists_handleFor (hc : c.IsBuilt) (hm : c.TellsReferencesApart m) :
    (c.model m).references.Nodup ∧
      (∀ r ∈ (c.model m).references, (c.model r).references ⊆ (c.model m).references) ∧
      (∀ x y : Subject, x.modelId = m → Relation.ReflTransGen c.Leads x y →
        (y.modelId = m ∨ y.modelId ∈ (c.model m).references) ∧
          ∀ (k : ElementKind) (id : Id k), ∃ h, c.handleFor m ⟨y.modelId, id⟩ = some h ∧
            c.locate m h = ⟨y.modelId, id⟩) ∧
      c.AnswersWithWhatIsFound m := by
  refine ⟨hc.nodup_references m, fun r hr => (hc.references_spec m r hr).2, ?_,
    hc.answersWithWhatIsFound hm⟩
  rintro x y rfl h
  have hsees := hc.sees_of_reflTransGen h
  exact ⟨hsees, fun k id => exists_handleFor_locate hm hsees⟩

/-- Three more models of one entity type each, of which the second and the third have the type of
the model before as a base and reference that model. -/
def layers : Catalog :=
  let options := { Options.standard with includeCore := false }
  let schema (ns : Name) (t : Decl.Structured) := (Decl.Schema.make ns).addItem (.entityType t)
  let root := (Decl.Structured.make "Root").addProperty (.make "Id" "Edm.Int32")
  let middle := { Decl.Structured.make "Middle" with base? := some "A.Root" }
  let leaf := { (Decl.Structured.make "Leaf").addKey "Id" with base? := some "B.Middle" }
  ((initial.add options [] [schema "A" root]).add options [1] [schema "B" middle]).add options [2]
    [schema "C" leaf]

theorem isBuilt_layers : layers.IsBuilt := by
  refine .add (.add (.add_nil .initial _ _) _ ?_ _) _ ?_ _
  · decide +kernel
  · decide +kernel

/-- The key of the last type is a property of the first model, which the last one references by way
of the second. -/
theorem references_closed_and_exists_handleFor_layers :
    (layers.model 3).references = [2, 1] ∧ layers.TellsReferencesApart 3 ∧
      layers.key ⟨3, ⟨0⟩⟩ = [.declared ⟨1, ⟨0⟩⟩] ∧
      (∃ h, layers.handleFor 3 (⟨1, ⟨0⟩⟩ : Declared .property) = some h ∧
        layers.locate 3 h = ⟨1, ⟨0⟩⟩) ∧
      layers.AnswersWithWhatIsFound 3 := by
  have hkey : layers.key ⟨3, ⟨0⟩⟩ = [.declared ⟨1, ⟨0⟩⟩] := by decide +kernel
  have hleads : layers.Leads (.element ⟨3, ⟨0⟩⟩) (.element ⟨1, ⟨0⟩⟩) :=
    .key (by rw [hkey]; exact List.mem_singleton_self _)
  have hm : layers.TellsReferencesApart 3 := by decide +kernel
  obtain ⟨-, -, hreach, hanswers⟩ := references_closed_and_exists_handleFor isBuilt_layers hm
  exact ⟨by decide +kernel, hm, hkey, (hreach _ _ rfl (.single hleads)).2 .property ⟨0⟩, hanswers⟩

end Catalog

end Schemata

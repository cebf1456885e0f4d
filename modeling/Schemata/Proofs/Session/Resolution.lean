import Schemata.Proofs.Session.History

/-!
# What following all references leaves open

`Session.resolveAll` follows the references of a model's elements, so that none of their cells need
change any more.  It does so for every cell but those of value annotations that hold what the
annotation applies: only the bindings of an annotation are asked for, and a value annotation binds
nothing.  Such a cell is as it was before (`isResolved_after_resolveAll_iff`), and the next question
for it changes it (`settled_after_resolveAll_iff`).
-/

namespace Schemata.Session

open Catalog

variable {c : Catalog} {n : Nat} {m : ModelId}

/-- The cells that are about the elements of a model.  There is one for the target of an expression
only where the expression is a path. -/
def HasCell (c : Catalog) (m : ModelId) : Slot → Prop
  | .base t | .key t => t ∈ c.elements m .type
  | .propertyType p => p ∈ c.elements m .property
  | .association p | .sides p => p ∈ c.elements m .navigation
  | .endType e => e.association ∈ c.elements m .association
  | .termType t => t ∈ c.elements m .term
  | .extended k => k ∈ c.elements m .container
  | .entityType s => s ∈ c.elements m .entitySet
  | .setAssociation s | .setEnds s => s ∈ c.elements m .associationSet
  | .applied a | .bindings a => a ∈ c.elements m .annot
  | .references e => e.owner ∈ c.elements m .annot ∧ e ∈ c.nodesOf e.owner
  | .pathTarget e => e.owner ∈ c.elements m .annot ∧ e ∈ c.nodesOf e.owner ∧
      ∃ segments, c.view e = .path segments

/-! ### Cells that an element's references resolve -/

theorem resolves_base (hn : 1 < n) (t : Declared .type) :
    Resolves c n (resolveType c t) (.base t) := by
  have hbase : Resolves c n (base? c t) (.base t) :=
    (resolves_baseHandle? (by omega) t).map (reads_baseHandle? (by omega) t) _
  exact (hbase.discard (reads_base? (by omega) t)).bind_left (reads_base? (by omega) t).discard
    (reads_key hn t).discard

theorem resolves_key (hn : 1 < n) (t : Declared .type) :
    Resolves c n (resolveType c t) (.key t) := by
  have hkey : Resolves c n (key c t) (.key t) :=
    (Resolves.remember hn).map (reads_keyHandles hn t) _
  exact .bind_right (reads_base? (by omega) t).discard (hkey.discard (reads_key hn t))

theorem resolves_propertyType (hn : 0 < n) (p : Declared .property) :
    Resolves c n (resolveProperty c p) (.propertyType p) :=
  (Resolves.remember hn).discard (reads_propertyType hn p)

theorem resolves_sides (hn : 1 < n) (p : Declared .navigation) :
    Resolves c n (resolveNavigation c p) (.sides p) := by
  have hsides : Resolves c n (toEnd c p) (.sides p) :=
    (Resolves.remember hn).bind_left (reads_navigationSides hn p)
      ((reads_navigationAssociation (by omega) p).map _)
  exact hsides.discard (reads_toEnd hn p)

theorem resolves_association (hn : 1 < n) (p : Declared .navigation) :
    Resolves c n (resolveNavigation c p) (.association p) := by
  have hn' : c.layer (.association p) < n := by rw [layer]; omega
  have hhandle : Resolves c n (navigationAssociation c p) (.association p) :=
    (Resolves.remember hn').map (.remember_pure hn' rfl) _
  have hend : Resolves c n (toEnd c p) (.association p) :=
    .bind_right (reads_navigationSides hn p)
      (hhandle.map (reads_navigationAssociation (by omega) p) _)
  exact hend.discard (reads_toEnd hn p)

theorem resolves_endType (hn : 0 < n) (e : AssociationEnd) :
    Resolves c n (resolveAssociation c e.association) (.endType e) := by
  have hmem : e ∈ Catalog.ends e.association := by
    obtain ⟨a, side⟩ := e
    cases side <;> simp [Catalog.ends]
  have hend : Resolves c n (endType c e) (.endType e) :=
    (Resolves.remember (s := .endType e) hn).map (.remember_pure hn rfl) _
  exact .forM hmem (hend.discard (reads_endType hn e)) fun e _ => (reads_endType hn e).discard

theorem resolves_termType (hn : 0 < n) (t : Declared .term) :
    Resolves c n (resolveTerm c t) (.termType t) :=
  (Resolves.remember hn).discard (reads_termType hn t)

theorem resolves_extended (hn : 0 < n) (k : Declared .container) :
    Resolves c n (resolveContainer c k) (.extended k) := by
  have hextended : Resolves c n (extended? c k) (.extended k) :=
    (Resolves.remember (s := .extended k) hn).map (.remember_pure hn rfl) _
  exact hextended.discard (reads_extended? hn k)

theorem resolves_entityType (hn : 0 < n) (s : Declared .entitySet) :
    Resolves c n (resolveEntitySet c s) (.entityType s) := by
  have htype : Resolves c n (entityType c s) (.entityType s) :=
    (Resolves.remember (s := .entityType s) hn).map (.remember_pure hn rfl) _
  exact htype.discard (reads_entityType hn s)

theorem resolves_setAssociation (hn : 1 < n) (s : Declared .associationSet) :
    Resolves c n (resolveAssociationSet c s) (.setAssociation s) := by
  have hn' : c.layer (.setAssociation s) < n := by rw [layer]; omega
  have hset : Resolves c n (setAssociation c s) (.setAssociation s) :=
    (Resolves.remember hn').map (.remember_pure hn' rfl) _
  have hreads : Reads c n (setAssociation c s) _ := reads_setAssociation (by omega) s
  exact (hset.discard hreads).bind_left hreads.discard (reads_setEnds hn s).discard

theorem resolves_setEnds (hn : 1 < n) (s : Declared .associationSet) :
    Resolves c n (resolveAssociationSet c s) (.setEnds s) := by
  have hends : Resolves c n (setEnds c s) (.setEnds s) :=
    (Resolves.remember (s := .setEnds s) hn).map (reads_setEndHandles hn s) _
  exact .bind_right (reads_setAssociation (by omega) s).discard
    (hends.discard (reads_setEnds hn s))

theorem resolves_bindings (hn : 2 < n) (a : Declared .annot) :
    Resolves c n (resolveAnnotated c a) (.bindings a) := by
  have hbindings : Resolves c n (bindingHandles c a) (.bindings a) :=
    Resolves.remember (s := .bindings a) (Nat.lt_of_succ_lt hn)
  have hreads : Reads c n (bindingHandles c a) _ := reads_bindingHandles (by omega) a
  exact (hbindings.discard hreads).bind_left hreads.discard
    (.forM fun e _ => reads_resolveExpr hn e)

/-- What the expressions of an annotation resolve the annotation resolves. -/
theorem Resolves.annotated {s : Slot} (hn : 2 < n) {e : ExprRef} (he : e ∈ c.nodesOf e.owner)
    (hs : Resolves c n (resolveExpr c e) s) : Resolves c n (resolveAnnotated c e.owner) s :=
  .bind_right (reads_bindingHandles (by omega) e.owner).discard
    (.forM he hs fun e _ => reads_resolveExpr hn e)

theorem resolves_references (hn : 2 < n) (e : ExprRef) :
    Resolves c n (resolveExpr c e) (.references e) := by
  have hview : Resolves c n (view c e) (.references e) :=
    (Resolves.remember (s := .references e) (Nat.lt_of_succ_lt hn)).map
      (reads_references (by omega) e) _
  refine hview.bind_left (reads_view (by omega) e) (b := ()) ?_
  cases h : c.view e with
  | path segments => exact (reads_pathTarget hn (pathSegments_of_view h)).discard
  | _ => exact .pure ()

theorem resolves_pathTarget (hn : 2 < n) {e : ExprRef} {segments : List Name}
    (h : c.view e = .path segments) : Resolves c n (resolveExpr c e) (.pathTarget e) := by
  have hsegments : c.pathSegments e = segments := pathSegments_of_view h
  have htarget : Resolves c n (pathTarget c e segments) (.pathTarget e) :=
    (Resolves.remember (s := .pathTarget e) hn).map (reads_pathTargetHandle hn hsegments) _
  refine .bind_right (reads_view (by omega) e) ?_
  rw [h]
  exact htarget.discard (reads_pathTarget hn hsegments)

/-! ### All references of a model -/

/-- What the references of one element resolve is resolved when all references are followed. -/
theorem Resolves.resolveAll {s : Slot} {k : ElementKind} {e : Declared k} (hn : 2 < n)
    (hk : k ∈ referringKinds) (he : e ∈ c.elements m k)
    (hs : Resolves c n (resolveElement c k e) s) : Resolves c n (resolveAll c m) s :=
  .forM hk (.forM he hs fun e _ => reads_resolveElement hn k e)
    fun k _ => .forM fun e _ => reads_resolveElement hn k e

/-- Every cell of a model is resolved, those apart that hold what an annotation applies. -/
theorem resolves_resolveAll (hn : 2 < n) {s : Slot} (hs : HasCell c m s)
    (happlied : ∀ a, s ≠ .applied a) : Resolves c n (resolveAll c m) s := by
  cases s with
  | base t => exact .resolveAll (k := .type) hn (by decide) hs (resolves_base (by omega) t)
  | key t => exact .resolveAll (k := .type) hn (by decide) hs (resolves_key (by omega) t)
  | propertyType p =>
    exact .resolveAll (k := .property) hn (by decide) hs (resolves_propertyType (by omega) p)
  | association p =>
    exact .resolveAll (k := .navigation) hn (by decide) hs (resolves_association (by omega) p)
  | sides p =>
    exact .resolveAll (k := .navigation) hn (by decide) hs (resolves_sides (by omega) p)
  | endType e =>
    exact .resolveAll (k := .association) hn (by decide) hs (resolves_endType (by omega) e)
  | termType t => exact .resolveAll (k := .term) hn (by decide) hs (resolves_termType (by omega) t)
  | extended k =>
    exact .resolveAll (k := .container) hn (by decide) hs (resolves_extended (by omega) k)
  | entityType s =>
    exact .resolveAll (k := .entitySet) hn (by decide) hs (resolves_entityType (by omega) s)
  | setAssociation s =>
    exact .resolveAll (k := .associationSet) hn (by decide) hs
      (resolves_setAssociation (by omega) s)
  | setEnds s =>
    exact .resolveAll (k := .associationSet) hn (by decide) hs (resolves_setEnds (by omega) s)
  | applied a => exact absurd rfl (happlied a)
  | bindings a =>
    exact .resolveAll (k := .annot) hn (by decide) hs (resolves_bindings hn a)
  | references e =>
    exact .resolveAll (k := .annot) hn (by decide) hs.1
      ((resolves_references hn e).annotated hn hs.2)
  | pathTarget e =>
    obtain ⟨howner, he, segments, hview⟩ := hs
    exact .resolveAll (k := .annot) hn (by decide) howner
      ((resolves_pathTarget hn hview).annotated hn he)

/-! ### Before and after -/

theorem after_append (qs qs' : List Query) :
    after c (qs ++ qs') = ((askAll c qs').run (after c qs)).2 := by
  rw [after, askAll, List.forM_eq_forM, List.forM_append]
  rfl

theorem after_concat (qs : List Query) (q : Query) :
    after c (qs ++ [q]) = ((ask c q).run (after c qs)).2 := by
  rw [after_append]
  rfl

theorem settles_after_append (qs qs' : List Query) :
    c.Settles 4 (after c qs) (after c (qs ++ qs')) := by
  obtain ⟨later, hrun, -, hset⟩ := reads_askAll qs' _ (sound_after qs) (quiet_after qs 4)
  rw [after_append, hrun]
  exact hset

/-- A cell that is resolved does not change. -/
theorem after_append_of_isResolved {qs : List Query} {s : Slot}
    (hs : (after c qs s).isResolved = true) (qs' : List Query) :
    after c (qs ++ qs') s = after c qs s := by
  rcases settles_after_append qs qs' s with h | ⟨-, hu, -⟩
  · exact h
  · rw [hu] at hs
    exact absurd hs Bool.false_ne_true

/-- Asking what an annotation applies resolves the cell. -/
theorem isResolved_after_applied (qs : List Query) (a : Declared .annot) :
    (after c (qs ++ [.applied a]) (.applied a)).isResolved = true := by
  have happlied : Resolves c 4 (applied c a) (.applied a) :=
    (Resolves.remember (c.layer_lt _)).map (reads_appliedHandle (c.layer_lt _)) _
  rw [after_concat]
  exact happlied _ (sound_after qs) (quiet_after qs 4)

/-- What a value annotation applies is not looked up when all references are followed. -/
theorem after_resolveAll_of_value (qs : List Query) (m : ModelId) {a : Declared .annot}
    (ha : c.appliesType a = false) :
    after c (qs ++ [.resolveAll m]) (.applied a) = after c qs (.applied a) := by
  obtain ⟨later, hrun, -, hset⟩ :=
    reads_resolveAll (Nat.lt_succ_self 2) m _ (sound_after qs) (quiet_after qs 3)
  have hlayer : c.layer (.applied a) = 3 := by
    rw [layer, ha]
    rfl
  rw [after_concat]
  show ((resolveAll c m).run (after c qs)).2 (.applied a) = _
  rw [hrun]
  rcases hset (.applied a) with h | ⟨hlt, -⟩
  · exact h
  · rw [hlayer] at hlt
    exact absurd hlt (Nat.lt_irrefl 3)

/-- Once all references of a model have been followed, its cells are resolved; the cell for what a
value annotation applies is resolved iff it was so before. -/
theorem isResolved_after_resolveAll_iff (qs : List Query) {s : Slot} (hs : HasCell c m s) :
    (after c (qs ++ [.resolveAll m]) s).isResolved = true ↔
      ∀ a, s = .applied a → c.appliesType a = true ∨ (after c qs s).isResolved = true := by
  have hresolves {u : Slot} (hu : HasCell c m u) (happlied : ∀ a, u ≠ .applied a) :
      (after c (qs ++ [.resolveAll m]) u).isResolved = true := by
    rw [after_concat]
    exact resolves_resolveAll (Nat.lt_succ_self 2) hu happlied _ (sound_after qs)
      (quiet_after qs 3)
  by_cases hslot : ∃ a, s = .applied a
  · obtain ⟨a, rfl⟩ := hslot
    constructor
    · rintro h _ ⟨rfl⟩
      cases ha : c.appliesType a with
      | true => exact .inl rfl
      | false =>
        rw [after_resolveAll_of_value qs m ha] at h
        exact .inr h
    · intro h
      rcases h a rfl with ha | hbefore
      -- the bindings are resolved, and a sound memory has them only after what the type is
      · exact (sound_after _).applied_of_bindings ha
          (hresolves (u := .bindings a) hs fun _ ha => by cases ha)
      · rwa [after_append_of_isResolved hbefore]
  · have happlied : ∀ a, s ≠ .applied a := fun a ha => hslot ⟨a, ha⟩
    exact iff_of_true (hresolves hs happlied) fun a ha => absurd ha (happlied a)

/-- **What following all references settles.**  When all references of a model have been followed,
all its cells are resolved, and no question about anything changes one of them, iff it had been
asked before of every value annotation of the model what it applies. -/
theorem settled_after_resolveAll_iff (c : Catalog) (m : ModelId) (qs : List Query) :
    ((∀ s, HasCell c m s → (after c (qs ++ [.resolveAll m]) s).isResolved = true) ↔
      ∀ a ∈ c.elements m .annot,
        c.appliesType a = true ∨ (after c qs (.applied a)).isResolved = true) ∧
    ((∀ qs' s, HasCell c m s →
        after c (qs ++ [.resolveAll m] ++ qs') s = after c (qs ++ [.resolveAll m]) s) ↔
      ∀ a ∈ c.elements m .annot,
        c.appliesType a = true ∨ (after c qs (.applied a)).isResolved = true) := by
  have hall : (∀ s, HasCell c m s → (after c (qs ++ [.resolveAll m]) s).isResolved = true) ↔
      ∀ a ∈ c.elements m .annot,
        c.appliesType a = true ∨ (after c qs (.applied a)).isResolved = true := by
    constructor
    · intro h a ha
      exact (isResolved_after_resolveAll_iff (s := .applied a) qs ha).1 (h _ ha) a rfl
    · intro h s hs
      refine (isResolved_after_resolveAll_iff qs hs).2 ?_
      rintro a rfl
      exact h a hs
  refine ⟨hall, ?_, fun h qs' s hs => after_append_of_isResolved (hall.2 h s hs) qs'⟩
  intro h a ha
  refine (isResolved_after_resolveAll_iff (s := .applied a) qs ha).1 ?_ a rfl
  rw [← h [.applied a] (.applied a) ha]
  exact isResolved_after_applied _ a

/-- The core vocabulary has value annotations, and following all its references leaves their cells
unread. -/
theorem not_settled_after_resolveAll_core :
    ¬ ∀ s, HasCell Catalog.initial core s →
      (after Catalog.initial [.resolveAll core] s).isResolved = true := by
  intro h
  let a : Declared .annot := ⟨core, ⟨0⟩⟩
  have hmem : a ∈ Catalog.initial.elements core .annot :=
    Catalog.initial.mem_elements.2 ⟨rfl, by decide +kernel⟩
  have hvalue : Catalog.initial.appliesType a = false := by decide +kernel
  have hsame : after Catalog.initial [.resolveAll core] (.applied a) = .unevaluated :=
    after_resolveAll_of_value [] core hvalue
  have hresolved := h (.applied a) hmem
  rw [hsame] at hresolved
  exact Bool.false_ne_true hresolved

end Schemata.Session

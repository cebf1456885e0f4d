import Schemata.Proofs.Duplicates
import Schemata.Proofs.Matching.Extended
import Schemata.Proofs.Matching.Renumbered
import Schemata.Proofs.Matching.Same
import Schemata.Proofs.Matching.Validation
import Schemata.Proofs.Order

/-!
# One more schema does not disturb the others

A schema may be added after others whatever is wrong with it: as long as they neither declare nor
mention a name that it declares, nothing changes for their elements (`Undisturbed`), and to the
report on the model comes what is wrong with the new schema, nothing else (`perm_validate_append`).

Where a name is mentioned, it is one that an element has written (`HasReference`) or one with which
the target of a block begins; in both cases it is the name that the written one stands for that
counts (`IsMentioned`).
-/

namespace Schemata.Catalog

/-! ### Reports on single schemas -/

/-- What is wrong with a schema: the names that it declares twice, its blocks, its elements and its
annotations. -/
def reportOf (c : Catalog) (s : Declared .schema) : List Diagnostic :=
  ((repeated (fun d => (d.1, d.2.1)) ((c.model s.model).schemaDecl s.id).symbols).map fun d =>
      .duplicateDeclaration d.1.display d.2.1 d.2.2.location)
    ++ ElementKind.all.flatMap fun k =>
      ((c.model s.model).held s.id k).flatMap fun id => c.diagnosticsOf ⟨s.model, id⟩

section matching

variable {T : ModelId → Matching} {c c' : Catalog} (H : c.Matches T c')
  (hoptions : ∀ m, (c'.model m).options = (c.model m).options)
include H hoptions

theorem Matches.perm_validate_of_coversBut {m : ModelId} {s : Id .schema}
    (hcovers : (T m).CoversBut (c.model m) (c'.model m) s)
    (hduplicates : (c'.model m).duplicateDeclarations = (c.model m).duplicateDeclarations ++
      (repeated (fun d => (d.1, d.2.1)) ((c'.model m).schemaDecl s).symbols).map fun d =>
        .duplicateDeclaration d.1.display d.2.1 d.2.2.location) :
    (c'.validate m).Perm (c.validate m ++ c'.reportOf ⟨m, s⟩) := by
  have hkinds := List.Perm.flatMap_left ElementKind.all fun k _ => by
    obtain ⟨ids, hmatch, hperm⟩ := hcovers k
    exact H.perm_flatMap_elements hoptions hmatch hperm
  rw [validate_eq, validate_eq, reportOf, hduplicates, List.append_assoc, List.append_assoc]
  refine List.Perm.append_left _ (.trans (List.Perm.append_left _ ?_)
    (List.perm_append_comm_assoc _ _ _))
  exact hkinds.trans (List.flatMap_append_perm _ _ _).symm

end matching

/-! ### What stays the same -/

/-- The catalog has the element. -/
def Has (c : Catalog) {k : ElementKind} (x : Declared k) : Prop := x ∈ c.elements x.model k

instance (c : Catalog) {k : ElementKind} (x : Declared k) : Decidable (c.Has x) :=
  inferInstanceAs (Decidable (x ∈ c.elements x.model k))

/-- The elements of the one catalog are in the other as well, where `T m` says which annotations of
model `m` are taken for one another; all other elements have the same numbers.  Each reports the
same, and its references lead to the same elements or to the same placeholders. -/
structure Undisturbed (T : ModelId → Matching) (c c' : Catalog) : Prop where
  models : ∀ m, Model.Matches (T m) (c.model m) (c'.model m)
  alike : ∀ {k} {x : Declared k}, k ≠ .annot → c.Has x → Alike T x x
  exists_alike : ∀ {a : Declared .annot}, c.Has a → ∃ a', c'.Has a' ∧ Alike T a a'
  path : ∀ {k} {x x' : Declared k}, Alike T x x' → c'.path x' = c.path x
  diagnosticsOf : ∀ {k} {x x' : Declared k}, Alike T x x' →
    c'.diagnosticsOf x' = c.diagnosticsOf x
  exprDiagnostics : ∀ {e e'}, AlikeExprs T e e' → c'.exprDiagnostics e' = c.exprDiagnostics e
  base? : ∀ {t}, c.Has t → c'.base? t = c.base? t
  ancestry : ∀ {t}, c.Has t → c'.ancestry t = c.ancestry t
  propertyType : ∀ {p}, c.Has p → c'.propertyType p = c.propertyType p
  key : ∀ {t}, c.Has t → c'.key t = c.key t
  effectiveKey : ∀ {t}, c.Has t → c'.effectiveKey t = c.effectiveKey t
  navigationAssociation : ∀ {n}, c.Has n → c'.navigationAssociation n = c.navigationAssociation n
  fromEnd : ∀ {n}, c.Has n → c'.fromEnd n = c.fromEnd n
  toEnd : ∀ {n}, c.Has n → c'.toEnd n = c.toEnd n
  navigationTarget : ∀ {n}, c.Has n → c'.navigationTarget n = c.navigationTarget n
  navigationType : ∀ {n}, c.Has n → c'.navigationType n = c.navigationType n
  endType : ∀ {e}, c.Has e.association → c'.endType e = c.endType e
  termType : ∀ {t}, c.Has t → c'.termType t = c.termType t
  extended? : ∀ {k}, c.Has k → c'.extended? k = c.extended? k
  findEntitySet? : ∀ {k}, c.Has k → ∀ name, c'.findEntitySet? k name = c.findEntitySet? k name
  entityType : ∀ {s}, c.Has s → c'.entityType s = c.entityType s
  setAssociation : ∀ {s}, c.Has s → c'.setAssociation s = c.setAssociation s
  setEnds : ∀ {s}, c.Has s → c'.setEnds s = c.setEnds s
  targetOf? : ∀ {a a'}, Alike T a a' → c'.targetOf? a' = c.targetOf? a
  contextOf? : ∀ {a a'}, Alike T a a' → c'.contextOf? a' = c.contextOf? a
  applied : ∀ {a a'}, Alike T a a' → c'.applied a' = c.applied a
  boundProperty : ∀ {a a'}, Alike T a a' → ∀ i, c'.boundProperty a' i = c.boundProperty a i
  view : ∀ {e e'}, AlikeExprs T e e' → ViewsMatch T c e.owner.model (c.view e) (c'.view e')
  pathTarget : ∀ {e e'}, AlikeExprs T e e' → ∀ segments,
    c'.pathTarget e' segments = c.pathTarget e segments
  inlineAnnotations : ∀ {e e'}, AlikeTargets T e e' →
    List.Forall₂ (Alike T) (c.inlineAnnotations e) (c'.inlineAnnotations e')
  attachedFrom : ∀ {e e'}, AlikeTargets T e e' → ∀ {s s'}, Alike T s s' →
    List.Forall₂ (Alike T) (c.attachedFrom e s) (c'.attachedFrom e' s')

theorem Matches.undisturbed {T : ModelId → Matching} {c c' : Catalog} (H : c.Matches T c')
    (hoptions : ∀ m, (c'.model m).options = (c.model m).options)
    (hsame : ∀ k, k ≠ .annot → IsSame T k)
    (halike : ∀ {k} {x : Declared k}, k ≠ .annot → c.Has x → Alike T x x)
    (hexists : ∀ {a : Declared .annot}, c.Has a → ∃ a', c'.Has a' ∧ Alike T a a') :
    Undisturbed T c c' := by
  have htype := hsame .type (by decide)
  have hproperty := hsame .property (by decide)
  have hassociation := hsame .association (by decide)
  have hcontainer := hsame .container (by decide)
  have hentitySet := hsame .entitySet (by decide)
  have hreference {m : ModelId} {t t' : TypeReference}
      (h : TypeReference.Rel (OnHandles T c m) t t') : t' = t :=
    h.eq fun _ _ => htype.eq_of_onHandles
  constructor
  · exact H.models
  · exact halike
  · exact hexists
  · exact H.path
  · exact H.diagnosticsOf hoptions
  · exact H.exprDiagnostics
  · exact fun h => eq_of_optionRel (H.base? (halike (by decide) h)) fun _ _ =>
      htype.eq_of_rel_alike
  · exact fun h => eq_of_forall₂ (H.ancestry (halike (by decide) h)) fun _ _ => htype.eq_of_alike
  · exact fun h => hreference (H.propertyType (halike (by decide) h))
  · exact fun h => eq_of_forall₂ (H.key (halike (by decide) h)) fun _ _ =>
      hproperty.eq_of_rel_alike
  · exact fun h => eq_of_forall₂ (H.effectiveKey (halike (by decide) h)) fun _ _ =>
      hproperty.eq_of_rel_alike
  · exact fun h => hassociation.eq_of_rel_alike (H.navigationAssociation (halike (by decide) h))
  · exact fun h => (H.fromEnd (halike (by decide) h)).eq fun _ _ => hassociation.eq_of_alikeEnds
  · exact fun h => (H.toEnd (halike (by decide) h)).eq fun _ _ => hassociation.eq_of_alikeEnds
  · exact fun h => htype.eq_of_rel_alike (H.navigationTarget (halike (by decide) h))
  · exact fun h => hreference (H.navigationType (halike (by decide) h))
  · exact fun h => htype.eq_of_rel_alike (H.endType ⟨halike (by decide) h, rfl⟩)
  · exact fun h => hreference (H.termType (halike (by decide) h))
  · exact fun h => eq_of_optionRel (H.extended? (halike (by decide) h)) fun _ _ =>
      hcontainer.eq_of_rel_alike
  · exact fun h name => eq_of_optionRel (H.findEntitySet? (halike (by decide) h) name) fun _ _ =>
      hentitySet.eq_of_alike
  · exact fun h => htype.eq_of_rel_alike (H.entityType (halike (by decide) h))
  · exact fun h => hassociation.eq_of_rel_alike (H.setAssociation (halike (by decide) h))
  · exact fun h => eq_of_forall₂ (H.setEnds (halike (by decide) h)) fun _ _ he =>
      Prod.ext he.1 (hentitySet.eq_of_rel_alike he.2)
  · exact fun h => eq_of_optionRel (H.targetOf? h) fun _ _ => IsSame.eq_of_alikeTargets hsame
  · exact fun h => eq_of_optionRel (H.contextOf? h) fun _ _ => htype.eq_of_alike
  · exact fun h => (H.applied h).eq (fun _ _ => (hsame .term (by decide)).eq_of_alike) fun _ _ =>
      htype.eq_of_alike
  · exact fun h i => hproperty.eq_of_rel_alike (H.boundProperty h i)
  · exact H.view
  · exact fun h segments => hproperty.eq_of_rel_alike (H.pathTarget h segments)
  · exact H.inlineAnnotations
  · exact H.attachedFrom

/-! ### Names that are mentioned -/

/-- A schema of the model mentions the name in the space: an element has written a name that stands
for it there, or the target of a block begins with one that does. -/
inductive IsMentioned (c : Catalog) (m : ModelId) : SymbolKind → Name → Prop
  | reference {s : Declared .schema} {k : SymbolKind} {written : Name} (hs : s.model = m)
    (h : c.HasReference (fun _ => c.Has) s k written) : IsMentioned c m k (c.expand s written)
  | target {s : Id .schema} {b : BlockEntry} (hb : b ∈ (c.model m).blocksOf s) (k : SymbolKind) :
    IsMentioned c m k ((c.model m).targetPath s b.target).1

section extended

variable {c c' : Catalog} {m : ModelId} {T : Matching} {s : Id .schema}
  (hT : (c.model m).Extended T (c'.model m) s) (hothers : ∀ r, r ≠ m → c'.model r = c.model r)
include hT

theorem isSame_onlyIn {k : ElementKind} (hk : k ≠ .annot) : IsSame (.onlyIn m T) k := by
  intro r id id' hid
  by_cases hr : r = m
  · subst hr
    rw [Matching.onlyIn_self] at hid
    have hinside := hT.isLaidOut.mem_insideSchema hk (hT.mem hid).1
    exact (hT.biUnique k).2 hid (hT.number hinside)
  · rw [Matching.onlyIn_of_ne T hr] at hid
    exact Eq.symm hid

theorem alike_onlyIn {k : ElementKind} (hk : k ≠ .annot) {x : Declared k} (hx : c.Has x) :
    Alike (.onlyIn m T) x x := by
  obtain ⟨r, id⟩ := x
  refine ⟨rfl, ?_⟩
  by_cases hr : r = m
  · subst hr
    have hid : id ∈ (c.model r).ids k := Id.mem_upTo.2 (c.mem_elements.1 hx).2
    rw [Matching.onlyIn_self]
    exact hT.number (hT.isLaidOut.mem_insideSchema hk hid)
  · rw [Matching.onlyIn_of_ne T hr]
    exact rfl

include hothers

theorem exists_alike_onlyIn {k : ElementKind} {x : Declared k} (hx : c.Has x) :
    ∃ x', c'.Has x' ∧ Alike (.onlyIn m T) x x' := by
  obtain ⟨r, id⟩ := x
  by_cases hr : r = m
  · subst hr
    obtain ⟨id', hid⟩ := hT.total (Id.mem_upTo.2 (c.mem_elements.1 hx).2)
    refine ⟨⟨r, id'⟩, c'.mem_elements.2 ⟨rfl, Id.mem_upTo.1 (hT.mem hid).2⟩, rfl, ?_⟩
    rwa [Matching.onlyIn_self]
  · refine ⟨⟨r, id⟩, ?_, rfl, ?_⟩
    · rw [Has, elements, hothers r hr]
      exact hx
    · rw [Matching.onlyIn_of_ne T hr]
      exact rfl

/-- One more schema changes nothing for the others if all names that they mention lead to the same
numbers as before. -/
theorem matches_of_isMentioned (hc : c.IsBuilt)
    (hreferences : (c'.model m).references = (c.model m).references)
    (hunreferenced : ∀ r, m ∉ (c.model r).references)
    (hfirst : ∀ {k name}, c.IsMentioned m k name →
      (c'.model m).first? k name = (c.model m).first? k name) : c.Matches (.onlyIn m T) c' := by
  refine matches_of_embedded hothers hT.toEmbedded hc hreferences hunreferenced ?_ ?_
  · exact fun _ b hb k => hT.first? (hfirst (.target hb k))
  · intro s k name hs hname
    refine hT.first? (hfirst (.reference hs (hname.imp fun k x hx hhas => ?_)))
    -- whatever is taken for an element of the other catalog is there
    obtain ⟨x', halike⟩ := hhas
    have hid := halike.id
    rw [hx, hs, Matching.onlyIn_self] at hid
    refine c.mem_elements.2 ⟨rfl, ?_⟩
    rw [hx, hs]
    exact Id.mem_upTo.1 (hT.mem hid).1

end extended

/-! ### One more schema -/

/-- Where the last schema declares no name of those before it, it repeats what it does alone. -/
theorem duplicateDeclarations_eq_append {m m' : Model} {d : Decl.Schema} (hm : m.IsLaidOut)
    (hm' : m'.IsLaidOut) (hdeclarations : m'.declarations = m.declarations ++ [d])
    (hdeclared : ∀ s ∈ d.symbols,
      (s.1, s.2.1) ∉ (m.declarations.flatMap (·.symbols)).map fun s => (s.1, s.2.1)) :
    m'.duplicateDeclarations = m.duplicateDeclarations ++
      (repeated (fun s => (s.1, s.2.1)) d.symbols).map fun s =>
        .duplicateDeclaration s.1.display s.2.1 s.2.2.location := by
  have hapart : ∀ a ∈ m.declarations.flatMap (·.symbols), ∀ b ∈ d.symbols,
      (a.1, a.2.1) ≠ (b.1, b.2.1) :=
    fun a ha b hb hkey => hdeclared b hb (List.mem_map.2 ⟨a, ha, hkey⟩)
  rw [hm'.duplicateDeclarations_eq, hm.duplicateDeclarations_eq, hdeclarations,
    List.flatMap_append, List.flatMap_singleton, repeated_append _ hapart, List.map_append]

/-- **One more schema does not disturb the others**, if they neither declare nor mention a name that
it declares and the model references the same as before: to the report comes what is wrong with the
new schema, and for all elements that were there, also those of other models, everything stays as it
was. -/
theorem perm_validate_append {c : Catalog} (hc : c.IsBuilt) (options : Options)
    {given : List ModelId} (hgiven : ∀ r ∈ given, r < c.models.size)
    {schemas : List Decl.Schema} {extra : Decl.Schema}
    (hreferences : c.allReferences (c.directReferences options given (schemas ++ [extra])) =
      c.allReferences (c.directReferences options given schemas))
    (hdeclared : ∀ d ∈ extra.symbols,
      (d.1, d.2.1) ∉ (schemas.flatMap (·.symbols)).map fun d => (d.1, d.2.1))
    (hmentioned : ∀ d ∈ extra.symbols,
      ¬ (c.add options given schemas).IsMentioned c.models.size d.1 d.2.1) :
    let m := c.models.size
    let c₁ := c.add options given schemas
    let c₂ := c.add options given (schemas ++ [extra])
    let added : Id .schema := ⟨schemas.length⟩
    (c₂.model m).schemaDecl added = extra ∧
      (c₂.validate m).Perm (c₁.validate m ++ c₂.reportOf ⟨m, added⟩) ∧
      ∃ T : Matching, T.CoversBut (c₁.model m) (c₂.model m) added ∧
        Undisturbed (.onlyIn m T) c₁ c₂ := by
  intro m c₁ c₂ added
  have hc₁ : c₁.IsBuilt := hc.add options hgiven schemas
  have hc₂ : c₂.IsBuilt := hc.add options hgiven (schemas ++ [extra])
  have hothers (r : ModelId) (hr : r ≠ m) : c₂.model r = c₁.model r := by
    rw [c.model_add_of_ne _ _ _ hr, c.model_add_of_ne _ _ _ hr]
  have hoptions (r : ModelId) : (c₂.model r).options = (c₁.model r).options := by
    by_cases hr : r = m
    · rw [hr, c.model_add, c.model_add, Model.options_build, Model.options_build]
    · rw [hothers r hr]
  -- the new model declares what the other one does and one schema more
  have hschemas : (c₁.model m).declarations = schemas := by
    rw [c.model_add, Model.declarations_build]
  have hdeclarations : (c₂.model m).declarations = (c₁.model m).declarations ++ [extra] := by
    rw [hschemas, c.model_add, Model.declarations_build]
  have hcount : (c₁.model m).count .schema = schemas.length := by
    rw [c.model_add, Model.count_schema_build]
  have hadded := (Model.sameSchema_of_declarations hdeclarations).2.2
  obtain ⟨T, hT⟩ := Model.exists_extended (hc₁.isLaidOut m) (hc₂.isLaidOut m)
    (hc₁.isConsistent m) (hc₂.isConsistent m) hdeclarations
  rw [hcount] at hT hadded
  -- the names that are mentioned lead to what they led to
  have hfirst {k : SymbolKind} {name : Name} (hname : c₁.IsMentioned m k name) :
      (c₂.model m).first? k name = (c₁.model m).first? k name := by
    refine Model.first?_eq_of_declarations hT.isLaidOut hT.isLaidOut' hdeclarations fun hnew => ?_
    obtain ⟨d, hd, hkey⟩ := List.mem_map.1 hnew
    obtain ⟨rfl, rfl⟩ := Prod.mk.inj hkey
    exact hmentioned d hd hname
  have H : c₁.Matches (.onlyIn m T) c₂ := by
    refine matches_of_isMentioned hT hothers hc₁ ?_ ?_ hfirst
    · rw [c.model_add, c.model_add, Model.references_build, Model.references_build, hreferences]
    · exact hc₁.notMem_references_of_size_le (c.size_add ..).le
  refine ⟨hadded, H.perm_validate_of_coversBut hoptions ?_ ?_, T, hT.covers, ?_⟩
  · rw [Matching.onlyIn_self]
    exact hT.covers
  · rw [hadded]
    exact duplicateDeclarations_eq_append hT.isLaidOut hT.isLaidOut' hdeclarations
      (hschemas ▸ hdeclared)
  · exact H.undisturbed hoptions (fun _ hk => isSame_onlyIn hT hk)
      (fun hk hx => alike_onlyIn hT hk hx) (exists_alike_onlyIn hT hothers)

/-- A schema whose type has a base that is declared elsewhere, with a block for that type. -/
def describedSchema : Decl.Schema :=
  let derived := { Decl.Structured.make "T" with base? := some "B.T" }
  ((Decl.Schema.make "A").addItem (.entityType derived)).addBlock
    ⟨"A.T", none, [.typed "A.M" []], .unknown⟩

/-- A schema with a type that is its own base and another type of that name, and with a block for a
type of another schema; all annotations apply a term that is not declared. -/
def brokenSchema : Decl.Schema :=
  let circular : Decl.Structured :=
    { Decl.Structured.make "T" with base? := some "X.T", annotations := [.typed "X.M" []] }
  (((Decl.Schema.make "X").addItem (.entityType circular)).addItem
    (.complexType (.make "T"))).addBlock ⟨"A.T", none, [.typed "X.M" []], .unknown⟩

/-- All that is mentioned there. -/
theorem isMentioned_describedSchema {k : SymbolKind} {name : Name}
    (h : (initial.add { Options.standard with includeCore := false } []
      [describedSchema]).IsMentioned 1 k name) : name ∈ ["B.T", "A.T", "A.M"] := by
  let c := initial.add { Options.standard with includeCore := false } [] [describedSchema]
  have helements {k : ElementKind} {x : Declared k} (hx : c.Has x) (hm : x.model = 1) :
      x ∈ c.elements 1 k := hm ▸ hx
  have hbase : ∀ t ∈ c.elements 1 .type, ∀ name ∈ c.baseName? t,
      c.expand (c.typeSchema t) name = "B.T" := by decide +kernel
  have htarget : ∀ b ∈ (c.model 1).blocks.toList,
      ((c.model 1).targetPath b.schema b.target).1 = "A.T" := by decide +kernel
  have happlied : ∀ a ∈ c.elements 1 .annot,
      c.expand (c.annotationSchema a) (c.annotated a).decl.term = "A.M" := by decide +kernel
  have hempty : ∀ a ∈ c.elements 1 .annot, (c.annotated a).exprs.nodes.size = 0 := by
    decide +kernel
  have hnull {e : ExprRef} (he : c.Has e.owner) (hs : e.owner.model = 1) :
      (c.exprDecl e).form = .null := by
    have hsize := hempty _ (helements he hs)
    simp [exprDecl, arena, ExprArena.node, Array.getD, hsize, default, Decl.Expr.form,
      instInhabitedExprNode.default]
  cases h with
  | target hb k =>
    obtain ⟨hb, hs⟩ := List.mem_filter.1 hb
    rw [← of_decide_eq_true hs, htarget _ hb]
    decide
  | reference hs h =>
    cases h with
    | base ht h =>
      rw [hbase _ (helements ht hs) _ h]
      decide
    | applied ha =>
      rw [happlied _ (helements ha hs)]
      decide
    | exprType he hform =>
      rw [hnull he hs] at hform
      cases hform
    | enumMember he hform =>
      rw [hnull he hs] at hform
      cases hform
    | propertyType hx | endType hx | relationship hx | termType hx | extended hx | entityType hx
    | setAssociation hx =>
      exact absurd (helements hx hs) List.not_mem_nil

/-- Of the schema that is added much is wrong, and its block is attached to a type of the other one.
That one has the same report as before; its annotation is counted after that of the new type. -/
theorem perm_validate_append_broken :
    let options := { Options.standard with includeCore := false }
    let c₁ := initial.add options [] [describedSchema]
    let c₂ := initial.add options [] [describedSchema, brokenSchema]
    (c₂.validate 1).Perm (c₁.validate 1 ++ c₂.reportOf ⟨1, ⟨1⟩⟩) ∧
      (c₁.validate 1).length = 2 ∧ (c₂.reportOf ⟨1, ⟨1⟩⟩).length = 4 ∧
      ∃ T, Undisturbed (.onlyIn 1 T) c₁ c₂ ∧ T .annot ⟨0⟩ ⟨1⟩ := by
  intro options c₁ c₂
  have hgiven : ∀ r ∈ ([] : List ModelId), r < initial.models.size := nofun
  have hreferences : initial.allReferences
      (initial.directReferences options [] ([describedSchema] ++ [brokenSchema])) =
      initial.allReferences (initial.directReferences options [] [describedSchema]) := by
    decide +kernel
  have hfresh : ∀ d ∈ brokenSchema.symbols, d.2.1 ∉ ["B.T", "A.T", "A.M"] := by decide +kernel
  obtain ⟨-, hreport, T, -, hT⟩ := perm_validate_append .initial options hgiven hreferences
    (by decide +kernel) fun d hd h => hfresh d hd (isMentioned_describedSchema h)
  refine ⟨hreport, by decide +kernel, by decide +kernel, T, hT, ?_⟩
  -- the annotation is recognized by its path
  obtain ⟨a, ha, halike⟩ := hT.exists_alike (show c₁.Has ⟨1, ⟨0⟩⟩ by decide +kernel)
  have hother : ∀ a ∈ c₂.elements 1 .annot, c₂.path a = c₁.path (k := .annot) ⟨1, ⟨0⟩⟩ →
      a.id = ⟨1⟩ := by decide +kernel
  have hmodel : a.model = 1 := halike.model
  rw [Has, hmodel] at ha
  have hmatch : Matching.onlyIn 1 T 1 .annot ⟨0⟩ a.id := halike.id
  rwa [Matching.onlyIn_self, hother a ha (hT.path halike)] at hmatch

end Schemata.Catalog

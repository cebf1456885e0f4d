import Schemata.Proofs.Session.Memory

/-!
# Computations that read cells

`Reads c n x a` is the rule by which one computation after another is followed: where the memory is
sound and no cell below layer `n` is being computed, `x` answers `a`, the memory stays sound, and
only cells below layer `n` settle.  `Resolves c n x s` says in addition that the cell `s` has its
value afterwards.
-/

namespace Schemata.Session

variable {c : Catalog} {n : Nat} {α β : Type} {x : Session α} {a : α} {f : α → Session β} {b : β}

@[simp]
theorem run_bind (x : Session α) (f : α → Session β) (cells : Memory) :
    (x >>= f).run cells = (f (x.run cells).1).run (x.run cells).2 := rfl

/-- A computation answers `a` and settles cells below a layer. -/
def Reads (c : Catalog) (n : Nat) (x : Session α) (a : α) : Prop :=
  ∀ cells, c.Sound cells → c.Quiet n cells →
    ∃ later, x.run cells = (a, later) ∧ c.Sound later ∧ c.Settles n cells later

/-- A cell has its value after a computation. -/
def Resolves (c : Catalog) (n : Nat) (x : Session α) (s : Slot) : Prop :=
  ∀ cells, c.Sound cells → c.Quiet n cells → ((x.run cells).2 s).isResolved = true

/-! ### One computation after another -/

namespace Reads

protected theorem pure (a : α) : Reads c n (pure a) a :=
  fun cells hs _ => ⟨cells, rfl, hs, .refl n cells⟩

protected theorem bind (hx : Reads c n x a) (hf : Reads c n (f a) b) : Reads c n (x >>= f) b := by
  intro cells hs hq
  obtain ⟨cells₁, h₁, hs₁, hset₁⟩ := hx cells hs hq
  obtain ⟨cells₂, h₂, hs₂, hset₂⟩ := hf cells₁ hs₁ (hset₁.quiet hq)
  refine ⟨cells₂, ?_, hs₂, hset₁.trans hset₂⟩
  rw [run_bind, h₁]
  exact h₂

protected theorem map (hx : Reads c n x a) (g : α → β) :
    Reads c n (do return g (← x)) (g a) :=
  hx.bind (.pure (g a))

protected theorem discard (hx : Reads c n x a) : Reads c n (discard x) () := hx.map fun _ => ()

/-- A list is read element by element. -/
protected theorem mapM {ι : Type} {x : ι → Session α} {a : ι → α} {l : List ι}
    (hx : ∀ i ∈ l, Reads c n (x i) (a i)) : Reads c n (l.mapM x) (l.map a) := by
  induction l with
  | nil => exact .pure []
  | cons i l ih =>
    rw [List.mapM_cons, List.map_cons]
    exact (hx i (by simp)).bind ((ih fun j hj => hx j (by simp [hj])).map (a i :: ·))

/-- A loop reads what its rounds read. -/
protected theorem forM {ι : Type} {x : ι → Session Unit} {l : List ι}
    (hx : ∀ i ∈ l, Reads c n (x i) ()) : Reads c n (l.forM x) () := by
  induction l with
  | nil => exact .pure ()
  | cons i l ih =>
    rw [List.forM_eq_forM, List.forM_cons]
    exact (hx i (by simp)).bind (ih fun j hj => hx j (by simp [hj]))

end Reads

/-! ### Cells that have their values afterwards -/

namespace Resolves

variable {s : Slot}

/-- What the first of two computations resolves stays resolved. -/
theorem bind_left (hs : Resolves c n x s) (hx : Reads c n x a) (hf : Reads c n (f a) b) :
    Resolves c n (x >>= f) s := by
  intro cells hsound hq
  obtain ⟨cells₁, h₁, hs₁, hset₁⟩ := hx cells hsound hq
  obtain ⟨cells₂, h₂, -, hset₂⟩ := hf cells₁ hs₁ (hset₁.quiet hq)
  have hres := hs cells hsound hq
  rw [h₁] at hres
  rw [run_bind, h₁, h₂]
  exact hset₂.isResolved hres

theorem bind_right (hx : Reads c n x a) (hs : Resolves c n (f a) s) :
    Resolves c n (x >>= f) s := by
  intro cells hsound hq
  obtain ⟨cells₁, h₁, hs₁, hset₁⟩ := hx cells hsound hq
  rw [run_bind, h₁]
  exact hs cells₁ hs₁ (hset₁.quiet hq)

protected theorem map (hs : Resolves c n x s) (hx : Reads c n x a) (g : α → β) :
    Resolves c n (do return g (← x)) s :=
  hs.bind_left hx (.pure (g a))

protected theorem discard (hs : Resolves c n x s) (hx : Reads c n x a) :
    Resolves c n (discard x) s :=
  hs.map hx fun _ => ()

/-- What one round of a loop resolves is resolved after the loop. -/
protected theorem forM {ι : Type} {x : ι → Session Unit} {l : List ι} {i : ι} (hi : i ∈ l)
    (hs : Resolves c n (x i) s) (hx : ∀ i ∈ l, Reads c n (x i) ()) :
    Resolves c n (l.forM x) s := by
  induction l with
  | nil => exact absurd hi (by simp)
  | cons j l ih =>
    have hrest : Reads c n (l.forM x) () := .forM fun k hk => hx k (by simp [hk])
    rw [List.forM_eq_forM, List.forM_cons]
    rcases List.mem_cons.1 hi with rfl | hi
    · exact hs.bind_left (hx i (by simp)) hrest
    · exact bind_right (hx j (by simp)) (ih hi fun k hk => hx k (by simp [hk]))

end Resolves

/-! ### Reading a cell -/

theorem run_remember (s : Slot) (compute : Session s.Answer) (cells : Memory) :
    (remember c s compute).run cells =
      match cells s with
      | .resolved v => (v, cells)
      | .inProgress => (c.onCycle s, cells)
      | .unevaluated =>
        let r := compute.run (cells.set s .inProgress)
        (r.1, r.2.set s (.resolved r.1)) := by
  cases h : cells s <;> simp [remember, Cells.getOrCompute, h] <;> rfl

section remember

variable {s : Slot} {compute : Session s.Answer}

/-- A cell that nobody has read is computed while it is in progress, and then it has its value. -/
theorem run_remember_of_unevaluated {cells : Memory} (h : c.Sound cells)
    (hq : c.Quiet (c.layer s) cells) (hs : cells s = .unevaluated)
    (hx : Reads c (c.layer s) compute (c.value s)) :
    ∃ later, compute.run (cells.set s .inProgress) = (c.value s, later) ∧ c.Sound later ∧
      c.Settles (c.layer s) (cells.set s .inProgress) later ∧
      (remember c s compute).run cells = (c.value s, later.set s (.resolved (c.value s))) := by
  obtain ⟨later, hrun, hsound, hset⟩ := hx _ (h.set_inProgress hs) hq.set_inProgress
  refine ⟨later, hrun, hsound, hset, ?_⟩
  rw [run_remember, hs]
  simp only [hrun]

/-- Settling the cells that a computation reads, and then the cell itself, is settling them all. -/
theorem settles_set_resolved {cells later : Memory} (hn : c.layer s < n)
    (hs : cells s = .unevaluated)
    (hset : c.Settles n (cells.set s .inProgress) later) :
    c.Settles n cells (later.set s (.resolved (c.value s))) := by
  intro s'
  by_cases he : s = s'
  · subst he
    rw [Cells.set_self]
    exact .inr ⟨hn, hs, rfl⟩
  · rw [Cells.set_of_ne _ _ he]
    have hs' := hset s'
    rwa [Cells.set_of_ne _ _ he] at hs'

/-- **Reading a cell.**  Where the computation of a cell answers its value and settles cells below
its layer, a read of the cell answers the value.  For the bindings of a type annotation the
computation must find what the annotation applies. -/
theorem reads_remember_of_resolves (hn : c.layer s < n)
    (hx : Reads c (c.layer s) compute (c.value s))
    (hlast : ∀ a, s = .bindings a → c.appliesType a = true →
      Resolves c (c.layer s) compute (.applied a)) :
    Reads c n (remember c s compute) (c.value s) := by
  intro cells h hq
  cases hs : cells s with
  | resolved v =>
    obtain rfl := h.value_of_resolved hs
    exact ⟨cells, by rw [run_remember, hs], h, .refl n cells⟩
  | inProgress => exact absurd hs (hq s hn)
  | unevaluated =>
    -- the cell is in progress now, and the computation reads lower layers only
    have hq' : c.Quiet (c.layer s) cells := fun s' hs' => hq s' (by omega)
    obtain ⟨later, hrun, hsound, hset, hrem⟩ := run_remember_of_unevaluated h hq' hs hx
    refine ⟨_, hrem, hsound.set_resolved fun a ha htype => ?_,
      settles_set_resolved hn hs (hset.mono hn.le)⟩
    have happlied := hlast a ha htype _ (h.set_inProgress hs) hq'.set_inProgress
    rwa [hrun] at happlied

protected theorem Reads.remember (hn : c.layer s < n) (hs : s.isBindings = false)
    (hx : Reads c (c.layer s) compute (c.value s)) :
    Reads c n (remember c s compute) (c.value s) := by
  refine reads_remember_of_resolves hn hx ?_
  rintro a rfl
  exact absurd hs.symm Bool.false_ne_true

/-- A cell may hold what is known without reading anything. -/
theorem Reads.remember_pure (hn : c.layer s < n) (hs : s.isBindings = false) :
    Reads c n (Session.remember c s (pure (c.value s))) (c.value s) :=
  .remember hn hs (.pure _)

/-- A cell that has been read has its value. -/
protected theorem Resolves.remember (hn : c.layer s < n) :
    Resolves c n (Session.remember c s compute) s := by
  intro cells _ hq
  cases hs : cells s with
  | resolved v => simp [run_remember, hs]
  | inProgress => exact absurd hs (hq s hn)
  | unevaluated => simp [run_remember, hs]

end remember

end Schemata.Session

import RedNodeBus.Lib.Machine

/-!
# Nested preemption and a lock

Calls over one shared state, on one processor.  A call may be preempted before each of
its statements by another one, which runs to its end before the first goes on: the calls
in progress are a stack, and the top one runs.  A `Program` says where a call begins and
what one statement of it does; `alone` runs a call that nobody preempts.

A `Lock` is the part of the shared state the calls agree to leave to one of them.
`Discipline` is what each statement has to keep: while the lock is taken, a call that has
begun since leaves that part alone (`barred`), and the statements of the owner hand it on
from one to the next (`inside`).  Then, by `Discipline.inv_run`, at most one call owns the
lock in every run, the calls above it are barred and those below have to wait, and what
was emitted is whole sections and loose events, and the section in progress.
-/

universe u v

/-- Calls `κ` as frames `φ` over a shared state `σ`.  A statement gets `ι` from outside,
goes on or returns `ρ`, and may emit an event `ε`. -/
structure Program (σ κ φ ι ρ ε : Type u) where
  /-- The frame of a call, if the call may come now. -/
  enter : κ → σ → Option φ
  exec : ι → φ → σ → (φ ⊕ ρ) × σ
  emit : ι → φ → σ → Option ε

/-- The shared state and the calls in progress, the running one first. -/
structure Nested (σ φ : Type u) where
  shared : σ
  stack : List φ

/-- The running call has done a statement: it goes on, or the one below it runs. -/
def Nested.after {σ φ ρ : Type u} (rest : List φ) : (φ ⊕ ρ) × σ → Nested σ φ
  | (.inl f, s) => ⟨s, f :: rest⟩
  | (.inr _, s) => ⟨s, rest⟩

/-- A call comes, or the running one does a statement. -/
inductive NestedAct (κ ι : Type u)
  | call (k : κ)
  | run (i : ι)

namespace Program

variable {σ κ φ ι ρ ε : Type u} (P : Program σ κ φ ι ρ ε)

def step (n : Nested σ φ) : NestedAct κ ι → Option (Nested σ φ)
  | .call k => (P.enter k n.shared).map fun f => { n with stack := f :: n.stack }
  | .run i =>
    match n.stack with
    | [] => none
    | f :: rest => some (.after rest (P.exec i f n.shared))

/-- All runs over the shared state, no call being in progress at first. -/
def machine (s : σ) : Machine (Nested σ φ) (NestedAct κ ι) where
  init := ⟨s, []⟩
  step := P.step

def events (n : Nested σ φ) : NestedAct κ ι → Option ε
  | .call _ => none
  | .run i =>
    match n.stack with
    | [] => none
    | f :: _ => P.emit i f n.shared

/-- At most `fuel` statements of a call that is not preempted. -/
def alone (env : φ → ι) : Nat → φ → σ → (φ ⊕ ρ) × σ
  | 0, f, s => (.inl f, s)
  | fuel + 1, f, s =>
    match P.exec (env f) f s with
    | (.inl f', s') => alone env fuel f' s'
    | (.inr r, s') => (.inr r, s')

variable {P}

theorem call_cases {n n' : Nested σ φ} {k : κ} (h : P.step n (.call k) = some n') :
    ∃ f, P.enter k n.shared = some f ∧ n' = ⟨n.shared, f :: n.stack⟩ := by
  obtain ⟨f, hf, rfl⟩ := Option.map_eq_some_iff.mp h
  exact ⟨f, hf, rfl⟩

theorem run_cases {n n' : Nested σ φ} {i : ι} (h : P.step n (.run i) = some n') :
    ∃ f rest, n.stack = f :: rest ∧ n' = .after rest (P.exec i f n.shared) := by
  simp only [step] at h
  split at h
  · cases h
  · rename_i f rest hstack
    exact ⟨f, rest, hstack, (Option.some.inj h).symm⟩

theorem events_run {n : Nested σ φ} {i : ι} {f : φ} {rest : List φ} (h : n.stack = f :: rest) :
    P.events n (.run i) = P.emit i f n.shared := by
  rw [events, h]

end Program

/-- A part `view` of the shared state and the calls that may change it.  `whole` are the
histories between two sections; `inside f v w` is what the owner `f` relies on, `w` being
what it has emitted in its section. -/
structure Lock (σ φ ε π : Type u) where
  view : σ → π
  locked : π → Bool
  owns : φ → Bool
  barred : φ → Bool
  whole : List ε → Prop
  inside : φ → π → List ε → Prop

namespace Lock

variable {σ κ φ ι ρ ε π : Type u} (L : Lock σ φ ε π)

/-- Where a statement may leave the lock, `h` being whole and `w` what was emitted
since: taken by the call that goes on, or free, the section being a whole one. -/
def Settled (h w : List ε) : (φ ⊕ ρ) × σ → Prop
  | (.inl f, s) =>
    L.owns f = L.locked (L.view s) ∧
      (L.owns f = true → L.inside f (L.view s) w) ∧ (L.owns f = false → L.whole (h ++ w))
  | (.inr _, s) => L.locked (L.view s) = false ∧ L.whole (h ++ w)

/-- **Every statement respects the lock.** -/
structure Discipline (P : Program σ κ φ ι ρ ε) : Prop where
  barred_of_enter : ∀ {k s f}, P.enter k s = some f → L.barred f = true
  not_owns_of_barred : ∀ {f}, L.barred f = true → L.owns f = false
  free : ∀ {i f s h}, L.owns f = false → L.locked (L.view s) = false → L.whole h →
    L.Settled h (P.emit i f s).toList (P.exec i f s)
  own : ∀ {i f s h w}, L.owns f = true → L.locked (L.view s) = true → L.whole h →
    L.inside f (L.view s) w → L.Settled h (w ++ (P.emit i f s).toList) (P.exec i f s)
  bar : ∀ {i f s}, L.barred f = true → L.locked (L.view s) = true →
    L.view (P.exec i f s).2 = L.view s ∧ P.emit i f s = none ∧
      ∀ f', (P.exec i f s).1 = .inl f' → L.barred f' = true

/-- The lock is free and no call owns it, or one call owns it, with barred calls above
it. -/
inductive Inv (h : List ε) (n : Nested σ φ) : Prop
  | free (locked : L.locked (L.view n.shared) = false) (whole : L.whole h)
      (owns : ∀ f ∈ n.stack, L.owns f = false)
  | held (above : List φ) (owner : φ) (below : List φ) (done w : List ε)
      (locked : L.locked (L.view n.shared) = true) (stack : n.stack = above ++ owner :: below)
      (barred : ∀ f ∈ above, L.barred f = true) (owns : L.owns owner = true)
      (waiting : ∀ f ∈ below, L.owns f = false) (history : h = done ++ w) (whole : L.whole done)
      (inside : L.inside owner (L.view n.shared) w)

variable {L} {P : Program σ κ φ ι ρ ε}

/-- Where the running call leaves the lock, the calls below owning nothing. -/
theorem Inv.of_settled {h w : List ε} {rest : List φ} {r : (φ ⊕ ρ) × σ} (hs : L.Settled h w r)
    (hw : L.whole h) (hrest : ∀ g ∈ rest, L.owns g = false) :
    L.Inv (h ++ w) (.after rest r) := by
  obtain ⟨f | r, s⟩ := r
  · obtain ⟨howns, hin, hout⟩ := hs
    cases hf : L.owns f with
    | true => exact .held [] f rest h w (howns ▸ hf) rfl (by simp) hf hrest rfl hw (hin hf)
    | false =>
      refine .free (howns ▸ hf) (hout hf) ?_
      intro g hg
      rcases List.mem_cons.mp hg with rfl | hg
      · exact hf
      · exact hrest g hg
  · exact .free hs.1 hs.2 hrest

theorem after_shared {rest : List φ} (r : (φ ⊕ ρ) × σ) : (Nested.after rest r).shared = r.2 := by
  obtain ⟨f | r, s⟩ := r <;> rfl

theorem Discipline.inv_run {h : List ε} {n n' : Nested σ φ} {i : ι} (D : L.Discipline P)
    (hI : L.Inv h n) (hs : P.step n (.run i) = some n') :
    L.Inv (h ++ (P.events n (.run i)).toList) n' := by
  obtain ⟨f, rest, hstack, rfl⟩ := Program.run_cases hs
  rw [Program.events_run hstack]
  cases hI with
  | free locked whole owns =>
    rw [hstack] at owns
    have hset := D.free (i := i) (owns f List.mem_cons_self) locked whole
    exact .of_settled hset whole fun g hg => owns g (List.mem_cons_of_mem _ hg)
  | held above owner below done w locked stack barred owns waiting history whole inside =>
    subst history
    rw [hstack] at stack
    cases above with
    | nil =>
      -- the owner runs
      obtain ⟨rfl, rfl⟩ := List.cons.inj stack
      have hset := D.own (i := i) owns locked whole inside
      rw [List.append_assoc]
      exact .of_settled hset whole waiting
    | cons g above =>
      -- a barred call runs
      obtain ⟨rfl, rfl⟩ := List.cons.inj stack
      obtain ⟨hview, hemit, hbarred⟩ := D.bar (i := i) (barred f List.mem_cons_self) locked
      rw [hemit, Option.toList_none, List.append_nil]
      have habove : ∀ g ∈ above, L.barred g = true := fun g hg =>
        barred g (List.mem_cons_of_mem _ hg)
      revert hview hbarred
      obtain ⟨f' | r, s⟩ := P.exec i f n.shared
      · intro hview hbarred
        refine .held (f' :: above) owner below done w (hview ▸ locked) rfl ?_ owns waiting rfl whole
          (hview ▸ inside)
        intro g hg
        rcases List.mem_cons.mp hg with rfl | hg
        · exact hbarred _ rfl
        · exact habove g hg
      · intro hview _
        exact .held above owner below done w (hview ▸ locked) rfl habove owns waiting rfl whole
          (hview ▸ inside)

/-- **The lock discipline, over one step.** -/
theorem Discipline.inv_step {h : List ε} {n n' : Nested σ φ} {a : NestedAct κ ι}
    (D : L.Discipline P) (hI : L.Inv h n) (hs : P.step n a = some n') :
    L.Inv (h ++ (P.events n a).toList) n' := by
  cases a with
  | run i => exact D.inv_run hI hs
  | call k =>
    obtain ⟨f, hf, rfl⟩ := Program.call_cases hs
    have hbar := D.barred_of_enter hf
    rw [Program.events, Option.toList_none, List.append_nil]
    cases hI with
    | free locked whole owns =>
      refine .free locked whole ?_
      intro g hg
      rcases List.mem_cons.mp hg with rfl | hg
      · exact D.not_owns_of_barred hbar
      · exact owns g hg
    | held above owner below done w locked stack barred owns waiting history whole inside =>
      refine .held (f :: above) owner below done w locked ?_ ?_ owns waiting history whole inside
      · rw [stack]
        rfl
      · intro g hg
        rcases List.mem_cons.mp hg with rfl | hg
        · exact hbar
        · exact barred g hg

/-- **The lock discipline, over every run** from a state in which the lock is free. -/
theorem Discipline.inv_of_run (D : L.Discipline P) {s : σ} {as : List (NestedAct κ ι)}
    {n : Nested σ φ} (hs : L.locked (L.view s) = false) (hw : L.whole [])
    (hr : (P.machine s).run as = some n) :
    L.Inv ((P.machine s).observe P.events ⟨s, []⟩ as) n := by
  have hinit : L.Inv [] (⟨s, []⟩ : Nested σ φ) := .free hs hw (by simp)
  exact Machine.history_invariant (M := P.machine s) (P := fun _ _ => True)
    (fun _ _ _ _ hI _ hs => D.inv_step hI hs) hinit
    (Machine.along_trivial (fun _ _ => trivial) _ _) hr

/-- **While the lock is taken, nothing but its owner changes what it protects.** -/
theorem Discipline.view_eq (D : L.Discipline P) {h : List ε} {n n' : Nested σ φ} {i : ι}
    {f : φ} {rest : List φ} (hI : L.Inv h n) (hl : L.locked (L.view n.shared) = true)
    (hstack : n.stack = f :: rest) (hf : L.owns f = false) (hs : P.step n (.run i) = some n') :
    L.view n'.shared = L.view n.shared ∧ P.events n (.run i) = none := by
  obtain ⟨g, rest', hstack', rfl⟩ := Program.run_cases hs
  rw [hstack] at hstack'
  obtain ⟨rfl, rfl⟩ := List.cons.inj hstack'
  cases hI with
  | free locked =>
    rw [hl] at locked
    cases locked
  | held above owner below done w locked stack barred owns =>
    rw [hstack] at stack
    cases above with
    | nil =>
      obtain ⟨rfl, -⟩ := List.cons.inj stack
      rw [hf] at owns
      cases owns
    | cons g above =>
      obtain ⟨rfl, -⟩ := List.cons.inj stack
      obtain ⟨hview, hemit, -⟩ := D.bar (i := i) (barred f List.mem_cons_self) locked
      exact ⟨(congrArg L.view (after_shared _)).trans hview,
        (Program.events_run hstack).trans hemit⟩

end Lock

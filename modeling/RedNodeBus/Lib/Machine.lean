import Mathlib.Data.List.Basic

/-!
# Guarded machines and their runs

A `Machine` is an executable step function with guards: `M.step s a` is `none`
where the action `a` is not enabled in the state `s`.  Everything the machine
leaves open (who runs next, what a call returns) is part of the action, so a run
is a list of actions and `runFrom` replays it.

* `Along P s as` says that every step of the run of `as` from `s` meets `P`,
  a condition on the state before the step and on the action.
* `Always I s as` and `Sometime I s as` say that `I` holds of all states of the run, and
  of one of them.
* `observe f s as` lists what `f` sees at the steps of the run, in order.
* `history_invariant` is the induction over runs: a relation between what was
  seen so far and the state, which each step keeps, holds after every run.
  `invariant` is the case that looks at the state only, and `observe_balance` the one
  of a queue: what came in is what went out and what is still there.
  `sometime_iff_observe` is about what only some of the steps bring about.
  `along_iff_history` turns a condition on the steps into one on what was seen, and
  `history_each` says of each thing seen what the things seen before it allow.
* `Followed p q h` says of what was seen that each `p` comes before some `q`.
* `observe_map` compares two machines that go in step.
* `Refines` is a forward simulation with stuttering: `lab` names the abstract
  action a concrete step performs, if any.  `Refines.run` carries it to runs,
  `Refines.observe_eq` to what is seen of them, and `Refines.trans` composes two.
-/

universe u v w u' v' w'

/-- An initial state and a guarded step function. -/
structure Machine (σ : Type u) (α : Type v) where
  init : σ
  step : σ → α → Option σ

namespace Machine

variable {σ : Type u} {α : Type v} {ω : Type w} (M : Machine σ α)

/-- The state after `as` from `s`, if every step is enabled. -/
def runFrom : σ → List α → Option σ
  | s, [] => some s
  | s, a :: as =>
    match M.step s a with
    | some s' => runFrom s' as
    | none => none

/-- The state after `as` from the initial state. -/
def run (as : List α) : Option σ := M.runFrom M.init as

/-- A state some run ends in. -/
def Reachable (s : σ) : Prop := ∃ as, M.run as = some s

/-- Every step of the run of `as` from `s` meets `P`. -/
def Along (P : σ → α → Prop) : σ → List α → Prop
  | _, [] => True
  | s, a :: as =>
    P s a ∧ match M.step s a with
      | some s' => Along P s' as
      | none => True

/-- `I` holds of every state of the run of `as` from `s`, the first and the last
included. -/
def Always (I : σ → Prop) : σ → List α → Prop
  | s, [] => I s
  | s, a :: as =>
    I s ∧ match M.step s a with
      | some s' => Always I s' as
      | none => True

/-- `I` holds of some state of the run of `as` from `s`, the first and the last
included. -/
def Sometime (I : σ → Prop) : σ → List α → Prop
  | s, [] => I s
  | s, a :: as =>
    I s ∨ match M.step s a with
      | some s' => Sometime I s' as
      | none => False

/-- What `f` sees at the steps of the run of `as` from `s`. -/
def observe (f : σ → α → Option ω) : σ → List α → List ω
  | _, [] => []
  | s, a :: as =>
    match M.step s a with
    | some s' => (f s a).toList ++ observe f s' as
    | none => []

instance decidableAlong (P : σ → α → Prop) [∀ s a, Decidable (P s a)] :
    ∀ (s : σ) (as : List α), Decidable (M.Along P s as)
  | _, [] => isTrue trivial
  | s, a :: as =>
    have : Decidable (match M.step s a with
        | some s' => M.Along P s' as
        | none => True) :=
      match M.step s a with
      | some s' => decidableAlong P s' as
      | none => isTrue trivial
    inferInstanceAs (Decidable (_ ∧ _))

instance decidableAlways (I : σ → Prop) [DecidablePred I] :
    ∀ (s : σ) (as : List α), Decidable (M.Always I s as)
  | s, [] => inferInstanceAs (Decidable (I s))
  | s, a :: as =>
    have : Decidable (match M.step s a with
        | some s' => M.Always I s' as
        | none => True) :=
      match M.step s a with
      | some s' => decidableAlways I s' as
      | none => isTrue trivial
    inferInstanceAs (Decidable (_ ∧ _))

instance decidableSometime (I : σ → Prop) [DecidablePred I] :
    ∀ (s : σ) (as : List α), Decidable (M.Sometime I s as)
  | s, [] => inferInstanceAs (Decidable (I s))
  | s, a :: as =>
    have : Decidable (match M.step s a with
        | some s' => M.Sometime I s' as
        | none => False) :=
      match M.step s a with
      | some s' => decidableSometime I s' as
      | none => isFalse id
    inferInstanceAs (Decidable (_ ∨ _))

/-! ### One step at the front -/

@[simp] theorem runFrom_nil (s : σ) : M.runFrom s [] = some s := rfl

theorem runFrom_cons {s : σ} {a : α} {as : List α} {t : σ} :
    M.runFrom s (a :: as) = some t ↔ ∃ s', M.step s a = some s' ∧ M.runFrom s' as = some t := by
  rw [runFrom]
  cases M.step s a with
  | none => simp
  | some s' => simp

variable {M}

theorem runFrom_append {s s' : σ} {as : List α} (bs : List α) (h : M.runFrom s as = some s') :
    M.runFrom s (as ++ bs) = M.runFrom s' bs := by
  induction as generalizing s with
  | nil =>
    obtain rfl := Option.some.inj h
    rfl
  | cons a as ih =>
    obtain ⟨s₁, hs, ht⟩ := M.runFrom_cons.mp h
    rw [List.cons_append, runFrom, hs]
    exact ih ht

theorem along_cons {P : σ → α → Prop} {s s' : σ} {a : α} {as : List α}
    (h : M.Along P s (a :: as)) (hs : M.step s a = some s') : P s a ∧ M.Along P s' as := by
  rw [Along, hs] at h
  exact h

theorem observe_cons {f : σ → α → Option ω} {s s' : σ} {a : α} (as : List α)
    (hs : M.step s a = some s') :
    M.observe f s (a :: as) = (f s a).toList ++ M.observe f s' as := by
  rw [observe, hs]

theorem observe_append {f : σ → α → Option ω} {s s' : σ} {as : List α} (bs : List α)
    (h : M.runFrom s as = some s') :
    M.observe f s (as ++ bs) = M.observe f s as ++ M.observe f s' bs := by
  induction as generalizing s with
  | nil =>
    obtain rfl := Option.some.inj h
    rfl
  | cons a as ih =>
    obtain ⟨s₁, hs, ht⟩ := M.runFrom_cons.mp h
    rw [List.cons_append, observe_cons _ hs, observe_cons _ hs, ih ht, List.append_assoc]

/-! ### What is seen -/

theorem mem_observe {f : σ → α → Option ω} {s : σ} {as : List α} {o : ω}
    (h : o ∈ M.observe f s as) : ∃ s', ∃ a ∈ as, f s' a = some o := by
  induction as generalizing s with
  | nil => cases h
  | cons a as ih =>
    rw [observe] at h
    cases hs : M.step s a with
    | none =>
      rw [hs] at h
      cases h
    | some s' =>
      rw [hs, List.mem_append, Option.mem_toList] at h
      rcases h with h | h
      · exact ⟨s, a, List.mem_cons_self, h⟩
      · obtain ⟨t, b, hb, ho⟩ := ih h
        exact ⟨t, b, List.mem_cons_of_mem _ hb, ho⟩

/-- What is seen of a run is seen at one of its steps. -/
theorem observe_split {f : σ → α → Option ω} {s : σ} {as : List α} {o : ω}
    (h : o ∈ M.observe f s as) :
    ∃ before a after s', as = before ++ a :: after ∧ M.runFrom s before = some s' ∧
      f s' a = some o := by
  induction as generalizing s with
  | nil => cases h
  | cons a as ih =>
    rw [observe] at h
    cases hs : M.step s a with
    | none =>
      rw [hs] at h
      cases h
    | some s' =>
      rw [hs, List.mem_append, Option.mem_toList] at h
      rcases h with h | h
      · exact ⟨[], a, as, s, rfl, rfl, h⟩
      · obtain ⟨before, b, after, t, rfl, hrun, ho⟩ := ih h
        exact ⟨a :: before, b, after, t, rfl, M.runFrom_cons.mpr ⟨s', hs, hrun⟩, ho⟩

/-- Where `g` sees `o'` whenever `f` sees `o`, it sees it in the same runs. -/
theorem mem_observe_of_imp {ω' : Type w'} {f : σ → α → Option ω} {g : σ → α → Option ω'} {o : ω}
    {o' : ω'} (hfg : ∀ s a, f s a = some o → g s a = some o') {s : σ} {as : List α}
    (h : o ∈ M.observe f s as) : o' ∈ M.observe g s as := by
  induction as generalizing s with
  | nil => cases h
  | cons a as ih =>
    rw [observe] at h ⊢
    cases hs : M.step s a with
    | none =>
      rw [hs] at h
      cases h
    | some s' =>
      rw [hs, List.mem_append, Option.mem_toList] at h
      rw [List.mem_append, Option.mem_toList]
      rcases h with h | h
      · exact .inl (hfg s a h)
      · exact .inr (ih h)

/-- Observations that agree on the steps of a run see the same of it. -/
theorem observe_congr {P : σ → α → Prop} {f g : σ → α → Option ω}
    (hfg : ∀ s a, P s a → f s a = g s a) {s : σ} {as : List α} (hP : M.Along P s as) :
    M.observe f s as = M.observe g s as := by
  induction as generalizing s with
  | nil => rfl
  | cons a as ih =>
    have h2 := hP.2
    rw [observe, observe]
    cases hs : M.step s a with
    | none => rfl
    | some s' =>
      rw [hs] at h2
      simp only [hfg s a hP.1, ih h2]

theorem observe_bind {ω' : Type w} (f : σ → α → Option ω) (g : ω → Option ω') (s : σ)
    (as : List α) :
    M.observe (fun s a => (f s a).bind g) s as = (M.observe f s as).filterMap g := by
  induction as generalizing s with
  | nil => rfl
  | cons a as ih =>
    rw [observe, observe]
    cases M.step s a with
    | none => rfl
    | some s' =>
      simp only [ih, List.filterMap_append]
      cases f s a with
      | none => rfl
      | some o => cases h : g o <;> simp [h]

/-- A condition on what is seen of each step is one on everything seen. -/
theorem along_iff_observe {P : σ → α → Prop} {f : σ → α → Option ω} {Q : ω → Prop}
    (hPQ : ∀ s a, P s a ↔ ∀ o, f s a = some o → Q o) {s t : σ} {as : List α}
    (hr : M.runFrom s as = some t) :
    M.Along P s as ↔ ∀ o ∈ M.observe f s as, Q o := by
  induction as generalizing s with
  | nil => simp [Along, observe]
  | cons a as ih =>
    obtain ⟨s', hs, ht⟩ := M.runFrom_cons.mp hr
    rw [observe_cons as hs, Along, hs]
    simp only [ih ht, hPQ, List.mem_append, Option.mem_toList, or_imp, forall_and]

/-- Two machines that go in step see the same. -/
theorem observe_map {τ : Type u'} {β : Type v'} {N : Machine τ β} {f : σ → α → Option ω}
    {g : τ → β → Option ω} {act : α → β} {R : σ → τ → Prop}
    (hstep : ∀ s t a, R s t → Option.Rel R (M.step s a) (N.step t (act a)))
    (hfg : ∀ s t a, R s t → f s a = g t (act a)) {s : σ} {t : τ} (hR : R s t) (as : List α) :
    M.observe f s as = N.observe g t (as.map act) := by
  induction as generalizing s t with
  | nil => rfl
  | cons a as ih =>
    have hrel := hstep s t a hR
    rw [List.map_cons, observe, observe]
    cases hs : M.step s a with
    | none =>
      cases ht : N.step t (act a) with
      | none => rfl
      | some t' =>
        rw [hs, ht] at hrel
        cases hrel
    | some s' =>
      cases ht : N.step t (act a) with
      | none =>
        rw [hs, ht] at hrel
        cases hrel
      | some t' =>
        rw [hs, ht] at hrel
        simp only [hfg s t a hR, ih (Option.rel_some_some.mp hrel)]

/-! ### Invariants -/

/-- **The induction over runs.**  A relation between what `f` has seen and the
state, kept by every step that meets `P`, holds after every run whose steps all
meet `P`. -/
theorem history_invariant {f : σ → α → Option ω} {P : σ → α → Prop} {I : List ω → σ → Prop}
    (hstep : ∀ h s a s', I h s → P s a → M.step s a = some s' → I (h ++ (f s a).toList) s')
    {h : List ω} {s t : σ} {as : List α} (hI : I h s) (hP : M.Along P s as)
    (hr : M.runFrom s as = some t) : I (h ++ M.observe f s as) t := by
  induction as generalizing h s with
  | nil =>
    obtain rfl := Option.some.inj hr
    simpa [observe] using hI
  | cons a as ih =>
    obtain ⟨s', hs, ht⟩ := M.runFrom_cons.mp hr
    obtain ⟨hPa, hPs⟩ := along_cons hP hs
    rw [observe_cons as hs, ← List.append_assoc]
    exact ih (hstep h s a s' hI hPa hs) hPs ht

/-- Cutting a list of observations at each of them, the first being apart. -/
theorem forall_split_iff {Q : List ω → ω → Prop} (h l : List ω) (x : Option ω) :
    (∀ before o after, x.toList ++ l = before ++ o :: after → Q (h ++ before) o) ↔
      (∀ o, x = some o → Q h o) ∧
        ∀ before o after, l = before ++ o :: after → Q (h ++ x.toList ++ before) o := by
  cases x with
  | none => simp
  | some b =>
    constructor
    · intro hQ
      constructor
      · intro o ho
        obtain rfl := Option.some.inj ho
        have := hQ [] b l rfl
        rwa [List.append_nil] at this
      · intro before o after hl
        have := hQ (b :: before) o after (by rw [hl]; rfl)
        rwa [Option.toList_some, List.append_assoc, List.singleton_append]
    · rintro ⟨hb, hl⟩ before o after he
      cases before with
      | nil =>
        obtain ⟨rfl, -⟩ := List.cons.inj he
        rw [List.append_nil]
        exact hb b rfl
      | cons b' before =>
        obtain ⟨rfl, htail⟩ := List.cons.inj he
        have := hl before o after htail
        rwa [Option.toList_some, List.append_assoc, List.singleton_append] at this

/-- **A condition on each step given what was seen before it.**  Where what was seen
and the state decide whether a step meets `P`, a run meets `P` throughout exactly if
each thing seen in it comes when it may.  Steps that do not meet `P` need keep nothing. -/
theorem along_iff_history {f : σ → α → Option ω} {P : σ → α → Prop} {I : List ω → σ → Prop}
    {Q : List ω → ω → Prop}
    (hstep : ∀ h s a s', I h s → P s a → M.step s a = some s' → I (h ++ (f s a).toList) s')
    (hPQ : ∀ h s a s', I h s → M.step s a = some s' → (P s a ↔ ∀ o, f s a = some o → Q h o))
    {h : List ω} {s t : σ} {as : List α} (hI : I h s) (hr : M.runFrom s as = some t) :
    M.Along P s as ↔
      ∀ before o after, M.observe f s as = before ++ o :: after → Q (h ++ before) o := by
  induction as generalizing h s with
  | nil => simp [Along, observe]
  | cons a as ih =>
    obtain ⟨s', hs, ht⟩ := M.runFrom_cons.mp hr
    have hiff := hPQ h s a s' hI hs
    rw [observe_cons as hs, forall_split_iff, Along, hs, hiff]
    exact and_congr_right fun hQ => ih (hstep h s a s' hI (hiff.mpr hQ) hs) ht

/-- **The induction over runs, with what each step sees.**  Where a step that meets `P`
only sees what may come after what was seen before it, so does a run of such steps. -/
theorem history_each {f : σ → α → Option ω} {P : σ → α → Prop} {I : List ω → σ → Prop}
    {Q : List ω → ω → Prop}
    (hstep : ∀ h s a s', I h s → P s a → M.step s a = some s' → I (h ++ (f s a).toList) s')
    (hQ : ∀ h s a s', I h s → P s a → M.step s a = some s' → ∀ o, f s a = some o → Q h o)
    {h : List ω} {s t : σ} {as : List α} (hI : I h s) (hP : M.Along P s as)
    (hr : M.runFrom s as = some t) :
    ∀ before o after, M.observe f s as = before ++ o :: after → Q (h ++ before) o := by
  induction as generalizing h s with
  | nil => simp [observe]
  | cons a as ih =>
    obtain ⟨s', hs, ht⟩ := M.runFrom_cons.mp hr
    obtain ⟨hPa, hPs⟩ := along_cons hP hs
    rw [observe_cons as hs, forall_split_iff]
    exact ⟨hQ h s a s' hI hPa hs, ih (hstep h s a s' hI hPa hs) hPs ht⟩

/-- What every step that meets `P` keeps, a run whose steps all meet `P` keeps. -/
theorem invariant {P : σ → α → Prop} {I : σ → Prop}
    (hstep : ∀ s a s', I s → P s a → M.step s a = some s' → I s')
    {s t : σ} {as : List α} (hI : I s) (hP : M.Along P s as)
    (hr : M.runFrom s as = some t) : I t :=
  history_invariant (f := fun _ _ => (none : Option Unit)) (I := fun _ => I)
    (fun _ s a s' => hstep s a s') (h := []) hI hP hr

theorem along_trivial {P : σ → α → Prop} (hP : ∀ s a, P s a) (s : σ) (as : List α) :
    M.Along P s as := by
  induction as generalizing s with
  | nil => exact trivial
  | cons a as ih =>
    refine ⟨hP s a, ?_⟩
    cases M.step s a with
    | none => exact trivial
    | some s' => exact ih s'

/-- What every step keeps holds of every reachable state. -/
theorem reachable_invariant {I : σ → Prop} (hinit : I M.init)
    (hstep : ∀ s a s', I s → M.step s a = some s' → I s') {s : σ} (h : M.Reachable s) : I s := by
  obtain ⟨as, hr⟩ := h
  exact invariant (P := fun _ _ => True) (fun s a s' hI _ => hstep s a s' hI) hinit
    (along_trivial (fun _ _ => trivial) _ _) hr

theorem along_mono {P Q : σ → α → Prop} (hPQ : ∀ s a, P s a → Q s a) {s : σ} {as : List α}
    (h : M.Along P s as) : M.Along Q s as := by
  induction as generalizing s with
  | nil => exact trivial
  | cons a as ih =>
    refine ⟨hPQ s a h.1, ?_⟩
    have h2 := h.2
    cases hs : M.step s a with
    | none => exact trivial
    | some s' =>
      rw [hs] at h2
      exact ih h2

theorem along_and {P Q : σ → α → Prop} {s : σ} {as : List α} (hP : M.Along P s as)
    (hQ : M.Along Q s as) : M.Along (fun s a => P s a ∧ Q s a) s as := by
  induction as generalizing s with
  | nil => exact trivial
  | cons a as ih =>
    refine ⟨⟨hP.1, hQ.1⟩, ?_⟩
    have hP2 := hP.2
    have hQ2 := hQ.2
    cases hs : M.step s a with
    | none => exact trivial
    | some s' =>
      rw [hs] at hP2 hQ2
      exact ih hP2 hQ2

/-- Along a run, an invariant of its steps may be added to the condition. -/
theorem along_of_invariant {P Q : σ → α → Prop} {I : σ → Prop}
    (hstep : ∀ s a s', I s → P s a → M.step s a = some s' → I s')
    (hPQ : ∀ s a, I s → P s a → Q s a) {s : σ} {as : List α} (hI : I s) (h : M.Along P s as) :
    M.Along Q s as := by
  induction as generalizing s with
  | nil => exact trivial
  | cons a as ih =>
    refine ⟨hPQ s a hI h.1, ?_⟩
    have h2 := h.2
    cases hs : M.step s a with
    | none => exact trivial
    | some s' =>
      rw [hs] at h2
      exact ih (hstep s a s' hI h.1 hs) h2

/-- **The balance law over runs.**  If at each step what waits and what `f` adds is
what `g` removes and what waits then, in this order, the same holds of whole runs. -/
theorem observe_balance {f g : σ → α → Option ω} {waiting : σ → List ω} {I : σ → Prop}
    (hstep : ∀ s a s', I s → M.step s a = some s' → I s')
    (hbal : ∀ s a s', I s → M.step s a = some s' →
      waiting s ++ (f s a).toList = (g s a).toList ++ waiting s')
    {s t : σ} {as : List α} (hI : I s) (hr : M.runFrom s as = some t) :
    waiting s ++ M.observe f s as = M.observe g s as ++ waiting t := by
  induction as generalizing s with
  | nil =>
    obtain rfl := Option.some.inj hr
    simp [observe]
  | cons a as ih =>
    obtain ⟨s', hs, ht⟩ := M.runFrom_cons.mp hr
    rw [observe_cons as hs, observe_cons as hs, ← List.append_assoc, hbal s a s' hI hs,
      List.append_assoc, ih (hstep s a s' hI hs) ht, List.append_assoc]

theorem Sometime.of_head {I : σ → Prop} {s : σ} {as : List α} (h : I s) : M.Sometime I s as := by
  cases as with
  | nil => exact h
  | cons a as => exact Or.inl h

/-- **What only the steps seen as `o` bring about** holds at some time of a run exactly
if `o` is seen in it. -/
theorem sometime_iff_observe {P : σ → α → Prop} {f : σ → α → Option ω} {I : σ → Prop} {o : ω}
    (hdo : ∀ s a s', P s a → M.step s a = some s' → f s a = some o → I s')
    (hby : ∀ s a s', P s a → M.step s a = some s' → I s' → I s ∨ f s a = some o)
    {s t : σ} {as : List α} (hI : ¬ I s) (hP : M.Along P s as) (hr : M.runFrom s as = some t) :
    M.Sometime I s as ↔ o ∈ M.observe f s as := by
  induction as generalizing s with
  | nil => simp [Sometime, observe, hI]
  | cons a as ih =>
    obtain ⟨s', hs, ht⟩ := M.runFrom_cons.mp hr
    obtain ⟨hPa, hPs⟩ := along_cons hP hs
    rw [Sometime, hs, observe_cons as hs, List.mem_append, Option.mem_toList]
    by_cases ho : f s a = some o
    · have hhead : M.Sometime I s' as := Sometime.of_head (hdo s a s' hPa hs ho)
      simp [ho, hhead]
    · have hI' : ¬ I s' := fun h => (hby s a s' hPa hs h).elim hI ho
      simp [ho, hI, ih hI' hPs ht]

theorem Always.head {I : σ → Prop} {s : σ} {as : List α} (h : M.Always I s as) : I s := by
  cases as with
  | nil => exact h
  | cons a as => exact h.1

/-- **When a step keeps `I` exactly if it meets `P`**, a run keeps `I` throughout
exactly if all its steps meet `P`: the first step that does not breaks `I` there. -/
theorem always_iff_along {P : σ → α → Prop} {I : σ → Prop}
    (hstep : ∀ s a s', I s → M.step s a = some s' → (I s' ↔ P s a))
    {s t : σ} {as : List α} (hI : I s) (hr : M.runFrom s as = some t) :
    M.Always I s as ↔ M.Along P s as := by
  induction as generalizing s with
  | nil => exact ⟨fun _ => trivial, fun _ => hI⟩
  | cons a as ih =>
    obtain ⟨s', hs, ht⟩ := M.runFrom_cons.mp hr
    rw [Always, Along, hs]
    have hiff := hstep s a s' hI hs
    constructor
    · rintro ⟨-, h⟩
      exact ⟨hiff.mp h.head, (ih h.head ht).mp h⟩
    · rintro ⟨ha, h⟩
      exact ⟨hI, (ih (hiff.mpr ha) ht).mpr h⟩

/-! ### What follows what -/

/-- In what was seen, each `p` is followed by some `q`. -/
def Followed (p q : ω → Prop) (h : List ω) : Prop :=
  ∀ before o after, h = before ++ o :: after → p o → ∃ o' ∈ after, q o'

namespace Followed

variable {p q r : ω → Prop} {h : List ω} {m : ω}

theorem nil (p q : ω → Prop) : Followed p q [] := by
  intro before o after heq
  cases before <;> cases heq

theorem append_cases {before after : List ω} {o : ω} (heq : h ++ [m] = before ++ o :: after) :
    (after = [] ∧ o = m) ∨ ∃ after', after = after' ++ [m] ∧ h = before ++ o :: after' := by
  rcases List.eq_nil_or_concat after with rfl | ⟨after', m', rfl⟩
  · obtain ⟨-, hm⟩ := List.append_inj' heq rfl
    exact .inl ⟨rfl, (List.singleton_inj.mp hm).symm⟩
  · rw [List.concat_eq_append, ← List.cons_append, ← List.append_assoc] at heq
    obtain ⟨hh, hm⟩ := List.append_inj' heq rfl
    obtain rfl := List.singleton_inj.mp hm
    exact .inr ⟨after', List.concat_eq_append, hh⟩

/-- What is not a `p` needs nothing behind it. -/
theorem concat (hf : Followed p q h) (hm : ¬ p m) : Followed p q (h ++ [m]) := by
  intro before o after heq hp
  rcases append_cases heq with ⟨-, rfl⟩ | ⟨after', rfl, hh⟩
  · exact absurd hp hm
  · obtain ⟨o', ho', hq⟩ := hf before o after' hh hp
    exact ⟨o', List.mem_append_left _ ho', hq⟩

/-- A `q` follows everything before it. -/
theorem of_concat (hm : ¬ p m) (hq : q m) : Followed p q (h ++ [m]) := by
  intro before o after heq hp
  rcases append_cases heq with ⟨-, rfl⟩ | ⟨after', rfl, -⟩
  · exact absurd hp hm
  · exact ⟨m, List.mem_append_right _ (List.mem_singleton_self m), hq⟩

theorem trans (hpq : Followed p q h) (hqr : Followed q r h) : Followed p r h := by
  intro before o after heq hp
  obtain ⟨o', ho', hq⟩ := hpq before o after heq hp
  obtain ⟨left, right, rfl⟩ := List.append_of_mem ho'
  obtain ⟨o'', ho'', hr⟩ := hqr (before ++ o :: left) o' right (by rw [heq]; simp) hq
  exact ⟨o'', List.mem_append_right _ (List.mem_cons_of_mem _ ho''), hr⟩

end Followed

/-! ### Refinement -/

variable {τ : Type u'} {β : Type v'}

/-- A forward simulation of `C` by `A` for the steps that meet `ok`: a concrete
step performs the abstract action `lab` names, or none and stutters. -/
structure Refines (C : Machine σ α) (A : Machine τ β) (ok : σ → α → Prop)
    (lab : σ → α → Option β) where
  R : σ → τ → Prop
  init : R C.init A.init
  step : ∀ {s t a s'}, R s t → ok s a → C.step s a = some s' →
    match lab s a with
    | none => R s' t
    | some b => ∃ t', A.step t b = some t' ∧ R s' t'

namespace Refines

variable {C : Machine σ α} {A : Machine τ β} {ok : σ → α → Prop} {lab : σ → α → Option β}

theorem runFrom (r : Refines C A ok lab) {s s' : σ} {t : τ} {as : List α} (hR : r.R s t)
    (hok : C.Along ok s as) (hr : C.runFrom s as = some s') :
    ∃ t', A.runFrom t (C.observe lab s as) = some t' ∧ r.R s' t' := by
  induction as generalizing s t with
  | nil =>
    obtain rfl := Option.some.inj hr
    exact ⟨t, rfl, hR⟩
  | cons a as ih =>
    obtain ⟨s₁, hs, ht⟩ := C.runFrom_cons.mp hr
    obtain ⟨hoka, hoks⟩ := along_cons hok hs
    have h := r.step hR hoka hs
    rw [observe_cons as hs]
    cases hl : lab s a with
    | none =>
      rw [hl] at h
      exact ih h hoks ht
    | some b =>
      rw [hl] at h
      obtain ⟨t₁, hb, hR₁⟩ := h
      obtain ⟨t', hrun, hR'⟩ := ih hR₁ hoks ht
      exact ⟨t', A.runFrom_cons.mpr ⟨t₁, hb, hrun⟩, hR'⟩

/-- **Every concrete run performs an abstract run**, and ends in a related state. -/
theorem run (r : Refines C A ok lab) {s : σ} {as : List α} (hok : C.Along ok C.init as)
    (hr : C.run as = some s) :
    ∃ t, A.run (C.observe lab C.init as) = some t ∧ r.R s t :=
  r.runFrom r.init hok hr

/-- Where related states show the same of a step, a run and the abstract run it
performs show the same. -/
theorem observe_eq (r : Refines C A ok lab) {f : σ → α → Option ω} {g : τ → β → Option ω}
    (hfg : ∀ s t a, r.R s t → ok s a → f s a = (lab s a).bind (g t))
    {s s' : σ} {t : τ} {as : List α} (hR : r.R s t)
    (hok : C.Along ok s as) (hr : C.runFrom s as = some s') :
    C.observe f s as = A.observe g t (C.observe lab s as) := by
  induction as generalizing s t with
  | nil => rfl
  | cons a as ih =>
    obtain ⟨s₁, hs, ht⟩ := C.runFrom_cons.mp hr
    obtain ⟨hoka, hoks⟩ := along_cons hok hs
    have h := r.step hR hoka hs
    rw [observe_cons as hs, observe_cons as hs, hfg s t a hR hoka]
    cases hl : lab s a with
    | none =>
      rw [hl] at h
      exact ih h hoks ht
    | some b =>
      rw [hl] at h
      obtain ⟨t₁, hb, hR₁⟩ := h
      rw [ih hR₁ hoks ht]
      exact (observe_cons _ hb).symm

/-- Simulations compose: the second names the act of an act by itself. -/
def trans {υ : Type w} {γ : Type w'} {B : Machine υ γ} {ok' : τ → β → Prop} {lab' : β → Option γ}
    (r : Refines C A ok lab) (r' : Refines A B ok' fun _ => lab')
    (hok : ∀ s t a b, ok s a → lab s a = some b → ok' t b) :
    Refines C B ok fun s a => (lab s a).bind lab' where
  R s u := ∃ t, r.R s t ∧ r'.R t u
  init := ⟨A.init, r.init, r'.init⟩
  step := by
    rintro s u a s' ⟨t, hR, hR'⟩ hoka hs
    have h := r.step hR hoka hs
    cases hl : lab s a with
    | none =>
      rw [hl] at h
      exact ⟨t, h, hR'⟩
    | some b =>
      rw [hl] at h
      obtain ⟨t', hb, ht'⟩ := h
      have h' := r'.step hR' (hok s t a b hoka hl) hb
      rw [Option.bind_some]
      cases hl' : lab' b with
      | none =>
        rw [hl'] at h'
        exact ⟨t', ht', h'⟩
      | some c =>
        rw [hl'] at h'
        obtain ⟨u', hc, hu'⟩ := h'
        exact ⟨u', hc, t', ht', hu'⟩

end Refines

end Machine

import RedNodeBus.Lib.Machine

/-!
# Machines that come to rest

Some of a machine's acts come from outside, and the others it makes by itself.  A measure
that every act of its own takes down, in the states of an invariant, bounds how many of them
it can make in a row (`Descends.length_le`); and with no act from outside it comes to rest,
that is, to a state in which none of its own acts is enabled (`Descends.exists_resting`).
-/

universe u v

namespace Machine

variable {σ : Type u} {α : Type v} {M : Machine σ α} {own : α → Prop} {μ : σ → ℕ} {I : σ → Prop}

/-- None of the acts that `own` names is enabled. -/
def Resting (M : Machine σ α) (own : α → Prop) (s : σ) : Prop := ∀ a, own a → M.step s a = none

/-- Each act of its own takes the measure down. -/
def Descends (M : Machine σ α) (own : α → Prop) (μ : σ → ℕ) (I : σ → Prop) : Prop :=
  ∀ s a s', I s → own a → M.step s a = some s' → μ s' < μ s ∧ I s'

/-- A run of its own acts is no longer than the measure at its start. -/
theorem Descends.length_le (h : M.Descends own μ I) {s t : σ} {as : List α} (hI : I s)
    (hown : ∀ a ∈ as, own a) (hr : M.runFrom s as = some t) : as.length + μ t ≤ μ s := by
  induction as generalizing s with
  | nil =>
    obtain rfl := Option.some.inj hr
    exact Nat.le_of_eq (Nat.zero_add _)
  | cons a as ih =>
    obtain ⟨s', hs, ht⟩ := M.runFrom_cons.mp hr
    obtain ⟨hlt, hI'⟩ := h s a s' hI (hown a List.mem_cons_self) hs
    have hle := ih hI' (fun b hb => hown b (List.mem_cons_of_mem _ hb)) ht
    rw [List.length_cons]
    omega

theorem Descends.exists_resting (h : M.Descends own μ I) {s : σ} (hI : I s) :
    ∃ as t, (∀ a ∈ as, own a) ∧ M.runFrom s as = some t ∧ M.Resting own t := by
  induction hm : μ s using Nat.strongRecOn generalizing s with
  | ind m ih =>
    by_cases hrest : M.Resting own s
    · refine ⟨[], s, ?_, rfl, hrest⟩
      intro a ha
      cases ha
    · -- some act of its own is enabled
      obtain ⟨a, hrest⟩ := not_forall.mp hrest
      obtain ⟨ha, hstep⟩ := Classical.not_imp.mp hrest
      obtain ⟨s', hs⟩ := Option.ne_none_iff_exists'.mp hstep
      obtain ⟨hlt, hI'⟩ := h s a s' hI ha hs
      obtain ⟨as, t, hown, hr, ht⟩ := ih (μ s') (hm ▸ hlt) hI' rfl
      refine ⟨a :: as, t, ?_, M.runFrom_cons.mpr ⟨s', hs, hr⟩, ht⟩
      intro b hb
      rcases List.mem_cons.mp hb with rfl | hb
      · exact ha
      · exact hown b hb

end Machine

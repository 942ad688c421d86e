import Mathlib.Data.List.Nodup
import Mathlib.Data.List.Sublists

/-!
# Work queues that coalesce

A work item is a flag and a place in a FIFO: submitting an item that is already
pending does nothing, and in particular leaves it at its old place.  `submit` is
that operation on the list of pending items, the head being the next to run.

The order in which two different items run is then not the order in which they
were last submitted.  `Ahead i j q` says that `i` is pending in front of `j`;
`ahead_submit` and `ahead_cons` say how the two queue operations change it.
-/

namespace WorkQueue

variable {ι : Type*}

/-- `i` is pending in front of `j`. -/
def Ahead (i j : ι) (q : List ι) : Prop := [i, j].Sublist q

instance [DecidableEq ι] (i j : ι) (q : List ι) : Decidable (Ahead i j q) :=
  inferInstanceAs (Decidable ([i, j].Sublist q))

/-! ### The order of two items -/

@[simp] theorem not_ahead_nil (i j : ι) : ¬ Ahead i j [] := by simp [Ahead]

theorem ahead_cons {i j k : ι} {q : List ι} :
    Ahead i j (k :: q) ↔ (k = i ∧ j ∈ q) ∨ Ahead i j q := by
  rw [Ahead, Ahead, List.sublist_cons_iff]
  constructor
  · rintro (h | ⟨r, hr, h⟩)
    · exact Or.inr h
    · obtain ⟨rfl, rfl⟩ := List.cons.inj hr
      exact Or.inl ⟨rfl, List.singleton_sublist.mp h⟩
  · rintro (⟨rfl, hj⟩ | h)
    · exact Or.inr ⟨[j], rfl, List.singleton_sublist.mpr hj⟩
    · exact Or.inl h

theorem Ahead.mem_left {i j : ι} {q : List ι} (h : Ahead i j q) : i ∈ q :=
  h.subset (by simp)

theorem ahead_append_singleton {i j k : ι} {q : List ι} :
    Ahead i j (q ++ [k]) ↔ Ahead i j q ∨ (k = j ∧ i ∈ q) := by
  induction q with
  | nil => simp [ahead_cons]
  | cons m q ih =>
    rw [List.cons_append, ahead_cons, ahead_cons, ih]
    simp only [List.mem_append, List.mem_cons]
    grind

/-! ### Submitting -/

variable [DecidableEq ι]

/-- Submit an item: nothing if it is pending, else to the back. -/
def submit (i : ι) (q : List ι) : List ι := if i ∈ q then q else q ++ [i]

theorem submit_of_mem {i : ι} {q : List ι} (h : i ∈ q) : submit i q = q := if_pos h

theorem submit_of_not_mem {i : ι} {q : List ι} (h : i ∉ q) : submit i q = q ++ [i] := if_neg h

@[simp] theorem mem_submit {i j : ι} {q : List ι} : j ∈ submit i q ↔ j = i ∨ j ∈ q := by
  by_cases h : i ∈ q
  · rw [submit_of_mem h]
    exact ⟨Or.inr, fun hj => hj.elim (fun e => e ▸ h) id⟩
  · rw [submit_of_not_mem h]
    simp [or_comm]

theorem nodup_submit {i : ι} {q : List ι} (h : q.Nodup) : (submit i q).Nodup := by
  by_cases hi : i ∈ q
  · rwa [submit_of_mem hi]
  · rw [submit_of_not_mem hi]
    exact List.nodup_append_comm.mp (List.nodup_cons.mpr ⟨hi, h⟩)

/-- Submitting puts the item behind every other pending item, unless it was
pending already. -/
theorem ahead_submit {i j k : ι} {q : List ι} :
    Ahead i j (submit k q) ↔ Ahead i j q ∨ (k = j ∧ j ∉ q ∧ i ∈ q) := by
  by_cases hk : k ∈ q
  · rw [submit_of_mem hk]
    grind
  · rw [submit_of_not_mem hk, ahead_append_singleton]
    grind

end WorkQueue

import RedNodeBus.Lib.Machine

/-!
# A bounded queue with one server

The abstract queue a producer and a consumer share: an offered element is taken
in unless `n` elements are unfinished, the server takes the elements in order,
one at a time, and an element is unfinished until the server is done with it.

`unfinished_run` is its balance law: what was taken in is what was finished and what
is unfinished, as lists and so in order.  With `length_le_of_reachable` it says when
an element is turned away: exactly when `n` more were taken in than were finished.
-/

universe u v

/-- The element being served and those behind it. -/
structure BoundedQueue (ε : Type u) where
  serving : Option ε
  waiting : List ε

namespace BoundedQueue

variable {ε : Type u}

inductive Act (ε : Type u)
  | offer (e : ε)
  | serve
  | finish

def Act.map {ε' : Type v} (f : ε → ε') : Act ε → Act ε'
  | .offer e => .offer (f e)
  | .serve => .serve
  | .finish => .finish

/-- Everything taken in and not finished, oldest first. -/
def unfinished (q : BoundedQueue ε) : List ε := q.serving.toList ++ q.waiting

/-- The queue of capacity `n`. -/
def machine (n : Nat) : Machine (BoundedQueue ε) (Act ε) where
  init := ⟨none, []⟩
  step
    | q, .offer e => some (if q.unfinished.length < n then ⟨q.serving, q.waiting ++ [e]⟩ else q)
    | ⟨none, e :: rest⟩, .serve => some ⟨some e, rest⟩
    | ⟨some _, w⟩, .finish => some ⟨none, w⟩
    | _, _ => none

def accepted (n : Nat) (q : BoundedQueue ε) : Act ε → Option ε
  | .offer e => if q.unfinished.length < n then some e else none
  | _ => none

/-- The element an action turns away. -/
def dropped (n : Nat) (q : BoundedQueue ε) : Act ε → Option ε
  | .offer e => if q.unfinished.length < n then none else some e
  | _ => none

def finished (q : BoundedQueue ε) : Act ε → Option ε
  | .finish => q.serving
  | _ => none

variable {n : Nat} {q q' : BoundedQueue ε} {a : Act ε}

/-! ### One step -/

theorem step_offer {e : ε} (h : (machine n).step q (.offer e) = some q') :
    (q.unfinished.length < n ∧ q' = ⟨q.serving, q.waiting ++ [e]⟩) ∨
      (¬ q.unfinished.length < n ∧ q' = q) := by
  obtain rfl := Option.some.inj h
  by_cases hn : q.unfinished.length < n
  · exact Or.inl ⟨hn, if_pos hn⟩
  · exact Or.inr ⟨hn, if_neg hn⟩

theorem step_serve (h : (machine n).step q .serve = some q') :
    ∃ e rest, q = ⟨none, e :: rest⟩ ∧ q' = ⟨some e, rest⟩ := by
  obtain ⟨_ | s, _ | ⟨e, rest⟩⟩ := q <;> simp [machine] at h
  exact ⟨e, rest, rfl, h.symm⟩

theorem step_finish (h : (machine n).step q .finish = some q') :
    ∃ e w, q = ⟨some e, w⟩ ∧ q' = ⟨none, w⟩ := by
  obtain ⟨_ | e, w⟩ := q <;> simp [machine] at h
  exact ⟨e, w, rfl, h.symm⟩

theorem unfinished_step (h : (machine n).step q a = some q') :
    q.unfinished ++ (accepted n q a).toList = (finished q a).toList ++ q'.unfinished := by
  cases a with
  | offer e =>
    rcases step_offer h with ⟨hn, rfl⟩ | ⟨hn, rfl⟩
    · simp only [accepted, finished, if_pos hn]
      simp [unfinished]
    · simp only [accepted, finished, if_neg hn]
      simp
  | serve =>
    obtain ⟨e, rest, rfl, rfl⟩ := step_serve h
    simp [accepted, finished, unfinished]
  | finish =>
    obtain ⟨e, w, rfl, rfl⟩ := step_finish h
    simp [accepted, finished, unfinished]

theorem length_step (hq : q.unfinished.length ≤ n) (h : (machine n).step q a = some q') :
    q'.unfinished.length ≤ n := by
  have hb := congrArg List.length (unfinished_step h)
  simp only [List.length_append] at hb
  cases a with
  | offer e =>
    simp only [accepted, finished, Option.toList_none, List.length_nil] at hb
    split at hb <;> simp at hb <;> omega
  | serve | finish =>
    simp only [accepted, Option.toList_none, List.length_nil] at hb
    omega

/-! ### Runs -/

theorem unfinished_run {as : List (Act ε)} (h : (machine n).runFrom q as = some q') :
    q.unfinished ++ (machine n).observe (accepted n) q as
      = (machine n).observe finished q as ++ q'.unfinished :=
  Machine.observe_balance (I := fun _ => True) (fun _ _ _ _ _ => trivial)
    (fun _ _ _ _ => unfinished_step) trivial h

/-- Never more than `n` elements are unfinished. -/
theorem length_le_of_reachable (h : (machine n : Machine _ (Act ε)).Reachable q) :
    q.unfinished.length ≤ n :=
  Machine.reachable_invariant (I := fun q => q.unfinished.length ≤ n)
    (Nat.zero_le n) (fun _ _ _ => length_step) h

end BoundedQueue

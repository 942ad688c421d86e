import Mathlib.Data.List.Chain
import Mathlib.Data.List.Nodup
import Mathlib.Data.List.Perm.Subperm
import Mathlib.Data.Nat.SuccPred
import Mathlib.Order.Interval.Finset.Nat

/-!
# Numbered items of successive epochs

A sender works in epochs.  Each has a label, and numbers its items from `0` on; `number`
writes the epoch, the label and the number to each item.  A receiver sees some of the
items, in order, and keeps a `Tally`: of the epoch it takes to be the current one, the
last number, how many items it received, and how many it thinks were lost, which is the
sum of the gaps between the numbers.  It tells two epochs apart by their labels only.

`tally_exact` says that the tally is right: if the epoch never changes between two items
received without the label changing, `received` is the number of items of the epoch
received, and `lost` the number of those sent in it, between the first and the last one
received, that were not.  The gaps telescope to the distance of the last item from the
first (`tally_concat`), and the numbers of an epoch have no gap themselves
(`index_ofEpoch`).
-/

universe u v

namespace Epochs

/-- What a sender does: it begins an epoch, or sends an item. -/
inductive Mark (ρ : Type u) (α : Type v)
  | epoch (label : ρ)
  | item (a : α)
  deriving DecidableEq

/-- An item with its epoch, the epoch's label, and its number in the epoch. -/
structure Numbered (ρ : Type u) (α : Type v) where
  epoch : ℕ
  label : ρ
  index : ℕ
  item : α
  deriving DecidableEq

variable {ρ : Type u} {α : Type v}

/-- The items sent, when `i` were already sent in the epoch. -/
def numberFrom : ℕ → ρ → ℕ → List (Mark ρ α) → List (Numbered ρ α)
  | _, _, _, [] => []
  | epoch, _, _, .epoch label :: ms => numberFrom (epoch + 1) label 0 ms
  | epoch, label, i, .item a :: ms => ⟨epoch, label, i, a⟩ :: numberFrom epoch label (i + 1) ms

def number : List (Mark ρ α) → List (Numbered ρ α)
  | [] => []
  | .epoch label :: ms => numberFrom 0 label 0 ms
  | .item _ :: ms => number ms

def ofEpoch (e : ℕ) (l : List (Numbered ρ α)) : List (Numbered ρ α) := l.filter (·.epoch = e)

/-- `p` was sent before `q`. -/
def Before (p q : Numbered ρ α) : Prop :=
  p.epoch < q.epoch ∨ p.epoch = q.epoch ∧ p.index < q.index

/-- What a receiver keeps. -/
structure Tally (ρ : Type u) where
  label : ρ
  last : ℕ
  received : ℕ
  lost : ℤ
  deriving DecidableEq

/-- The tally after one more item: a new one for another label, else the gap is added. -/
def Tally.next [DecidableEq ρ] (t : Option (Tally ρ)) (label : ρ) (i : ℕ) : Tally ρ :=
  match t with
  | some t =>
    if t.label ≠ label then ⟨label, i, 1, 0⟩
    else ⟨t.label, i, t.received + 1, t.lost + (i - t.last - 1)⟩
  | none => ⟨label, i, 1, 0⟩

def tally [DecidableEq ρ] (delivered : List (Numbered ρ α)) : Option (Tally ρ) :=
  delivered.foldl (fun t p => some (Tally.next t p.label p.index)) none

/-- The epoch does not change between two items in a row without the label. -/
def LabelsTell (delivered : List (Numbered ρ α)) : Prop :=
  delivered.IsChain fun p q => p.epoch ≠ q.epoch → p.label ≠ q.label

/-- The items of `p`'s epoch that were sent between the first delivered one and `p`, and
not delivered. -/
def missing [DecidableEq ρ] [DecidableEq α] (sent delivered : List (Numbered ρ α))
    (p : Numbered ρ α) : List (Numbered ρ α) :=
  (ofEpoch p.epoch sent).filter fun q =>
    (∃ f ∈ (ofEpoch p.epoch delivered).head?, f.index ≤ q.index) ∧ q.index ≤ p.index ∧
      q ∉ delivered

/-! ## What is sent -/

section Sent

variable {ms : List (Mark ρ α)} {e i : ℕ} {label : ρ} {p q : Numbered ρ α}

theorem bound_of_mem (h : p ∈ numberFrom e label i ms) :
    e < p.epoch ∨ e = p.epoch ∧ i ≤ p.index ∧ p.label = label := by
  induction ms generalizing e label i with
  | nil => cases h
  | cons m ms ih =>
    cases m with
    | epoch label' =>
      have hlt : e + 1 ≤ p.epoch := by
        rcases ih h with h | h
        · exact h.le
        · exact h.1.le
      exact .inl hlt
    | item a =>
      rcases List.mem_cons.mp h with rfl | h
      · exact .inr ⟨rfl, le_rfl, rfl⟩
      · rcases ih h with h | ⟨he, hi, hl⟩
        · exact .inl h
        · exact .inr ⟨he, by omega, hl⟩

theorem pairwise_numberFrom (e : ℕ) (label : ρ) (i : ℕ) (ms : List (Mark ρ α)) :
    (numberFrom e label i ms).Pairwise Before := by
  induction ms generalizing e label i with
  | nil => exact .nil
  | cons m ms ih =>
    cases m with
    | epoch label' => exact ih (e + 1) label' 0
    | item a =>
      refine List.pairwise_cons.mpr ⟨?_, ih e label (i + 1)⟩
      intro q hq
      rcases bound_of_mem hq with h | ⟨he, hi, -⟩
      · exact .inl h
      · exact .inr ⟨he, hi⟩

theorem label_of_mem_numberFrom (hp : p ∈ numberFrom e label i ms)
    (hq : q ∈ numberFrom e label i ms) (h : p.epoch = q.epoch) : p.label = q.label := by
  induction ms generalizing e label i with
  | nil => cases hp
  | cons m ms ih =>
    cases m with
    | epoch label' => exact ih hp hq
    | item a =>
      rcases List.mem_cons.mp hp with rfl | hp' <;> rcases List.mem_cons.mp hq with rfl | hq'
      · rfl
      · rcases bound_of_mem hq' with hlt | ⟨-, -, hl⟩
        · exact absurd h hlt.ne
        · exact hl.symm
      · rcases bound_of_mem hp' with hlt | ⟨-, -, hl⟩
        · exact absurd h hlt.ne'
        · exact hl
      · exact ih hp' hq'

/-- The numbers of an epoch, the current one or a later one, without a gap. -/
theorem index_numberFrom (b e : ℕ) (label : ρ) (i : ℕ) (ms : List (Mark ρ α)) :
    ∃ n, (ofEpoch b (numberFrom e label i ms)).map (·.index) =
      List.range' (if b = e then i else 0) n := by
  induction ms generalizing e label i with
  | nil => exact ⟨0, rfl⟩
  | cons m ms ih =>
    cases m with
    | epoch label' =>
      by_cases hb : b = e
      · have hnone : ofEpoch b (numberFrom (e + 1) label' 0 ms) = [] := by
          rw [ofEpoch, List.filter_eq_nil_iff]
          intro p hp
          rcases bound_of_mem hp with h | h
          · simp; omega
          · simp; omega
        exact ⟨0, by rw [numberFrom, hnone]; rfl⟩
      · obtain ⟨n, hn⟩ := ih (e + 1) label' 0
        refine ⟨n, ?_⟩
        rw [numberFrom, hn, if_neg hb, ite_self]
    | item a =>
      obtain ⟨n, hn⟩ := ih e label (i + 1)
      by_cases hb : b = e
      · refine ⟨n + 1, ?_⟩
        rw [if_pos hb] at hn
        rw [numberFrom, ofEpoch, List.filter_cons_of_pos (by simp [hb]), List.map_cons, if_pos hb,
          List.range'_succ, ← hn]
        rfl
      · refine ⟨n, ?_⟩
        rw [if_neg hb] at hn
        rw [numberFrom, ofEpoch, List.filter_cons_of_neg (by simp; omega), if_neg hb, ← hn]
        rfl

theorem number_eq (ms : List (Mark ρ α)) :
    number ms = [] ∨ ∃ label ms', number ms = numberFrom 0 label 0 ms' := by
  induction ms with
  | nil => exact .inl rfl
  | cons m ms ih =>
    cases m with
    | epoch label => exact .inr ⟨label, ms, rfl⟩
    | item a => exact ih

theorem pairwise_number (ms : List (Mark ρ α)) : (number ms).Pairwise Before := by
  rcases number_eq ms with h | ⟨label, ms', h⟩ <;> rw [h]
  · exact .nil
  · exact pairwise_numberFrom 0 label 0 ms'

theorem label_eq (hp : p ∈ number ms) (hq : q ∈ number ms) (h : p.epoch = q.epoch) :
    p.label = q.label := by
  rcases number_eq ms with hn | ⟨label, ms', hn⟩ <;> rw [hn] at hp hq
  · cases hp
  · exact label_of_mem_numberFrom hp hq h

/-- The numbers of an epoch are `0, 1, …`. -/
theorem index_ofEpoch (b : ℕ) (ms : List (Mark ρ α)) :
    ∃ n, (ofEpoch b (number ms)).map (·.index) = List.range n := by
  rcases number_eq ms with h | ⟨label, ms', h⟩ <;> rw [h]
  · exact ⟨0, rfl⟩
  · obtain ⟨n, hn⟩ := index_numberFrom b 0 label 0 ms'
    rw [ite_self] at hn
    exact ⟨n, by rw [hn, List.range_eq_range']⟩

end Sent

/-! ## What is received -/

section Received

variable {ms : List (Mark ρ α)} {delivered : List (Numbered ρ α)} {p q f : Numbered ρ α}

@[simp] theorem mem_ofEpoch {e : ℕ} {l : List (Numbered ρ α)} :
    p ∈ ofEpoch e l ↔ p ∈ l ∧ p.epoch = e := by
  rw [ofEpoch, List.mem_filter, decide_eq_true_eq]

theorem ofEpoch_singleton (p : Numbered ρ α) : ofEpoch p.epoch [p] = [p] :=
  List.filter_cons_of_pos (decide_eq_true rfl)

/-- Everything received before `p` was sent before it. -/
theorem before_last (h : (delivered ++ [p]).Sublist (number ms)) (hq : q ∈ delivered) :
    Before q p := by
  have hpair := (pairwise_number ms).sublist h
  exact (List.pairwise_append.mp hpair).2.2 q hq p List.mem_cons_self

/-- The first item received of an epoch has the smallest number. -/
theorem head_le (h : delivered.Sublist (number ms)) {e : ℕ}
    (hf : (ofEpoch e delivered).head? = some f) (hq : q ∈ ofEpoch e delivered) :
    f.index ≤ q.index := by
  obtain ⟨rest, hrest⟩ := List.head?_eq_some_iff.mp hf
  have hpair : (ofEpoch e delivered).Pairwise Before :=
    ((pairwise_number ms).sublist h).sublist List.filter_sublist
  have hfe : f.epoch = e := (mem_ofEpoch.mp (hrest ▸ List.mem_cons_self)).2
  have hqe : q.epoch = e := (mem_ofEpoch.mp hq).2
  rw [hrest] at hpair hq
  rcases List.mem_cons.mp hq with rfl | hq
  · exact le_rfl
  · rcases (List.pairwise_cons.mp hpair).1 q hq with hlt | ⟨-, hlt⟩
    · omega
    · exact hlt.le

/-- The last item received of an epoch has the largest number. -/
theorem le_last (h : (delivered ++ [p]).Sublist (number ms))
    (hq : q ∈ ofEpoch p.epoch (delivered ++ [p])) : q.index ≤ p.index := by
  obtain ⟨hmem, he⟩ := mem_ofEpoch.mp hq
  rcases List.mem_append.mp hmem with hmem | hmem
  · rcases before_last h hmem with hlt | ⟨-, hlt⟩ <;> omega
  · rw [List.mem_singleton.mp hmem]

/-- Nothing of a new epoch was received before its first item. -/
theorem ofEpoch_eq_nil (h : (delivered ++ [q] ++ [p]).Sublist (number ms))
    (he : q.epoch ≠ p.epoch) : ofEpoch p.epoch (delivered ++ [q]) = [] := by
  have hqp : q.epoch < p.epoch := by
    rcases before_last h (show q ∈ delivered ++ [q] by simp) with hlt | ⟨heq, -⟩
    · exact hlt
    · exact absurd heq he
  have hpre : (delivered ++ [q]).Sublist (number ms) := (List.sublist_append_left _ _).trans h
  apply List.eq_nil_iff_forall_not_mem.mpr
  intro r hr
  obtain ⟨hmem, hre⟩ := mem_ofEpoch.mp hr
  rcases List.mem_append.mp hmem with hmem | hmem
  · rcases before_last hpre hmem with hlt | ⟨heq, -⟩ <;> omega
  · rw [List.mem_singleton.mp hmem] at hre
    exact he hre

/-- As many items of the epoch are sent from number `a` to `p` as the numbers say. -/
theorem length_sent {a : ℕ} (hp : p ∈ number ms) (ha : a ≤ p.index) :
    ((ofEpoch p.epoch (number ms)).filter fun q => a ≤ q.index ∧ q.index ≤ p.index).length =
      p.index - a + 1 := by
  obtain ⟨n, hn⟩ := index_ofEpoch p.epoch ms
  have hlt : p.index < n := by
    rw [← List.mem_range, ← hn]
    exact List.mem_map_of_mem (mem_ofEpoch.mpr ⟨hp, rfl⟩)
  have hmap : ((ofEpoch p.epoch (number ms)).filter
        fun q => a ≤ q.index ∧ q.index ≤ p.index).map (·.index) =
      (List.range n).filter fun i => a ≤ i ∧ i ≤ p.index := by
    rw [← hn, List.filter_map]
    rfl
  have hIcc : ((List.range n).filter fun i => a ≤ i ∧ i ≤ p.index).toFinset =
      Finset.Icc a p.index := by
    ext i
    simp only [List.mem_toFinset, List.mem_filter, List.mem_range, decide_eq_true_eq,
      Finset.mem_Icc]
    omega
  rw [← List.length_map (·.index), hmap,
    ← List.toFinset_card_of_nodup (List.nodup_range.filter _), hIcc, Nat.card_Icc]
  omega

theorem nodup_number (ms : List (Mark ρ α)) : (number ms).Nodup := by
  refine (pairwise_number ms).imp ?_
  rintro p q (hlt | ⟨-, hlt⟩) rfl <;> exact absurd hlt (Nat.lt_irrefl _)

/-- What was received, picked out of what was sent. -/
theorem filter_mem_sent [DecidableEq ρ] [DecidableEq α] (h : delivered.Sublist (number ms)) :
    (number ms).filter (· ∈ delivered) = delivered := by
  have hsub : delivered.Sublist ((number ms).filter (· ∈ delivered)) := by
    have hself : delivered.filter (· ∈ delivered) = delivered :=
      List.filter_eq_self.mpr fun q hq => decide_eq_true hq
    conv_lhs => rw [← hself]
    exact h.filter _
  have hperm : ((number ms).filter (· ∈ delivered)).Subperm delivered := by
    apply ((nodup_number ms).filter _).subperm
    intro q hq
    exact of_decide_eq_true (List.mem_filter.mp hq).2
  exact (hsub.eq_of_length_le hperm.length_le).symm

/-- What was received of the epoch and what is missing of it are what was sent. -/
theorem length_missing [DecidableEq ρ] [DecidableEq α]
    (h : (delivered ++ [p]).Sublist (number ms))
    (hf : (ofEpoch p.epoch (delivered ++ [p])).head? = some f) :
    f.index ≤ p.index ∧ (ofEpoch p.epoch (delivered ++ [p])).length +
      (missing (number ms) (delivered ++ [p]) p).length = p.index - f.index + 1 := by
  have hp : p ∈ delivered ++ [p] := by simp
  have hfp : f.index ≤ p.index := head_le h hf (mem_ofEpoch.mpr ⟨hp, rfl⟩)
  refine ⟨hfp, ?_⟩
  -- what was received of the epoch lies between `f` and `p`
  have hin : ((ofEpoch p.epoch (number ms)).filter fun q =>
        f.index ≤ q.index ∧ q.index ≤ p.index).filter (· ∈ delivered ++ [p]) =
      ofEpoch p.epoch (delivered ++ [p]) := by
    conv_rhs => rw [← filter_mem_sent h]
    rw [ofEpoch, ofEpoch, List.filter_filter, List.filter_filter, List.filter_filter]
    apply List.filter_congr
    intro q _
    rw [Bool.eq_iff_iff]
    simp only [Bool.and_eq_true, decide_eq_true_eq]
    constructor
    · rintro ⟨⟨hq, -⟩, he⟩
      exact ⟨he, hq⟩
    · rintro ⟨he, hq⟩
      have hmem := mem_ofEpoch.mpr ⟨hq, he⟩
      exact ⟨⟨hq, head_le h hf hmem, le_last h hmem⟩, he⟩
  have hout : ((ofEpoch p.epoch (number ms)).filter fun q =>
        f.index ≤ q.index ∧ q.index ≤ p.index).filter (fun q => !decide (q ∈ delivered ++ [p])) =
      missing (number ms) (delivered ++ [p]) p := by
    rw [missing, hf, List.filter_filter]
    apply List.filter_congr
    intro q _
    rw [Bool.eq_iff_iff]
    simp only [Bool.and_eq_true, Bool.not_eq_true', decide_eq_true_eq, decide_eq_false_iff_not,
      Option.mem_some_iff, exists_eq_left']
    constructor
    · rintro ⟨hq, hfq, hqp⟩
      exact ⟨hfq, hqp, hq⟩
    · rintro ⟨hfq, hqp, hq⟩
      exact ⟨hq, hfq, hqp⟩
  have hsplit := List.length_eq_length_filter_add (l := (ofEpoch p.epoch (number ms)).filter
    fun q => f.index ≤ q.index ∧ q.index ≤ p.index) (· ∈ delivered ++ [p])
  rw [hin, hout, length_sent (h.subset hp) hfp] at hsplit
  exact hsplit.symm

variable [DecidableEq ρ]

theorem tally_append (delivered : List (Numbered ρ α)) (p : Numbered ρ α) :
    tally (delivered ++ [p]) = some (Tally.next (tally delivered) p.label p.index) := by
  rw [tally, List.foldl_append]
  rfl

/-- After `p`, the tally is of `p`'s epoch, and its gaps telescope: what it has received
and what it has lost make up the way from the epoch's first item `f` to `p`. -/
theorem tally_concat (h : (delivered ++ [p]).Sublist (number ms))
    (htell : LabelsTell (delivered ++ [p])) :
    ∃ f, (ofEpoch p.epoch (delivered ++ [p])).head? = some f ∧
      tally (delivered ++ [p]) =
        some ⟨p.label, p.index, (ofEpoch p.epoch (delivered ++ [p])).length,
          p.index - f.index + 1 - (ofEpoch p.epoch (delivered ++ [p])).length⟩ := by
  induction delivered using List.reverseRecOn generalizing p with
  | nil =>
    refine ⟨p, ?_, ?_⟩
    · rw [List.nil_append, ofEpoch_singleton]
      rfl
    · rw [List.nil_append, ofEpoch_singleton, List.length_singleton]
      show some (Tally.mk p.label p.index 1 0) = _
      simp
  | append_singleton d q ih =>
    have hpre : (d ++ [q]).Sublist (number ms) := (List.sublist_append_left _ _).trans h
    obtain ⟨htell', -, hlast⟩ := List.isChain_append.mp htell
    have hqp : q.epoch ≠ p.epoch → q.label ≠ p.label :=
      hlast q (by simp) p (by simp)
    obtain ⟨f, hf, ht⟩ := ih hpre htell'
    rw [tally_append, ht]
    by_cases he : q.epoch = p.epoch
    · -- the epoch goes on
      have hlabel : q.label = p.label :=
        label_eq (hpre.subset (by simp)) (h.subset (by simp)) he
      have hof : ofEpoch p.epoch (d ++ [q] ++ [p]) = ofEpoch q.epoch (d ++ [q]) ++ [p] := by
        rw [he, ofEpoch, List.filter_append, ← ofEpoch, ← ofEpoch, ofEpoch_singleton]
      refine ⟨f, ?_, ?_⟩
      · rw [hof, List.head?_append, hf]
        rfl
      · rw [hof, List.length_append, List.length_singleton, Tally.next, if_neg (not_not.mpr hlabel),
          hlabel]
        congr 2
        push_cast
        omega
    · -- a new epoch, of which `p` is the first item
      have hof : ofEpoch p.epoch (d ++ [q] ++ [p]) = [p] := by
        rw [ofEpoch, List.filter_append, ← ofEpoch, ← ofEpoch, ofEpoch_eq_nil h he,
          ofEpoch_singleton, List.nil_append]
      refine ⟨p, ?_, ?_⟩
      · rw [hof]
        rfl
      · rw [hof, Tally.next, if_pos (hqp he)]
        simp

/-- **The tally is right.** -/
theorem tally_exact [DecidableEq α] (h : (delivered ++ [p]).Sublist (number ms))
    (htell : LabelsTell (delivered ++ [p])) :
    tally (delivered ++ [p]) = some ⟨p.label, p.index, (ofEpoch p.epoch (delivered ++ [p])).length,
      (missing (number ms) (delivered ++ [p]) p).length⟩ := by
  obtain ⟨f, hf, ht⟩ := tally_concat h htell
  obtain ⟨hfp, hlen⟩ := length_missing h hf
  rw [ht]
  congr 2
  omega

end Received

/-! ## Items seen through a function -/

section Map

variable {β : Type v} (f : α → β)

/-- The mark, with its item seen through `f`. -/
def Mark.map : Mark ρ α → Mark ρ β
  | .epoch label => .epoch label
  | .item a => .item (f a)

/-- The item seen through `f`, with its number. -/
def Numbered.map (p : Numbered ρ α) : Numbered ρ β := ⟨p.epoch, p.label, p.index, f p.item⟩

theorem numberFrom_map (e : ℕ) (label : ρ) (i : ℕ) (ms : List (Mark ρ α)) :
    numberFrom e label i (ms.map (Mark.map f)) =
      (numberFrom e label i ms).map (Numbered.map f) := by
  induction ms generalizing e label i with
  | nil => rfl
  | cons m ms ih =>
    cases m with
    | epoch label' => exact ih (e + 1) label' 0
    | item a => exact congrArg (List.cons _) (ih e label (i + 1))

theorem number_map (ms : List (Mark ρ α)) :
    number (ms.map (Mark.map f)) = (number ms).map (Numbered.map f) := by
  induction ms with
  | nil => rfl
  | cons m ms ih =>
    cases m with
    | epoch label => exact numberFrom_map f 0 label 0 ms
    | item a => exact ih

theorem tally_map [DecidableEq ρ] (l : List (Numbered ρ α)) :
    tally (l.map (Numbered.map f)) = tally l := List.foldl_map ..

end Map

theorem mem_of_mem_numberFrom {p : Numbered ρ α} {e : ℕ} {label : ρ} {i : ℕ}
    {ms : List (Mark ρ α)} (h : p ∈ numberFrom e label i ms) : .item p.item ∈ ms := by
  induction ms generalizing e label i with
  | nil => cases h
  | cons m ms ih =>
    cases m with
    | epoch label' => exact List.mem_cons_of_mem _ (ih h)
    | item a =>
      rcases List.mem_cons.mp h with rfl | h
      · exact List.mem_cons_self
      · exact List.mem_cons_of_mem _ (ih h)

/-- The numbers of an epoch are smaller than the number of its items. -/
theorem index_lt {p : Numbered ρ α} {ms : List (Mark ρ α)} (h : p ∈ number ms) :
    p.index < (ofEpoch p.epoch (number ms)).length := by
  obtain ⟨n, hn⟩ := index_ofEpoch p.epoch ms
  have hmem : p.index ∈ List.range n := by
    rw [← hn]
    exact List.mem_map_of_mem (mem_ofEpoch.mpr ⟨h, rfl⟩)
  have hlen := congrArg List.length hn
  rw [List.length_map, List.length_range] at hlen
  rw [hlen]
  exact List.mem_range.mp hmem

theorem mem_of_mem_number {p : Numbered ρ α} {ms : List (Mark ρ α)} (h : p ∈ number ms) :
    .item p.item ∈ ms := by
  induction ms with
  | nil => cases h
  | cons m ms ih =>
    cases m with
    | epoch label => exact List.mem_cons_of_mem _ (mem_of_mem_numberFrom h)
    | item a => exact List.mem_cons_of_mem _ (ih h)

end Epochs

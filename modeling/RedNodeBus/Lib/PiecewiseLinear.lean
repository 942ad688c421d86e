import Mathlib.Algebra.Order.Field.Basic
import Mathlib.Data.List.Basic

/-!
# Piecewise linear curves

A curve is a list of points, from the right to the left.  `level` runs down the list to
the first segment that reaches down to `x`; right of the first point and left of the last
one the curve is constant.

A curve that falls to the left is monotone (`level_mono`).  Inside a segment this is
`segment_mono`; across the segments it holds because each stays between the ends of its
own (`le_segment`, `level_le_head`).  The curve goes through its points (`level_of_mem`)
and is on each segment what the segment is (`level_of_infix`).
-/

namespace PiecewiseLinear

/-- A point of a curve. -/
structure Point (K : Type*) where
  x : K
  y : K

variable {K : Type*} {p q : Point K} {rest points : List (Point K)} {x x' : K}

/-! ## Falling curves -/

/-- Each point is left of those before it, and not above them. -/
def Falling [LT K] [LE K] (points : List (Point K)) : Prop :=
  points.Pairwise fun p q => q.x < p.x ∧ q.y ≤ p.y

section Falling

variable [LT K] [LE K]

theorem Falling.tail (h : Falling (p :: points)) : Falling points := List.Pairwise.of_cons h

theorem Falling.head (h : Falling (p :: q :: rest)) : q.x < p.x ∧ q.y ≤ p.y :=
  List.rel_of_pairwise_cons h List.mem_cons_self

theorem Falling.of_infix (h : Falling points) (hpq : [p, q] <:+: points) :
    q.x < p.x ∧ q.y ≤ p.y :=
  Falling.head (List.Pairwise.sublist hpq.sublist h)

end Falling

/-! ## One segment -/

section Segment

variable [Field K]

/-- The line through `p` and `q`, seen from `q`. -/
def segment (p q : Point K) (x : K) : K := q.y + (p.y - q.y) * (x - q.x) / (p.x - q.x)

theorem segment_right (p q : Point K) : segment p q q.x = q.y := by
  rw [segment, sub_self, mul_zero, zero_div, add_zero]

variable [LinearOrder K] [IsStrictOrderedRing K]

theorem segment_left (hx : q.x < p.x) : segment p q p.x = p.y := by
  rw [segment, mul_div_cancel_right₀ _ (sub_pos.mpr hx).ne', add_sub_cancel]

theorem segment_mono (hx : q.x < p.x) (hy : q.y ≤ p.y) (h : x ≤ x') :
    segment p q x ≤ segment p q x' := by
  have hprod : (p.y - q.y) * (x - q.x) ≤ (p.y - q.y) * (x' - q.x) :=
    mul_le_mul_of_nonneg_left (sub_le_sub_right h q.x) (sub_nonneg.mpr hy)
  have hwidth : 0 ≤ p.x - q.x := (sub_pos.mpr hx).le
  exact add_le_add_right (div_le_div_of_nonneg_right hprod hwidth) q.y

theorem le_segment (hx : q.x < p.x) (hy : q.y ≤ p.y) (h : q.x ≤ x) : q.y ≤ segment p q x := by
  have hmono := segment_mono hx hy h
  rwa [segment_right] at hmono

theorem segment_le (hx : q.x < p.x) (hy : q.y ≤ p.y) (h : x ≤ p.x) : segment p q x ≤ p.y := by
  have hmono := segment_mono hx hy h
  rwa [segment_left hx] at hmono

end Segment

/-! ## The curve -/

section Curve

variable [Field K] [LinearOrder K]

def level : List (Point K) → K → K
  | [], _ => 0
  | [p], _ => p.y
  | p :: q :: rest, x =>
    if p.x ≤ x then p.y else if q.x ≤ x then segment p q x else level (q :: rest) x

theorem level_of_head_le (h : p.x ≤ x) : level (p :: rest) x = p.y := by
  cases rest with
  | nil => rfl
  | cons q rest => exact if_pos h

theorem level_of_segment (hp : x < p.x) (hq : q.x ≤ x) :
    level (p :: q :: rest) x = segment p q x := by
  rw [level, if_neg (not_le.mpr hp), if_pos hq]

theorem level_of_lt (hp : x < p.x) (hq : x < q.x) :
    level (p :: q :: rest) x = level (q :: rest) x := by
  rw [level, if_neg (not_le.mpr hp), if_neg (not_le.mpr hq)]

/-- At a point and left of it, what is right of the point does not matter. -/
theorem level_cons (hpq : q.x < p.x) (hx : x ≤ q.x) :
    level (p :: q :: rest) x = level (q :: rest) x := by
  rcases hx.lt_or_eq with hx | rfl
  · exact level_of_lt (hx.trans hpq) hx
  · rw [level_of_segment hpq le_rfl, segment_right, level_of_head_le le_rfl]

/-- Left of any of its points, a curve is what it is from that point on. -/
theorem level_append (front : List (Point K)) (h : Falling (front ++ p :: rest))
    (hx : x ≤ p.x) : level (front ++ p :: rest) x = level (p :: rest) x := by
  induction front with
  | nil => rfl
  | cons a front ih =>
    rw [← ih h.tail]
    cases front with
    | nil => exact level_cons h.head.1 hx
    | cons b front =>
      have hb : p.x < b.x := (List.rel_of_pairwise_cons h.tail (by simp)).1
      exact level_cons h.head.1 (hx.trans hb.le)

theorem level_of_mem (h : Falling points) (hp : p ∈ points) : level points p.x = p.y := by
  obtain ⟨front, rest, rfl⟩ := List.append_of_mem hp
  rw [level_append front h le_rfl, level_of_head_le le_rfl]

/-- Left of its last point the curve is constant. -/
theorem level_of_le_last (h : Falling points) (hp : p ∈ points.getLast?) (hx : x ≤ p.x) :
    level points x = p.y := by
  obtain ⟨front, rfl⟩ := List.getLast?_eq_some_iff.mp hp
  exact level_append front h hx

variable [IsStrictOrderedRing K]

/-- Between two adjacent points the curve is the segment. -/
theorem level_of_infix (h : Falling points) (hpq : [p, q] <:+: points) (hq : q.x ≤ x)
    (hp : x ≤ p.x) : level points x = segment p q x := by
  obtain ⟨hx, -⟩ := h.of_infix hpq
  obtain ⟨front, rest, rfl⟩ := hpq
  rw [List.append_assoc, List.cons_append, List.cons_append, List.nil_append] at h ⊢
  rw [level_append front h hp]
  rcases hp.lt_or_eq with hp | rfl
  · exact level_of_segment hp hq
  · rw [level_of_head_le le_rfl, segment_left hx]

/-- No point of the curve is above the first one. -/
theorem level_le_head (h : Falling (p :: rest)) (x : K) : level (p :: rest) x ≤ p.y := by
  induction rest generalizing p with
  | nil => exact le_rfl
  | cons q rest ih =>
    obtain ⟨hx, hy⟩ := h.head
    rcases le_or_gt p.x x with hp | hp
    · rw [level_of_head_le hp]
    · rcases le_or_gt q.x x with hq | hq
      · rw [level_of_segment hp hq]
        exact segment_le hx hy hp.le
      · rw [level_of_lt hp hq]
        exact (ih h.tail).trans hy

/-- **A falling curve is monotone**, across its segments too. -/
theorem level_mono (h : Falling points) (hx : x ≤ x') : level points x ≤ level points x' := by
  induction points with
  | nil => exact le_rfl
  | cons p points ih =>
    cases points with
    | nil => exact le_rfl
    | cons q rest =>
      obtain ⟨hpq, hy⟩ := h.head
      rcases le_or_gt p.x x' with hp' | hp'
      · rw [level_of_head_le hp']
        exact level_le_head h x
      · have hp : x < p.x := hx.trans_lt hp'
        rcases le_or_gt q.x x with hq | hq
        · rw [level_of_segment hp hq, level_of_segment hp' (hq.trans hx)]
          exact segment_mono hpq hy hx
        · rw [level_of_lt hp hq]
          rcases le_or_gt q.x x' with hq' | hq'
          · rw [level_of_segment hp' hq']
            exact (level_le_head h.tail x).trans (le_segment hpq hy hq')
          · rw [level_of_lt hp' hq']
            exact ih h.tail

end Curve

end PiecewiseLinear

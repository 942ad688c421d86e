import Mathlib.Algebra.Order.Floor.Semifield
import Mathlib.Data.Rat.Floor
import RedNodeBus.Lib.PiecewiseLinear

/-!
# The battery level

`battery_level_pptt` walks down a discharge curve to the first point at or below the
voltage, and interpolates between that point and the one before.  The loop has no bound:
it ends because the level of the last point is zero.  The interpolation is in `unsigned
int`.

The function is written over an `Arithmetic`.  `wrapping` is that of C, `checked` gives up
where a result would wrap; on a discharge curve the two agree, as any arithmetic does that
is exact where it can be (`batteryLevelPptt_eq`).  What they compute is the floor of the
piecewise linear curve through the points, and what holds of the level holds of that.
-/

namespace RedNodeBus.Battery

/-! ## The function -/

structure BatteryLevelPoint where
  lvlPptt : UInt16
  lvlMv : UInt16
deriving DecidableEq

/-- Arithmetic in `unsigned int`.  `none` ends the program; it must not where the exact
result is an `unsigned int`. -/
structure Arithmetic where
  add : UInt32 → UInt32 → Option UInt32
  sub : UInt32 → UInt32 → Option UInt32
  mul : UInt32 → UInt32 → Option UInt32
  div : UInt32 → UInt32 → Option UInt32
  add_exact : ∀ {a b}, a.toNat + b.toNat < 2 ^ 32 → add a b = some (a + b)
  sub_exact : ∀ {a b}, b ≤ a → sub a b = some (a - b)
  mul_exact : ∀ {a b}, a.toNat * b.toNat < 2 ^ 32 → mul a b = some (a * b)
  div_exact : ∀ {a b}, b ≠ 0 → div a b = some (a / b)

namespace Arithmetic

def wrapping : Arithmetic where
  add a b := some (a + b)
  sub a b := some (a - b)
  mul a b := some (a * b)
  div a b := if b = 0 then none else some (a / b)
  add_exact _ := rfl
  sub_exact _ := rfl
  mul_exact _ := rfl
  div_exact h := if_neg h

/-- The arithmetic of C, as long as nothing wraps. -/
def checked : Arithmetic where
  add a b := if a.toNat + b.toNat < 2 ^ 32 then some (a + b) else none
  sub a b := if b ≤ a then some (a - b) else none
  mul a b := if a.toNat * b.toNat < 2 ^ 32 then some (a * b) else none
  div a b := if b = 0 then none else some (a / b)
  add_exact h := if_pos h
  sub_exact h := if_pos h
  mul_exact h := if_pos h
  div_exact h := if_neg h

variable (A : Arithmetic) {m n : ℕ}

theorem add_ofNat (h : m + n < 2 ^ 32) :
    A.add (UInt32.ofNat m) (UInt32.ofNat n) = some (UInt32.ofNat (m + n)) := by
  rw [UInt32.ofNat_add]
  apply A.add_exact
  rwa [UInt32.toNat_ofNat_of_lt' ((Nat.le_add_right m n).trans_lt h),
    UInt32.toNat_ofNat_of_lt' ((Nat.le_add_left n m).trans_lt h)]

theorem sub_ofNat (hle : n ≤ m) (hm : m < 2 ^ 32) :
    A.sub (UInt32.ofNat m) (UInt32.ofNat n) = some (UInt32.ofNat (m - n)) := by
  rw [UInt32.ofNat_sub hle]
  apply A.sub_exact
  rwa [UInt32.le_iff_toNat_le, UInt32.toNat_ofNat_of_lt' (hle.trans_lt hm),
    UInt32.toNat_ofNat_of_lt' hm]

theorem mul_ofNat (hm : m < 2 ^ 32) (hn : n < 2 ^ 32) (h : m * n < 2 ^ 32) :
    A.mul (UInt32.ofNat m) (UInt32.ofNat n) = some (UInt32.ofNat (m * n)) := by
  rw [UInt32.ofNat_mul]
  apply A.mul_exact
  rwa [UInt32.toNat_ofNat_of_lt' hm, UInt32.toNat_ofNat_of_lt' hn]

theorem div_ofNat (hm : m < 2 ^ 32) (hn : n < 2 ^ 32) (h : 0 < n) :
    A.div (UInt32.ofNat m) (UInt32.ofNat n) = some (UInt32.ofNat (m / n)) := by
  rw [UInt32.ofNat_div hm hn]
  apply A.div_exact
  intro hzero
  have htoNat := congrArg UInt32.toNat hzero
  rw [UInt32.toNat_ofNat_of_lt' hn] at htoNat
  exact h.ne' htoNat

end Arithmetic

/-- The loop, with `points` from `pb` on. -/
def goDown (battMv : UInt32) (pb : ℕ) : List BatteryLevelPoint → Option ℕ
  -- a read behind the curve
  | [] => none
  | p :: points =>
    if 0 < p.lvlPptt ∧ battMv < p.lvlMv.toUInt32 then goDown battMv (pb + 1) points else some pb

/-- The point at `pb - 1`. -/
def before (curve : List BatteryLevelPoint) : ℕ → Option BatteryLevelPoint
  | 0 => none
  | pb + 1 => curve[pb]?

/-- The last expression of the function.  The differences of two points are in `int`, which
holds them, and become unsigned with the operand that is. -/
def interpolate (A : Arithmetic) (battMv : UInt32) (pa pb : BatteryLevelPoint) :
    Option UInt32 := do
  let rise ← A.sub pa.lvlPptt.toUInt32 pb.lvlPptt.toUInt32
  let excess ← A.sub battMv pb.lvlMv.toUInt32
  let product ← A.mul rise excess
  let width ← A.sub pa.lvlMv.toUInt32 pb.lvlMv.toUInt32
  let quotient ← A.div product width
  A.add pb.lvlPptt.toUInt32 quotient

def atPoint (A : Arithmetic) (battMv : UInt32) (curve : List BatteryLevelPoint) (pb : ℕ) :
    Option UInt32 := do
  let p ← curve[pb]?
  if battMv < p.lvlMv.toUInt32 then some p.lvlPptt.toUInt32
  else
    let pa ← before curve pb
    interpolate A battMv pa p

def batteryLevelPptt (A : Arithmetic) (battMv : UInt32) (curve : List BatteryLevelPoint) :
    Option UInt32 := do
  let p ← curve[0]?
  if p.lvlMv.toUInt32 ≤ battMv then some p.lvlPptt.toUInt32
  else
    let pb ← goDown battMv 0 curve
    atPoint A battMv curve pb

/-! ## Discharge curves -/

/-- Both the level and the voltage fall from point to point. -/
def Discharging (points : List BatteryLevelPoint) : Prop :=
  points.Pairwise fun pa pb => pb.lvlPptt < pa.lvlPptt ∧ pb.lvlMv < pa.lvlMv

instance (points : List BatteryLevelPoint) : Decidable (Discharging points) :=
  inferInstanceAs (Decidable (List.Pairwise _ _))

/-- A discharge curve, as `battery.h` describes it. -/
structure DischargeCurve where
  points : List BatteryLevelPoint
  discharging : Discharging points
  first : points.head?.map (·.lvlPptt) = some 10000
  last : points.getLast?.map (·.lvlPptt) = some 0

def BatteryLevelPoint.point (p : BatteryLevelPoint) : PiecewiseLinear.Point ℚ where
  x := p.lvlMv.toNat
  y := p.lvlPptt.toNat

def exactLevel (points : List BatteryLevelPoint) (battMv : UInt32) : ℚ :=
  PiecewiseLinear.level (points.map (·.point)) battMv.toNat

/-- The level of a discharge curve: the exact one, rounded down. -/
def DischargeCurve.level (curve : DischargeCurve) (battMv : UInt32) : UInt32 :=
  UInt32.ofNat ⌊exactLevel curve.points battMv⌋₊

/-! ## The function is the floor of the curve -/

section Refinement

variable {battMv : UInt32} {p pa pb : BatteryLevelPoint} {points front : List BatteryLevelPoint}

theorem Discharging.tail (h : Discharging (p :: points)) : Discharging points :=
  List.Pairwise.of_cons h

theorem Discharging.lt (h : Discharging (p :: points)) (hpb : pb ∈ points) :
    pb.lvlPptt.toNat < p.lvlPptt.toNat ∧ pb.lvlMv.toNat < p.lvlMv.toNat := by
  obtain ⟨hpptt, hmv⟩ := List.rel_of_pairwise_cons h hpb
  exact ⟨UInt16.lt_iff_toNat_lt.mp hpptt, UInt16.lt_iff_toNat_lt.mp hmv⟩

theorem Discharging.falling (h : Discharging points) :
    PiecewiseLinear.Falling (points.map (·.point)) := by
  rw [PiecewiseLinear.Falling, List.pairwise_map]
  refine List.Pairwise.imp ?_ h
  intro pa pb hlt
  obtain ⟨hpptt, hmv⟩ := hlt
  have hpptt' : pb.lvlPptt.toNat < pa.lvlPptt.toNat := UInt16.lt_iff_toNat_lt.mp hpptt
  exact ⟨Nat.cast_lt.mpr (UInt16.lt_iff_toNat_lt.mp hmv), Nat.cast_le.mpr hpptt'.le⟩

def interpolated (pa pb : BatteryLevelPoint) (battMv : UInt32) : ℕ :=
  (pa.lvlPptt.toNat - pb.lvlPptt.toNat) * (battMv.toNat - pb.lvlMv.toNat) /
    (pa.lvlMv.toNat - pb.lvlMv.toNat) + pb.lvlPptt.toNat

theorem floor_segment (hpptt : pb.lvlPptt.toNat < pa.lvlPptt.toNat)
    (hmv : pb.lvlMv.toNat < pa.lvlMv.toNat) (hlo : pb.lvlMv.toNat ≤ battMv.toNat) :
    ⌊PiecewiseLinear.segment pa.point pb.point battMv.toNat⌋₊ = interpolated pa pb battMv := by
  have hcast : PiecewiseLinear.segment pa.point pb.point battMv.toNat =
      (((pa.lvlPptt.toNat - pb.lvlPptt.toNat) * (battMv.toNat - pb.lvlMv.toNat) : ℕ) : ℚ) /
        ((pa.lvlMv.toNat - pb.lvlMv.toNat : ℕ) : ℚ) + (pb.lvlPptt.toNat : ℚ) := by
    rw [PiecewiseLinear.segment, add_comm, Nat.cast_mul, Nat.cast_sub hpptt.le, Nat.cast_sub hlo,
      Nat.cast_sub hmv.le]
    rfl
  rw [hcast, Nat.floor_add_natCast (by positivity), Nat.floor_div_eq_div, interpolated]

theorem interpolated_le (hpptt : pb.lvlPptt.toNat ≤ pa.lvlPptt.toNat)
    (hhi : battMv.toNat ≤ pa.lvlMv.toNat) : interpolated pa pb battMv ≤ pa.lvlPptt.toNat := by
  have hover : battMv.toNat - pb.lvlMv.toNat ≤ pa.lvlMv.toNat - pb.lvlMv.toNat :=
    Nat.sub_le_sub_right hhi _
  have hquotient : (pa.lvlPptt.toNat - pb.lvlPptt.toNat) * (battMv.toNat - pb.lvlMv.toNat) /
      (pa.lvlMv.toNat - pb.lvlMv.toNat) ≤ pa.lvlPptt.toNat - pb.lvlPptt.toNat := by
    apply Nat.div_le_of_le_mul
    rw [Nat.mul_comm]
    exact Nat.mul_le_mul_right _ hover
  rw [interpolated]
  omega

theorem interpolate_eq (A : Arithmetic) (hpptt : pb.lvlPptt.toNat < pa.lvlPptt.toNat)
    (hmv : pb.lvlMv.toNat < pa.lvlMv.toNat) (hmax : pa.lvlPptt.toNat ≤ 10000)
    (hlo : pb.lvlMv.toNat ≤ battMv.toNat) (hhi : battMv.toNat < pa.lvlMv.toNat) :
    interpolate A battMv pa pb = some (UInt32.ofNat (interpolated pa pb battMv)) := by
  have hmv16 : pa.lvlMv.toNat < 2 ^ 16 := pa.lvlMv.toNat_lt
  have hrise := A.sub_ofNat hpptt.le (by omega)
  have hover := A.sub_ofNat hlo (by omega)
  have hwidth := A.sub_ofNat hmv.le (by omega)
  rw [UInt32.ofNat_uInt16ToNat, UInt32.ofNat_uInt16ToNat] at hrise hwidth
  rw [UInt32.ofNat_toNat, UInt32.ofNat_uInt16ToNat] at hover
  -- at most `10000 * 65535`
  have hproduct : (pa.lvlPptt.toNat - pb.lvlPptt.toNat) * (battMv.toNat - pb.lvlMv.toNat) <
      2 ^ 32 := by
    have hrise' : pa.lvlPptt.toNat - pb.lvlPptt.toNat ≤ 10000 := by omega
    have hover' : battMv.toNat - pb.lvlMv.toNat ≤ 2 ^ 16 := by omega
    exact lt_of_le_of_lt (Nat.mul_le_mul hrise' hover') (by decide)
  have hsum := interpolated_le hpptt.le hhi.le
  rw [interpolated, Nat.add_comm] at hsum
  rw [interpolate, hrise, hover, hwidth]
  simp only [Option.bind_eq_bind, Option.bind_some]
  rw [A.mul_ofNat (by omega) (by omega) hproduct, Option.bind_some,
    A.div_ofNat hproduct (by omega) (by omega), Option.bind_some, ← UInt32.ofNat_uInt16ToNat,
    A.add_ofNat (by omega), interpolated, Nat.add_comm]

theorem lt_toUInt32 {a : UInt16} : battMv < a.toUInt32 ↔ battMv.toNat < a.toNat := by
  rw [UInt32.lt_iff_toNat_lt, UInt16.toNat_toUInt32]

/-- The function behind its loop, at the second of two points around the voltage. -/
theorem atPoint_of_le (A : Arithmetic) (h : Discharging (pa :: pb :: points))
    (hmax : pa.lvlPptt.toNat ≤ 10000) (hlo : pb.lvlMv.toNat ≤ battMv.toNat)
    (hhi : battMv.toNat < pa.lvlMv.toNat) :
    atPoint A battMv (front ++ pa :: pb :: points) (front.length + 1) =
      some (UInt32.ofNat ⌊exactLevel (pa :: pb :: points) battMv⌋₊) := by
  obtain ⟨hpptt, hmv⟩ := h.lt List.mem_cons_self
  have hpb : (front ++ pa :: pb :: points)[front.length + 1]? = some pb := by
    rw [List.getElem?_append_right (Nat.le_add_right _ _), Nat.add_sub_cancel_left]
    rfl
  have hpa : before (front ++ pa :: pb :: points) (front.length + 1) = some pa := by
    rw [before, List.getElem?_append_right le_rfl, Nat.sub_self]
    rfl
  have hsegment : exactLevel (pa :: pb :: points) battMv =
      PiecewiseLinear.segment pa.point pb.point battMv.toNat :=
    PiecewiseLinear.level_of_segment (Nat.cast_lt.mpr hhi) (Nat.cast_le.mpr hlo)
  simp only [atPoint, hpb, hpa, Option.bind_eq_bind, Option.bind_some]
  rw [if_neg (mt lt_toUInt32.mp (Nat.not_lt.mpr hlo)), interpolate_eq A hpptt hmv hmax hlo hhi,
    hsegment, floor_segment hpptt hmv hlo]

theorem goDown_bind_atPoint (A : Arithmetic) (front : List BatteryLevelPoint)
    (h : Discharging (p :: points)) (hmax : p.lvlPptt.toNat ≤ 10000)
    (hlast : (p :: points).getLast?.map (·.lvlPptt) = some 0)
    (hp : battMv.toNat < p.lvlMv.toNat) :
    (goDown battMv front.length (p :: points)).bind (atPoint A battMv (front ++ p :: points)) =
      some (UInt32.ofNat ⌊exactLevel (p :: points) battMv⌋₊) := by
  have hlt := lt_toUInt32.mpr hp
  induction points generalizing front p with
  | nil =>
    -- the level of the last point stops the loop
    have hzero : p.lvlPptt = 0 := Option.some.inj hlast
    have hstop : ¬ (0 < p.lvlPptt ∧ battMv < p.lvlMv.toUInt32) := by
      rw [hzero]
      exact fun hpos => absurd hpos.1 (by decide)
    rw [goDown, if_neg hstop, Option.bind_some, atPoint, List.getElem?_append_right le_rfl,
      Nat.sub_self]
    simp [hlt, hzero, exactLevel, PiecewiseLinear.level, BatteryLevelPoint.point]
  | cons q points ih =>
    obtain ⟨hpptt, hmv⟩ := h.lt List.mem_cons_self
    have hpos : 0 < p.lvlPptt := UInt16.lt_iff_toNat_lt.mpr (Nat.zero_lt_of_lt hpptt)
    rw [goDown, if_pos ⟨hpos, hlt⟩]
    rcases Nat.lt_or_ge battMv.toNat q.lvlMv.toNat with hq | hq
    · have hlevel : exactLevel (p :: q :: points) battMv = exactLevel (q :: points) battMv :=
        PiecewiseLinear.level_of_lt (Nat.cast_lt.mpr hp) (Nat.cast_lt.mpr hq)
      have hnext := ih (front ++ [p]) h.tail (hpptt.le.trans hmax) hlast hq
        (lt_toUInt32.mpr hq)
      rw [List.length_append, List.length_singleton, List.append_assoc,
        List.singleton_append] at hnext
      rw [hlevel]
      exact hnext
    · have hstop : ¬ (0 < q.lvlPptt ∧ battMv < q.lvlMv.toUInt32) :=
        fun hgo => Nat.not_lt.mpr hq (lt_toUInt32.mp hgo.2)
      rw [goDown, if_neg hstop, Option.bind_some]
      exact atPoint_of_le A h hmax hq hp

/-- **The function computes the level**, whatever arithmetic it is given. -/
theorem batteryLevelPptt_eq (A : Arithmetic) (battMv : UInt32) (curve : DischargeCurve) :
    batteryLevelPptt A battMv curve.points = some (curve.level battMv) := by
  obtain ⟨points, h, hfirst, hlast⟩ := curve
  cases points with
  | nil => cases hfirst
  | cons p points =>
    have hmax : p.lvlPptt = 10000 := Option.some.inj hfirst
    simp only [batteryLevelPptt, List.getElem?_cons_zero, Option.bind_eq_bind, Option.bind_some]
    rcases Nat.lt_or_ge battMv.toNat p.lvlMv.toNat with hp | hp
    · rw [if_neg (UInt32.not_le.mpr (lt_toUInt32.mpr hp))]
      exact goDown_bind_atPoint A [] h (by rw [hmax]; decide) hlast hp
    · rw [if_pos (UInt32.not_lt.mp (mt lt_toUInt32.mp (Nat.not_lt.mpr hp)))]
      have hlevel : exactLevel (p :: points) battMv = (p.lvlPptt.toNat : ℚ) :=
        PiecewiseLinear.level_of_head_le (Nat.cast_le.mpr hp)
      rw [DischargeCurve.level, hlevel, Nat.floor_natCast, UInt32.ofNat_uInt16ToNat]

example : batteryLevelPptt .wrapping 3599
    (DischargeCurve.mk [⟨10000, 3950⟩, ⟨625, 3550⟩, ⟨0, 3100⟩] (by decide) rfl rfl).points =
      some 1773 := by
  decide +kernel

end Refinement

/-! ## What holds of the level -/

/-- What a level function for a curve does. -/
structure Follows (curve : DischargeCurve) (level : UInt32 → UInt32) : Prop where
  /-- At a point of the curve it is the point's own level. -/
  point : ∀ p ∈ curve.points, level p.lvlMv.toUInt32 = p.lvlPptt.toUInt32
  /-- Between adjacent points it is the interpolation, rounded down. -/
  between : ∀ pa pb, [pa, pb] <:+: curve.points → ∀ battMv : UInt32,
    pb.lvlMv.toNat ≤ battMv.toNat → battMv.toNat ≤ pa.lvlMv.toNat →
    ((level battMv).toNat : ℤ) =
      ⌊(pb.lvlPptt.toNat : ℚ) + ((pa.lvlPptt.toNat : ℚ) - pb.lvlPptt.toNat) *
        ((battMv.toNat : ℚ) - pb.lvlMv.toNat) / ((pa.lvlMv.toNat : ℚ) - pb.lvlMv.toNat)⌋
  /-- Above the curve it is full. -/
  above : ∀ p ∈ curve.points.head?, ∀ battMv : UInt32, p.lvlMv.toNat ≤ battMv.toNat →
    level battMv = 10000
  /-- Below the curve it is empty. -/
  below : ∀ p ∈ curve.points.getLast?, ∀ battMv : UInt32, battMv.toNat ≤ p.lvlMv.toNat →
    level battMv = 0
  /-- It never falls as the voltage rises. -/
  mono : ∀ battMv battMv' : UInt32, battMv ≤ battMv' → level battMv ≤ level battMv'

namespace DischargeCurve

variable (curve : DischargeCurve)

theorem lvlPptt_of_head {p : BatteryLevelPoint} (hp : p ∈ curve.points.head?) :
    p.lvlPptt = 10000 := by
  have hfirst := curve.first
  rw [Option.mem_def.mp hp] at hfirst
  exact Option.some.inj hfirst

theorem lvlPptt_of_getLast {p : BatteryLevelPoint} (hp : p ∈ curve.points.getLast?) :
    p.lvlPptt = 0 := by
  have hlast := curve.last
  rw [Option.mem_def.mp hp] at hlast
  exact Option.some.inj hlast

theorem exactLevel_le (battMv : UInt32) : exactLevel curve.points battMv ≤ 10000 := by
  cases hpoints : curve.points with
  | nil =>
    have hfirst := curve.first
    rw [hpoints] at hfirst
    cases hfirst
  | cons p points =>
    have hfalling := curve.discharging.falling
    rw [hpoints] at hfalling
    have hmax : p.lvlPptt = 10000 := curve.lvlPptt_of_head (by rw [hpoints]; rfl)
    have hhead : p.point.y = 10000 := by
      rw [BatteryLevelPoint.point, hmax]
      rfl
    rw [← hhead]
    exact PiecewiseLinear.level_le_head hfalling _

theorem toNat_level (battMv : UInt32) :
    (curve.level battMv).toNat = ⌊exactLevel curve.points battMv⌋₊ := by
  have hle : ⌊exactLevel curve.points battMv⌋₊ ≤ 10000 :=
    Nat.floor_le_of_le (curve.exactLevel_le battMv)
  exact UInt32.toNat_ofNat_of_lt' (hle.trans_lt (by decide))

/-- Where the exact level is that of a point, so is the level. -/
theorem level_of_exactLevel {p : BatteryLevelPoint} {battMv : UInt32}
    (h : exactLevel curve.points battMv = p.point.y) :
    curve.level battMv = p.lvlPptt.toUInt32 := by
  rw [level, h, BatteryLevelPoint.point, Nat.floor_natCast, UInt32.ofNat_uInt16ToNat]

theorem level_of_mem {p : BatteryLevelPoint} (hp : p ∈ curve.points) :
    curve.level p.lvlMv.toUInt32 = p.lvlPptt.toUInt32 := by
  apply level_of_exactLevel
  rw [exactLevel, UInt16.toNat_toUInt32]
  exact PiecewiseLinear.level_of_mem curve.discharging.falling (List.mem_map_of_mem hp)

theorem level_of_infix {pa pb : BatteryLevelPoint} (h : [pa, pb] <:+: curve.points)
    {battMv : UInt32} (hlo : pb.lvlMv.toNat ≤ battMv.toNat)
    (hhi : battMv.toNat ≤ pa.lvlMv.toNat) :
    ((curve.level battMv).toNat : ℤ) =
      ⌊PiecewiseLinear.segment pa.point pb.point battMv.toNat⌋ := by
  have hfalling := curve.discharging.falling
  have hpoints := h.map BatteryLevelPoint.point
  have hlevel : exactLevel curve.points battMv =
      PiecewiseLinear.segment pa.point pb.point battMv.toNat :=
    PiecewiseLinear.level_of_infix hfalling hpoints (Nat.cast_le.mpr hlo) (Nat.cast_le.mpr hhi)
  obtain ⟨hx, hy⟩ := hfalling.of_infix hpoints
  have hnonneg : 0 ≤ PiecewiseLinear.segment pa.point pb.point battMv.toNat :=
    (Nat.cast_nonneg _).trans (PiecewiseLinear.le_segment hx hy (Nat.cast_le.mpr hlo))
  rw [toNat_level, hlevel, Int.natCast_floor_eq_floor hnonneg]

theorem level_of_head_le {p : BatteryLevelPoint} (hp : p ∈ curve.points.head?) {battMv : UInt32}
    (h : p.lvlMv.toNat ≤ battMv.toNat) : curve.level battMv = 10000 := by
  have hlevel : exactLevel curve.points battMv = p.point.y := by
    obtain ⟨points, hpoints⟩ := List.head?_eq_some_iff.mp hp
    rw [exactLevel, hpoints]
    exact PiecewiseLinear.level_of_head_le (Nat.cast_le.mpr h)
  rw [curve.level_of_exactLevel hlevel, curve.lvlPptt_of_head hp]
  rfl

theorem level_of_le_last {p : BatteryLevelPoint} (hp : p ∈ curve.points.getLast?)
    {battMv : UInt32} (h : battMv.toNat ≤ p.lvlMv.toNat) : curve.level battMv = 0 := by
  have hlast : p.point ∈ (curve.points.map (·.point)).getLast? := by
    rw [List.getLast?_map, Option.mem_def.mp hp]
    rfl
  have hlevel : exactLevel curve.points battMv = p.point.y :=
    PiecewiseLinear.level_of_le_last curve.discharging.falling hlast (Nat.cast_le.mpr h)
  rw [curve.level_of_exactLevel hlevel, curve.lvlPptt_of_getLast hp]
  rfl

/-- The level never falls as the voltage rises: the exact one does not, and rounding down
keeps the order. -/
theorem level_mono {battMv battMv' : UInt32} (h : battMv ≤ battMv') :
    curve.level battMv ≤ curve.level battMv' := by
  rw [UInt32.le_iff_toNat_le] at h ⊢
  rw [toNat_level, toNat_level]
  apply Nat.floor_mono
  exact PiecewiseLinear.level_mono curve.discharging.falling (Nat.cast_le.mpr h)

theorem follows_level : Follows curve curve.level where
  point _ hp := curve.level_of_mem hp
  between _ _ h _ hlo hhi := curve.level_of_infix h hlo hhi
  above _ hp _ h := curve.level_of_head_le hp h
  below _ hp _ h := curve.level_of_le_last hp h
  mono _ _ h := curve.level_mono h

end DischargeCurve

/-- **The battery level is a faithful, monotone interpolation**: on every discharge curve and
for every voltage the function returns, nothing it computes wraps, and the level follows the
curve. -/
theorem batteryLevelPptt_follows (curve : DischargeCurve) :
    (∀ battMv, batteryLevelPptt .wrapping battMv curve.points = some (curve.level battMv)) ∧
    (∀ battMv, batteryLevelPptt .checked battMv curve.points = some (curve.level battMv)) ∧
    Follows curve curve.level :=
  ⟨fun battMv => batteryLevelPptt_eq .wrapping battMv curve,
    fun battMv => batteryLevelPptt_eq .checked battMv curve, curve.follows_level⟩

end RedNodeBus.Battery

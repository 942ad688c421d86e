import Mathlib.Algebra.Order.Ring.Nat
import Mathlib.Data.Int.ModEq

/-!
# Dividing a negative number that has wrapped

Machine code that divides `-n` in an unsigned type of `M` values divides `M - n` instead.
`sub_div` says what the quotient is: that of `M` less that of `n`, and less one where the
remainders do not subtract.  `bmod_div_eq_neg_iff` then says when a narrower signed type of
`w` values shows `-(n / d)` all the same: when the surplus is a multiple of `w`.

The last two lemmas read Lean's conversions between machine integers in these terms.
-/

namespace RedNodeBus.WrappedDiv

/-- What subtracting `n` before the division borrows from the quotient. -/
def borrow (M d n : ℕ) : ℕ := if M % d < n % d then 1 else 0

theorem borrow_le (M d n : ℕ) : borrow M d n ≤ 1 := by
  rw [borrow]
  split <;> omega

theorem sub_div {M d n : ℕ} (hd : 0 < d) (hn : n ≤ M) :
    (M - n) / d + n / d + borrow M d n = M / d := by
  have hsum : M / d = (M - n) / d + n / d + if d ≤ (M - n) % d + n % d then 1 else 0 := by
    rw [← Nat.add_div hd, Nat.sub_add_cancel hn]
  have hmod : M % d = ((M - n) % d + n % d) % d := by
    rw [← Nat.add_mod, Nat.sub_add_cancel hn]
  have hlt : (M - n) % d < d := Nat.mod_lt _ hd
  have hlt' : n % d < d := Nat.mod_lt _ hd
  rw [hsum, borrow]
  by_cases hc : d ≤ (M - n) % d + n % d
  · have hred : M % d = (M - n) % d + n % d - d := by
      rw [hmod, Nat.mod_eq_sub_mod hc, Nat.mod_eq_of_lt (by omega)]
    rw [if_pos hc, if_pos (by omega)]
  · have hred : M % d = (M - n) % d + n % d := by
      rw [hmod, Nat.mod_eq_of_lt (by omega)]
    rw [if_neg hc, if_neg (by omega)]

/-- **When a wrapped quotient is right.** -/
theorem bmod_div_eq_neg_iff {M w d n : ℕ} (hw : 1 < w) (hd : 0 < d) (hn : n ≤ M)
    (hlo : -((w : ℤ) / 2) ≤ -((n / d : ℕ) : ℤ)) (hhi : -((n / d : ℕ) : ℤ) < ((w : ℤ) + 1) / 2) :
    (((M - n) / d : ℕ) : ℤ).bmod w = -((n / d : ℕ) : ℤ) ↔ M / d % w = borrow M d n := by
  have hsub := sub_div hd hn
  have hb := borrow_le M d n
  revert hsub hb hlo hhi
  generalize (M - n) / d = x, n / d = k, M / d = q, borrow M d n = ε
  intro hlo hhi hsub hb
  have hε : ε ≤ q := by omega
  have hdiff : -(k : ℤ) - (x : ℤ) = -((q - ε : ℕ) : ℤ) := by omega
  have hdvd : w ∣ q - ε ↔ q % w = ε := by
    rw [← Nat.modEq_iff_dvd' hε, Nat.ModEq, Nat.mod_eq_of_lt (by omega), eq_comm]
  rw [Int.bmod_eq_iff (by omega), hdiff, Int.dvd_neg, Int.natCast_dvd_natCast, hdvd]
  exact ⟨fun h => h.2.2, fun h => ⟨hlo, hhi, h⟩⟩

theorem toInt_toInt32 (x : UInt32) : x.toInt32.toInt = (x.toNat : ℤ).bmod (2 ^ 32) :=
  BitVec.toInt_eq_toNat_bmod x.toBitVec

theorem toNat_toUInt64 (x : Int32) : (x.toInt64.toUInt64.toNat : ℤ) = x.toInt % 2 ^ 64 := by
  rw [← Int32.toInt_toInt64]
  have hbmod : x.toInt64.toInt = (x.toInt64.toUInt64.toNat : ℤ).bmod (2 ^ 64) :=
    BitVec.toInt_eq_toNat_bmod x.toInt64.toBitVec
  have hlt : x.toInt64.toUInt64.toNat < 2 ^ 64 := UInt64.toNat_lt_size _
  rw [hbmod]
  have hred := Int.bmod_emod (m := 2 ^ 64) (x := x.toInt64.toUInt64.toNat)
  omega

end RedNodeBus.WrappedDiv

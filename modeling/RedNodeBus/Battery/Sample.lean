import RedNodeBus.Lib.WrappedDiv

/-!
# The battery voltage

`battery_sample` scales the millivolts at the divider's output up to those of the battery:
`val * (uint64_t)dcp->full_ohm / dcp->output_ohm`.  The cast makes the whole expression
unsigned.  A `val` that is not negative comes out right (`quotient_of_nonneg`), but `-1` is
`2 ^ 64 - 1` there, and what `int` then shows of the quotient is right only where
`2 ^ 64 / output_ohm` happens to vanish in 32 bits (`quotient_of_neg_iff`).
-/

namespace RedNodeBus.Battery

/-- `struct divider_config`, less its pins. -/
structure DividerConfig where
  /-- Zero if the battery is connected to the converter directly. -/
  outputOhm : UInt32
  fullOhm : UInt32

/-- `struct divider_data`: the result buffer and the flag of the ADC sequence. -/
structure DividerData where
  raw : Int16
  calibrate : Bool
deriving DecidableEq

/-- The statics of the driver. -/
structure Driver where
  batteryOk : Bool
  dividerData : DividerData
deriving DecidableEq

/-- What `adc_read` returns, and what it leaves in the buffer. -/
structure AdcRead where
  rc : Int32
  raw : Int16

def enoent : Int32 := -2

/-- `val * (uint64_t)dcp->full_ohm / dcp->output_ohm`, as an `int` -/
def quotient (dcp : DividerConfig) (val : Int32) : Int32 :=
  -- the cast of one operand takes the signed one along
  (val.toInt64.toUInt64 * dcp.fullOhm.toUInt64 / dcp.outputOhm.toUInt64).toUInt32.toInt32

def batterySample (dcp : DividerConfig) (adcRawToMillivolts : Int32 → Int32) (adc : AdcRead)
    (b : Driver) : Int32 × Driver :=
  if b.batteryOk then
    let b := { b with dividerData := { raw := adc.raw, calibrate := false } }
    if adc.rc = 0 then
      let val := adcRawToMillivolts adc.raw.toInt32
      if dcp.outputOhm ≠ 0 then (quotient dcp val, b) else (val, b)
    else (adc.rc, b)
  else (enoent, b)

/-- The voltage of the battery: over the integers, truncated toward zero. -/
def voltage (dcp : DividerConfig) (val : Int32) : ℤ :=
  (val.toInt * (dcp.fullOhm.toNat : ℤ)).tdiv (dcp.outputOhm.toNat : ℤ)

/-- `n` is the value of an `int`. -/
def FitsInt (n : ℤ) : Prop := -2 ^ 31 ≤ n ∧ n < 2 ^ 31

instance (n : ℤ) : Decidable (FitsInt n) := inferInstanceAs (Decidable (_ ∧ _))

/-- What the wrapped quotient has over the right one vanishes in 32 bits. -/
def SurplusVanishes (dcp : DividerConfig) (val : Int32) : Prop :=
  2 ^ 64 / dcp.outputOhm.toNat % 2 ^ 32 =
    WrappedDiv.borrow (2 ^ 64) dcp.outputOhm.toNat (val.toInt.natAbs * dcp.fullOhm.toNat)

instance (dcp : DividerConfig) (val : Int32) : Decidable (SurplusVanishes dcp val) :=
  inferInstanceAs (Decidable (_ = _))

section Quotient

variable {dcp : DividerConfig} {val : Int32}

theorem scaled_lt (dcp : DividerConfig) (val : Int32) :
    val.toInt.natAbs * dcp.fullOhm.toNat < 2 ^ 63 := by
  have hval : val.toInt.natAbs ≤ 2 ^ 31 := by
    have hle := Int32.le_toInt val
    have hlt := Int32.toInt_lt val
    omega
  have hfull : dcp.fullOhm.toNat < 2 ^ 32 := UInt32.toNat_lt_size _
  calc val.toInt.natAbs * dcp.fullOhm.toNat
      ≤ 2 ^ 31 * dcp.fullOhm.toNat := Nat.mul_le_mul_right _ hval
    _ < 2 ^ 31 * 2 ^ 32 := Nat.mul_lt_mul_of_pos_left hfull (by decide)
    _ = 2 ^ 63 := by decide

/-- The quotient, with the product reduced to 64 bits before the division. -/
theorem quotient_toInt (dcp : DividerConfig) (val : Int32) :
    (quotient dcp val).toInt =
      ((((val.toInt * (dcp.fullOhm.toNat : ℤ)) % 2 ^ 64).toNat / dcp.outputOhm.toNat : ℕ) :
        ℤ).bmod (2 ^ 32) := by
  have hval := WrappedDiv.toNat_toUInt64 val
  have hprod : (val.toInt64.toUInt64 * dcp.fullOhm.toUInt64).toNat =
      ((val.toInt * (dcp.fullOhm.toNat : ℤ)) % 2 ^ 64).toNat := by
    rw [UInt64.toNat_mul, UInt32.toNat_toUInt64]
    have hemod : ((val.toInt64.toUInt64.toNat * dcp.fullOhm.toNat % 2 ^ 64 : ℕ) : ℤ) =
        (val.toInt * (dcp.fullOhm.toNat : ℤ)) % 2 ^ 64 := by
      rw [Int.natCast_mod, Int.natCast_mul, hval]
      exact (Int.mod_modEq _ _).mul_right _
    omega
  rw [quotient, WrappedDiv.toInt_toInt32, UInt64.toNat_toUInt32, UInt64.toNat_div, hprod,
    UInt32.toNat_toUInt64, Int.natCast_mod]
  exact Int.emod_bmod _ _

theorem quotient_of_nonneg (hval : 0 ≤ val.toInt) (hfits : FitsInt (voltage dcp val)) :
    (quotient dcp val).toInt = voltage dcp val := by
  obtain ⟨v, hv⟩ := Int.eq_ofNat_of_zero_le hval
  have hlt := scaled_lt dcp val
  have hprod : ((val.toInt * (dcp.fullOhm.toNat : ℤ)) % 2 ^ 64).toNat =
      v * dcp.fullOhm.toNat := by
    rw [hv, Int.natAbs_natCast] at hlt
    rw [hv, ← Int.natCast_mul]
    omega
  have hvolt : voltage dcp val = ((v * dcp.fullOhm.toNat / dcp.outputOhm.toNat : ℕ) : ℤ) := by
    rw [voltage, hv, ← Int.natCast_mul]
    rfl
  obtain ⟨hlo, hhi⟩ := hfits
  rw [quotient_toInt, hprod, ← hvolt]
  exact Int.bmod_eq_of_le (by omega) (by omega)

/-- **What becomes of a negative reading.** -/
theorem quotient_of_neg_iff (hval : val.toInt < 0) (hout : 0 < dcp.outputOhm.toNat)
    (hfull : 0 < dcp.fullOhm.toNat) (hfits : FitsInt (voltage dcp val)) :
    (quotient dcp val).toInt = voltage dcp val ↔ SurplusVanishes dcp val := by
  obtain ⟨hlo, hhi⟩ := hfits
  have hlt := scaled_lt dcp val
  have hpos : 0 < val.toInt.natAbs * dcp.fullOhm.toNat := Nat.mul_pos (by omega) hfull
  have hneg : val.toInt * (dcp.fullOhm.toNat : ℤ) =
      -((val.toInt.natAbs * dcp.fullOhm.toNat : ℕ) : ℤ) := by
    rw [Int.natCast_mul, ← Int.neg_mul]
    congr 1
    omega
  have hprod : ((val.toInt * (dcp.fullOhm.toNat : ℤ)) % 2 ^ 64).toNat =
      2 ^ 64 - val.toInt.natAbs * dcp.fullOhm.toNat := by
    rw [hneg]
    omega
  have hvolt : voltage dcp val =
      -((val.toInt.natAbs * dcp.fullOhm.toNat / dcp.outputOhm.toNat : ℕ) : ℤ) := by
    rw [voltage, hneg, Int.neg_tdiv]
    rfl
  rw [quotient_toInt, hprod, hvolt]
  rw [hvolt] at hlo hhi
  exact WrappedDiv.bmod_div_eq_neg_iff (by decide) hout (by omega) (by omega) (by omega)

end Quotient

/-- What `battery_sample` returns where the converter was read. -/
theorem batterySample_fst {dcp : DividerConfig} {adc : AdcRead} {b : Driver}
    (hok : b.batteryOk = true) (hrc : adc.rc = 0) (hout : 0 < dcp.outputOhm)
    (adcRawToMillivolts : Int32 → Int32) :
    (batterySample dcp adcRawToMillivolts adc b).1 =
      quotient dcp (adcRawToMillivolts adc.raw.toInt32) := by
  have hne : dcp.outputOhm ≠ 0 := (UInt32.ne_of_lt hout).symm
  simp only [batterySample, hok, if_true, hrc, if_pos hne]

/-- **When the battery voltage is exact.**  A reading that is not negative is always scaled
right.  A negative one is where the scaled value fits an `int` just if the surplus of the
wrapped quotient vanishes. -/
theorem batterySample_exact_iff (dcp : DividerConfig) (adcRawToMillivolts : Int32 → Int32)
    (adc : AdcRead) (b : Driver) (hok : b.batteryOk = true) (hrc : adc.rc = 0)
    (hout : 0 < dcp.outputOhm) (hfull : dcp.outputOhm ≤ dcp.fullOhm) :
    (FitsInt (voltage dcp (adcRawToMillivolts adc.raw.toInt32)) →
        (batterySample dcp adcRawToMillivolts adc b).1.toInt =
          voltage dcp (adcRawToMillivolts adc.raw.toInt32)) ↔
      0 ≤ (adcRawToMillivolts adc.raw.toInt32).toInt ∨
        ¬ FitsInt (voltage dcp (adcRawToMillivolts adc.raw.toInt32)) ∨
        SurplusVanishes dcp (adcRawToMillivolts adc.raw.toInt32) := by
  have hout' : 0 < dcp.outputOhm.toNat := UInt32.lt_iff_toNat_lt.mp hout
  have hfull' : 0 < dcp.fullOhm.toNat :=
    Nat.lt_of_lt_of_le hout' (UInt32.le_iff_toNat_le.mp hfull)
  rw [batterySample_fst hok hrc hout]
  generalize adcRawToMillivolts adc.raw.toInt32 = val
  rcases lt_or_ge val.toInt 0 with hval | hval
  · constructor
    · intro h
      refine Or.inr ?_
      by_cases hfits : FitsInt (voltage dcp val)
      · exact Or.inr ((quotient_of_neg_iff hval hout' hfull' hfits).mp (h hfits))
      · exact Or.inl hfits
    · rintro (hnonneg | hwide | hvanish) hfits
      · exact absurd hnonneg (not_le.mpr hval)
      · exact absurd hfits hwide
      · exact (quotient_of_neg_iff hval hout' hfull' hfits).mpr hvanish
  · exact ⟨fun _ => Or.inl hval, fun _ hfits => quotient_of_nonneg hval hfits⟩

/-- The divider of the `rnl_w1` boards. -/
def rnlW1 : DividerConfig where
  outputOhm := 180000
  fullOhm := 1680000

theorem rnlW1_not_surplusVanishes (val : Int32) : ¬ SurplusVanishes rnlW1 val := by
  intro hvanish
  have hb := WrappedDiv.borrow_le (2 ^ 64) 180000 (val.toInt.natAbs * 1680000)
  have hsurplus : 1 < 2 ^ 64 / 180000 % 2 ^ 32 := by decide
  exact absurd (Nat.lt_of_lt_of_eq hsurplus hvanish) (Nat.not_lt.mpr hb)

/-- `adc_raw_to_millivolts` at the internal reference of 600 mV, gain 1 and 14 bits -/
def millivolts (raw : Int32) : Int32 := (raw * 600) >>> 14

/-- The driver after a successful `battery_setup`. -/
def Driver.setUp : Driver where
  batteryOk := true
  dividerData := { raw := 0, calibrate := true }

theorem batterySample_exact_iff_rnlW1 :
    (FitsInt (voltage rnlW1 (millivolts (Int16.toInt32 820))) →
        (batterySample rnlW1 millivolts ⟨0, 820⟩ .setUp).1.toInt =
          voltage rnlW1 (millivolts (Int16.toInt32 820))) ↔
      0 ≤ (millivolts (Int16.toInt32 820)).toInt ∨
        ¬ FitsInt (voltage rnlW1 (millivolts (Int16.toInt32 820))) ∨
        SurplusVanishes rnlW1 (millivolts (Int16.toInt32 820)) :=
  batterySample_exact_iff rnlW1 millivolts ⟨0, 820⟩ .setUp rfl rfl (by decide) (by decide)

/-- A raw result of `-1` is `-9` mV at the battery; `battery_sample` returns `-303129257`. -/
theorem batterySample_minus_one :
    voltage rnlW1 (millivolts (Int16.toInt32 (-1))) = -9 ∧
      (batterySample rnlW1 millivolts ⟨0, -1⟩ .setUp).1.toInt = -303129257 ∧
      ¬ (FitsInt (voltage rnlW1 (millivolts (Int16.toInt32 (-1)))) →
        (batterySample rnlW1 millivolts ⟨0, -1⟩ .setUp).1.toInt =
          voltage rnlW1 (millivolts (Int16.toInt32 (-1)))) := by
  decide +kernel

end RedNodeBus.Battery

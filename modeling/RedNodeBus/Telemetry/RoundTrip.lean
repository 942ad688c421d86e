import Mathlib.Data.Rat.Cast.Defs
import RedNodeBus.Telemetry.ArrivalOrder

/-!
# What the scripts read is what was measured

The samples fill a buffer of 32-bit words, and the scripts cut the payload into pieces of
their own: eight bytes for the EUID, four for the session value, four for the counter, and
words of four bytes, which are signed, for the rest.  The pieces fit: the two words of the
EUID are the eight bytes (`ofLe_slice_words`), and each of the others is a word
(`slice_words`).

A buffer that `init_app` has stamped is read right whatever the sample has put in it before
(`Accelerometer.Stamped.read`, `BatteryClient.Stamped.read`), so every packet of every run
is (`packets_decode`).
-/

namespace RedNodeBus.Telemetry

open Bytes Hex

/-- The measurement: both words are signed. -/
def SensorValue.value (v : SensorValue) : ℚ :=
  (v.val1.toInt32.toInt : ℚ) + (v.val2.toInt32.toInt : ℚ) / 10 ^ 6

/-- The text is the number in hexadecimal digits, in upper case. -/
structure IsUpperHex (n : ℕ) (text : String) : Prop where
  value : readHex? text.toList = some n
  upper : ∀ c ∈ text.toList, c.isDigit ∨ c.isUpper

namespace Script

theorem isUpperHex_hexKey (n : ℕ) : IsUpperHex n (hexKey n) := by
  constructor
  · have hpad : hexPad 0 n = upperHex n := by rw [hexPad, List.leftpad, Nat.zero_sub]; rfl
    rw [hexKey, String.toList_ofList, ← hpad, readHex_hexPad]
  · intro c hc
    rw [hexKey, String.toList_ofList] at hc
    obtain ⟨d, hd, rfl⟩ := mem_upperHex hc
    have hdigit : ∀ d < 16, (hexChar d).isDigit ∨ (hexChar d).isUpper := by decide
    exact hdigit d hd

theorem axis_value (v : SensorValue) :
    axis v.val1.toInt32.toInt v.val2.toInt32.toInt = v.value := by
  rw [axis, SensorValue.value]
  norm_num

theorem word_words {n : ℕ} (ws : Vector UInt32 n) {i : ℕ} (h : 4 + i < n) :
    word (words ws.toList) i = some ws[4 + i].toInt32.toInt := by
  have hlen : 16 + 4 * i < (words ws.toList).length := by
    rw [length_words, Vector.length_toList]
    omega
  have hslice := slice_words_toList ws h
  rw [Nat.mul_add] at hslice
  rw [word, if_pos hlen]
  exact congrArg some ((congrArg ofLeSigned hslice).trans (ofLeSigned_le32 _))

end Script

section

variable {euid : Euid} {sessionRand : UInt32}

/-- What `accelerometer.py` reads in a packet with the measurements of `o`. -/
theorem Accelerometer.Stamped.read {s : Accelerometer}
    (h : Accelerometer.Stamped euid sessionRand s) (o : Fetch) :
    Script.accelerometer.read (s.putReading o).packet =
      some ⟨Script.hexKey euid.val.toNat, sessionRand.toNat, s.packetsSent.toNat,
        (o.x.value, o.y.value, o.z.value)⟩ := by
  have hpacket := (h.putReading o).packet
  have hctr : (s.putReading o).packetBuffer[3] = s.packetsSent := by
    simp [Accelerometer.putReading]
  have hword : ∀ i (hi : 4 + i < 10), Script.word (s.putReading o).packet i =
      some ((s.putReading o).packetBuffer[4 + i]).toInt32.toInt := by
    intro i hi
    exact Script.word_words _ hi
  have haxes : Script.axes (s.putReading o).packet =
      some (o.x.value, o.y.value, o.z.value) := by
    simp only [Script.axes, hword 0 (by decide), hword 1 (by decide), hword 2 (by decide),
      hword 3 (by decide), hword 4 (by decide), hword 5 (by decide), Option.bind_some,
      Option.map_some, ← Script.axis_value]
    simp [Accelerometer.putReading]
  simp only [Script.accelerometer, haxes, hpacket.euid, hpacket.sessionRand, hpacket.ctr, hctr,
    ofLe_le32, Option.map_some]

/-- What `battery.py` reads in a packet with the voltage. -/
theorem BatteryClient.Stamped.read {s : BatteryClient}
    (h : BatteryClient.Stamped euid sessionRand s) (battMv : Int32) :
    Script.battery.read (s.putMv battMv).putCounter.packet =
      some ⟨Script.hexKey euid.val.toNat, sessionRand.toNat, s.packetsSent.toNat,
        battMv.toInt⟩ := by
  have hpacket := (h.putMv battMv).putCounter.packet
  have hctr : (s.putMv battMv).putCounter.packetBuffer[3] = s.packetsSent := by
    simp [BatteryClient.putMv, BatteryClient.putCounter]
  have hmv : (s.putMv battMv).putCounter.packetBuffer[4] = battMv.toUInt32 := by
    simp [BatteryClient.putMv, BatteryClient.putCounter]
  have hword : Script.word (s.putMv battMv).putCounter.packet 0 =
      some ((s.putMv battMv).putCounter.packetBuffer[4]).toInt32.toInt :=
    Script.word_words _ (by decide)
  rw [hmv, Int32.toInt32_toUInt32] at hword
  simp only [Script.battery, hword, hpacket.euid, hpacket.sessionRand, hpacket.ctr, hctr,
    ofLe_le32, Option.map_some]

end

/-- The accelerometer client from `init_app` on. -/
def Accelerometer.machine (euid : Euid) (sessionRand : UInt32) :
    Machine Accelerometer Accelerometer.Act where
  init := initApp euid sessionRand
  step := step

/-- The battery client from `init_app` on. -/
def BatteryClient.machine (euid : Euid) (sessionRand : UInt32) :
    Machine BatteryClient BatteryClient.Act where
  init := initApp euid sessionRand
  step := step

theorem Accelerometer.stamped_of_reachable {euid : Euid} {sessionRand : UInt32}
    {s : Accelerometer} (h : (machine euid sessionRand).Reachable s) :
    Stamped euid sessionRand s :=
  Machine.reachable_invariant (stamped_initApp euid sessionRand) (fun _ _ _ hs => hs.step) h

theorem BatteryClient.stamped_of_reachable {euid : Euid} {sessionRand : UInt32}
    {s : BatteryClient} (h : (machine euid sessionRand).Reachable s) :
    Stamped euid sessionRand s :=
  Machine.reachable_invariant (stamped_initApp euid sessionRand) (fun _ _ _ hs => hs.step) h

/-- **The packets decode to what was encoded**: the EUID in its digits, which tell it from
any other, the session value, the counter, and the measurements; for all values of these,
and in every state of a run. -/
theorem packets_decode :
    (∀ euid : Euid, IsUpperHex euid.val.toNat (Script.hexKey euid.val.toNat)) ∧
    (Function.Injective fun euid : Euid => Script.hexKey euid.val.toNat) ∧
    (∀ (euid : Euid) (sessionRand ctr : UInt32) (o : Fetch),
      let s : Accelerometer := { Accelerometer.initApp euid sessionRand with packetsSent := ctr }
      Script.accelerometer.read (s.putReading o).packet =
        some ⟨Script.hexKey euid.val.toNat, sessionRand.toNat, ctr.toNat,
          (o.x.value, o.y.value, o.z.value)⟩) ∧
    (∀ (euid : Euid) (sessionRand ctr : UInt32) (battMv : Int32),
      let s : BatteryClient := { BatteryClient.initApp euid sessionRand with packetsSent := ctr }
      Script.battery.read (s.putMv battMv).putCounter.packet =
        some ⟨Script.hexKey euid.val.toNat, sessionRand.toNat, ctr.toNat, battMv.toInt⟩) ∧
    (∀ (euid : Euid) (sessionRand : UInt32) (s : Accelerometer) (o : Fetch),
      (Accelerometer.machine euid sessionRand).Reachable s →
      Script.accelerometer.read (s.putReading o).packet =
        some ⟨Script.hexKey euid.val.toNat, sessionRand.toNat, s.packetsSent.toNat,
          (o.x.value, o.y.value, o.z.value)⟩) ∧
    (∀ (euid : Euid) (sessionRand : UInt32) (s : BatteryClient) (battMv : Int32),
      (BatteryClient.machine euid sessionRand).Reachable s →
      Script.battery.read (s.putMv battMv).putCounter.packet =
        some ⟨Script.hexKey euid.val.toNat, sessionRand.toNat, s.packetsSent.toNat,
          battMv.toInt⟩) := by
  refine ⟨fun euid => Script.isUpperHex_hexKey _, Script.battery_reads.injective, ?_, ?_, ?_, ?_⟩
  · intro euid sessionRand ctr o
    have h : Accelerometer.Stamped euid sessionRand
        { Accelerometer.initApp euid sessionRand with packetsSent := ctr } := ⟨rfl, rfl, rfl⟩
    exact h.read o
  · intro euid sessionRand ctr battMv
    have h : BatteryClient.Stamped euid sessionRand
        { BatteryClient.initApp euid sessionRand with packetsSent := ctr } := ⟨rfl, rfl, rfl⟩
    exact h.read battMv
  · intro euid sessionRand s o hs
    exact (Accelerometer.stamped_of_reachable hs).read o
  · intro euid sessionRand s battMv hs
    exact (BatteryClient.stamped_of_reachable hs).read battMv

/-- The first packet of a session. -/
theorem packets_decode_first :
    Script.battery.read
        ((BatteryClient.initApp batteryEuid 7).putMv 3700).putCounter.packet =
      some ⟨Script.hexKey batteryEuid.val.toNat, 7, 0, (3700 : ℤ)⟩ :=
  packets_decode.2.2.2.2.2 batteryEuid 7 _ 3700 ⟨[], rfl⟩

end RedNodeBus.Telemetry

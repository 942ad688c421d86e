import RedNodeBus.Telemetry.Sender
import RedNodeBus.Utils.Node

/-!
# The packets of accelerometer

The packet is `packet_buffer`, ten words: the two of the EUID, the session value, the
counter, and the two of each axis.  `init_app` writes the first three, and
`fetch_and_display`, which the sensor triggers, the others.  It counts the packet after
`send_udp_data` returned `0`.
-/

namespace RedNodeBus.Telemetry

open Bytes RedNodeBus.Utils

/-- `struct sensor_value`, the bits of its two words. -/
structure SensorValue where
  val1 : UInt32
  val2 : UInt32
  deriving DecidableEq

/-- What the calls of `fetch_and_display` return, and `accel` after them. -/
structure Fetch where
  sensorSampleFetch : Int
  sensorChannelGet : Int
  x : SensorValue
  y : SensorValue
  z : SensorValue
  send : Int

/-- The data of the sample. -/
structure Accelerometer where
  packetBuffer : Vector UInt32 10
  count : UInt32
  packetsSent : UInt32
  /-- `start_client` has run. -/
  started : Bool
  /-- `sensor_trigger_set` has succeeded. -/
  triggered : Bool

namespace Accelerometer

def initApp (euid : Euid) (sessionRand : UInt32) : Accelerometer where
  packetBuffer :=
    #v[euid.val.toUInt32, (euid.val >>> 32).toUInt32, sessionRand, 0, 0, 0, 0, 0, 0, 0]
  count := 0
  packetsSent := 0
  started := false
  triggered := false

/-- The return code before the test: an overrun is none, and `sensor_channel_get` is called
after a fetch that returned `0`. -/
def rc (o : Fetch) : Int :=
  let rc := if o.sensorSampleFetch = -77 then 0 else o.sensorSampleFetch
  if rc = 0 then o.sensorChannelGet else rc

def putReading (o : Fetch) (s : Accelerometer) : Accelerometer :=
  { s with packetBuffer := s.packetBuffer
            |>.set 3 s.packetsSent
            |>.set 4 o.x.val1
            |>.set 5 o.x.val2
            |>.set 6 o.y.val1
            |>.set 7 o.y.val2
            |>.set 8 o.z.val1
            |>.set 9 o.z.val2 }

def fetchAndDisplay (o : Fetch) (s : Accelerometer) : Accelerometer :=
  let s := { s with count := s.count + 1 }
  if rc o < 0 then s
  else
    let s := s.putReading o
    if sendUdpData o.send = 0 then { s with packetsSent := s.packetsSent + 1 } else s

/-- `start_client` runs once: the role it tests, what `start_udp` returns, whether the
sensor is found and ready, and what `sensor_trigger_set` returns.  Then the trigger. -/
inductive Act
  | startClient (rnbRole : UserRole) (ret : Int) (found ready : Bool) (triggerSet : Int)
  | trigger (o : Fetch)

def step (s : Accelerometer) : Act → Option Accelerometer
  | .startClient rnbRole ret found ready triggerSet =>
    if s.started then none
    else some { s with
      started := true
      triggered := rnbRole = .tag ∧ ret = 0 ∧ found ∧ ready ∧ triggerSet = 0 }
  | .trigger o => if s.triggered then some (s.fetchAndDisplay o) else none

/-- `packet_buffer` in memory. -/
def packet (s : Accelerometer) : List UInt8 := words s.packetBuffer.toList

/-- The datagram that `send` accepts in a step. -/
def sentUdp (s : Accelerometer) : Act → Option (List UInt8)
  | .startClient .. => none
  | .trigger o => if rc o < 0 ∨ o.send < 0 then none else some (s.putReading o).packet

/-- `send` is called in a step, and fails. -/
def sendFails : Act → Bool
  | .startClient .. => false
  | .trigger o => ¬ rc o < 0 ∧ o.send < 0

def sender : Sender where
  State := Accelerometer
  Act := Act
  initApp := initApp
  step := step
  sent := sentUdp

end Accelerometer

/-! ## The packets -/

/-- A packet of the sample. -/
structure AccelerometerPacket (euid : Euid) (sessionRand ctr : UInt32) (packet : List UInt8) :
    Prop where
  length : packet.length = 40
  euid : ofLe (slice 0 8 packet) = euid.val.toNat
  sessionRand : slice 8 4 packet = le32 sessionRand
  ctr : slice 12 4 packet = le32 ctr

namespace Accelerometer

/-- The buffer after `init_app`. -/
structure Stamped (euid : Euid) (sessionRand : UInt32) (s : Accelerometer) : Prop where
  low : s.packetBuffer[0] = euid.val.toUInt32
  high : s.packetBuffer[1] = (euid.val >>> 32).toUInt32
  sessionRand : s.packetBuffer[2] = sessionRand

variable {euid : Euid} {sessionRand : UInt32} {s s' : Accelerometer} {o : Fetch}

theorem stamped_initApp (euid : Euid) (sessionRand : UInt32) :
    Stamped euid sessionRand (initApp euid sessionRand) := ⟨rfl, rfl, rfl⟩

theorem Stamped.putReading (h : Stamped euid sessionRand s) (o : Fetch) :
    Stamped euid sessionRand (s.putReading o) := by
  refine ⟨?_, ?_, ?_⟩
  · rw [← h.low]
    simp [Accelerometer.putReading]
  · rw [← h.high]
    simp [Accelerometer.putReading]
  · rw [← h.sessionRand]
    simp [Accelerometer.putReading]

theorem Stamped.packet (h : Stamped euid sessionRand s) :
    AccelerometerPacket euid sessionRand s.packetBuffer[3] s.packet := by
  refine ⟨?_, ?_, ?_, ?_⟩
  · rw [Accelerometer.packet, length_words, Vector.length_toList]
  · exact ofLe_slice_words (by simp) h.low h.high
  · rw [← h.sessionRand]
    exact slice_words_toList s.packetBuffer (i := 2) (by decide)
  · exact slice_words_toList s.packetBuffer (i := 3) (by decide)

/-! ## The client numbers its packets -/

theorem Stamped.fetchAndDisplay (h : Stamped euid sessionRand s) (o : Fetch) :
    Stamped euid sessionRand (s.fetchAndDisplay o) := by
  have hcount : Stamped euid sessionRand { s with count := s.count + 1 } :=
    ⟨h.low, h.high, h.sessionRand⟩
  rw [Accelerometer.fetchAndDisplay]
  split
  · exact hcount
  · have hput := hcount.putReading o
    split
    · exact ⟨hput.low, hput.high, hput.sessionRand⟩
    · exact hput

/-- A pass counts the packet exactly if `send` is called and succeeds. -/
theorem packetsSent_fetchAndDisplay (s : Accelerometer) (o : Fetch) :
    (s.fetchAndDisplay o).packetsSent =
      if rc o < 0 ∨ o.send < 0 then s.packetsSent else s.packetsSent + 1 := by
  by_cases hrc : rc o < 0
  · rw [fetchAndDisplay, if_pos hrc, if_pos (.inl hrc)]
  · by_cases hsend : o.send < 0
    · have hret : sendUdpData o.send ≠ 0 := by
        rw [sendUdpData, if_pos hsend]
        decide
      rw [fetchAndDisplay, if_neg hrc, if_neg hret, if_pos (.inr hsend)]
      rfl
    · have hret : sendUdpData o.send = 0 := if_neg hsend
      rw [fetchAndDisplay, if_neg hrc, if_pos hret, if_neg (not_or.mpr ⟨hrc, hsend⟩)]
      rfl

theorem Stamped.step {a : Act} (h : Stamped euid sessionRand s) (hs : s.step a = some s') :
    Stamped euid sessionRand s' := by
  cases a with
  | startClient rnbRole ret found ready triggerSet =>
    obtain ⟨-, hs'⟩ := Option.ite_none_left_eq_some.mp hs
    cases hs'
    exact ⟨h.low, h.high, h.sessionRand⟩
  | trigger o =>
    obtain ⟨-, hs'⟩ := Option.ite_none_right_eq_some.mp hs
    cases hs'
    exact h.fetchAndDisplay o

theorem packetsSent_of_quiet {a : Act} (hs : s.step a = some s') (hsent : s.sentUdp a = none) :
    s'.packetsSent = s.packetsSent := by
  cases a with
  | startClient rnbRole ret found ready triggerSet =>
    obtain ⟨-, hs'⟩ := Option.ite_none_left_eq_some.mp hs
    cases hs'
    rfl
  | trigger o =>
    obtain ⟨-, hs'⟩ := Option.ite_none_right_eq_some.mp hs
    cases hs'
    have hfail : rc o < 0 ∨ o.send < 0 := by
      by_contra hfail
      rw [sentUdp, if_neg hfail] at hsent
      cases hsent
    rw [packetsSent_fetchAndDisplay, if_pos hfail]

theorem packetsSent_of_sent {a : Act} {payload : List UInt8} (h : Stamped euid sessionRand s)
    (hs : s.step a = some s') (hsent : s.sentUdp a = some payload) :
    AccelerometerPacket euid sessionRand s.packetsSent payload ∧
      s'.packetsSent = s.packetsSent + 1 := by
  cases a with
  | startClient rnbRole ret found ready triggerSet => cases hsent
  | trigger o =>
    obtain ⟨hok, hpayload⟩ := Option.ite_none_left_eq_some.mp hsent
    obtain ⟨-, hs'⟩ := Option.ite_none_right_eq_some.mp hs
    cases hs'
    cases hpayload
    have hctr : (s.putReading o).packetBuffer[3] = s.packetsSent := by simp [putReading]
    have hpacket := (h.putReading o).packet
    rw [hctr] at hpacket
    rw [packetsSent_fetchAndDisplay, if_neg hok]
    exact ⟨hpacket, rfl⟩

/-- The buffer stays stamped, and the counter is the number of packets sent. -/
def numbers : sender.Numbers AccelerometerPacket where
  R euid sessionRand n (s : Accelerometer) := Stamped euid sessionRand s ∧ s.packetsSent = n
  initApp euid sessionRand := ⟨stamped_initApp euid sessionRand, rfl⟩
  quiet := by
    intro euid sessionRand n s a s' hR hstep hsent
    obtain ⟨hs, hn⟩ := hR
    exact ⟨hs.step hstep, (packetsSent_of_quiet hstep hsent).trans hn⟩
  sends := by
    intro euid sessionRand n s a s' payload hR hstep hsent
    obtain ⟨hs, hn⟩ := hR
    have hpacket := packetsSent_of_sent hs hstep hsent
    rw [hn] at hpacket
    exact ⟨hpacket.1, hs.step hstep, hpacket.2⟩

end Accelerometer

end RedNodeBus.Telemetry

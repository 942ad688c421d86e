import RedNodeBus.Telemetry.Sender

/-!
# The packets of battery

The packet is `packet_buffer`, five words: the two of the EUID, the session value, the
counter and the voltage.  `init_app` writes the first three, `battery_send_value` the last
one, and `send_udp_data` the counter.

Here it is `send_udp_data` that counts, and it does so whatever `send` returned.  So the
counter is not the number of packets sent but that of the calls (`packetsSent_of_sends`).
-/

namespace RedNodeBus.Telemetry

open Bytes

/-- A packet of the battery sample. -/
structure BatteryPacket (euid : Euid) (sessionRand ctr : UInt32) (packet : List UInt8) :
    Prop where
  length : packet.length = 20
  euid : ofLe (slice 0 8 packet) = euid.val.toNat
  sessionRand : slice 8 4 packet = le32 sessionRand
  ctr : slice 12 4 packet = le32 ctr

/-- The data of the sample. -/
structure BatteryClient where
  packetBuffer : Vector UInt32 5
  packetsSent : UInt32
  /-- `start_udp` has returned. -/
  started : Bool
  /-- The loop of `start_client` is running. -/
  looping : Bool

namespace BatteryClient

def packetLen : ℕ := 20

/-- `conf.ipv6.udp.mtu`. -/
def mtuSize : ℕ := 1280

/-- The loop of `send_udp_data`; `none` if it never ends. -/
def transmitting : Option ℕ :=
  if packetLen = 0 ∨ mtuSize < packetLen then none else some packetLen

def initApp (euid : Euid) (sessionRand : UInt32) : BatteryClient where
  packetBuffer := #v[euid.val.toUInt32, (euid.val >>> 32).toUInt32, sessionRand, 0, 0]
  packetsSent := 0
  started := false
  looping := false

/-- The word that `battery_send_value` writes. -/
def putMv (battMv : Int32) (s : BatteryClient) : BatteryClient :=
  { s with packetBuffer := s.packetBuffer.set 4 battMv.toUInt32 }

/-- The word that `send_udp_data` writes. -/
def putCounter (s : BatteryClient) : BatteryClient :=
  { s with packetBuffer := s.packetBuffer.set 3 s.packetsSent }

/-- `packet_buffer` in memory. -/
def packet (s : BatteryClient) : List UInt8 := words s.packetBuffer.toList

/-- What `send_udp_data` leaves.  Neither the counter nor the caller asks what `send`
returned. -/
def afterSendUdpData (s : BatteryClient) : Option BatteryClient :=
  transmitting.map fun _ =>
    let s := s.putCounter
    { s with packetsSent := s.packetsSent + 1 }

/-- What `start_udp` returns, or a pass of the loop to its sleep: what
`battery_measure_enable`, `battery_sample` and `send` return in it. -/
inductive Act
  | start (ret : Int)
  | pass (measureEnable : Int) (battMv : Int32) (ret : Int)

/-- `start_client`. -/
def step (s : BatteryClient) : Act → Option BatteryClient
  | .start ret => if s.started then none else some { s with started := true, looping := ret = 0 }
  | .pass measureEnable battMv _ =>
    if s.looping then
      if measureEnable ≠ 0 then some { s with looping := false }
      else if battMv < 0 then some s
      else (s.putMv battMv).afterSendUdpData
    else none

/-- A pass calls `send`. -/
def sends : Act → Prop
  | .start _ => False
  | .pass measureEnable battMv _ => measureEnable = 0 ∧ ¬ battMv < 0

/-- The datagram that `send` accepts in a step. -/
def sentUdp (s : BatteryClient) : Act → Option (List UInt8)
  | .start _ => none
  | .pass measureEnable battMv ret =>
    if measureEnable ≠ 0 ∨ battMv < 0 ∨ ret < 0 then none
    else transmitting.map fun transmitting => (s.putMv battMv).putCounter.packet.take transmitting

/-- `send` is called in a step, and fails. -/
def sendFails : Act → Bool
  | .start _ => false
  | .pass measureEnable battMv ret => measureEnable = 0 ∧ ¬ battMv < 0 ∧ ret < 0

def sender : Sender where
  State := BatteryClient
  Act := Act
  initApp := initApp
  step := step
  sent := sentUdp

/-! ## The packets -/

/-- The buffer after `init_app`. -/
structure Stamped (euid : Euid) (sessionRand : UInt32) (s : BatteryClient) : Prop where
  low : s.packetBuffer[0] = euid.val.toUInt32
  high : s.packetBuffer[1] = (euid.val >>> 32).toUInt32
  sessionRand : s.packetBuffer[2] = sessionRand

variable {euid : Euid} {sessionRand : UInt32} {s s' : BatteryClient} {battMv : Int32}

theorem stamped_initApp (euid : Euid) (sessionRand : UInt32) :
    Stamped euid sessionRand (initApp euid sessionRand) := ⟨rfl, rfl, rfl⟩

theorem Stamped.set (h : Stamped euid sessionRand s) {i : ℕ} (hi : i < 5) (h3 : 3 ≤ i)
    (w : UInt32) :
    Stamped euid sessionRand { s with packetBuffer := s.packetBuffer.set i w } := by
  refine ⟨?_, ?_, ?_⟩
  · rw [← h.low]
    exact Vector.getElem_set_ne hi _ (by omega)
  · rw [← h.high]
    exact Vector.getElem_set_ne hi _ (by omega)
  · rw [← h.sessionRand]
    exact Vector.getElem_set_ne hi _ (by omega)

theorem Stamped.putMv (h : Stamped euid sessionRand s) (battMv : Int32) :
    Stamped euid sessionRand (s.putMv battMv) := h.set (by decide) (by decide) _

theorem Stamped.putCounter (h : Stamped euid sessionRand s) :
    Stamped euid sessionRand s.putCounter := h.set (by decide) (by decide) _

theorem length_packet (s : BatteryClient) : s.packet.length = packetLen := by
  rw [packet, length_words, Vector.length_toList]
  rfl

theorem Stamped.packet (h : Stamped euid sessionRand s) :
    BatteryPacket euid sessionRand s.packetBuffer[3] s.packet := by
  refine ⟨s.length_packet, ?_, ?_, ?_⟩
  · exact ofLe_slice_words (by simp) h.low h.high
  · rw [← h.sessionRand]
    exact slice_words_toList s.packetBuffer (i := 2) (by decide)
  · exact slice_words_toList s.packetBuffer (i := 3) (by decide)

/-! ## The client numbers its calls -/

theorem transmitting_eq : transmitting = some packetLen := by decide

/-- What a step does: it leaves the packets alone, or it calls `send`. -/
theorem step_cases {a : Act} (hs : s.step a = some s') :
    (¬ sends a ∧ s'.packetBuffer = s.packetBuffer ∧ s'.packetsSent = s.packetsSent) ∨
    ∃ measureEnable battMv ret, a = .pass measureEnable battMv ret ∧ sends a ∧
      s' = { (s.putMv battMv).putCounter with packetsSent := s.packetsSent + 1 } := by
  cases a with
  | start ret =>
    obtain ⟨-, hs'⟩ := Option.ite_none_left_eq_some.mp hs
    cases hs'
    exact .inl ⟨id, rfl, rfl⟩
  | pass measureEnable battMv ret =>
    obtain ⟨-, hs'⟩ := Option.ite_none_right_eq_some.mp hs
    by_cases hme : measureEnable = 0
    · rw [if_neg (not_not.mpr hme)] at hs'
      by_cases hmv : battMv < 0
      · rw [if_pos hmv] at hs'
        cases hs'
        exact .inl ⟨fun hsends => hsends.2 hmv, rfl, rfl⟩
      · rw [if_neg hmv, afterSendUdpData, transmitting_eq, Option.map_some] at hs'
        cases hs'
        exact .inr ⟨measureEnable, battMv, ret, rfl, ⟨hme, hmv⟩, rfl⟩
    · rw [if_pos hme] at hs'
      cases hs'
      exact .inl ⟨fun hsends => hme hsends.1, rfl, rfl⟩

theorem Stamped.step {a : Act} (h : Stamped euid sessionRand s) (hs : s.step a = some s') :
    Stamped euid sessionRand s' := by
  rcases step_cases hs with ⟨-, hbuffer, -⟩ | ⟨measureEnable, battMv, ret, -, -, rfl⟩
  · refine ⟨?_, ?_, ?_⟩
    · rw [hbuffer, h.low]
    · rw [hbuffer, h.high]
    · rw [hbuffer, h.sessionRand]
  · have hput := (h.putMv battMv).putCounter
    exact ⟨hput.low, hput.high, hput.sessionRand⟩

/-- A step that calls `send` counts, whatever comes of it. -/
theorem packetsSent_of_sends {a : Act} (hs : s.step a = some s') (ha : sends a) :
    s'.packetsSent = s.packetsSent + 1 := by
  rcases step_cases hs with ⟨hquiet, -, -⟩ | ⟨measureEnable, battMv, ret, -, -, rfl⟩
  · exact absurd ha hquiet
  · rfl

theorem packetsSent_of_not_sends {a : Act} (hs : s.step a = some s') (ha : ¬ sends a) :
    s'.packetsSent = s.packetsSent := by
  rcases step_cases hs with ⟨-, -, hcount⟩ | ⟨measureEnable, battMv, ret, -, hsends, -⟩
  · exact hcount
  · exact absurd hsends ha

/-- What `send` accepts is the buffer with the voltage and the counter in it. -/
theorem sentUdp_eq_some {a : Act} {payload : List UInt8} (h : s.sentUdp a = some payload) :
    sends a ∧ ∃ battMv, payload = (s.putMv battMv).putCounter.packet := by
  cases a with
  | start ret => cases h
  | pass measureEnable battMv ret =>
    obtain ⟨hok, hpayload⟩ := Option.ite_none_left_eq_some.mp h
    rw [not_or, not_or, not_not] at hok
    rw [transmitting_eq, Option.map_some, Option.some.injEq,
      List.take_of_length_le (length_packet _).le] at hpayload
    exact ⟨⟨hok.1, hok.2.1⟩, battMv, hpayload.symm⟩

theorem sends_of_sendFails {a : Act} (h : sendFails a = true) : sends a := by
  cases a with
  | start ret => cases h
  | pass measureEnable battMv ret =>
    obtain ⟨hme, hmv, -⟩ := of_decide_eq_true h
    exact ⟨hme, hmv⟩

/-- A step that calls `send` has a datagram accepted, or the call fails. -/
theorem not_sends_of_quiet {a : Act} (hsent : s.sentUdp a = none) (h : sendFails a = false) :
    ¬ sends a := by
  intro hsends
  cases a with
  | start ret => exact hsends
  | pass measureEnable battMv ret =>
    obtain ⟨hme, hmv⟩ := hsends
    have hret : ¬ ret < 0 := fun hret => of_decide_eq_false h ⟨hme, hmv, hret⟩
    rw [sentUdp, if_neg (by simp [hme, hmv, hret]), transmitting_eq] at hsent
    cases hsent

/-- The packet that `send` accepts has the number of the call. -/
theorem packet_of_sent {a : Act} {payload : List UInt8} (h : Stamped euid sessionRand s)
    (hsent : s.sentUdp a = some payload) :
    BatteryPacket euid sessionRand s.packetsSent payload := by
  obtain ⟨-, battMv, rfl⟩ := sentUdp_eq_some hsent
  have hpacket := (h.putMv battMv).putCounter.packet
  have hctr : (s.putMv battMv).putCounter.packetBuffer[3] = s.packetsSent := by
    simp [putMv, putCounter]
  rwa [hctr] at hpacket

end BatteryClient

end RedNodeBus.Telemetry

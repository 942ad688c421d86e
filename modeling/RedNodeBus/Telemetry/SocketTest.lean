import RedNodeBus.Lib.Hex
import RedNodeBus.Telemetry.Sender

/-!
# The packets of socket_test

The sample sends the first 40 bytes of `lorem_ipsum`.  `init_app` prints the EUID over the
beginning of the text, in a field of `UID_CHARS = 12` characters, and copies the session
value behind the field; each pass of the loop copies the counter behind that.

The format is `%04X%04X`, for the upper two and the lower four bytes of the EUID.  The
lower word is printed in four to eight digits, so the field is filled exactly if the word
has eight (`uid_exact_iff`).  Otherwise it is cut short by the terminating zero, and the
rest is what was there before.  Distinct EUIDs have distinct fields all the same
(`uidField_injective`): the upper word has four digits, and the zero ends the lower one.
-/

namespace RedNodeBus.Telemetry

open Bytes Hex

/-! ## The buffer -/

/-- `lorem_ipsum`: the first of its lines.  Nothing behind it is ever read or written. -/
def loremIpsum : List UInt8 :=
  asciiBytes "Lorem ipsum dolor sit amet, consectetur adipiscing elit. Quisque ".toList

/-- `sizeof(lorem_ipsum) - 1`, all lines counted. -/
def ipsumLen : ℕ := 1162

def uidChars : ℕ := 12

def sessionRandChars : ℕ := 4

def udpTransmissionBytes : ℕ := 40

def transmitting : ℕ := udpTransmissionBytes % ipsumLen

/-- What `sprintf` prints for `%04X%04X`, `(uint32_t)(euid >> 32)` and `(uint32_t)euid`. -/
def uidText (euid : Euid) : List Char :=
  hexPad 4 (euid.val >>> 32).toUInt32.toNat ++ hexPad 4 euid.val.toUInt32.toNat

/-- The buffer as `init_app` and `init_app_rnb` leave it: `sprintf` ends its text with a
zero, and `session_rand` is copied behind the field. -/
def stampedBuffer (euid : Euid) (sessionRand : UInt32) : List UInt8 :=
  writeAt uidChars (le32 sessionRand) (writeAt 0 (asciiBytes (uidText euid) ++ [0]) loremIpsum)

/-! ## The clients -/

/-- The data of a client thread.  `userPayload` is the RNB client's. -/
structure SocketTest where
  loremIpsum : List UInt8
  packetsSent : UInt32
  userPayload : List UInt8
  /-- The inner loop is running: the start function returned `0`. -/
  started : Bool

namespace SocketTest

def initApp (euid : Euid) (sessionRand : UInt32) : SocketTest where
  loremIpsum := stampedBuffer euid sessionRand
  packetsSent := 0
  userPayload := []
  started := false

def initAppRnb (mtu : ℕ) (euid : Euid) (sessionRand : UInt32) : SocketTest where
  loremIpsum := stampedBuffer euid sessionRand
  packetsSent := 0
  userPayload := List.replicate mtu 0
  started := false

/-- The counter is copied behind the session value. -/
def putCounter (s : SocketTest) : SocketTest :=
  { s with loremIpsum := writeAt (uidChars + sessionRandChars) (le32 s.packetsSent) s.loremIpsum }

/-- The packet is copied to `user_payload`. -/
def putUserPayload (s : SocketTest) : SocketTest :=
  { s with userPayload := writeAt 0 (s.loremIpsum.take transmitting) s.userPayload }

/-- `packets_sent` after a send that returned `rc`. -/
def count (rc : Int) (s : SocketTest) : SocketTest :=
  { s with packetsSent := if rc < 0 then s.packetsSent else s.packetsSent + 1 }

/-- `send_rnb_data`, when the driver returns `ret`. -/
def sendRnbData (mtu : ℕ) (ret : Int) : Int :=
  let ret := if transmitting = 0 ∨ mtu < transmitting then -22 else ret
  if ret < 0 then -5 else 0

/-- The start function returns, or a pass of the inner loop runs to its sleep, in which
`send` or the driver returns `ret`. -/
inductive Act
  | start (ret : Int)
  | pass (ret : Int)

/-- `start_client`.  `iterations` is `0`, so both loops are endless; when `start_udp`
fails, the outer one calls it again. -/
def startClient (s : SocketTest) : Act → Option SocketTest
  | .start ret => if s.started then none else some { s with started := ret = 0 }
  | .pass ret => if s.started then some (s.putCounter.count (sendUdpData ret)) else none

/-- `start_client_rnb`; `start_rnb_user_payload` returns `0`. -/
def startClientRnb (mtu : ℕ) (s : SocketTest) : Act → Option SocketTest
  | .start _ => if s.started then none else some { s with started := true }
  | .pass ret =>
    if s.started then some (s.putCounter.putUserPayload.count (sendRnbData mtu ret)) else none

/-- The bytes a pass gives to `send`. -/
def udpPacket (s : SocketTest) : List UInt8 := s.putCounter.loremIpsum.take transmitting

/-- The bytes a pass gives to `send_rnb_data`. -/
def rnbPacket (s : SocketTest) : List UInt8 :=
  s.putCounter.putUserPayload.userPayload.take transmitting

end SocketTest

/-- The two clients; the RNB one with the length of `user_payload`. -/
inductive SocketTestClient
  | udp
  | rnb (mtu : ℕ)

namespace SocketTestClient

/-- A client thread from `init_app` or `init_app_rnb` on. -/
def machine (c : SocketTestClient) (euid : Euid) (sessionRand : UInt32) :
    Machine SocketTest SocketTest.Act :=
  match c with
  | .udp => ⟨.initApp euid sessionRand, SocketTest.startClient⟩
  | .rnb mtu => ⟨.initAppRnb mtu euid sessionRand, SocketTest.startClientRnb mtu⟩

def packet (c : SocketTestClient) (s : SocketTest) : List UInt8 :=
  match c with
  | .udp => s.udpPacket
  | .rnb _ => s.rnbPacket

end SocketTestClient

/-- The packet says what it should: the field is the EUID in twelve digits and reads back
as the EUID, and the session value and the counter stand behind it. -/
structure PacketExact (euid : Euid) (sessionRand ctr : UInt32) (packet : List UInt8) : Prop where
  uid : slice 0 uidChars packet = asciiBytes (hexPad uidChars euid.val.toNat)
  decoded : (decodeUtf8 (slice 0 uidChars packet)).bind (fun text => readHex? text.toList) =
    some euid.val.toNat
  sessionRand : ofLe (slice uidChars sessionRandChars packet) = sessionRand.toNat
  ctr : ofLe (slice (uidChars + sessionRandChars) 4 packet) = ctr.toNat

/-! ## The field -/

def oldField : List Char := ['L', 'o', 'r', 'e', 'm', ' ', 'i', 'p', 's', 'u', 'm', ' ']

/-- What is in the field: the text, its terminating zero, and what is left of the text
before. -/
def uidField (euid : Euid) : List Char :=
  (uidText euid ++ [Char.ofNat 0] ++ oldField.drop ((uidText euid).length + 1)).take uidChars

theorem length_loremIpsum : loremIpsum.length = 65 := by decide +kernel

theorem slice_loremIpsum : slice 0 uidChars loremIpsum = asciiBytes oldField := by decide +kernel

theorem uidText_eq (euid : Euid) :
    uidText euid = hexPad 4 (euid.val.toNat / 2 ^ 32) ++ hexPad 4 (euid.val.toNat % 2 ^ 32) := by
  have hlt := euid.lt
  have hhigh : (euid.val >>> 32).toUInt32.toNat = euid.val.toNat / 2 ^ 32 := by
    rw [UInt64.toNat_toUInt32, UInt64.toNat_shiftRight, Nat.shiftRight_eq_div_pow]
    show euid.val.toNat / 2 ^ 32 % 2 ^ 32 = euid.val.toNat / 2 ^ 32
    exact Nat.mod_eq_of_lt (by omega)
  rw [uidText, hhigh, UInt64.toNat_toUInt32]

theorem length_high (euid : Euid) : (hexPad 4 (euid.val.toNat / 2 ^ 32)).length = 4 := by
  have hlt := euid.lt
  exact length_hexPad_of_lt (by decide) (by omega)

theorem length_uidText (euid : Euid) : (uidText euid).length ≤ uidChars := by
  have hlow : (hexPad 4 (euid.val.toNat % 2 ^ 32)).length ≤ 8 :=
    (length_hexPad_le (by decide) (by decide)).mpr (by omega)
  rw [uidText_eq, List.length_append, length_high, uidChars]
  omega

theorem uidText_ascii (euid : Euid) : ∀ c ∈ uidText euid, c.toNat < 128 ∧ c.toNat ≠ 0 := by
  intro c hc
  rcases List.mem_append.mp hc with hc | hc
  · obtain ⟨d, hd, rfl⟩ := mem_hexPad hc
    exact hexChar_ascii d hd
  · obtain ⟨d, hd, rfl⟩ := mem_hexPad hc
    exact hexChar_ascii d hd

theorem uidText_injective : Function.Injective uidText := by
  intro e e' h
  rw [uidText_eq, uidText_eq] at h
  obtain ⟨hhigh, hlow⟩ := List.append_inj h (by rw [length_high, length_high])
  have hh := hexPad_injective 4 hhigh
  have hl := hexPad_injective 4 hlow
  have hval : e.val.toNat = e'.val.toNat := by
    rw [← Nat.div_add_mod e.val.toNat (2 ^ 32), hh, hl, Nat.div_add_mod]
  cases e
  cases e'
  congr 1
  exact UInt64.toNat_inj.mp hval

theorem uidField_of_length {euid : Euid} (h : (uidText euid).length = uidChars) :
    uidField euid = uidText euid := by
  rw [uidField, List.append_assoc, List.take_left' h]

theorem uidField_of_lt {euid : Euid} (h : (uidText euid).length < uidChars) :
    ∃ rest, uidField euid = uidText euid ++ Char.ofNat 0 :: rest := by
  obtain ⟨k, hk⟩ := Nat.exists_eq_add_of_lt h
  rw [uidField, List.append_assoc, List.take_append, List.take_of_length_le h.le, hk,
    Nat.add_assoc, Nat.add_sub_cancel_left]
  exact ⟨_, rfl⟩

theorem takeWhile_uidField (euid : Euid) :
    (uidField euid).takeWhile (·.toNat ≠ 0) = uidText euid := by
  have htext : ∀ c ∈ uidText euid, decide (c.toNat ≠ 0) = true :=
    fun c hc => decide_eq_true (uidText_ascii euid c hc).2
  rcases Nat.eq_or_lt_of_le (length_uidText euid) with h | h
  · rw [uidField_of_length h]
    have happ : (uidText euid ++ []).takeWhile (·.toNat ≠ 0) = uidText euid ++ [].takeWhile _ :=
      List.takeWhile_append_of_pos htext
    rwa [List.append_nil, List.takeWhile_nil, List.append_nil] at happ
  · obtain ⟨rest, hrest⟩ := uidField_of_lt h
    rw [hrest, List.takeWhile_append_of_pos htext, List.takeWhile_cons_of_neg (by decide),
      List.append_nil]

theorem uidField_injective : Function.Injective uidField := by
  intro e e' h
  apply uidText_injective
  rw [← takeWhile_uidField e, ← takeWhile_uidField e', h]

theorem uidField_ascii (euid : Euid) : ∀ c ∈ uidField euid, c.toNat < 128 := by
  intro c hc
  rcases List.mem_append.mp (List.mem_of_mem_take hc) with hc | hc
  · rcases List.mem_append.mp hc with hc | hc
    · exact (uidText_ascii euid c hc).1
    · rw [List.mem_singleton.mp hc]
      decide
  · have hold : ∀ c ∈ oldField, c.toNat < 128 := by simp [oldField]
    exact hold c (List.mem_of_mem_drop hc)

/-- The field is the EUID in twelve digits exactly if the lower word has eight. -/
theorem uidField_eq_iff (euid : Euid) :
    asciiBytes (uidField euid) = asciiBytes (hexPad uidChars euid.val.toNat) ↔
      2 ^ 28 ≤ euid.val.toNat % 2 ^ 32 := by
  have hlen := length_uidText euid
  constructor
  · intro h
    by_contra hlow
    have hshort : (uidText euid).length < uidChars := by
      have hlow8 : (hexPad 4 (euid.val.toNat % 2 ^ 32)).length ≤ 7 :=
        (length_hexPad_le (by decide) (by decide)).mpr (by omega)
      rw [uidText_eq, List.length_append, length_high, uidChars]
      omega
    obtain ⟨rest, hrest⟩ := uidField_of_lt hshort
    have hzero : (0 : UInt8) ∈ asciiBytes (hexPad uidChars euid.val.toNat) := by
      rw [← h, hrest]
      exact List.mem_map.mpr ⟨Char.ofNat 0, by simp, rfl⟩
    obtain ⟨c, hc, hc0⟩ := List.mem_map.mp hzero
    obtain ⟨d, hd, rfl⟩ := mem_hexPad hc
    have hdigit : ∀ d < 16, UInt8.ofNat (hexChar d).toNat ≠ 0 := by decide
    exact hdigit d hd hc0
  · intro hlow
    have htext : uidText euid = hexPad uidChars euid.val.toNat := by
      have hwide : hexPad 4 (euid.val.toNat % 2 ^ 32) = hexPad 8 (euid.val.toNat % 2 ^ 32) :=
        hexPad_eq (by decide) (by omega) (by decide)
      rw [uidText_eq, hwide, hexPad_append (by decide) (by decide) _ (by omega)]
      congr 1
      omega
    have hfull : (uidText euid).length = uidChars := by
      rw [htext]
      exact length_hexPad_of_lt (by decide) (by have := euid.lt; rw [uidChars]; omega)
    rw [uidField_of_length hfull, htext]

/-! ## The packets -/

/-- The buffer of a client after `init_app`. -/
structure Stamped (euid : Euid) (sessionRand : UInt32) (buffer : List UInt8) : Prop where
  length : udpTransmissionBytes ≤ buffer.length
  uid : slice 0 uidChars buffer = asciiBytes (uidField euid)
  sessionRand : slice uidChars sessionRandChars buffer = le32 sessionRand

/-- A packet of the sample. -/
structure SocketTestPacket (euid : Euid) (sessionRand ctr : UInt32) (packet : List UInt8) :
    Prop where
  length : packet.length = udpTransmissionBytes
  uid : slice 0 uidChars packet = asciiBytes (uidField euid)
  sessionRand : slice uidChars sessionRandChars packet = le32 sessionRand
  ctr : slice (uidChars + sessionRandChars) 4 packet = le32 ctr

variable {euid : Euid} {sessionRand : UInt32} {s s' : SocketTest}

theorem stamped_stampedBuffer (euid : Euid) (sessionRand : UInt32) :
    Stamped euid sessionRand (stampedBuffer euid sessionRand) := by
  have htext := length_uidText euid
  rw [uidChars] at htext
  have hsprintf : (writeAt 0 (asciiBytes (uidText euid) ++ [0]) loremIpsum).length = 65 := by
    rw [← length_loremIpsum]
    apply length_writeAt
    rw [List.length_append, length_asciiBytes, List.length_singleton, length_loremIpsum]
    omega
  refine ⟨?_, ?_, ?_⟩
  · rw [stampedBuffer, length_writeAt (by rw [hsprintf, length_le32, uidChars]; omega), hsprintf,
      udpTransmissionBytes]
    omega
  · rw [stampedBuffer, slice_writeAt_of_le (by rw [hsprintf, uidChars]; omega) (by rfl),
      slice_writeAt_zero, slice_loremIpsum, uidField]
    simp [asciiBytes, List.map_take, List.map_drop]
  · have hself : slice uidChars (le32 sessionRand).length (stampedBuffer euid sessionRand) =
        le32 sessionRand :=
      slice_writeAt_self (by rw [hsprintf, uidChars]; omega)
    exact hself

theorem Stamped.putCounter (h : Stamped euid sessionRand s.loremIpsum) :
    Stamped euid sessionRand s.putCounter.loremIpsum := by
  have hlen := h.length
  rw [udpTransmissionBytes] at hlen
  have hle : uidChars + sessionRandChars ≤ s.loremIpsum.length := by
    rw [uidChars, sessionRandChars]
    omega
  refine ⟨?_, ?_, ?_⟩
  · rw [SocketTest.putCounter, length_writeAt]
    · exact h.length
    · rw [length_le32]
      simp only [uidChars, sessionRandChars]
      omega
  · rw [← h.uid]
    exact slice_writeAt_of_le hle (by decide)
  · rw [← h.sessionRand]
    exact slice_writeAt_of_le hle (by decide)

theorem Stamped.udpPacket (h : Stamped euid sessionRand s.loremIpsum) :
    SocketTestPacket euid sessionRand s.packetsSent s.udpPacket := by
  have hput := h.putCounter
  have hlen := h.length
  have htransmitting : transmitting = udpTransmissionBytes := by decide
  rw [SocketTest.udpPacket, htransmitting]
  refine ⟨List.length_take_of_le hput.length, ?_, ?_, ?_⟩
  · rw [slice_take (by decide), hput.uid]
  · rw [slice_take (by decide), hput.sessionRand]
  · rw [slice_take (by decide)]
    have hself : slice (uidChars + sessionRandChars) (le32 s.packetsSent).length
        s.putCounter.loremIpsum = le32 s.packetsSent :=
      slice_writeAt_self (Nat.le_trans (show uidChars + sessionRandChars ≤ 40 by decide) hlen)
    exact hself

/-- `user_payload` holds the packet. -/
theorem Stamped.rnbPacket (h : Stamped euid sessionRand s.loremIpsum) :
    s.rnbPacket = s.udpPacket := by
  have hlen : s.udpPacket.length = transmitting := by
    rw [h.udpPacket.length]
    rfl
  have hself : slice 0 s.udpPacket.length (writeAt 0 s.udpPacket s.userPayload) = s.udpPacket :=
    slice_writeAt_self (Nat.zero_le _)
  rw [hlen] at hself
  exact hself

/-- A packet is exact exactly if the lower word of the EUID has eight digits. -/
theorem SocketTestPacket.exact_iff {ctr : UInt32} {packet : List UInt8}
    (h : SocketTestPacket euid sessionRand ctr packet) :
    PacketExact euid sessionRand ctr packet ↔ 2 ^ 28 ≤ euid.val.toNat % 2 ^ 32 := by
  rw [← uidField_eq_iff, ← h.uid]
  constructor
  · intro hexact
    exact hexact.uid
  · intro huid
    refine ⟨huid, ?_, ?_, ?_⟩
    · rw [huid, decodeUtf8_asciiBytes, Option.bind_some, String.toList_ofList, readHex_hexPad]
      intro c hc
      obtain ⟨d, hd, rfl⟩ := mem_hexPad hc
      exact (hexChar_ascii d hd).1
    · rw [h.sessionRand, ofLe_le32]
    · rw [h.ctr, ofLe_le32]

theorem Stamped.startClient {a : SocketTest.Act} (h : Stamped euid sessionRand s.loremIpsum)
    (hs : s.startClient a = some s') : Stamped euid sessionRand s'.loremIpsum := by
  cases a with
  | start ret =>
    obtain ⟨-, hs'⟩ := Option.ite_none_left_eq_some.mp hs
    cases hs'
    exact h
  | pass ret =>
    obtain ⟨-, hs'⟩ := Option.ite_none_right_eq_some.mp hs
    cases hs'
    exact h.putCounter

theorem Stamped.startClientRnb {mtu : ℕ} {a : SocketTest.Act}
    (h : Stamped euid sessionRand s.loremIpsum) (hs : s.startClientRnb mtu a = some s') :
    Stamped euid sessionRand s'.loremIpsum := by
  cases a with
  | start ret =>
    obtain ⟨-, hs'⟩ := Option.ite_none_left_eq_some.mp hs
    cases hs'
    exact h
  | pass ret =>
    obtain ⟨-, hs'⟩ := Option.ite_none_right_eq_some.mp hs
    cases hs'
    exact h.putCounter

theorem stamped_of_reachable {c : SocketTestClient}
    (h : (c.machine euid sessionRand).Reachable s) : Stamped euid sessionRand s.loremIpsum := by
  cases c with
  | udp =>
    exact Machine.reachable_invariant (I := fun s => Stamped euid sessionRand s.loremIpsum)
      (stamped_stampedBuffer euid sessionRand) (fun s a s' hs => hs.startClient) h
  | rnb mtu =>
    exact Machine.reachable_invariant (I := fun s => Stamped euid sessionRand s.loremIpsum)
      (stamped_stampedBuffer euid sessionRand) (fun s a s' hs => hs.startClientRnb) h

theorem packet_of_reachable {c : SocketTestClient}
    (h : (c.machine euid sessionRand).Reachable s) :
    SocketTestPacket euid sessionRand s.packetsSent (c.packet s) := by
  have hs := stamped_of_reachable h
  cases c with
  | udp => exact hs.udpPacket
  | rnb mtu =>
    show SocketTestPacket euid sessionRand s.packetsSent s.rnbPacket
    rw [hs.rnbPacket]
    exact hs.udpPacket

theorem started_reachable (c : SocketTestClient) (euid : Euid) (sessionRand : UInt32) :
    ∃ s, (c.machine euid sessionRand).Reachable s ∧ s.started = true := by
  cases c with
  | udp => exact ⟨_, ⟨[.start 0], rfl⟩, rfl⟩
  | rnb mtu => exact ⟨_, ⟨[.start 0], rfl⟩, rfl⟩

/-- **The UID field of every packet is exact exactly if the lower word of the EUID has
eight digits**, for each of the two clients. -/
theorem uid_exact_iff (c : SocketTestClient) (euid : Euid) :
    (∀ sessionRand s, (c.machine euid sessionRand).Reachable s → s.started = true →
      PacketExact euid sessionRand s.packetsSent (c.packet s)) ↔
    2 ^ 28 ≤ euid.val.toNat % 2 ^ 32 := by
  constructor
  · intro h
    obtain ⟨s, hs, hstarted⟩ := started_reachable c euid 0
    exact (packet_of_reachable hs).exact_iff.mp (h 0 s hs hstarted)
  · intro hlow sessionRand s hs _
    exact (packet_of_reachable hs).exact_iff.mpr hlow

/-- The field of EUID `F4CE 0ABC1234` is cut short. -/
theorem uid_cut_short :
    ¬ ∀ (c : SocketTestClient) (euid : Euid) (sessionRand : UInt32) (s : SocketTest),
      (c.machine euid sessionRand).Reachable s → s.started = true →
        PacketExact euid sessionRand s.packetsSent (c.packet s) := by
  intro h
  obtain ⟨s, hs, hstarted⟩ := started_reachable .udp (rnbUtilsGetEuid 0xFFFFF4CE0ABC1234) 7
  have hexact := (packet_of_reachable hs).exact_iff.mp (h _ _ _ s hs hstarted)
  exact absurd hexact (by decide)

/-! ## The UDP client numbers its packets -/

namespace SocketTest

/-- The datagram that `send` accepts in a step. -/
def sentUdp (s : SocketTest) : Act → Option (List UInt8)
  | .start _ => none
  | .pass ret => if ret < 0 then none else some s.udpPacket

/-- `send` fails in a step. -/
def sendFails : Act → Bool
  | .start _ => false
  | .pass ret => ret < 0

def sender : Sender where
  State := SocketTest
  Act := Act
  initApp := initApp
  step := startClient
  sent := sentUdp

/-- A pass counts the packet exactly if `send` succeeds. -/
theorem packetsSent_pass (s : SocketTest) (ret : Int) :
    (s.putCounter.count (sendUdpData ret)).packetsSent =
      if ret < 0 then s.packetsSent else s.packetsSent + 1 := by
  by_cases hret : ret < 0
  · have hrc : sendUdpData ret < 0 := by
      rw [sendUdpData, if_pos hret]
      decide
    rw [if_pos hret]
    exact if_pos hrc
  · have hrc : ¬ sendUdpData ret < 0 := by
      rw [sendUdpData, if_neg hret]
      decide
    rw [if_neg hret]
    exact if_neg hrc

theorem packetsSent_of_quiet {a : Act} (hs : s.startClient a = some s')
    (hsent : s.sentUdp a = none) : s'.packetsSent = s.packetsSent := by
  cases a with
  | start ret =>
    obtain ⟨-, hs'⟩ := Option.ite_none_left_eq_some.mp hs
    cases hs'
    rfl
  | pass ret =>
    obtain ⟨-, hs'⟩ := Option.ite_none_right_eq_some.mp hs
    cases hs'
    have hret : ret < 0 := by
      by_contra hret
      rw [sentUdp, if_neg hret] at hsent
      cases hsent
    rw [packetsSent_pass, if_pos hret]

theorem packetsSent_of_sent {a : Act} {payload : List UInt8} (hs : s.startClient a = some s')
    (hsent : s.sentUdp a = some payload) :
    payload = s.udpPacket ∧ s'.packetsSent = s.packetsSent + 1 := by
  cases a with
  | start ret => cases hsent
  | pass ret =>
    obtain ⟨hret, hpayload⟩ := Option.ite_none_left_eq_some.mp hsent
    obtain ⟨-, hs'⟩ := Option.ite_none_right_eq_some.mp hs
    cases hs'
    rw [packetsSent_pass, if_neg hret]
    exact ⟨(Option.some.inj hpayload).symm, rfl⟩

/-- The buffer stays stamped, and the counter is the number of packets sent. -/
def numbers : sender.Numbers SocketTestPacket where
  R euid sessionRand n (s : SocketTest) :=
    Stamped euid sessionRand s.loremIpsum ∧ s.packetsSent = n
  initApp euid sessionRand := ⟨stamped_stampedBuffer euid sessionRand, rfl⟩
  quiet := by
    intro euid sessionRand n s a s' hR hstep hsent
    obtain ⟨hs, hn⟩ := hR
    exact ⟨hs.startClient hstep, (packetsSent_of_quiet hstep hsent).trans hn⟩
  sends := by
    intro euid sessionRand n s a s' payload hR hstep hsent
    obtain ⟨hs, hn⟩ := hR
    have hcount := packetsSent_of_sent hstep hsent
    have hpacket := hs.udpPacket
    rw [hn, ← hcount.1] at hpacket
    exact ⟨hpacket, hs.startClient hstep, hn ▸ hcount.2⟩

end SocketTest

end RedNodeBus.Telemetry

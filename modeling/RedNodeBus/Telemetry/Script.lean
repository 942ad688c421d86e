import Mathlib.Algebra.Field.Rat
import Mathlib.Logic.Function.Basic
import RedNodeBus.Telemetry.Accelerometer
import RedNodeBus.Telemetry.SocketTest

/-!
# The host scripts

A script reads a UID, a session value and a counter in each payload and keeps a row for
each UID.  The scripts differ in where they find these, and in what else they show; the
rows are kept in the same way.  Each payload comes with what `time.time()` is when it is
taken.  Quotients are exact.

A script ends with an exception where a payload cannot be read, where the error rate divides
by zero, and where the bit rate does: when the clock still says what it said at the first
packet of the session.  Short of that, a row is a `Tally` of the packets of its UID
(`receive_follows`), whatever arrives in between for other UIDs.
-/

namespace RedNodeBus.Telemetry

open Bytes Hex Epochs

/-! ## Rows -/

/-- What a script reads in a payload; `data` is what it shows besides. -/
structure Reading (δ : Type) where
  euid : String
  sessionRand : ℕ
  ctr : ℕ
  data : δ

/-- A row of the table. -/
structure Row (δ : Type) where
  sessionRand : ℕ
  ctr : ℕ
  packetsReceived : ℕ
  packetsLost : ℤ
  errorRate : ℚ
  bytesReceived : ℕ
  bitrate : ℚ
  /-- What `time.time()` was at the first packet. -/
  time : ℚ
  data : δ

namespace Row

variable {δ : Type}

/-- The row after a first packet, or the first with another session value. -/
def first (r : Reading δ) (lenPayload : ℕ) (now : ℚ) : Row δ :=
  ⟨r.sessionRand, r.ctr, 1, 0, 0, lenPayload, 0, now, r.data⟩

/-- Another packet of the session, up to the error rate; `none` is its division by zero. -/
def count (row : Row δ) (r : Reading δ) : Option (Row δ) :=
  let packetsLost := row.packetsLost + (r.ctr - row.ctr - 1)
  let packetsReceived := row.packetsReceived + 1
  if packetsLost + packetsReceived = 0 then none
  else
    some { row with
      ctr := r.ctr
      packetsReceived := packetsReceived
      packetsLost := packetsLost
      errorRate := 100 * packetsLost / (packetsLost + packetsReceived) }

/-- The rest of the update, from the bit rate on; `none` is its division by zero. -/
def rate (row : Row δ) (r : Reading δ) (lenPayload : ℕ) (now : ℚ) : Option (Row δ) :=
  let bytesReceived := row.bytesReceived + lenPayload
  if now - row.time = 0 then none
  else
    some { row with
      bytesReceived := bytesReceived
      bitrate := bytesReceived / (now - row.time)
      data := r.data }

def next (row : Row δ) (r : Reading δ) (lenPayload : ℕ) (now : ℚ) : Option (Row δ) :=
  (row.count r).bind fun row => row.rate r lenPayload now

variable {row row' : Row δ} {r : Reading δ} {lenPayload : ℕ} {now : ℚ}

theorem of_count (h : row.count r = some row') :
    row'.sessionRand = row.sessionRand ∧ row'.ctr = r.ctr ∧
      row'.packetsReceived = row.packetsReceived + 1 ∧
      row'.packetsLost = row.packetsLost + (r.ctr - row.ctr - 1) ∧ row'.time = row.time := by
  obtain ⟨-, h⟩ := Option.ite_none_left_eq_some.mp h
  obtain rfl := Option.some.inj h
  exact ⟨rfl, rfl, rfl, rfl, rfl⟩

theorem rate_eq_none_iff : row.rate r lenPayload now = none ↔ now = row.time := by
  simp only [rate]
  split
  · exact iff_of_true rfl (by grind)
  · exact iff_of_false nofun (by grind)

theorem of_rate (h : row.rate r lenPayload now = some row') :
    row'.sessionRand = row.sessionRand ∧ row'.ctr = row.ctr ∧
      row'.packetsReceived = row.packetsReceived ∧ row'.packetsLost = row.packetsLost ∧
      row'.time = row.time ∧ row'.data = r.data := by
  obtain ⟨-, h⟩ := Option.ite_none_left_eq_some.mp h
  obtain rfl := Option.some.inj h
  exact ⟨rfl, rfl, rfl, rfl, rfl, rfl⟩

end Row

/-- A script, by what it reads in a payload, if it can. -/
structure Script where
  Data : Type
  read : List UInt8 → Option (Reading Data)

namespace Script

/-- `stats_dic`. -/
abbrev Stats (S : Script) : Type := String → Option (Row S.Data)

/-- The body of the receive loop, for a payload at a time. -/
def receive (S : Script) (stats : S.Stats) : ℚ × List UInt8 → Option S.Stats
  | (now, payload) => (S.read payload).bind fun r =>
    match stats r.euid with
    | some row =>
      if row.sessionRand ≠ r.sessionRand then
        some (Function.update stats r.euid (some (.first r payload.length now)))
      else
        (row.next r payload.length now).map fun row => Function.update stats r.euid (some row)
    | none => some (Function.update stats r.euid (some (.first r payload.length now)))

def run (S : Script) (payloads : List (ℚ × List UInt8)) : Option S.Stats :=
  payloads.foldlM S.receive fun _ => none

/-! ## The scripts -/

def socketTest : Script where
  Data := Unit
  read payload :=
    (decodeUtf8 (slice 0 12 payload)).map fun euid =>
      ⟨euid, ofLe (slice 12 4 payload), ofLe (slice 16 4 payload), ()⟩

/-- The text of `hex(n)` without its `0x`, in upper case. -/
def hexKey (n : ℕ) : String := String.ofList (upperHex n)

/-- `data[i]`, the words behind the counter; `none` is the index error. -/
def word (payload : List UInt8) (i : ℕ) : Option ℤ :=
  if 16 + 4 * i < payload.length then some (ofLeSigned (slice (16 + 4 * i) 4 payload)) else none

def axis (val1 val2 : ℤ) : ℚ := val1 + val2 / 1000000

/-- `x`, `y` and `z`. -/
def axes (payload : List UInt8) : Option (ℚ × ℚ × ℚ) :=
  (word payload 0).bind fun xVal1 => (word payload 1).bind fun xVal2 =>
  (word payload 2).bind fun yVal1 => (word payload 3).bind fun yVal2 =>
  (word payload 4).bind fun zVal1 => (word payload 5).map fun zVal2 =>
    (axis xVal1 xVal2, axis yVal1 yVal2, axis zVal1 zVal2)

/-- `accelerometer.py`. -/
def accelerometer : Script where
  Data := ℚ × ℚ × ℚ
  read payload :=
    (axes payload).map fun xyz =>
      ⟨hexKey (ofLe (slice 0 8 payload)), ofLe (slice 8 4 payload), ofLe (slice 12 4 payload), xyz⟩

/-- `battery.py`. -/
def battery : Script where
  Data := ℤ
  read payload :=
    (word payload 0).map fun x =>
      ⟨hexKey (ofLe (slice 0 8 payload)), ofLe (slice 8 4 payload), ofLe (slice 12 4 payload), x⟩

/-- `process_msg` of `socket_test_rnb.py`. -/
def socketTestRnb : Script := socketTest

/-- `process_msg` of `accelerometer_rnb.py`. -/
def accelerometerRnb : Script := accelerometer

/-! ## A row is a tally -/

/-- The script finds what the packets say, under a key of the EUID's own. -/
structure Reads (S : Script) (Packet : Euid → UInt32 → UInt32 → List UInt8 → Prop)
    (uid : Euid → String) : Prop where
  injective : Function.Injective uid
  read : ∀ {euid sessionRand ctr payload}, Packet euid sessionRand ctr payload →
    ∃ data, S.read payload = some ⟨uid euid, sessionRand.toNat, ctr.toNat, data⟩

theorem socketTest_reads :
    socketTest.Reads SocketTestPacket fun euid => String.ofList (uidField euid) := by
  constructor
  · intro e e' h
    exact uidField_injective (String.ofList_injective h)
  · intro euid sessionRand ctr payload h
    have huid := h.uid
    have hsession := h.sessionRand
    have hctr := h.ctr
    rw [uidChars] at huid
    rw [uidChars, sessionRandChars] at hsession
    rw [uidChars, sessionRandChars] at hctr
    refine ⟨(), ?_⟩
    simp only [socketTest, huid, hsession, hctr, ofLe_le32,
      decodeUtf8_asciiBytes (uidField_ascii euid), Option.map_some]

theorem hexKey_injective : Function.Injective hexKey := by
  intro m n h
  have htext : upperHex m = upperHex n := String.ofList_injective h
  have hread := readHexFrom_upperHex m
  rw [htext, readHexFrom_upperHex] at hread
  exact (Option.some.inj hread).symm

theorem axes_of_length {payload : List UInt8} (h : payload.length = 40) :
    ∃ xyz, axes payload = some xyz := by
  have hword : ∀ i < 6, ∃ v, word payload i = some v := by
    intro i hi
    exact ⟨_, if_pos (by omega)⟩
  obtain ⟨x₁, hx₁⟩ := hword 0 (by decide)
  obtain ⟨x₂, hx₂⟩ := hword 1 (by decide)
  obtain ⟨y₁, hy₁⟩ := hword 2 (by decide)
  obtain ⟨y₂, hy₂⟩ := hword 3 (by decide)
  obtain ⟨z₁, hz₁⟩ := hword 4 (by decide)
  obtain ⟨z₂, hz₂⟩ := hword 5 (by decide)
  refine ⟨(axis x₁ x₂, axis y₁ y₂, axis z₁ z₂), ?_⟩
  simp only [axes, hx₁, hx₂, hy₁, hy₂, hz₁, hz₂, Option.bind_some, Option.map_some]

theorem accelerometer_reads :
    accelerometer.Reads AccelerometerPacket fun euid => hexKey euid.val.toNat := by
  constructor
  · intro e e' h
    have hval := UInt64.toNat_inj.mp (hexKey_injective h)
    cases e
    cases e'
    congr 1
  · intro euid sessionRand ctr payload h
    obtain ⟨xyz, hxyz⟩ := axes_of_length h.length
    refine ⟨xyz, ?_⟩
    simp only [accelerometer, hxyz, h.euid, h.sessionRand, h.ctr, ofLe_le32, Option.map_some]

/-- The row says what the tally says. -/
structure Follows {δ : Type} (t : Tally UInt32) (row : Row δ) : Prop where
  label : row.sessionRand = t.label.toNat
  last : row.ctr = t.last
  received : row.packetsReceived = t.received
  lost : row.packetsLost = t.lost

theorem follows_first {δ : Type} (r : Reading δ) (lenPayload : ℕ) (now : ℚ) {label : UInt32}
    (h : r.sessionRand = label.toNat) :
    Follows ⟨label, r.ctr, 1, 0⟩ (Row.first r lenPayload now) :=
  ⟨h, rfl, rfl, rfl⟩

theorem Follows.next {δ : Type} {t : Tally UInt32} {row : Row δ} (h : Follows t row)
    (r : Reading δ) (lenPayload : ℕ) {now : ℚ} (hclock : now ≠ row.time)
    (hpos : t.lost + (r.ctr - t.last - 1) + (t.received + 1 : ℕ) ≠ 0) :
    ∃ row', row.next r lenPayload now = some row' ∧ row'.time = row.time ∧
      Follows ⟨t.label, r.ctr, t.received + 1, t.lost + (r.ctr - t.last - 1)⟩ row' := by
  rw [← h.lost, ← h.last, ← h.received] at hpos
  obtain ⟨counted, hcount⟩ : ∃ counted, row.count r = some counted := ⟨_, if_neg hpos⟩
  obtain ⟨hlabel, hlast, hreceived, hlost, htime⟩ := Row.of_count hcount
  cases hrate : counted.rate r lenPayload now with
  | none => exact absurd ((Row.rate_eq_none_iff.mp hrate).trans htime) hclock
  | some row' =>
    obtain ⟨hlabel', hlast', hreceived', hlost', htime', -⟩ := Row.of_rate hrate
    refine ⟨row', ?_, htime'.trans htime, ?_, hlast'.trans hlast, ?_, ?_⟩
    · rw [Row.next, hcount, Option.bind_some, hrate]
    · rw [hlabel', hlabel, h.label]
    · rw [hreceived', hreceived, h.received]
    · rw [hlost', hlost, h.lost, h.last]

variable {S : Script} {Packet : Euid → UInt32 → UInt32 → List UInt8 → Prop} {uid : Euid → String}

theorem receive_first {stats : S.Stats} {now : ℚ} {payload : List UInt8} {r : Reading S.Data}
    (hread : S.read payload = some r)
    (hrow : ∀ row, stats r.euid = some row → row.sessionRand ≠ r.sessionRand) :
    S.receive stats (now, payload) =
      some (Function.update stats r.euid (some (.first r payload.length now))) := by
  rw [receive, hread, Option.bind_some]
  cases hold : stats r.euid with
  | none => rfl
  | some row => simp only [if_pos (hrow row hold)]

theorem receive_next {stats : S.Stats} {now : ℚ} {payload : List UInt8} {r : Reading S.Data}
    {row : Row S.Data} (hread : S.read payload = some r) (hrow : stats r.euid = some row)
    (hsession : row.sessionRand = r.sessionRand) :
    S.receive stats (now, payload) = (row.next r payload.length now).map fun row =>
      Function.update stats r.euid (some row) := by
  rw [receive, hread, Option.bind_some]
  simp only [hrow, if_neg (not_not.mpr hsession)]

/-- A packet changes the row of its node and no other, and the row goes on following the
tally, unless it divides by zero.  Its time is that of the packet, or stays. -/
theorem receive_follows (hS : S.Reads Packet uid) {euid : Euid} {p : Numbered UInt32 (List UInt8)}
    (hp : Packet euid p.label (UInt32.ofNat p.index) p.item) (hindex : p.index < 2 ^ 32)
    {stats : S.Stats} {t : Option (Tally UInt32)} (ht : Option.Rel Follows t (stats (uid euid)))
    {now : ℚ} (hclock : ∀ row, stats (uid euid) = some row → now ≠ row.time)
    (hpos : (Tally.next t p.label p.index).lost + (Tally.next t p.label p.index).received ≠ 0) :
    ∃ row, S.receive stats (now, p.item) = some (Function.update stats (uid euid) (some row)) ∧
      Follows (Tally.next t p.label p.index) row ∧
      (row.time = now ∨ ∃ old, stats (uid euid) = some old ∧ row.time = old.time) := by
  obtain ⟨data, hread⟩ := hS.read hp
  have hctr : (UInt32.ofNat p.index).toNat = p.index := UInt32.toNat_ofNat_of_lt' hindex
  rw [hctr] at hread
  let r : Reading S.Data := ⟨uid euid, p.label.toNat, p.index, data⟩
  cases hrow : stats (uid euid) with
  | none =>
    rw [hrow] at ht
    cases ht
    have hnew : ∀ row, stats (uid euid) = some row → row.sessionRand ≠ p.label.toNat := by
      intro row hold
      rw [hrow] at hold
      cases hold
    exact ⟨_, receive_first hread hnew, follows_first r p.item.length now rfl, Or.inl rfl⟩
  | some row =>
    rw [hrow] at ht
    cases t with
    | none => cases ht
    | some t =>
      have hfollows : Follows t row := by
        cases ht with
        | some h => exact h
      by_cases hlabel : t.label = p.label
      · -- another packet of the session
        have hnext : Tally.next (some t) p.label p.index =
            ⟨t.label, p.index, t.received + 1, t.lost + (p.index - t.last - 1)⟩ :=
          if_neg (not_not.mpr hlabel)
        rw [hnext] at hpos ⊢
        obtain ⟨row', hrow', htime, hfollows'⟩ :=
          hfollows.next r p.item.length (hclock row hrow) hpos
        refine ⟨row', ?_, hfollows', Or.inr ⟨row, rfl, htime⟩⟩
        have hsame : row.sessionRand = p.label.toNat := by rw [hfollows.label, hlabel]
        rw [receive_next hread hrow hsame, hrow', Option.map_some]
      · -- another session value
        have hnext : Tally.next (some t) p.label p.index = ⟨p.label, p.index, 1, 0⟩ :=
          if_pos hlabel
        rw [hnext]
        have hother : ∀ old, stats (uid euid) = some old → old.sessionRand ≠ p.label.toNat := by
          intro old hold heq
          rw [hrow] at hold
          cases hold
          rw [hfollows.label] at heq
          exact hlabel (UInt32.toNat_inj.mp heq)
        exact ⟨_, receive_first hread hother, follows_first r p.item.length now rfl, Or.inl rfl⟩

theorem update_of_receive {stats stats' : S.Stats} {now : ℚ} {payload : List UInt8}
    {r : Reading S.Data} (hread : S.read payload = some r)
    (h : S.receive stats (now, payload) = some stats') :
    ∃ row, stats' = Function.update stats r.euid (some row) ∧ row.data = r.data := by
  rw [receive, hread, Option.bind_some] at h
  cases hold : stats r.euid with
  | none =>
    rw [hold] at h
    obtain rfl := Option.some.inj h
    exact ⟨_, rfl, rfl⟩
  | some old =>
    simp only [hold] at h
    split at h
    · obtain rfl := Option.some.inj h
      exact ⟨_, rfl, rfl⟩
    · obtain ⟨row, hnext, rfl⟩ := Option.map_eq_some_iff.mp h
      obtain ⟨counted, -, hrate⟩ := Option.bind_eq_some_iff.mp hnext
      obtain ⟨-, -, -, -, -, hdata⟩ := Row.of_rate hrate
      exact ⟨row, rfl, hdata⟩

end Script

end RedNodeBus.Telemetry

import RedNodeBus.Telemetry.Battery
import RedNodeBus.Telemetry.Script

/-!
# Packets in any order

A script adds up signed differences of counters.  The sum telescopes: after the `i`-th
packet of a session behind the first, what it calls lost is the packet's counter less the
first one less `i` (`Row.After`), and the sum it divides by is the counter less the first
one plus one.

So the error rate survives packets that come late as long as each counter keeps up with the
number of packets that have come (`survives_iff`).  A counter right before the first one
makes it divide by zero; the first two packets of a session in the wrong order are enough
(`swapped_not_survives`).  The bit rate does not bear on this, but where it divides by zero
the session ends for the script (`upTo`).
-/

namespace RedNodeBus.Telemetry

open Bytes

namespace Script

theorem battery_reads : battery.Reads BatteryPacket fun euid => hexKey euid.val.toNat := by
  constructor
  · exact accelerometer_reads.injective
  · intro euid sessionRand ctr payload h
    have hword : word payload 0 = some (ofLeSigned (slice 16 4 payload)) :=
      if_pos (by rw [h.length]; decide)
    refine ⟨ofLeSigned (slice 16 4 payload), ?_⟩
    simp only [battery, hword, h.euid, h.sessionRand, h.ctr, ofLe_le32, Option.map_some]

end Script

/-- The host scripts that keep statistics. -/
inductive HostScript
  | socketTest
  | socketTestRnb
  | accelerometer
  | accelerometerRnb
  | battery

namespace HostScript

def script : HostScript → Script
  | .socketTest => Script.socketTest
  | .socketTestRnb => Script.socketTestRnb
  | .accelerometer => Script.accelerometer
  | .accelerometerRnb => Script.accelerometerRnb
  | .battery => Script.battery

/-- What a well-formed packet says. -/
def Packet : HostScript → Euid → UInt32 → UInt32 → List UInt8 → Prop
  | .socketTest | .socketTestRnb => SocketTestPacket
  | .accelerometer | .accelerometerRnb => AccelerometerPacket
  | .battery => BatteryPacket

def uid : HostScript → Euid → String
  | .socketTest | .socketTestRnb => fun euid => String.ofList (uidField euid)
  | .accelerometer | .accelerometerRnb | .battery => fun euid => Script.hexKey euid.val.toNat

theorem reads (c : HostScript) : c.script.Reads c.Packet c.uid :=
  match c with
  | .socketTest | .socketTestRnb => Script.socketTest_reads
  | .accelerometer | .accelerometerRnb => Script.accelerometer_reads
  | .battery => Script.battery_reads

end HostScript

/-! ## The sum telescopes -/

/-- The row after `i` more packets of a session that began with the counter `first`. -/
structure Row.After {δ : Type} (first i : ℕ) (row : Row δ) : Prop where
  received : row.packetsReceived = i + 1
  lost : row.packetsLost = row.ctr - first - i

namespace Row.After

variable {δ : Type} {first i : ℕ} {row row' : Row δ}

theorem of_first (r : Reading δ) (lenPayload : ℕ) (now : ℚ) :
    After r.ctr 0 (Row.first r lenPayload now) := by
  refine ⟨rfl, ?_⟩
  show (0 : ℤ) = r.ctr - r.ctr - (0 : ℕ)
  omega

/-- The error rate divides by zero right before the first counter, and nowhere else. -/
theorem count_eq_none_iff (h : After first i row) (r : Reading δ) :
    row.count r = none ↔ r.ctr + 1 = first := by
  have hreceived := h.received
  have hlost := h.lost
  have hsum : row.packetsLost + (r.ctr - row.ctr - 1) + (row.packetsReceived + 1 : ℕ) =
      (r.ctr : ℤ) + 1 - first := by omega
  rw [Row.count]
  split
  · rename_i hzero
    exact iff_of_true rfl (by omega)
  · rename_i hzero
    exact iff_of_false nofun (by omega)

theorem count (h : After first i row) {r : Reading δ} (hcount : row.count r = some row') :
    After first (i + 1) row' ∧ row'.ctr = r.ctr ∧ row'.sessionRand = row.sessionRand ∧
      row'.time = row.time := by
  have hreceived := h.received
  have hlost := h.lost
  obtain ⟨hsession, hctr, hreceived', hlost', htime⟩ := Row.of_count hcount
  refine ⟨⟨?_, ?_⟩, hctr, hsession, htime⟩
  · omega
  · omega

theorem rate (h : After first i row) {r : Reading δ} {lenPayload : ℕ} {now : ℚ}
    (hrate : row.rate r lenPayload now = some row') :
    After first i row' ∧ row'.sessionRand = row.sessionRand ∧ row'.time = row.time := by
  obtain ⟨hsession, hctr, hreceived, hlost, htime, -⟩ := Row.of_rate hrate
  refine ⟨⟨hreceived.trans h.received, ?_⟩, hsession, htime⟩
  rw [hlost, hctr]
  exact h.lost

end Row.After

/-! ## A session -/

/-- The row of a payload as it is once the error rate is computed; `none` is an exception
up to there. -/
def Script.counted (S : Script) (stats : S.Stats) : ℚ × List UInt8 → Option (Row S.Data)
  | (now, payload) => (S.read payload).bind fun r =>
    match stats r.euid with
    | some row =>
      if row.sessionRand ≠ r.sessionRand then some (.first r payload.length now)
      else row.count r
    | none => some (.first r payload.length now)

section Counted

variable {S : Script} {stats : S.Stats} {now : ℚ} {payload : List UInt8} {r : Reading S.Data}

theorem counted_first (hread : S.read payload = some r)
    (hrow : ∀ row, stats r.euid = some row → row.sessionRand ≠ r.sessionRand) :
    S.counted stats (now, payload) = some (.first r payload.length now) := by
  rw [Script.counted, hread, Option.bind_some]
  cases hold : stats r.euid with
  | none => rfl
  | some row => simp only [if_pos (hrow row hold)]

theorem counted_next {row : Row S.Data} (hread : S.read payload = some r)
    (hrow : stats r.euid = some row) (hsession : row.sessionRand = r.sessionRand) :
    S.counted stats (now, payload) = row.count r := by
  rw [Script.counted, hread, Option.bind_some]
  simp only [hrow, if_neg (not_not.mpr hsession)]

/-- A payload that is taken was counted, and its row in the table says as much. -/
theorem counted_of_receive {stats' : S.Stats} (hread : S.read payload = some r)
    (h : S.receive stats (now, payload) = some stats') :
    ∃ row row', S.counted stats (now, payload) = some row ∧ stats' r.euid = some row' ∧
      row'.packetsLost = row.packetsLost := by
  by_cases hsession : ∃ row, stats r.euid = some row ∧ row.sessionRand = r.sessionRand
  · obtain ⟨old, hrow, hsession⟩ := hsession
    rw [Script.receive_next hread hrow hsession] at h
    obtain ⟨row', hnext, rfl⟩ := Option.map_eq_some_iff.mp h
    obtain ⟨row, hcount, hrate⟩ := Option.bind_eq_some_iff.mp hnext
    obtain ⟨-, -, -, hlost, -⟩ := Row.of_rate hrate
    exact ⟨row, row', (counted_next hread hrow hsession).trans hcount, Function.update_self ..,
      hlost⟩
  · have hnew : ∀ row, stats r.euid = some row → row.sessionRand ≠ r.sessionRand :=
      fun row hrow heq => hsession ⟨row, hrow, heq⟩
    rw [Script.receive_first hread hnew] at h
    obtain rfl := Option.some.inj h
    exact ⟨_, _, counted_first hread hnew, Function.update_self .., rfl⟩

end Counted

/-- For each payload that the script comes to, the error rate is computed without an
exception, and what is lost is not negative. -/
def Survives (S : Script) : S.Stats → List (ℚ × List UInt8) → Prop
  | _, [] => True
  | stats, payload :: payloads =>
    (∃ row, S.counted stats payload = some row ∧ 0 ≤ row.packetsLost) ∧
      ∀ stats', S.receive stats payload = some stats' → Survives S stats' payloads

/-- A packet, with the time at which it is taken. -/
structure TimedPacket where
  now : ℚ
  ctr : UInt32
  payload : List UInt8

/-- What the script sees of it. -/
def TimedPacket.arrival (p : TimedPacket) : ℚ × List UInt8 := (p.now, p.payload)

/-- The packets up to the first one that comes at `time`, where the bit rate divides by
zero. -/
def upTo (time : ℚ) : List TimedPacket → List TimedPacket
  | [] => []
  | p :: packets => if p.now = time then [p] else p :: upTo time packets

/-- The packets of a session that the script comes to, if the error rate lets it. -/
def reached : List TimedPacket → List TimedPacket
  | [] => []
  | p :: packets => p :: upTo p.now packets

/-- Each counter is at least `n` and the number of those before it. -/
def KeepsUp (n : ℕ) (ctrs : List UInt32) : Prop :=
  ∀ i ctr, ctrs[i]? = some ctr → n + i ≤ ctr.toNat

theorem keepsUp_nil (n : ℕ) : KeepsUp n [] := by
  intro i ctr h
  cases h

theorem keepsUp_cons {n : ℕ} {ctr : UInt32} {ctrs : List UInt32} :
    KeepsUp n (ctr :: ctrs) ↔ n ≤ ctr.toNat ∧ KeepsUp (n + 1) ctrs := by
  constructor
  · intro h
    refine ⟨h 0 ctr rfl, ?_⟩
    intro i c hc
    have hle := h (i + 1) c hc
    omega
  · rintro ⟨hctr, h⟩ i c hc
    cases i with
    | zero =>
      obtain rfl := Option.some.inj hc
      exact hctr
    | succ i =>
      have hle := h i c hc
      omega

theorem upTo_of_ne {time : ℚ} {packets : List TimedPacket} (h : ∀ p ∈ packets, p.now ≠ time) :
    upTo time packets = packets := by
  induction packets with
  | nil => rfl
  | cons p packets ih =>
    have hrest := ih fun q hq => h q (List.mem_cons_of_mem _ hq)
    rw [upTo, if_neg (h p List.mem_cons_self), hrest]

/-- If the clock moves on, the script comes to all of them. -/
theorem reached_of_nodup {packets : List TimedPacket}
    (h : (packets.map TimedPacket.now).Nodup) : reached packets = packets := by
  cases packets with
  | nil => rfl
  | cons p packets =>
    have hnew := (List.nodup_cons.mp h).1
    have hne : ∀ q ∈ packets, q.now ≠ p.now := by
      intro q hq heq
      exact hnew (heq ▸ List.mem_map_of_mem hq)
    rw [reached, upTo_of_ne hne]

section Session

variable {S : Script} {Packet : Euid → UInt32 → UInt32 → List UInt8 → Prop} {uid : Euid → String}
  {euid : Euid} {sessionRand : UInt32} {packets : List TimedPacket}

theorem survives_after_iff (hS : S.Reads Packet uid)
    (hpackets : ∀ p ∈ packets, Packet euid sessionRand p.ctr p.payload) {stats : S.Stats}
    {row : Row S.Data} (hrow : stats (uid euid) = some row)
    (hsession : row.sessionRand = sessionRand.toNat) {first i : ℕ} (h : row.After first i) :
    Survives S stats (packets.map TimedPacket.arrival) ↔
      KeepsUp (first + i + 1) ((upTo row.time packets).map TimedPacket.ctr) := by
  induction packets generalizing stats row i with
  | nil => exact iff_of_true trivial (keepsUp_nil _)
  | cons p packets ih =>
    obtain ⟨data, hread⟩ := hS.read (hpackets p List.mem_cons_self)
    let r : Reading S.Data := ⟨uid euid, sessionRand.toNat, p.ctr.toNat, data⟩
    have hcounted : S.counted stats p.arrival = row.count r := counted_next hread hrow hsession
    have hreceive : S.receive stats p.arrival = _ := Script.receive_next hread hrow hsession
    rw [List.map_cons, Survives, hcounted, hreceive, Row.next]
    cases hcount : row.count r with
    | none =>
      -- the counter right before the first one
      have hzero : p.ctr.toNat + 1 = first := (h.count_eq_none_iff r).mp hcount
      refine iff_of_false (fun hsurvives => ?_) (fun hkeeps => ?_)
      · obtain ⟨⟨_, hsome, -⟩, -⟩ := hsurvives
        cases hsome
      · rw [upTo] at hkeeps
        split at hkeeps
        all_goals
          have hle := (keepsUp_cons.mp hkeeps).1
          omega
    | some counted =>
      obtain ⟨hafter, hctr, hsession', htime⟩ := h.count hcount
      have hlost : 0 ≤ counted.packetsLost ↔ first + i + 1 ≤ p.ctr.toNat := by
        rw [hafter.lost, hctr]
        show 0 ≤ (p.ctr.toNat : ℤ) - first - (i + 1 : ℕ) ↔ _
        omega
      have hhead : (∃ row, some counted = some row ∧ 0 ≤ row.packetsLost) ↔
          first + i + 1 ≤ p.ctr.toNat := by
        rw [← hlost]
        constructor
        · intro h
          obtain ⟨row, heq, hrow⟩ := h
          obtain rfl := Option.some.inj heq
          exact hrow
        · intro hrow
          exact ⟨counted, rfl, hrow⟩
      rw [hhead, upTo, Option.bind_some]
      by_cases hnow : p.now = row.time
      · -- the bit rate ends the session
        rw [if_pos hnow, List.map_singleton, keepsUp_cons,
          Row.rate_eq_none_iff.mpr (hnow.trans htime.symm)]
        refine and_congr_right fun _ => iff_of_true ?_ (keepsUp_nil _)
        intro stats' hstats
        cases hstats
      · rw [if_neg hnow, List.map_cons, keepsUp_cons]
        cases hrate : counted.rate r p.payload.length p.now with
        | none => exact absurd ((Row.rate_eq_none_iff.mp hrate).trans htime) hnow
        | some row' =>
          obtain ⟨hafter', hsession'', htime'⟩ := hafter.rate hrate
          have htail := ih (fun q hq => hpackets q (List.mem_cons_of_mem _ hq))
            (Function.update_self (uid euid) (some row') stats)
            ((hsession''.trans hsession').trans hsession) hafter'
          rw [htime', htime] at htail
          refine and_congr_right fun _ => Iff.trans ?_ htail
          constructor
          · intro hall
            exact hall _ rfl
          · intro hrest stats' hstats
            obtain rfl := Option.some.inj hstats
            exact hrest

theorem survives_first_iff (hS : S.Reads Packet uid)
    (hpackets : ∀ p ∈ packets, Packet euid sessionRand p.ctr p.payload) {stats : S.Stats}
    (hnew : ∀ row, stats (uid euid) = some row → row.sessionRand ≠ sessionRand.toNat) :
    Survives S stats (packets.map TimedPacket.arrival) ↔
      ∀ first ∈ ((reached packets).map TimedPacket.ctr).head?,
        KeepsUp first.toNat ((reached packets).map TimedPacket.ctr) := by
  cases packets with
  | nil => exact iff_of_true trivial nofun
  | cons p packets =>
    obtain ⟨data, hread⟩ := hS.read (hpackets p List.mem_cons_self)
    let r : Reading S.Data := ⟨uid euid, sessionRand.toNat, p.ctr.toNat, data⟩
    let row : Row S.Data := .first r p.payload.length p.now
    have hupdate : Function.update stats (uid euid) (some row) (uid euid) = some row :=
      Function.update_self _ _ _
    have htail := survives_after_iff hS (fun q hq => hpackets q (List.mem_cons_of_mem _ hq))
      hupdate rfl (Row.After.of_first r p.payload.length p.now)
    have hhead : (∀ first ∈ ((reached (p :: packets)).map TimedPacket.ctr).head?,
        KeepsUp first.toNat ((reached (p :: packets)).map TimedPacket.ctr)) ↔
        KeepsUp (p.ctr.toNat + 1) ((upTo p.now packets).map TimedPacket.ctr) := by
      rw [reached, List.map_cons, List.head?_cons]
      constructor
      · intro h
        exact (keepsUp_cons.mp (h p.ctr rfl)).2
      · intro h first hfirst
        obtain rfl := Option.some.inj hfirst
        exact keepsUp_cons.mpr ⟨Nat.le_refl _, h⟩
    have hcounted : S.counted stats p.arrival = some row := counted_first hread hnew
    have hreceive : S.receive stats p.arrival = some _ := Script.receive_first hread hnew
    rw [hhead, List.map_cons, Survives, hcounted, hreceive]
    refine Iff.trans ?_ htail
    constructor
    · rintro ⟨-, hall⟩
      exact hall _ rfl
    · intro hrest
      refine ⟨⟨row, rfl, Int.le_refl 0⟩, ?_⟩
      intro stats' hstats
      obtain rfl := Option.some.inj hstats
      exact hrest

/-- The exceptions: a counter right before the first one of the session, or its time. -/
theorem foldlM_after_eq_none_iff (hS : S.Reads Packet uid)
    (hpackets : ∀ p ∈ packets, Packet euid sessionRand p.ctr p.payload) {stats : S.Stats}
    {row : Row S.Data} (hrow : stats (uid euid) = some row)
    (hsession : row.sessionRand = sessionRand.toNat) {first i : ℕ} (h : row.After first i) :
    (packets.map TimedPacket.arrival).foldlM S.receive stats = none ↔
      ∃ p ∈ packets, p.ctr.toNat + 1 = first ∨ p.now = row.time := by
  induction packets generalizing stats row i with
  | nil => exact iff_of_false nofun (by simp)
  | cons p packets ih =>
    obtain ⟨data, hread⟩ := hS.read (hpackets p List.mem_cons_self)
    let r : Reading S.Data := ⟨uid euid, sessionRand.toNat, p.ctr.toNat, data⟩
    have hreceive : S.receive stats p.arrival = _ := Script.receive_next hread hrow hsession
    rw [List.map_cons, List.foldlM_cons, hreceive, List.exists_mem_cons_iff, Row.next]
    cases hcount : row.count r with
    | none => exact iff_of_true rfl (Or.inl (Or.inl ((h.count_eq_none_iff r).mp hcount)))
    | some counted =>
      obtain ⟨hafter, -, hsession', htime⟩ := h.count hcount
      have hne : p.ctr.toNat + 1 ≠ first := by
        intro hzero
        rw [(h.count_eq_none_iff r).mpr hzero] at hcount
        cases hcount
      rw [Option.bind_some, or_iff_right hne]
      cases hrate : counted.rate r p.payload.length p.now with
      | none => exact iff_of_true rfl (Or.inl ((Row.rate_eq_none_iff.mp hrate).trans htime))
      | some row' =>
        obtain ⟨hafter', hsession'', htime'⟩ := hafter.rate hrate
        have hnow : p.now ≠ row.time := by
          intro heq
          rw [Row.rate_eq_none_iff.mpr (heq.trans htime.symm)] at hrate
          cases hrate
        have htail := ih (fun q hq => hpackets q (List.mem_cons_of_mem _ hq))
          (Function.update_self (uid euid) (some row') stats)
          ((hsession''.trans hsession').trans hsession) hafter'
        rw [htime', htime] at htail
        rw [or_iff_right hnow]
        exact htail

theorem foldlM_first_eq_none_iff (hS : S.Reads Packet uid) {p : TimedPacket}
    (hp : Packet euid sessionRand p.ctr p.payload)
    (hpackets : ∀ q ∈ packets, Packet euid sessionRand q.ctr q.payload) {stats : S.Stats}
    (hnew : ∀ row, stats (uid euid) = some row → row.sessionRand ≠ sessionRand.toNat) :
    ((p :: packets).map TimedPacket.arrival).foldlM S.receive stats = none ↔
      ∃ q ∈ packets, q.ctr.toNat + 1 = p.ctr.toNat ∨ q.now = p.now := by
  obtain ⟨data, hread⟩ := hS.read hp
  let r : Reading S.Data := ⟨uid euid, sessionRand.toNat, p.ctr.toNat, data⟩
  have hreceive : S.receive stats p.arrival = some _ := Script.receive_first hread hnew
  rw [List.map_cons, List.foldlM_cons, hreceive]
  exact foldlM_after_eq_none_iff hS hpackets (Function.update_self _ _ _) rfl
    (Row.After.of_first r p.payload.length p.now)

end Session

/-- **Which orders the error rate survives.**  Those in which the counter of each packet is at
least that of the first one and the number of packets since, as far as the script comes. -/
theorem survives_iff (c : HostScript) (euid : Euid) (sessionRand : UInt32)
    (packets : List TimedPacket)
    (hpackets : ∀ p ∈ packets, c.Packet euid sessionRand p.ctr p.payload)
    (stats : c.script.Stats)
    (hnew : ∀ row, stats (c.uid euid) = some row → row.sessionRand ≠ sessionRand.toNat) :
    Survives c.script stats (packets.map TimedPacket.arrival) ↔
      ∀ first ∈ ((reached packets).map TimedPacket.ctr).head?,
        KeepsUp first.toNat ((reached packets).map TimedPacket.ctr) :=
  survives_first_iff c.reads hpackets hnew

/-- A packet of the battery sample, of the session `7`. -/
def batteryPayload (ctr : UInt32) : List UInt8 := words [0x0ABC1234, 0xF4CE, 7, ctr, 3700]

def batteryPacket (now : ℚ) (ctr : UInt32) : TimedPacket := ⟨now, ctr, batteryPayload ctr⟩

def batteryEuid : Euid := rnbUtilsGetEuid 0xFFFFF4CE0ABC1234

theorem batteryPayload_packet (ctr : UInt32) :
    BatteryPacket batteryEuid 7 ctr (batteryPayload ctr) where
  length := rfl
  euid := by
    show ofLe (words [0x0ABC1234, 0xF4CE]) = batteryEuid.val.toNat
    decide
  sessionRand := rfl
  ctr := rfl

/-- The packet `1` is lost, and `3` comes before `2`. -/
theorem survives_iff_late :
    Survives HostScript.battery.script (fun _ => none)
        ([batteryPacket 0 0, batteryPacket 1 3, batteryPacket 2 2].map TimedPacket.arrival) ↔
      ∀ first ∈ ([0, 3, 2] : List UInt32).head?, KeepsUp first.toNat [0, 3, 2] := by
  have hreached : reached [batteryPacket 0 0, batteryPacket 1 3, batteryPacket 2 2] =
      [batteryPacket 0 0, batteryPacket 1 3, batteryPacket 2 2] :=
    reached_of_nodup (by decide +kernel)
  have hiff := survives_iff .battery batteryEuid 7
    [batteryPacket 0 0, batteryPacket 1 3, batteryPacket 2 2] ?_ (fun _ => none) nofun
  · rw [hreached] at hiff
    exact hiff
  · intro p hp
    simp only [List.mem_cons, List.not_mem_nil, or_false] at hp
    rcases hp with rfl | rfl | rfl <;> exact batteryPayload_packet _

/-- The first two packets of a session in the wrong order: the division is by zero, though the
clock moves on. -/
theorem swapped_not_survives :
    Script.battery.run ([batteryPacket 0 1, batteryPacket 1 0].map TimedPacket.arrival) = none ∧
    ¬ ∀ (c : HostScript) (euid : Euid) (sessionRand : UInt32) (packets : List TimedPacket),
      (∀ p ∈ packets, c.Packet euid sessionRand p.ctr p.payload) →
      Survives c.script (fun _ => none) (packets.map TimedPacket.arrival) := by
  have hsecond : ∀ p ∈ [batteryPacket 1 0], BatteryPacket batteryEuid 7 p.ctr p.payload := by
    intro p hp
    obtain rfl := List.mem_singleton.mp hp
    exact batteryPayload_packet 0
  have hpackets : ∀ p ∈ [batteryPacket 0 1, batteryPacket 1 0],
      BatteryPacket batteryEuid 7 p.ctr p.payload :=
    List.forall_mem_cons.mpr ⟨batteryPayload_packet 1, hsecond⟩
  let stats : Script.battery.Stats := fun _ => none
  have hnew : ∀ row, stats (Script.hexKey batteryEuid.val.toNat) = some row →
      row.sessionRand ≠ (7 : UInt32).toNat := by
    intro row hrow
    cases hrow
  constructor
  · exact (foldlM_first_eq_none_iff Script.battery_reads (p := batteryPacket 0 1)
      (batteryPayload_packet 1) hsecond hnew).mpr ⟨_, List.mem_cons_self, Or.inl rfl⟩
  · intro h
    have hsurvives := h .battery batteryEuid 7 _ hpackets
    have hkeeps := (survives_first_iff HostScript.battery.reads hpackets hnew).mp hsurvives 1 rfl
    exact absurd (hkeeps 1 0 rfl) (by decide)

end RedNodeBus.Telemetry

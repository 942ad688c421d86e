import RedNodeBus.Battery.Fleet
import RedNodeBus.Telemetry.RoundTrip
import RedNodeBus.Telemetry.Rows

/-!
# What is displayed was measured

A row of a script shows the reading of the last packet taken for its UID (`shows_latest`).  So
however the packets of the nodes come, in any order, twice or not at all, what is displayed for a
node is what it measured for the latest of its packets, if the script comes through; and only a
node of which something came has a row.

`Gauge.Measured` says what that is: for accelerometer, over UDP or RNB, the axes that the sensor
gave in the pass that sent the packet, as exact rationals, and for battery the scaled millivolts of
the conversion before it.  `measured_of_sent` finds the pass, or the conversion, of each packet.
-/

namespace RedNodeBus.Telemetry

open Battery (BatteryNode)
open Battery.BatteryNode (rnlW1Board)
open Battery (rnlW1 voltage)

/-! ## The latest packet of a node -/

section Latest

universe u

variable {ι : Type u} [DecidableEq ι]

/-- The latest packet from node `i`. -/
def latest (i : ι) (arrivals : List (ℚ × ι × List UInt8)) : Option (List UInt8) :=
  (arrivals.filterMap fun a => if a.2.1 = i then some a.2.2 else none).getLast?

theorem latest_concat (i : ι) (arrivals : List (ℚ × ι × List UInt8)) (now : ℚ)
    (payload : List UInt8) : latest i (arrivals ++ [(now, i, payload)]) = some payload := by
  rw [latest, List.filterMap_append]
  simp

theorem latest_concat_of_ne {i j : ι} (h : j ≠ i) (arrivals : List (ℚ × ι × List UInt8))
    (now : ℚ) (payload : List UInt8) :
    latest i (arrivals ++ [(now, j, payload)]) = latest i arrivals := by
  rw [latest, latest, List.filterMap_append]
  simp [h]

variable {S : Script} {uid : ι → String}

/-- **A row shows the latest packet**, whatever comes in between for other UIDs. -/
theorem shows_latest {Says : ι → List UInt8 → S.Data → Prop} (hinj : Function.Injective uid)
    {arrivals : List (ℚ × ι × List UInt8)}
    (hreads : ∀ now i payload, (now, i, payload) ∈ arrivals →
      ∃ r, S.read payload = some r ∧ r.euid = uid i ∧ Says i payload r.data)
    {stats : S.Stats} (hrun : S.run (arrivals.map fun a => (a.1, a.2.2)) = some stats) (i : ι) :
    Option.Rel (fun payload (row : Row S.Data) => Says i payload row.data) (latest i arrivals)
      (stats (uid i)) := by
  induction arrivals using List.reverseRecOn generalizing stats with
  | nil =>
    obtain rfl := Option.some.inj hrun
    exact .none
  | append_singleton arrivals a ih =>
    obtain ⟨now, j, payload⟩ := a
    rw [List.map_append, List.map_singleton, Script.run_concat] at hrun
    obtain ⟨stats₀, hrun₀, hreceive⟩ := Option.bind_eq_some_iff.mp hrun
    obtain ⟨r, hread, hr, hsays⟩ := hreads now j payload (by simp)
    obtain ⟨row, rfl, hdata⟩ := Script.update_of_receive hread hreceive
    rw [hr]
    by_cases hj : j = i
    · subst hj
      rw [latest_concat, Function.update_self]
      exact .some (hdata ▸ hsays)
    · rw [latest_concat_of_ne hj, Function.update_of_ne fun h => hj (hinj h).symm]
      exact ih (fun t k p hp => hreads t k p (List.mem_append_left _ hp)) hrun₀

end Latest

/-! ## The samples that measure -/

/-- The samples that measure, with the ways their packets take. -/
inductive Gauge
  | accelerometer
  /-- The driver takes `mtu` bytes. -/
  | accelerometerRnb (mtu : ℕ)
  /-- With the converter's `adc_raw_to_millivolts`. -/
  | battery (adcRawToMillivolts : Int32 → Int32)

namespace Gauge

def script : Gauge → Script
  | .accelerometer => Script.accelerometer
  | .accelerometerRnb _ => Script.accelerometerRnb
  | .battery _ => Script.battery

/-- What happens to a node. -/
def Run : Gauge → Type
  | .accelerometer => List (NodeAct Accelerometer.Act)
  | .accelerometerRnb _ => List (NodeAct AccelerometerRnb.Act)
  | .battery _ => List BatteryNode.Act

/-- What is assumed of a run: of battery, on a `rnl_w1` board, that it is one, that `adc_read`
returns zero or an error, and that its millivolts are those of the reference. -/
def Sound : (c : Gauge) → Euid → c.Run → Prop
  | .accelerometer => fun _ _ => True
  | .accelerometerRnb _ => fun _ _ => True
  | .battery adcRawToMillivolts => fun euid (run : List BatteryNode.Act) =>
    BatteryNode.WithinReference adcRawToMillivolts ∧
      (∃ s, (BatteryNode.machine rnlW1Board adcRawToMillivolts euid).run run = some s) ∧
      (BatteryNode.machine rnlW1Board adcRawToMillivolts euid).Along BatteryNode.Documented
        (BatteryNode.reset rnlW1Board) run

/-- The packet is sent in the run. -/
def Sent : (c : Gauge) → Euid → c.Run → List UInt8 → Prop
  | .accelerometer => fun euid run payload =>
    .item payload ∈ Accelerometer.sender.marks euid run
  | .accelerometerRnb mtu => fun euid run payload =>
    .item payload ∈ (AccelerometerRnb.rnbSender mtu).marks euid run
  | .battery adcRawToMillivolts => fun euid run payload =>
    .sent payload ∈ BatteryNode.events adcRawToMillivolts euid run

/-- What was measured for the packet, in the run. -/
def Measured : (c : Gauge) → Euid → c.Run → List UInt8 → c.script.Data → Prop
  | .accelerometer => fun euid run payload (xyz : ℚ × ℚ × ℚ) =>
    ∃ before o after s, run = before ++ .act (.trigger o) :: after ∧
      (Accelerometer.sender.node euid).run before = some (some s) ∧
      Accelerometer.sentUdp s (.trigger o) = some payload ∧
      xyz = (o.x.value, o.y.value, o.z.value)
  | .accelerometerRnb mtu => fun euid run payload (xyz : ℚ × ℚ × ℚ) =>
    ∃ before o after s, run = before ++ .act (.trigger o) :: after ∧
      ((AccelerometerRnb.rnbSender mtu).node euid).run before = some (some s) ∧
      AccelerometerRnb.sentRnb mtu s (.trigger o) = some payload ∧
      xyz = (o.x.value, o.y.value, o.z.value)
  | .battery adcRawToMillivolts => fun euid run payload (mv : ℤ) =>
    ∃ earlier c later, BatteryNode.events adcRawToMillivolts euid run =
        earlier ++ .converted c :: .sent payload :: later ∧
      c.powered = true ∧ c.adc.rc = 0 ∧ mv = voltage rnlW1 (adcRawToMillivolts c.adc.raw.toInt32)

/-- The script takes these payloads, from its socket or in the messages of the broker, and
leaves these rows. -/
def Leaves : (c : Gauge) → List (ℚ × List UInt8) → c.script.Stats → Prop
  | .accelerometer => fun payloads stats => Script.accelerometer.run payloads = some stats
  | .accelerometerRnb _ => fun payloads stats =>
    ∃ msgs, Script.carried msgs = some payloads ∧
      Script.accelerometerRnb.runRnb msgs = some stats
  | .battery _ => fun payloads stats => Script.battery.run payloads = some stats

def uid (euid : Euid) : String := Script.hexKey euid.val.toNat

variable {c : Gauge} {euid : Euid}

theorem run_of_leaves {payloads : List (ℚ × List UInt8)} {stats : c.script.Stats}
    (h : c.Leaves payloads stats) : c.script.run payloads = some stats := by
  cases c with
  | accelerometer | battery _ => exact h
  | accelerometerRnb mtu =>
    obtain ⟨msgs, hcarried, hrun⟩ := h
    rw [Script.runRnb_eq, hcarried, Option.bind_some] at hrun
    exact hrun

/-! ## Each packet has its measurement -/

/-- The buffer of a node with the RNB client is stamped, as that of the UDP client is. -/
theorem stamped_rnb {mtu : ℕ} {before : List (NodeAct AccelerometerRnb.Act)}
    {s : AccelerometerRnb}
    (h : ((AccelerometerRnb.rnbSender mtu).node euid).run before = some (some s)) :
    ∃ sessionRand, Accelerometer.Stamped euid sessionRand s.app := by
  refine Sender.node_invariant (S := AccelerometerRnb.rnbSender mtu)
    (I := fun t : AccelerometerRnb => ∃ sessionRand, Accelerometer.Stamped euid sessionRand t.app)
    ?_ ?_ h
  · intro sessionRand
    exact ⟨sessionRand, Accelerometer.stamped_initApp euid sessionRand⟩
  · rintro (t : AccelerometerRnb) a (t' : AccelerometerRnb) ⟨sessionRand, hstamped⟩ hs
    have hrel := (AccelerometerRnb.rnbMirrors mtu).step a (rfl : t.app = t.app)
    rw [hs] at hrel
    cases hstep : Accelerometer.sender.step t.app ((AccelerometerRnb.rnbMirrors mtu).act a) with
    | none =>
      rw [hstep] at hrel
      cases hrel
    | some u =>
      rw [hstep] at hrel
      have hR : (AccelerometerRnb.rnbMirrors mtu).R t' u := Option.rel_some_some.mp hrel
      obtain rfl : t'.app = u := hR
      exact ⟨sessionRand, Accelerometer.Stamped.step hstamped hstep⟩

theorem measured_accelerometer {run : List (NodeAct Accelerometer.Act)} {payload : List UInt8}
    (h : .item payload ∈ Accelerometer.sender.marks euid run) :
    ∃ r, Script.accelerometer.read payload = some r ∧ r.euid = uid euid ∧
      Measured .accelerometer euid run payload r.data := by
  obtain ⟨before, a, after, s, rfl, hrun, hmark⟩ := Machine.observe_split h
  cases s with
  | none => cases a <;> cases hmark
  | some s =>
    cases a with
    | boot sessionRand => cases hmark
    | act a =>
      obtain ⟨payload', hsent, hitem⟩ := Option.map_eq_some_iff.mp hmark
      obtain rfl : payload' = payload := Epochs.Mark.item.inj hitem
      obtain ⟨sessionRand, hstamped⟩ : ∃ sessionRand, Accelerometer.Stamped euid sessionRand s :=
        Sender.node_invariant (S := Accelerometer.sender)
          (I := fun t => ∃ sessionRand, Accelerometer.Stamped euid sessionRand t)
          (fun sessionRand => ⟨sessionRand, Accelerometer.stamped_initApp euid sessionRand⟩)
          (fun _ _ _ ⟨sessionRand, ht⟩ hs => ⟨sessionRand, ht.step hs⟩) hrun
      cases a with
      | startClient => cases hsent
      | trigger o =>
        have hsent' : Accelerometer.sentUdp s (.trigger o) = some payload' := hsent
        obtain ⟨-, heq⟩ := Option.ite_none_left_eq_some.mp hsent'
        obtain rfl := Option.some.inj heq
        exact ⟨_, hstamped.read o, rfl, before, o, after, s, rfl, hrun, hsent', rfl⟩

theorem measured_accelerometerRnb {mtu : ℕ} {run : List (NodeAct AccelerometerRnb.Act)}
    {payload : List UInt8} (h : .item payload ∈ (AccelerometerRnb.rnbSender mtu).marks euid run) :
    ∃ r, Script.accelerometerRnb.read payload = some r ∧ r.euid = uid euid ∧
      Measured (.accelerometerRnb mtu) euid run payload r.data := by
  obtain ⟨before, a, after, s, rfl, hrun, hmark⟩ := Machine.observe_split h
  cases s with
  | none => cases a <;> cases hmark
  | some s =>
    cases a with
    | boot sessionRand => cases hmark
    | act a =>
      obtain ⟨payload', hsent, hitem⟩ := Option.map_eq_some_iff.mp hmark
      obtain rfl : payload' = payload := Epochs.Mark.item.inj hitem
      obtain ⟨sessionRand, hstamped⟩ := stamped_rnb hrun
      cases a with
      | startClient => cases hsent
      | trigger o =>
        have hsent' : AccelerometerRnb.sentRnb mtu s (.trigger o) = some payload' := hsent
        obtain ⟨-, heq⟩ := Option.ite_none_left_eq_some.mp hsent'
        rw [AccelerometerRnb.take_writeAt] at heq
        obtain rfl := Option.some.inj heq
        exact ⟨_, hstamped.read o, rfl, before, o, after, s, rfl, hrun, hsent', rfl⟩

theorem packet_of_sent {adcRawToMillivolts : Int32 → Int32} {run : List BatteryNode.Act}
    {payload : List UInt8} (hsound : Sound (.battery adcRawToMillivolts) euid run)
    (h : .sent payload ∈ BatteryNode.events adcRawToMillivolts euid run) :
    ∃ sessionRand ctr, BatteryPacket euid sessionRand ctr payload := by
  obtain ⟨-, ⟨n, hr⟩, -⟩ := hsound
  have hmark : .item payload ∈ (BatteryNode.machine rnlW1Board adcRawToMillivolts euid).observe
      (BatteryNode.mark rnlW1Board) (BatteryNode.reset rnlW1Board) run := by
    refine Machine.mem_observe_of_imp (fun s a => ?_) h
    exact BatteryNode.mark_of_event
  rw [BatteryNode.observe_mark hr] at hmark
  obtain ⟨before, a, after, s, -, hrun, hmark⟩ := Machine.observe_split hmark
  cases s with
  | none => cases a <;> cases hmark
  | some s =>
    cases a with
    | boot sessionRand => cases hmark
    | act a =>
      obtain ⟨payload', hsent, hitem⟩ := Option.map_eq_some_iff.mp hmark
      obtain rfl : payload' = payload := Epochs.Mark.item.inj hitem
      obtain ⟨sessionRand, hstamped⟩ : ∃ sessionRand, BatteryClient.Stamped euid sessionRand s :=
        Sender.node_invariant (S := BatteryClient.sender)
          (I := fun t => ∃ sessionRand, BatteryClient.Stamped euid sessionRand t)
          (fun sessionRand => ⟨sessionRand, BatteryClient.stamped_initApp euid sessionRand⟩)
          (fun _ _ _ ⟨sessionRand, ht⟩ hs => ⟨sessionRand, ht.step hs⟩) hrun
      exact ⟨sessionRand, _, BatteryClient.packet_of_sent hstamped hsent⟩

theorem measured_battery {adcRawToMillivolts : Int32 → Int32} {run : List BatteryNode.Act}
    {payload : List UInt8} (hsound : Sound (.battery adcRawToMillivolts) euid run)
    (h : .sent payload ∈ BatteryNode.events adcRawToMillivolts euid run) :
    ∃ r, Script.battery.read payload = some r ∧ r.euid = uid euid ∧
      Measured (.battery adcRawToMillivolts) euid run payload r.data := by
  obtain ⟨sessionRand, ctr, hpacket⟩ := packet_of_sent hsound h
  obtain ⟨hscales, ⟨n, hr⟩, hadc⟩ := hsound
  obtain ⟨earlier, c, later, hevents, hpowered, hrc, hword⟩ :=
    BatteryNode.voltage_of_sent hscales hr hadc h hpacket.length
  have hread : Script.battery.read payload = some ⟨uid euid, sessionRand.toNat, ctr.toNat,
      voltage rnlW1 (adcRawToMillivolts c.adc.raw.toInt32)⟩ := by
    simp only [Script.battery, hword, hpacket.euid, hpacket.sessionRand, hpacket.ctr,
      Bytes.ofLe_le32, Option.map_some]
    rfl
  exact ⟨_, hread, rfl, earlier, c, later, hevents, hpowered, hrc, rfl⟩

/-- **Each packet has its measurement**, which the script reads in it. -/
theorem measured_of_sent {run : c.Run} {payload : List UInt8} (hsound : c.Sound euid run)
    (h : c.Sent euid run payload) :
    ∃ r, c.script.read payload = some r ∧ r.euid = uid euid ∧ c.Measured euid run payload r.data :=
  match c with
  | .accelerometer => measured_accelerometer h
  | .accelerometerRnb _ => measured_accelerometerRnb h
  | .battery _ => measured_battery hsound h

end Gauge

/-- **What is displayed was measured.**  However and whenever the packets of the nodes come, the
scripts display for each node what it measured for the latest of its packets, and nothing for a
node of which none came. -/
theorem displayed (c : Gauge) {ι : Type} [DecidableEq ι] {euid : ι → Euid}
    (hinj : Function.Injective euid) {run : ι → c.Run} (hsound : ∀ i, c.Sound (euid i) (run i))
    {arrivals : List (ℚ × ι × List UInt8)}
    (hsent : ∀ now i payload, (now, i, payload) ∈ arrivals → c.Sent (euid i) (run i) payload)
    {stats : c.script.Stats} (hrun : c.Leaves (arrivals.map fun a => (a.1, a.2.2)) stats) (i : ι) :
    Option.Rel (fun payload (row : Row c.script.Data) =>
        c.Measured (euid i) (run i) payload row.data) (latest i arrivals)
      (stats (Gauge.uid (euid i))) := by
  have huid : Function.Injective fun i => Gauge.uid (euid i) :=
    Script.battery_reads.injective.comp hinj
  have hreads : ∀ now j payload, (now, j, payload) ∈ arrivals →
      ∃ r, c.script.read payload = some r ∧ r.euid = Gauge.uid (euid j) ∧
        c.Measured (euid j) (run j) payload r.data :=
    fun now j payload hp => Gauge.measured_of_sent (hsound j) (hsent now j payload hp)
  exact shows_latest huid hreads (Gauge.run_of_leaves hrun) i

/-- A tag that sends two packets, with other readings. -/
def twoReadings : List (NodeAct Accelerometer.Act) :=
  [.boot 7, .act (.startClient .tag 0 true true 0),
    .act (.trigger ⟨0, 0, ⟨0, 0⟩, ⟨0, 0⟩, ⟨9, 810000⟩, 40⟩),
    .act (.trigger ⟨0, 0, ⟨1, 500000⟩, ⟨0, 0⟩, ⟨9, 700000⟩, 40⟩)]

/-- The first packet comes once more, after the second one; one a second. -/
def comesAgain : List (ℚ × Unit × List UInt8) :=
  let packets := (Accelerometer.sender.packets batteryEuid twoReadings).map (·.item)
  eachSecond ((packets ++ packets.take 1).map ((), ·))

theorem sent_comesAgain (now : ℚ) (i : Unit) (payload : List UInt8)
    (h : (now, i, payload) ∈ comesAgain) :
    Gauge.accelerometer.Sent batteryEuid twoReadings payload := by
  have hall : ∀ a ∈ comesAgain,
      .item a.2.2 ∈ Accelerometer.sender.marks batteryEuid twoReadings := by decide +kernel
  exact hall (now, i, payload) h

theorem displayed_comesAgain : comesAgain.length = 3 ∧
    ∃ stats, Gauge.accelerometer.Leaves (comesAgain.map fun a => (a.1, a.2.2)) stats ∧
      Option.Rel (fun payload (row : Row (ℚ × ℚ × ℚ)) =>
          Gauge.accelerometer.Measured batteryEuid twoReadings payload row.data)
        (latest () comesAgain) (stats (Gauge.uid batteryEuid)) := by
  refine ⟨by decide +kernel, ?_⟩
  have hcomes : (Script.accelerometer.run
      (comesAgain.map fun a => (a.1, a.2.2))).isSome = true := by
    decide +kernel
  obtain ⟨stats, hrun⟩ := Option.isSome_iff_exists.mp hcomes
  exact ⟨stats, hrun, displayed .accelerometer (Function.injective_of_subsingleton _)
    (fun _ => trivial) sent_comesAgain hrun ()⟩

end RedNodeBus.Telemetry

import RedNodeBus.Battery.Node

/-!
# The datagrams of the battery node

`measured` is what a run of the node tells.  A datagram comes right after its own conversion,
made with the divider powered, which `Inv` gives.  The node performs runs of `BatteryClient`
(`clientRefines`), so that what is known of its packets holds of this node's.  And with a pin
that does what it is told, the divider is powered just while the node measures (`PowerInv`).

On the `rnl_w1` boards the voltage is then exact (`datagrams_exact`).  A negative reading comes
out of `battery_sample` wrong, but negative (`quotient_rnlW1_neg`), and `battery_send_value`
sends no negative value.
-/

namespace RedNodeBus.Battery

open Bytes Telemetry

namespace BatteryNode

variable {board : Board} {adcRawToMillivolts : Int32 → Int32} {euid : Euid} {s s' : BatteryNode}
  {a : Act} {t : Option BatteryClient}

/-! ## The node performs runs of the client -/

/-- The act of the client a call performs: a pass counts when its outcome is known. -/
def clientAct (board : Board) (adcRawToMillivolts : Int32 → Int32) (s : BatteryNode) (a : Act) :
    Option (NodeAct BatteryClient.Act) :=
  if a.pc?.all (· = s.pc) then
    match a with
    | .initApp sessionRand => some (.boot sessionRand)
    | .startUdp ret => some (.act (.start ret))
    | .measureEnable ret =>
      let rc := (batteryMeasureEnable board true ret s.soc).1
      if rc ≠ 0 then some (.act (.pass rc.toInt 0 0)) else none
    | .sample adc =>
      let battMv := (batterySample board.divider adcRawToMillivolts adc s.soc.driver).1
      if battMv < 0 then some (.act (.pass 0 battMv 0)) else none
    | .send ret => some (.act (.pass 0 s.battMv.toInt32 ret))
    | .reset | .setup _ | .isConnected _ | .measureDisable _ | .battStat _ => none
  else none

/-- A session begins, or `send` accepts a datagram. -/
def mark (board : Board) (s : BatteryNode) (a : Act) :
    Option (Epochs.Mark UInt32 (List UInt8)) :=
  if a.pc?.all (· = s.pc) then
    match a with
    | .initApp sessionRand => some (.epoch sessionRand)
    | .send _ =>
      match s.event board a with
      | some (.sent payload) => some (.item payload)
      | _ => none
    | .reset | .setup _ | .isConnected _ | .startUdp _ | .measureEnable _ | .sample _
    | .measureDisable _ | .battStat _ => none
  else none

/-- What `send` accepts is marked. -/
theorem mark_of_event {payload : List UInt8} (h : s.event board a = some (.sent payload)) :
    s.mark board a = some (.item payload) := by
  by_cases hpc : a.pc?.all (· = s.pc) = true
  · cases a with
    | send ret => simp only [mark, hpc, if_true, h]
    | reset | setup ans | isConnected connected | initApp sessionRand | startUdp ret
    | measureEnable ret | sample adc | measureDisable ret | battStat reads => simp [event, hpc] at h
  · simp [event, hpc] at h

/-- The client of the node.  Before `send` the node has put the voltage into the buffer. -/
def Follows (s : BatteryNode) (t : Option BatteryClient) : Prop :=
  match s.pc with
  | .setup | .isConnected | .initApp => s.packetsSent = 0
  | .startUdp => t = some ⟨s.packetBuffer, s.packetsSent, false, false⟩
  | .measureEnable | .sample | .measureDisable =>
    t = some ⟨s.packetBuffer, s.packetsSent, true, true⟩
  | .send => ∃ c : BatteryClient, t = some c ∧ c.started = true ∧ c.looping = true ∧
      c.packetsSent = s.packetsSent ∧ ¬ s.battMv.toInt32 < 0 ∧
      s.packetBuffer = (c.putMv s.battMv.toInt32).packetBuffer
  | .returned => t = some ⟨s.packetBuffer, s.packetsSent, true, false⟩

def clientStep (euid : Euid) (t : Option BatteryClient) (b : NodeAct BatteryClient.Act) :
    Option (Option BatteryClient) := (BatteryClient.sender.node euid).step t b

theorem clientStep_act (c : BatteryClient) (b : BatteryClient.Act) :
    clientStep euid (some c) (.act b) = (c.step b).map some := rfl

/-- What the client does in a step of the node: nothing, or its own step. -/
def Performs (euid : Euid) (s' : BatteryNode) (t : Option BatteryClient) :
    Option (NodeAct BatteryClient.Act) → Prop
  | none => Follows s' t
  | some b => ∃ t', clientStep euid t b = some t' ∧ Follows s' t'

theorem follows_startUdp {ret : Int} (hs : s.pc = .startUdp) (hR : Follows s t) :
    ∃ t', clientStep euid t (.act (.start ret)) = some t' ∧
      Follows { s with pc := if ret = 0 then .measureEnable else .returned } t' := by
  simp only [Follows, hs] at hR
  subst hR
  refine ⟨some ⟨s.packetBuffer, s.packetsSent, true, ret = 0⟩, rfl, ?_⟩
  by_cases hret : ret = 0 <;> simp [Follows, hret]

theorem follows_measureEnable {ret : Int32} (hs : s.pc = .measureEnable) (hR : Follows s t) :
    Performs euid { s with
        soc := (batteryMeasureEnable board true ret s.soc).2
        pc := if (batteryMeasureEnable board true ret s.soc).1 ≠ 0 then .returned else .sample } t
      (if (batteryMeasureEnable board true ret s.soc).1 ≠ 0 then
        some (.act (.pass (batteryMeasureEnable board true ret s.soc).1.toInt 0 0)) else none) := by
  simp only [Follows, hs] at hR
  by_cases hrc : (batteryMeasureEnable board true ret s.soc).1 = 0
  · simp only [hrc, ne_eq, not_true_eq_false, if_false]
    exact hR
  · have hint : (batteryMeasureEnable board true ret s.soc).1.toInt ≠ 0 := by
      intro h
      exact hrc (Int32.toInt_inj.mp h)
    simp only [ne_eq, hrc, not_false_eq_true, if_true]
    subst hR
    refine ⟨some ⟨s.packetBuffer, s.packetsSent, true, false⟩, ?_, ?_⟩
    · simp [clientStep_act, BatteryClient.step, hint]
    · simp [Follows]

theorem follows_sample {mv : Int32} {soc : Soc} (hs : s.pc = .sample) (hR : Follows s t) :
    Performs euid
      (if mv < 0 then { s with soc := soc, pc := .measureDisable }
        else { s with
          soc := soc
          packetBuffer := s.packetBuffer.set 4 mv.toUInt32 battMv_lt
          pc := .send }) t
      (if mv < 0 then some (.act (.pass 0 mv 0)) else none) := by
  simp only [Follows, hs] at hR
  subst hR
  by_cases hmv : mv < 0
  · rw [if_pos hmv, if_pos hmv]
    refine ⟨some ⟨s.packetBuffer, s.packetsSent, true, true⟩, ?_, ?_⟩
    · simp [clientStep_act, BatteryClient.step, hmv]
    · simp [Follows]
  · rw [if_neg hmv, if_neg hmv]
    refine ⟨_, rfl, rfl, rfl, rfl, ?_, ?_⟩
    · simpa [battMv] using hmv
    · simp [BatteryClient.putMv, battMv]

theorem follows_send {ret : Int} (hs : s.pc = .send) (hR : Follows s t) :
    ∃ t', clientStep euid t (.act (.pass 0 s.battMv.toInt32 ret)) = some t' ∧
      Follows { s with
        packetBuffer := s.packetBuffer.set 3 s.packetsSent counter_lt
        packetsSent := s.packetsSent + 1
        pc := .measureDisable } t' := by
  simp only [Follows, hs] at hR
  obtain ⟨c, rfl, hstarted, hlooping, hcount, hmv, hbuffer⟩ := hR
  refine ⟨some ⟨s.packetBuffer.set 3 s.packetsSent counter_lt, s.packetsSent + 1, true, true⟩,
    ?_, rfl⟩
  rw [clientStep_act]
  simp only [BatteryClient.step, hlooping, if_true, ne_eq, not_true_eq_false, if_false, hmv,
    BatteryClient.afterSendUdpData, BatteryClient.transmitting_eq, Option.map_some]
  rw [BatteryClient.putCounter, ← hbuffer]
  simp [BatteryClient.putMv, hcount, hstarted, hlooping]

theorem follows_step (hR : Follows s t) (h : step board adcRawToMillivolts euid s a = some s') :
    Performs euid s' t (clientAct board adcRawToMillivolts s a) := by
  obtain ⟨hpc, h⟩ := step_cases h
  cases a with
  | reset =>
    obtain rfl := Option.some.inj h
    exact rfl
  | setup ans =>
    obtain rfl := Option.some.inj h
    have hs : s.pc = .setup := at_of_pc? hpc rfl
    simp only [Follows, hs] at hR
    simp only [clientAct, hpc, if_true]
    exact hR
  | isConnected connected =>
    obtain rfl := Option.some.inj h
    have hs : s.pc = .isConnected := at_of_pc? hpc rfl
    simp only [clientAct, hpc, if_true]
    cases connected with
    | false => exact hR
    | true =>
      simp only [Follows, hs] at hR
      exact hR
  | initApp sessionRand =>
    obtain rfl := Option.some.inj h
    have hs : s.pc = .initApp := at_of_pc? hpc rfl
    simp only [Follows, hs] at hR
    simp only [clientAct, hpc, if_true]
    refine ⟨some (BatteryClient.initApp euid sessionRand), rfl, ?_⟩
    simp only [Follows, hR]
    rfl
  | startUdp ret =>
    obtain rfl := Option.some.inj h
    simp only [clientAct, hpc, if_true]
    exact follows_startUdp (at_of_pc? hpc rfl) hR
  | measureEnable ret =>
    obtain rfl := Option.some.inj h
    simp only [clientAct, hpc, if_true]
    exact follows_measureEnable (at_of_pc? hpc rfl) hR
  | sample adc =>
    obtain rfl := Option.some.inj h
    simp only [clientAct, hpc, if_true]
    exact follows_sample (at_of_pc? hpc rfl) hR
  | send ret =>
    simp only [perform, BatteryClient.transmitting_eq] at h
    obtain rfl := Option.some.inj h
    simp only [clientAct, hpc, if_true]
    exact follows_send (at_of_pc? hpc rfl) hR
  | measureDisable ret =>
    obtain rfl := Option.some.inj h
    have hs : s.pc = .measureDisable := at_of_pc? hpc rfl
    simp only [Follows, hs] at hR
    simp only [clientAct, hpc, if_true]
    exact hR
  | battStat reads =>
    have h : (if s.soc.statCallback then _ else none) = some s' := h
    split at h
    · obtain rfl := Option.some.inj h
      simp only [clientAct, hpc, if_true]
      exact hR
    · cases h

/-- **The node performs runs of `BatteryClient`**, on what its drivers return. -/
def clientRefines (board : Board) (adcRawToMillivolts : Int32 → Int32) (euid : Euid) :
    Machine.Refines (machine board adcRawToMillivolts euid) (BatteryClient.sender.node euid)
      (fun _ _ => True) (clientAct board adcRawToMillivolts) where
  R := Follows
  init := rfl
  step := by
    rintro s t a s' hR - h
    have hperforms := follows_step hR h
    cases hact : clientAct board adcRawToMillivolts s a with
    | none =>
      rw [hact] at hperforms
      exact hperforms
    | some b =>
      rw [hact] at hperforms
      exact hperforms

def clientMark (t : Option BatteryClient) (b : NodeAct BatteryClient.Act) :
    Option (Epochs.Mark UInt32 (List UInt8)) := BatteryClient.sender.mark t b

theorem clientMark_act (c : BatteryClient) (b : BatteryClient.Act) :
    clientMark (some c) (.act b) = (c.sentUdp b).map .item := rfl

/-- The sessions and the datagrams of the node are those of its client. -/
theorem mark_eq (hR : Follows s t) (a : Act) :
    s.mark board a = (clientAct board adcRawToMillivolts s a).bind (clientMark t) := by
  by_cases hpc : a.pc?.all (· = s.pc) = true
  · cases a with
    | reset | setup ans | isConnected connected | measureDisable ret | battStat reads =>
      simp only [mark, clientAct, hpc, if_true, Option.bind_none]
    | initApp sessionRand =>
      simp only [mark, clientAct, hpc, if_true]
      rfl
    | startUdp ret =>
      have hs : s.pc = .startUdp := at_of_pc? hpc rfl
      simp only [Follows, hs] at hR
      simp only [mark, clientAct, hpc, if_true, hR]
      rfl
    | measureEnable ret =>
      have hs : s.pc = .measureEnable := at_of_pc? hpc rfl
      simp only [Follows, hs] at hR
      simp only [mark, clientAct, hpc, if_true, hR]
      by_cases hrc : (batteryMeasureEnable board true ret s.soc).1 = 0
      · simp [hrc]
      · have hint : (batteryMeasureEnable board true ret s.soc).1.toInt ≠ 0 := by
          intro h
          exact hrc (Int32.toInt_inj.mp h)
        simp [hrc, clientMark_act, BatteryClient.sentUdp, hint]
    | sample adc =>
      have hs : s.pc = .sample := at_of_pc? hpc rfl
      simp only [Follows, hs] at hR
      simp only [mark, clientAct, hpc, if_true, hR]
      by_cases hmv : (batterySample board.divider adcRawToMillivolts adc s.soc.driver).1 < 0
      · simp [hmv, clientMark_act, BatteryClient.sentUdp]
      · simp [hmv]
    | send ret =>
      have hs : s.pc = .send := at_of_pc? hpc rfl
      simp only [Follows, hs] at hR
      obtain ⟨c, rfl, -, -, hcount, hmv, hbuffer⟩ := hR
      have hpacket : ((c.putMv s.battMv.toInt32).putCounter.packet) =
          words (s.packetBuffer.set 3 s.packetsSent counter_lt).toList := by
        rw [BatteryClient.packet, BatteryClient.putCounter, ← hbuffer]
        simp [BatteryClient.putMv, hcount]
      simp only [mark, event, clientAct, hpc, if_true, Option.bind_some, clientMark_act,
        BatteryClient.sentUdp, BatteryClient.transmitting_eq, hpacket, hmv]
      by_cases hret : ret < 0 <;> simp [hret]
  · simp only [mark, clientAct, hpc]
    rfl

/-! ## Between the conversions -/

/-- The main thread is between `battery_measure_enable(true)` and the call that undoes it. -/
def Measuring (s : BatteryNode) : Prop :=
  s.pc = .sample ∨ s.pc = .send ∨ s.pc = .measureDisable

instance (s : BatteryNode) : Decidable s.Measuring := inferInstanceAs (Decidable (_ ∨ _))

/-- The pin of the divider does what it is told. -/
def PinObeys (_ : BatteryNode) : Act → Prop
  | .measureEnable ret | .measureDisable ret => ret = 0
  | _ => True

/-- The divider is powered just while the node measures. -/
structure PowerInv (board : Board) (s : BatteryNode) : Prop where
  ok : s.Measuring → s.soc.driver.batteryOk = true
  power : board.powerPort = true → (s.soc.power = true ↔ s.Measuring)

theorem PowerInv.same (hI : PowerInv board s)
    (hok : s'.soc.driver.batteryOk = s.soc.driver.batteryOk) (hpower : s'.soc.power = s.soc.power)
    (hm : s'.Measuring ↔ s.Measuring) : PowerInv board s' := by
  constructor
  · rw [hok, hm]
    exact hI.ok
  · rw [hpower, hm]
    exact hI.power

theorem dividerSetup_power (ans : DividerAnswers) (h : Soc) :
    (dividerSetup board ans h).2.power = true → h.power = true := by
  rw [dividerSetup]
  split_ifs with hadc hport hpin hpower
  · exact id
  · exact id
  · exact id
  · simp
  · exact id

theorem batteryMeasureEnable_ok {enable : Bool} {h : Soc} (hok : h.driver.batteryOk = true) :
    batteryMeasureEnable board enable 0 h =
      (0, if board.powerPort then { h with power := enable } else h) := by
  rw [batteryMeasureEnable, if_pos hok]
  split_ifs with hport hzero
  · rfl
  · exact absurd rfl hzero
  · rfl

theorem batterySample_batteryOk (board : Board) (adcRawToMillivolts : Int32 → Int32)
    (adc : AdcRead) (d : Driver) :
    (batterySample board.divider adcRawToMillivolts adc d).2.batteryOk = d.batteryOk := by
  rw [batterySample]
  split_ifs <;> rfl

theorem powerInv_step (hI : PowerInv board s) (ha : s.PinObeys a)
    (h : step board adcRawToMillivolts euid s a = some s') : PowerInv board s' := by
  obtain ⟨hpc, h⟩ := step_cases h
  cases a with
  | reset =>
    obtain rfl := Option.some.inj h
    constructor <;> simp [reset, Measuring]
  | setup ans =>
    obtain rfl := Option.some.inj h
    have hs : s.pc = .setup := at_of_pc? hpc rfl
    have hm : ¬ s.Measuring := by simp [Measuring, hs]
    obtain ⟨hpower, -⟩ := batterySetup_frame board ans s.soc
    constructor
    · simp [Measuring]
    · intro hport
      refine iff_of_false ?_ (by simp [Measuring])
      intro hset
      exact hm ((hI.power hport).mp (dividerSetup_power ans.divider s.soc (hpower ▸ hset)))
  | isConnected connected =>
    obtain rfl := Option.some.inj h
    have hs : s.pc = .isConnected := at_of_pc? hpc rfl
    refine hI.same ?_ ?_ ?_ <;> cases connected <;> simp [Measuring, hs]
  | initApp sessionRand =>
    obtain rfl := Option.some.inj h
    have hs : s.pc = .initApp := at_of_pc? hpc rfl
    exact hI.same rfl rfl (by simp [Measuring, hs])
  | startUdp ret =>
    obtain rfl := Option.some.inj h
    have hs : s.pc = .startUdp := at_of_pc? hpc rfl
    refine hI.same rfl rfl ?_
    by_cases hret : ret = 0 <;> simp [Measuring, hs, hret]
  | measureEnable ret =>
    simp only [perform, Option.some.injEq] at h
    obtain rfl : ret = 0 := ha
    subst h
    have hs : s.pc = .measureEnable := at_of_pc? hpc rfl
    by_cases hok : s.soc.driver.batteryOk = true
    · rw [batteryMeasureEnable_ok hok]
      by_cases hport : board.powerPort = true
      · constructor <;> simp [Measuring, hok, hport]
      · constructor <;> simp [Measuring, hok, hport]
    · rw [batteryMeasureEnable, if_neg hok]
      exact hI.same rfl rfl (by simp [Measuring, hs, enoent])
  | sample adc =>
    simp only [perform, Option.some.injEq] at h
    subst h
    have hs : s.pc = .sample := at_of_pc? hpc rfl
    have hok := batterySample_batteryOk board adcRawToMillivolts adc s.soc.driver
    by_cases hmv : (batterySample board.divider adcRawToMillivolts adc s.soc.driver).1 < 0
    · rw [if_pos hmv]
      exact hI.same hok rfl (by simp [Measuring, hs])
    · rw [if_neg hmv]
      exact hI.same hok rfl (by simp [Measuring, hs])
  | send ret =>
    have hs : s.pc = .send := at_of_pc? hpc rfl
    simp only [perform, BatteryClient.transmitting_eq] at h
    obtain rfl := Option.some.inj h
    exact hI.same rfl rfl (by simp [Measuring, hs])
  | measureDisable ret =>
    simp only [perform, Option.some.injEq] at h
    obtain rfl : ret = 0 := ha
    subst h
    have hs : s.pc = .measureDisable := at_of_pc? hpc rfl
    rw [batteryMeasureEnable_ok (hI.ok (Or.inr (Or.inr hs)))]
    constructor <;> simp +contextual [Measuring]
  | battStat reads =>
    have h : (if s.soc.statCallback then _ else none) = some s' := h
    split at h
    · obtain rfl := Option.some.inj h
      obtain ⟨hdriver, hpower⟩ := battStatChanged_frame reads s.soc
      exact hI.same (congrArg Driver.batteryOk hdriver) hpower Iff.rfl
    · cases h

/-! ## Runs -/

/-- What is known of the node after a run. -/
structure Measured (board : Board) (adcRawToMillivolts : Int32 → Int32) (euid : Euid)
    (as : List Act) (s : BatteryNode) : Prop where
  /-- A conversion is made with the divider set up and powered, and calibrates if it is the
  first since the reset; a datagram comes right after the conversion it tells of. -/
  may : ∀ before e after,
    (machine board adcRawToMillivolts euid).observe (event board) (reset board) as
      = before ++ e :: after → May board adcRawToMillivolts before e
  /-- The sessions and the datagrams are those of a run of the client. -/
  client : (∃ t, (BatteryClient.sender.node euid).run ((machine board adcRawToMillivolts
      euid).observe (clientAct board adcRawToMillivolts) (reset board) as) = some t) ∧
    (machine board adcRawToMillivolts euid).observe (mark board) (reset board) as =
      BatteryClient.sender.marks euid ((machine board adcRawToMillivolts euid).observe
        (clientAct board adcRawToMillivolts) (reset board) as)
  /-- With a pin that does what it is told, the divider is powered just while the node
  measures. -/
  off : board.powerPort = true →
    (machine board adcRawToMillivolts euid).Along PinObeys (reset board) as →
    (s.soc.power = true ↔ s.Measuring)

/-- The sessions and the datagrams of a run are those of a run of the client. -/
theorem observe_mark {as : List Act}
    (hr : (machine board adcRawToMillivolts euid).run as = some s) :
    (machine board adcRawToMillivolts euid).observe (mark board) (reset board) as =
      BatteryClient.sender.marks euid ((machine board adcRawToMillivolts euid).observe
        (clientAct board adcRawToMillivolts) (reset board) as) :=
  (clientRefines board adcRawToMillivolts euid).observe_eq (fun _ _ a hR _ => mark_eq hR a)
    (clientRefines board adcRawToMillivolts euid).init
    (Machine.along_trivial (fun _ _ => trivial) _ as) hr

theorem may_of_run {as : List Act}
    (hr : (machine board adcRawToMillivolts euid).run as = some s)
    (hadc : (machine board adcRawToMillivolts euid).Along Documented (reset board) as) :
    ∀ before e after,
      (machine board adcRawToMillivolts euid).observe (event board) (reset board) as
        = before ++ e :: after → May board adcRawToMillivolts before e :=
  Machine.history_each (I := Inv board adcRawToMillivolts)
    (fun _ _ _ _ hI ha hs => inv_step hI ha hs) (fun _ _ _ _ hI _ _ _ he => may_event hI he)
    inv_reset hadc hr

/-- **A datagram is worth its conversion**, in every run of the node: every order of calls,
changes of BATT_STAT and resets, and whatever the drivers answer. -/
theorem measured (board : Board) (adcRawToMillivolts : Int32 → Int32) (euid : Euid)
    {as : List Act} {s : BatteryNode}
    (hr : (machine board adcRawToMillivolts euid).run as = some s)
    (hadc : (machine board adcRawToMillivolts euid).Along Documented (reset board) as) :
    Measured board adcRawToMillivolts euid as s := by
  have htrivial := Machine.along_trivial (M := machine board adcRawToMillivolts euid)
    (P := fun _ _ => True) (fun _ _ => trivial) (reset board) as
  constructor
  case may => exact may_of_run hr hadc
  case client =>
    obtain ⟨t, ht, -⟩ := (clientRefines board adcRawToMillivolts euid).run htrivial hr
    exact ⟨⟨t, ht⟩, observe_mark hr⟩
  case off =>
    intro hport hobeys
    have hreset : PowerInv board (reset board) := by
      constructor <;> simp [reset, Measuring]
    have hI := Machine.invariant (I := PowerInv board)
      (fun _ _ _ hI ha hs => powerInv_step hI ha hs) hreset hobeys hr
    exact hI.power hport

def goodAnswers : SetupAnswers where
  divider := ⟨true, true, 0, 0⟩
  pwrGood := ⟨true, 0, 0⟩
  battStat := ⟨true, 0, 0⟩
  led := ⟨true, 0⟩
  reads := ⟨1, 1⟩

/-- The `rnl_w1` boards. -/
def rnlW1Board : Board := ⟨rnlW1, true, true⟩

/-- Three passes: a negative reading, an error of the converter, and a voltage; and the
interrupt in the middle of the last one. -/
def threePasses : List Act :=
  [.setup goodAnswers, .isConnected false, .isConnected true, .initApp 7, .startUdp 0,
    .measureEnable 0, .sample ⟨0, -1⟩, .measureDisable 0,
    .measureEnable 0, .sample ⟨-5, 3⟩, .measureDisable 0,
    .measureEnable 0, .sample ⟨0, 12000⟩, .battStat ⟨0, 1⟩, .send 0]

theorem measured_threePasses :
    ∃ s, (machine rnlW1Board millivolts (rnbUtilsGetEuid 0xFFFFF4CE0ABC1234)).run threePasses
        = some s ∧ s.packetsSent = 1 ∧
      Measured rnlW1Board millivolts (rnbUtilsGetEuid 0xFFFFF4CE0ABC1234) threePasses s := by
  obtain ⟨s, hr, hs⟩ := (Option.any_eq_true (fun s : BatteryNode => decide (s.packetsSent = 1))
    ((machine rnlW1Board millivolts (rnbUtilsGetEuid 0xFFFFF4CE0ABC1234)).run threePasses)).mp
    (by decide +kernel)
  exact ⟨s, hr, of_decide_eq_true hs, measured rnlW1Board millivolts _ hr (by decide +kernel)⟩

/-! ## The voltage on the `rnl_w1` boards -/

/-- `adc_raw_to_millivolts` multiplies by the reference, 600 mV on these boards, and divides by
the resolution: it makes at most 600 mV of each unit that is read. -/
def WithinReference (adcRawToMillivolts : Int32 → Int32) : Prop :=
  ∀ raw : Int16, (adcRawToMillivolts raw.toInt32).toInt.natAbs ≤ 600 * raw.toInt.natAbs

theorem millivolts_toInt (raw : Int16) :
    (millivolts raw.toInt32).toInt = raw.toInt * 600 / 2 ^ 14 := by
  have hlo := Int16.le_toInt raw
  have hhi := Int16.toInt_lt raw
  have hprod : (raw.toInt32 * 600).toInt = raw.toInt * 600 := by
    rw [Int32.toInt_mul, Int16.toInt_toInt32]
    exact Int.bmod_eq_of_le (by show _ ≤ raw.toInt * 600; omega)
      (by show raw.toInt * 600 < _; omega)
  rw [millivolts, ← Int32.toInt_toBitVec, Int32.toBitVec_shiftRight, BitVec.toInt_sshiftRight',
    Int32.toInt_toBitVec, hprod]
  exact Int.shiftRight_eq_div_pow _ _

theorem withinReference_millivolts : WithinReference millivolts := by
  intro raw
  rw [millivolts_toInt]
  omega

theorem rnlW1_ohms : (rnlW1.fullOhm.toNat : ℤ) = 1680000 ∧ rnlW1.outputOhm.toNat = 180000 := by
  decide

theorem quotient_rnlW1_neg {val : Int32} (hlo : -19660800 ≤ val.toInt) (hneg : val.toInt < 0) :
    quotient rnlW1 val < 0 := by
  have hmod : (val.toInt * 1680000) % 2 ^ 64 = 2 ^ 64 + val.toInt * 1680000 := by
    rw [← Int.add_emod_left, Int.emod_eq_of_lt (by omega) (by omega)]
  obtain ⟨q, hq⟩ : ∃ q : ℕ, ((val.toInt * 1680000) % 2 ^ 64).toNat / 180000 = q := ⟨_, rfl⟩
  have hupper : q ≤ 2 ^ 64 / 180000 := by
    rw [← hq, hmod]
    exact Nat.div_le_div_right (by omega)
  have hlower : 2 ^ 64 / 180000 - 183500801 ≤ q := by
    rw [← hq, hmod, Nat.le_div_iff_mul_le (by decide)]
    omega
  obtain ⟨hfull, hout⟩ := rnlW1_ohms
  rw [Int32.lt_iff_toInt_lt, quotient_toInt, hfull, hout, hq, Int.bmod_def, Int32.toInt_zero]
  have hupper' : q ≤ 102481911520608 := hupper
  have hlower' : 102481728019807 ≤ q := hlower
  clear hq hmod hupper hlower
  norm_num
  omega

/-- A value that is sent is the millivolts of the reading, scaled right. -/
theorem value_rnlW1 (hscales : WithinReference adcRawToMillivolts) {raw : Int16}
    (h : 0 ≤ value rnlW1Board adcRawToMillivolts raw) :
    (value rnlW1Board adcRawToMillivolts raw).toInt =
        voltage rnlW1 (adcRawToMillivolts raw.toInt32) ∧
      0 ≤ (adcRawToMillivolts raw.toInt32).toInt := by
  have hvalue : value rnlW1Board adcRawToMillivolts raw =
      quotient rnlW1 (adcRawToMillivolts raw.toInt32) := if_pos (by decide)
  have hraw := hscales raw
  have hlo := Int16.le_toInt raw
  have hhi := Int16.toInt_lt raw
  rw [hvalue] at h ⊢
  have hnonneg : 0 ≤ (adcRawToMillivolts raw.toInt32).toInt := by
    by_contra hneg
    exact Int32.not_lt.mpr h (quotient_rnlW1_neg (by omega) (not_le.mp hneg))
  refine ⟨quotient_of_nonneg hnonneg ?_, hnonneg⟩
  obtain ⟨hfull, hout⟩ := rnlW1_ohms
  rw [FitsInt, voltage, hfull, hout, Int.tdiv_eq_ediv_of_nonneg (by omega)]
  omega

/-- **On the `rnl_w1` boards every datagram tells the scaled millivolts** of the conversion
made right before it on the powered divider, although `battery_sample` returns nonsense for a
negative reading: that is not sent. -/
theorem datagrams_exact {adcRawToMillivolts : Int32 → Int32}
    (hscales : WithinReference adcRawToMillivolts) (euid : Euid) {as : List Act}
    {s : BatteryNode} (hr : (machine rnlW1Board adcRawToMillivolts euid).run as = some s)
    (hadc : (machine rnlW1Board adcRawToMillivolts euid).Along Documented (reset rnlW1Board) as) :
    ∀ before payload after,
      (machine rnlW1Board adcRawToMillivolts euid).observe (event rnlW1Board) (reset rnlW1Board)
          as = before ++ .sent payload :: after →
      ∃ earlier c, before = earlier ++ [.converted c] ∧ c.powered = true ∧ c.adc.rc = 0 ∧
        0 ≤ voltage rnlW1 (adcRawToMillivolts c.adc.raw.toInt32) ∧
        (ofLe (slice 16 4 payload) : ℤ) =
          voltage rnlW1 (adcRawToMillivolts c.adc.raw.toInt32) := by
  intro before payload after he
  obtain ⟨battMv, ⟨earlier, c, rfl, hrc, hmv, rfl⟩, hword⟩ :=
    may_of_run hr hadc before _ after he
  obtain ⟨hexact, hnonneg⟩ := value_rnlW1 hscales hmv
  rw [List.append_assoc, List.singleton_append] at he
  obtain ⟨-, hpowered, -⟩ := may_of_run hr hadc earlier _ _ he
  refine ⟨earlier, c, rfl, hpowered, hrc, ?_, ?_⟩
  · rw [← hexact]
    exact Int32.le_iff_toInt_le.mp hmv
  · rw [hword, ofLe_le32, ← hexact, Int32.toNat_toUInt32_of_le hmv]
    exact (Int32.toInt_eq_toNatClampNeg hmv).symm

theorem datagrams_exact_threePasses :
    ∃ s, (machine rnlW1Board millivolts (rnbUtilsGetEuid 0xFFFFF4CE0ABC1234)).run threePasses
        = some s ∧ s.packetsSent = 1 ∧
      ∀ before payload after,
        (machine rnlW1Board millivolts (rnbUtilsGetEuid 0xFFFFF4CE0ABC1234)).observe
            (event rnlW1Board) (reset rnlW1Board) threePasses = before ++ .sent payload :: after →
        ∃ earlier c, before = earlier ++ [.converted c] ∧ c.powered = true ∧ c.adc.rc = 0 ∧
          0 ≤ voltage rnlW1 (millivolts c.adc.raw.toInt32) ∧
          (ofLe (slice 16 4 payload) : ℤ) = voltage rnlW1 (millivolts c.adc.raw.toInt32) := by
  obtain ⟨s, hr, hs⟩ := (Option.any_eq_true (fun s : BatteryNode => decide (s.packetsSent = 1))
    ((machine rnlW1Board millivolts (rnbUtilsGetEuid 0xFFFFF4CE0ABC1234)).run threePasses)).mp
    (by decide +kernel)
  exact ⟨s, hr, of_decide_eq_true hs,
    datagrams_exact withinReference_millivolts _ hr (by decide +kernel)⟩

end BatteryNode

end RedNodeBus.Battery

import RedNodeBus.Battery.Datagrams
import RedNodeBus.Telemetry.ArrivalOrder
import RedNodeBus.Telemetry.LossAccounting

/-!
# What the table of battery.py shows

`send_udp_data` counts its calls of `send`, so what `battery.py` calls lost is not what the
network lost.  It is still an exact account: a call that fails is a packet that nobody will
receive.  So let `calls` number the calls of the node, failed or not, and let a `Fleet` be any
number of nodes with what reaches the host of the packets that were accepted.  Then the tally of
the script is right for the calls (`Epochs.tally_exact`), and what it calls lost is what the
network lost and what failed, of the session, between the first and the last packet delivered.

The other column is the voltage.  A packet that arrives was sent right after its conversion, and on
the `rnl_w1` boards it carries the scaled millivolts of it (`voltage_of_sent`).  `shown` puts both
together.
-/

namespace RedNodeBus.Telemetry.BatteryClient

open Bytes

variable {euid : Euid} {sessionRand : UInt32} {s s' : BatteryClient}

/-- The packet with which a step calls `send`. -/
def called (s : BatteryClient) : Act → Option (List UInt8)
  | .start _ => none
  | .pass measureEnable battMv _ =>
    if measureEnable ≠ 0 ∨ battMv < 0 then none
    else transmitting.map fun transmitting => (s.putMv battMv).putCounter.packet.take transmitting

/-- The client, with all its calls for its packets. -/
def caller : Sender := { sender with sent := called }

theorem node_caller (euid : Euid) :
    (caller.node euid : Machine (Option BatteryClient) (NodeAct Act)) = sender.node euid := by
  refine congrArg (Machine.mk none) ?_
  funext s a
  cases s <;> cases a <;> rfl

theorem called_eq_some {a : Act} {payload : List UInt8} (h : s.called a = some payload) :
    sends a ∧ ∃ battMv, payload = (s.putMv battMv).putCounter.packet := by
  cases a with
  | start ret => cases h
  | pass measureEnable battMv ret =>
    obtain ⟨hok, hpayload⟩ := Option.ite_none_left_eq_some.mp h
    rw [not_or, not_not] at hok
    rw [transmitting_eq, Option.map_some, Option.some.injEq,
      List.take_of_length_le (length_packet _).le] at hpayload
    exact ⟨hok, battMv, hpayload.symm⟩

theorem not_sends_of_not_called {a : Act} (h : s.called a = none) : ¬ sends a := by
  intro hsends
  cases a with
  | start ret => exact hsends
  | pass measureEnable battMv ret =>
    obtain ⟨hme, hmv⟩ := hsends
    rw [called, if_neg (by simp [hme, hmv]), transmitting_eq] at h
    cases h

/-- The packet is stamped, and the counter is the number of calls before. -/
def Counted (euid : Euid) (sessionRand n : UInt32) (s : BatteryClient) : Prop :=
  Stamped euid sessionRand s ∧ s.packetsSent = n

section Counted

variable {euid : Euid} {sessionRand n : UInt32} {s' : BatteryClient} {a : Act}

theorem counted_initApp (euid : Euid) (sessionRand : UInt32) :
    Counted euid sessionRand 0 (initApp euid sessionRand) :=
  ⟨stamped_initApp euid sessionRand, rfl⟩

theorem Counted.quiet (h : Counted euid sessionRand n s) (hs : s.step a = some s')
    (hcalled : s.called a = none) : Counted euid sessionRand n s' := by
  have hnot := not_sends_of_not_called hcalled
  exact ⟨h.1.step hs, (packetsSent_of_not_sends hs hnot).trans h.2⟩

theorem Counted.sends {payload : List UInt8} (h : Counted euid sessionRand n s)
    (hs : s.step a = some s') (hcalled : s.called a = some payload) :
    BatteryPacket euid sessionRand n payload ∧ Counted euid sessionRand (n + 1) s' := by
  obtain ⟨hstamped, rfl⟩ := h
  obtain ⟨hsends, battMv, rfl⟩ := called_eq_some hcalled
  refine ⟨?_, hstamped.step hs, packetsSent_of_sends hs hsends⟩
  have hpacket := (hstamped.putMv battMv).putCounter.packet
  have hctr : (putCounter (putMv battMv s)).packetBuffer[3] = packetsSent s := by
    simp [putMv, putCounter]
  rwa [hctr] at hpacket

end Counted

def callerNumbers : caller.Numbers BatteryPacket where
  R := Counted
  initApp := counted_initApp
  quiet := Counted.quiet
  sends := Counted.sends

end RedNodeBus.Telemetry.BatteryClient

namespace RedNodeBus.Battery

open Bytes Telemetry Epochs

namespace BatteryNode

/-! ## The calls of a node -/

/-- A call of `send`. -/
structure SendCall where
  payload : List UInt8
  accepted : Bool
  deriving DecidableEq

/-- A session begins, or the node calls `send`. -/
def callMark (s : BatteryNode) (a : Act) : Option (Mark UInt32 SendCall) :=
  if a.pc?.all (· = s.pc) then
    match a with
    | .initApp sessionRand => some (.epoch sessionRand)
    | .send ret =>
      BatteryClient.transmitting.map fun transmitting =>
        .item ⟨(words (s.packetBuffer.set 3 s.packetsSent counter_lt).toList).take transmitting,
          0 ≤ ret⟩
    | .reset | .setup _ | .isConnected _ | .startUdp _ | .measureEnable _ | .sample _
    | .measureDisable _ | .battStat _ => none
  else none

/-- The calls of a run, each with its session and its place in it. -/
def calls (adcRawToMillivolts : Int32 → Int32) (euid : Euid) (as : List Act) :
    List (Numbered UInt32 SendCall) :=
  number ((machine rnlW1Board adcRawToMillivolts euid).observe callMark (reset rnlW1Board) as)

def events (adcRawToMillivolts : Int32 → Int32) (euid : Euid) (as : List Act) : List Event :=
  (machine rnlW1Board adcRawToMillivolts euid).observe (event rnlW1Board) (reset rnlW1Board) as

section Calls

variable {board : Board} {adcRawToMillivolts : Int32 → Int32} {euid : Euid} {s : BatteryNode}
  {a : Act} {as : List Act} {t : Option BatteryClient} {p : Numbered UInt32 SendCall}

theorem event_of_callMark {payload : List UInt8}
    (h : s.callMark a = some (.item ⟨payload, true⟩)) : s.event board a = some (.sent payload) := by
  unfold callMark at h
  split at h
  · rename_i hpc
    cases a with
    | send ret =>
      obtain ⟨transmitting, htransmitting, hitem⟩ := Option.map_eq_some_iff.mp h
      obtain ⟨rfl, hret⟩ := SendCall.mk.inj (Mark.item.inj hitem)
      simp only [event, hpc, if_true, htransmitting, Option.map_some]
      exact if_neg (not_lt.mpr (of_decide_eq_true hret))
    | initApp sessionRand => cases h
    | reset | setup ans | isConnected connected | startUdp ret | measureEnable ret | sample adc
    | measureDisable ret | battStat reads => cases h
  · cases h

/-- What the client marks, its calls for its packets. -/
def clientCall (t : Option BatteryClient) (b : NodeAct BatteryClient.Act) :
    Option (Mark UInt32 (List UInt8)) := BatteryClient.caller.mark t b

theorem clientCall_act (c : BatteryClient) (b : BatteryClient.Act) :
    clientCall (some c) (.act b) = (c.called b).map .item := rfl

theorem callMark_map (hR : Follows s t) (a : Act) :
    (s.callMark a).map (Mark.map SendCall.payload) =
      (clientAct board adcRawToMillivolts s a).bind (clientCall t) := by
  by_cases hpc : a.pc?.all (· = s.pc) = true
  · cases a with
    | reset | setup ans | isConnected connected | measureDisable ret | battStat reads =>
      simp only [callMark, clientAct, hpc, if_true, Option.bind_none, Option.map_none]
    | initApp sessionRand =>
      simp only [callMark, clientAct, hpc, if_true]
      rfl
    | startUdp ret =>
      have hs : s.pc = .startUdp := at_of_pc? hpc rfl
      simp only [Follows, hs] at hR
      simp only [callMark, clientAct, hpc, if_true, hR]
      rfl
    | measureEnable ret =>
      have hs : s.pc = .measureEnable := at_of_pc? hpc rfl
      simp only [Follows, hs] at hR
      simp only [callMark, clientAct, hpc, if_true, hR]
      by_cases hrc : (batteryMeasureEnable board true ret s.soc).1 = 0
      · simp [hrc]
      · have hint : (batteryMeasureEnable board true ret s.soc).1.toInt ≠ 0 := by
          intro h
          exact hrc (Int32.toInt_inj.mp h)
        simp [hrc, clientCall_act, BatteryClient.called, hint]
    | sample adc =>
      have hs : s.pc = .sample := at_of_pc? hpc rfl
      simp only [Follows, hs] at hR
      simp only [callMark, clientAct, hpc, if_true, hR]
      by_cases hmv : (batterySample board.divider adcRawToMillivolts adc s.soc.driver).1 < 0
      · simp [hmv, clientCall_act, BatteryClient.called]
      · simp [hmv]
    | send ret =>
      have hs : s.pc = .send := at_of_pc? hpc rfl
      simp only [Follows, hs] at hR
      obtain ⟨c, rfl, -, -, hcount, hmv, hbuffer⟩ := hR
      have hpacket : (c.putMv s.battMv.toInt32).putCounter.packet =
          words (s.packetBuffer.set 3 s.packetsSent counter_lt).toList := by
        rw [BatteryClient.packet, BatteryClient.putCounter, ← hbuffer]
        simp [BatteryClient.putMv, hcount]
      simp [callMark, clientAct, hpc, clientCall_act, BatteryClient.called,
        BatteryClient.transmitting_eq, hpacket, hmv, Mark.map]
  · simp only [callMark, clientAct, hpc]
    rfl

/-- **A packet says what it is**, failed or not: the EUID of its node, the value of its session,
and how many calls of `send` the session saw before. -/
theorem packet_of_call {s : BatteryNode}
    (hr : (machine rnlW1Board adcRawToMillivolts euid).run as = some s)
    (hp : p ∈ calls adcRawToMillivolts euid as) :
    BatteryPacket euid p.label (UInt32.ofNat p.index) p.item.payload := by
  have htrivial := Machine.along_trivial (M := machine rnlW1Board adcRawToMillivolts euid)
    (P := fun _ _ => True) (fun _ _ => trivial) (reset rnlW1Board) as
  have hcalls : ((machine rnlW1Board adcRawToMillivolts euid).observe callMark (reset rnlW1Board)
        as).map (Mark.map SendCall.payload) =
      BatteryClient.caller.marks euid ((machine rnlW1Board adcRawToMillivolts euid).observe
        (clientAct rnlW1Board adcRawToMillivolts) (reset rnlW1Board) as) := by
    rw [← List.filterMap_eq_map, ← Machine.observe_bind]
    refine Eq.trans ?_ (congrArg (Machine.observe · clientCall none _)
      (BatteryClient.node_caller euid)).symm
    exact (clientRefines rnlW1Board adcRawToMillivolts euid).observe_eq
      (fun _ _ a hR _ => (Option.map_eq_bind ..).symm.trans (callMark_map hR a))
      (clientRefines rnlW1Board adcRawToMillivolts euid).init htrivial hr
  have hmem := List.mem_map_of_mem (f := Numbered.map SendCall.payload) hp
  rw [calls, ← number_map, hcalls] at hmem
  exact Sender.packets_numbered BatteryClient.callerNumbers hmem

/-- **A packet that is accepted carries the scaled millivolts** of the conversion right before
it. -/
theorem voltage_of_sent (hscales : WithinReference adcRawToMillivolts) {s : BatteryNode}
    {payload : List UInt8}
    (hr : (machine rnlW1Board adcRawToMillivolts euid).run as = some s)
    (hadc : (machine rnlW1Board adcRawToMillivolts euid).Along Documented (reset rnlW1Board) as)
    (hsent : .sent payload ∈ events adcRawToMillivolts euid as) (hlength : payload.length = 20) :
    ∃ earlier c later,
      events adcRawToMillivolts euid as = earlier ++ .converted c :: .sent payload :: later ∧
      c.powered = true ∧ c.adc.rc = 0 ∧
      Script.word payload 0 = some (voltage rnlW1 (adcRawToMillivolts c.adc.raw.toInt32)) := by
  obtain ⟨before, later, hsplit⟩ := List.append_of_mem hsent
  obtain ⟨battMv, ⟨earlier, c, rfl, hrc, hmv, rfl⟩, hword⟩ :=
    may_of_run hr hadc before _ later hsplit
  rw [List.append_assoc, List.singleton_append] at hsplit
  obtain ⟨-, hpowered, -⟩ := may_of_run hr hadc earlier _ _ hsplit
  refine ⟨earlier, c, later, hsplit, hpowered, hrc, ?_⟩
  rw [Script.word, if_pos (by omega), ← (value_rnlW1 hscales hmv).1]
  have hslice : slice (16 + 4 * 0) 4 payload = slice 16 4 payload := rfl
  rw [hslice, hword, ofLeSigned_le32, Int32.toInt32_toUInt32]

theorem sent_of_call (hp : p ∈ calls adcRawToMillivolts euid as)
    (haccepted : p.item.accepted = true) :
    .sent p.item.payload ∈ events adcRawToMillivolts euid as := by
  refine Machine.mem_observe_of_imp (fun s a => ?_) (mem_of_mem_number hp)
  intro hmark
  exact event_of_callMark (hmark.trans (by rw [← haccepted]))

end Calls

end BatteryNode

open BatteryNode

/-! ## A fleet -/

universe u

variable {ι : Type u} [DecidableEq ι]

/-- The arrivals from node `i`. -/
def arrived (i : ι) (arrivals : List (ℚ × ι × Numbered UInt32 SendCall)) :
    List (Numbered UInt32 SendCall) :=
  arrivals.filterMap fun a => if a.2.1 = i then some a.2.2 else none

/-- The packets, as the host receives them. -/
def payloads (arrivals : List (ℚ × ι × Numbered UInt32 SendCall)) : List (ℚ × List UInt8) :=
  arrivals.map fun a => (a.1, a.2.2.item.payload)

/-- The nodes, what happens to each, and what arrives at the host, in order. -/
structure Fleet (ι : Type u) [DecidableEq ι] where
  euid : ι → Euid
  distinct : Function.Injective euid
  adcRawToMillivolts : Int32 → Int32
  scales : WithinReference adcRawToMillivolts
  run : ι → List Act
  runs : ∀ i, ∃ s, (machine rnlW1Board adcRawToMillivolts (euid i)).run (run i) = some s
  documented : ∀ i,
    (machine rnlW1Board adcRawToMillivolts (euid i)).Along Documented (reset rnlW1Board) (run i)
  arrivals : List (ℚ × ι × Numbered UInt32 SendCall)
  clock : ClockMoves arrivals
  /-- Fewer than `2 ^ 31` calls a session. -/
  few : ∀ i e, (ofEpoch e (calls adcRawToMillivolts (euid i) (run i))).length < 2 ^ 31
  /-- The packets of a node that were accepted arrive in order and at most once. -/
  channel : ∀ i, (arrived i arrivals).Sublist
    ((calls adcRawToMillivolts (euid i) (run i)).filter (·.item.accepted))

namespace Fleet

def uid (f : Fleet ι) (i : ι) : String := Script.hexKey (f.euid i).val.toNat

/-- Each session's value is other than that of the previous session of which a packet was
delivered. -/
def SessionsTold (f : Fleet ι) : Prop := ∀ i, LabelsTell (arrived i f.arrivals)

/-- What was sent of `p`'s session between the first packet delivered and `p`, and was not
delivered: lost if it was accepted, and else failed. -/
def absent (f : Fleet ι) (i : ι) (delivered : List (Numbered UInt32 SendCall))
    (p : Numbered UInt32 SendCall) (accepted : Bool) : List (Numbered UInt32 SendCall) :=
  (missing (calls f.adcRawToMillivolts (f.euid i) (f.run i)) delivered p).filter
    (·.item.accepted = accepted)

/-- What the table shows after an arrival, of the rows `stats` before it. -/
structure ShownAt (f : Fleet ι) (before : List (ℚ × ι × Numbered UInt32 SendCall)) (now : ℚ)
    (i : ι) (p : Numbered UInt32 SendCall) (stats stats' : Script.battery.Stats) (row : Row ℤ) :
    Prop where
  hasRow : stats' (f.uid i) = some row
  received : row.packetsReceived = (ofEpoch p.epoch (arrived i (before ++ [(now, i, p)]))).length
  /-- What is shown as lost was lost or failed. -/
  lost : row.packetsLost = (f.absent i (arrived i (before ++ [(now, i, p)])) p true).length +
    (f.absent i (arrived i (before ++ [(now, i, p)])) p false).length
  /-- The scaled millivolts of the conversion made right before the packet was sent. -/
  voltage : ∃ earlier c later, events f.adcRawToMillivolts (f.euid i) (f.run i) =
      earlier ++ .converted c :: .sent p.item.payload :: later ∧
    c.powered = true ∧ c.adc.rc = 0 ∧
    row.data = voltage rnlW1 (f.adcRawToMillivolts c.adc.raw.toInt32)
  others : ∀ j, j ≠ i → stats' (f.uid j) = stats (f.uid j)

/-- The script comes through, and its table is right after every arrival. -/
def Shown (f : Fleet ι) : Prop :=
  ∀ before now i p after, f.arrivals = before ++ (now, i, p) :: after →
    ∃ stats stats' row, Script.battery.run (payloads before) = some stats ∧
      Script.battery.receive stats (now, p.item.payload) = some stats' ∧
      f.ShownAt before now i p stats stats' row

variable {f : Fleet ι} {now : ℚ} {i : ι} {p : Numbered UInt32 SendCall}
  {before after : List (ℚ × ι × Numbered UInt32 SendCall)}

/-! ## Arrivals -/

/-- The arrivals, as the packets they are. -/
def packets (arrivals : List (ℚ × ι × Numbered UInt32 SendCall)) : List (ℚ × ι × SentPacket) :=
  arrivals.map fun a => (a.1, a.2.1, a.2.2.map SendCall.payload)

theorem delivered_packets (i : ι) (arrivals : List (ℚ × ι × Numbered UInt32 SendCall)) :
    delivered i (packets arrivals) = (arrived i arrivals).map (Numbered.map SendCall.payload) := by
  rw [delivered, packets, arrived, List.filterMap_map, List.map_filterMap]
  refine List.filterMap_congr fun a _ => ?_
  by_cases ha : a.2.1 = i
  · simp only [Function.comp_apply, if_pos ha, Option.map_some]
  · simp only [Function.comp_apply, if_neg ha, Option.map_none]

theorem tally_packets (i : ι) (arrivals : List (ℚ × ι × Numbered UInt32 SendCall)) :
    tally (delivered i (packets arrivals)) = tally (arrived i arrivals) := by
  rw [delivered_packets, tally_map]

omit [DecidableEq ι] in
theorem payloads_eq (arrivals : List (ℚ × ι × Numbered UInt32 SendCall)) :
    payloads arrivals = Telemetry.payloads (packets arrivals) := by
  rw [payloads, Telemetry.payloads, packets, List.map_map]
  rfl

omit [DecidableEq ι] in
theorem clock_packets {arrivals : List (ℚ × ι × Numbered UInt32 SendCall)}
    (h : ClockMoves arrivals) : ClockMoves (packets arrivals) :=
  List.pairwise_map.mpr h

theorem arrived_concat (i : ι) (arrivals : List (ℚ × ι × Numbered UInt32 SendCall))
    (now : ℚ) (p : Numbered UInt32 SendCall) :
    arrived i (arrivals ++ [(now, i, p)]) = arrived i arrivals ++ [p] := by
  rw [arrived, arrived, List.filterMap_append]
  congr 1
  exact List.filterMap_cons_some (if_pos rfl)

theorem arrived_sublist (h : f.arrivals = before ++ after) (i : ι) :
    (arrived i before).Sublist (arrived i f.arrivals) := by
  rw [h, arrived, arrived, List.filterMap_append]
  exact List.sublist_append_left _ _

theorem mem_arrived {arrivals : List (ℚ × ι × Numbered UInt32 SendCall)}
    (h : (now, i, p) ∈ arrivals) : p ∈ arrived i arrivals :=
  List.mem_filterMap.mpr ⟨(now, i, p), h, if_pos rfl⟩

theorem mem_calls (h : (now, i, p) ∈ f.arrivals) :
    p ∈ calls f.adcRawToMillivolts (f.euid i) (f.run i) ∧ p.item.accepted = true :=
  List.mem_filter.mp ((f.channel i).subset (mem_arrived h))

theorem packet_of_arrival (h : (now, i, p) ∈ f.arrivals) :
    BatteryPacket (f.euid i) p.label (UInt32.ofNat p.index) p.item.payload ∧
      p.index < 2 ^ 32 := by
  obtain ⟨hcall, -⟩ := mem_calls h
  obtain ⟨s, hr⟩ := f.runs i
  refine ⟨packet_of_call hr hcall, ?_⟩
  have hlt : p.index <
      (ofEpoch p.epoch (calls f.adcRawToMillivolts (f.euid i) (f.run i))).length := index_lt hcall
  have hfew := f.few i p.epoch
  omega

/-! ## The table -/

theorem length_absent (f : Fleet ι) (i : ι) (delivered : List (Numbered UInt32 SendCall))
    (p : Numbered UInt32 SendCall) :
    (f.absent i delivered p true).length + (f.absent i delivered p false).length =
      (missing (calls f.adcRawToMillivolts (f.euid i) (f.run i)) delivered p).length := by
  have hsplit := List.length_eq_length_filter_add
    (l := missing (calls f.adcRawToMillivolts (f.euid i) (f.run i)) delivered p) (·.item.accepted)
  rw [hsplit, absent, absent]
  simp

/-- The tally of the calls of `p`'s node, after `p`. -/
theorem tally_arrival (htold : f.SessionsTold) (h : f.arrivals = before ++ (now, i, p) :: after) :
    tally (arrived i (before ++ [(now, i, p)])) = some ⟨p.label, p.index,
      (ofEpoch p.epoch (arrived i (before ++ [(now, i, p)]))).length,
      (missing (calls f.adcRawToMillivolts (f.euid i) (f.run i))
        (arrived i (before ++ [(now, i, p)])) p).length⟩ := by
  have hsplit : f.arrivals = (before ++ [(now, i, p)]) ++ after := by rw [h, List.append_assoc]; rfl
  have hbefore := arrived_sublist hsplit i
  have htell : LabelsTell (arrived i (before ++ [(now, i, p)])) := by
    have hall := htold i
    rw [LabelsTell, hsplit, arrived, List.filterMap_append] at hall
    exact hall.left_of_append
  have hsub := (hbefore.trans (f.channel i)).trans List.filter_sublist
  rw [arrived_concat] at hsub htell ⊢
  exact tally_exact hsub htell

theorem tally_pos (htold : f.SessionsTold) (h : f.arrivals = before ++ (now, i, p) :: after)
    {t : Tally UInt32} (ht : tally (arrived i (before ++ [(now, i, p)])) = some t) :
    t.lost + t.received ≠ 0 := by
  rw [tally_arrival htold h] at ht
  obtain rfl := Option.some.inj ht
  have harrival : (now, i, p) ∈ before ++ [(now, i, p)] := by simp
  have hmem : p ∈ ofEpoch p.epoch (arrived i (before ++ [(now, i, p)])) :=
    mem_ofEpoch.mpr ⟨mem_arrived harrival, rfl⟩
  have hpos := List.length_pos_of_mem hmem
  show ((missing _ _ p).length : ℤ) +
    (ofEpoch p.epoch (arrived i (before ++ [(now, i, p)]))).length ≠ 0
  omega

theorem run_before (htold : f.SessionsTold) (h : f.arrivals = before ++ after) :
    ∃ stats, Script.battery.run (payloads before) = some stats ∧
      ∀ i, Option.Rel Script.Follows (tally (arrived i before)) (stats (f.uid i)) ∧
        Timed (packets before) i (stats (f.uid i)) := by
  have hclock : ClockMoves (before ++ after) := h ▸ f.clock
  have hpacket : ∀ now i p, (now, i, p) ∈ packets before →
      BatteryPacket (f.euid i) p.label (UInt32.ofNat p.index) p.item ∧ p.index < 2 ^ 32 := by
    intro now i p hp
    obtain ⟨⟨now', j, q⟩, hq, heq⟩ := List.mem_map.mp hp
    cases heq
    have harrival : (now', j, q) ∈ f.arrivals := by rw [h]; exact List.mem_append_left _ hq
    exact packet_of_arrival harrival
  have hpos : ∀ before' now i p after', packets before = before' ++ (now, i, p) :: after' →
      ∀ t, tally (delivered i (before' ++ [(now, i, p)])) = some t → t.lost + t.received ≠ 0 := by
    intro before' now i p after' hsplit t ht
    obtain ⟨left, right, rfl, hleft, hright⟩ := List.map_eq_append_iff.mp hsplit
    obtain ⟨⟨now', j, q⟩, right, rfl, heq, hright⟩ := List.map_eq_cons_iff.mp hright
    cases heq
    have hpackets : before' ++ [(now', j, q.map SendCall.payload)] =
        packets (left ++ [(now', j, q)]) := by
      rw [packets, List.map_append, ← hleft]
      rfl
    rw [hpackets, tally_packets] at ht
    exact tally_pos htold (by rw [h, List.append_assoc]; rfl) ht
  obtain ⟨stats, hrun, hrel⟩ := run_follows Script.battery_reads f.distinct
    (clock_packets (List.pairwise_append.mp hclock).1) hpacket hpos
  refine ⟨stats, by rw [payloads_eq]; exact hrun, fun i => ?_⟩
  rw [← tally_packets]
  exact hrel i

/-- **What `battery.py` shows is right**, after every arrival, if the session values tell the
sessions apart of which packets are delivered: it shows for each node as received what was
received of the session, as lost what was lost or failed of it, and the scaled millivolts of the
conversion made right before the last packet was sent. -/
theorem shown (f : Fleet ι) (h : f.SessionsTold) : f.Shown := by
  intro before now i p after hsplit
  obtain ⟨stats, hrun, hrel⟩ := run_before h hsplit
  have harrival : (now, i, p) ∈ f.arrivals := by rw [hsplit]; simp
  obtain ⟨hpacket, hindex⟩ := packet_of_arrival harrival
  have hclock : ClockMoves (packets before ++ packets ((now, i, p) :: after)) := by
    rw [packets, packets, ← List.map_append, ← hsplit]
    exact clock_packets f.clock
  have htally := tally_append (arrived i before) p
  rw [← arrived_concat i before now, tally_arrival h hsplit] at htally
  obtain ⟨row, hreceive, hfollows, -⟩ := Script.receive_follows Script.battery_reads
    (p := p.map SendCall.payload) hpacket hindex (hrel i).1 ((hrel i).2.clock hclock)
    (tally_pos h hsplit ((tally_arrival h hsplit).trans htally))
  rw [show Tally.next _ (p.map SendCall.payload).label (p.map SendCall.payload).index = _ from
    (Option.some.inj htally).symm] at hfollows
  refine ⟨stats, _, row, hrun, hreceive, ?_⟩
  constructor
  case hasRow => exact Function.update_self ..
  case received => exact hfollows.received
  case lost =>
    rw [hfollows.lost, ← f.length_absent]
    exact Nat.cast_add _ _
  case voltage =>
    obtain ⟨hcall, haccepted⟩ := mem_calls harrival
    obtain ⟨s, hr⟩ := f.runs i
    obtain ⟨earlier, c, later, hevents, hpowered, hrc, hword⟩ :=
      voltage_of_sent f.scales hr (f.documented i) (sent_of_call hcall haccepted) hpacket.length
    refine ⟨earlier, c, later, hevents, hpowered, hrc, ?_⟩
    have hread : Script.battery.read p.item.payload = _ :=
      congrArg (Option.map _) hword
    obtain ⟨row', hupdate, hdata⟩ := Script.update_of_receive hread hreceive
    have hrow := congrFun hupdate (f.uid i)
    rw [hpacket.euid] at hrow
    obtain rfl : row = row' := by simpa [uid, Function.update_self] using hrow
    exact hdata
  case others =>
    intro j hj
    exact Function.update_of_ne
      (fun hkey => hj (f.distinct (Script.battery_reads.injective hkey))) _ _

/-! ## Two nodes -/

def pass (raw : Int16) (ret : Int) : List Act :=
  [.measureEnable 0, .sample ⟨0, raw⟩, .send ret, .measureDisable 0]

/-- Two sessions; the second of the four calls of the first one fails. -/
def twoSessions : List Act :=
  [.setup goodAnswers, .isConnected true, .initApp 7, .startUdp 0] ++ pass 12000 20 ++
    pass 11990 (-1) ++ pass 11980 20 ++ pass 11970 20 ++
    [.reset, .setup goodAnswers, .isConnected true, .initApp 8, .startUdp 0] ++ pass 11960 20

def pairEuid (b : Bool) : Euid :=
  rnbUtilsGetEuid (if b then 0xFFFFF4CE0ABC1234 else 0xFFFFF4CE0ABC1235)

/-- What the network delivers of a node: not the third packet of the first session. -/
def pairDelivered (b : Bool) : List (Numbered UInt32 SendCall) :=
  ((calls millivolts (pairEuid b) twoSessions).filter (·.item.accepted)).eraseIdx 1

/-- All of the one node, and then all of the other, one a second. -/
def pairArrivals : List (ℚ × Bool × Numbered UInt32 SendCall) :=
  eachSecond ((pairDelivered false).map (false, ·) ++ (pairDelivered true).map (true, ·))

theorem pairEuid_injective : Function.Injective pairEuid := by decide

theorem pair_runs (b : Bool) :
    ∃ s, (machine rnlW1Board millivolts (pairEuid b)).run twoSessions = some s :=
  Option.isSome_iff_exists.mp (by cases b <;> decide +kernel)

theorem pair_documented (b : Bool) : (machine rnlW1Board millivolts (pairEuid b)).Along Documented
    (reset rnlW1Board) twoSessions := by
  cases b <;> decide +kernel

theorem pair_few (b : Bool) (e : ℕ) :
    (ofEpoch e (calls millivolts (pairEuid b) twoSessions)).length < 2 ^ 31 :=
  Nat.lt_of_le_of_lt (List.length_filter_le _ _) (by cases b <;> decide +kernel)

theorem pair_channel (b : Bool) :
    (arrived b pairArrivals).Sublist
      ((calls millivolts (pairEuid b) twoSessions).filter (·.item.accepted)) := by
  cases b <;> decide +kernel

def pair : Fleet Bool where
  euid := pairEuid
  distinct := pairEuid_injective
  adcRawToMillivolts := millivolts
  scales := withinReference_millivolts
  run _ := twoSessions
  runs := pair_runs
  documented := pair_documented
  arrivals := pairArrivals
  clock := clock_eachSecond _
  few := pair_few
  channel := pair_channel

theorem shown_pair : pair.arrivals.length = 6 ∧ pair.Shown := by
  refine ⟨by decide +kernel, shown pair ?_⟩
  rintro (_ | _)
  · exact (by decide +kernel : (arrived false pairArrivals).IsChain fun p q =>
      p.epoch ≠ q.epoch → p.label ≠ q.label)
  · exact (by decide +kernel : (arrived true pairArrivals).IsChain fun p q =>
      p.epoch ≠ q.epoch → p.label ≠ q.label)

end Fleet

end RedNodeBus.Battery

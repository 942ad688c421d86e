import RedNodeBus.Mqtt.Message
import RedNodeBus.Telemetry.LossAccounting
import RedNodeBus.Telemetry.RnbClients

/-!
# Loss accounting over the broker

`socket_test_rnb.py` and `accelerometer_rnb.py` take their payloads out of the events that
the gateway publishes (`Script.onMessage`).  Among these there are events of other kinds,
which they pass over, and a message they cannot read ends them.

An `RnbNetwork` is a set of nodes with RNB clients, and the messages that reach the script.
Its packets are those of a `Network` of UDP clients (`RnbNetwork.udp`), since the clients
mirror each other, and its messages leave the rows that these packets leave
(`runRnb_messages`).  So the account is as right as over UDP (`rnb_accounted`).
-/

namespace RedNodeBus.Telemetry

open Epochs Mqtt

namespace Script

/-- `on_message`, at a time, of what `json.loads` makes of the payload; `none` is an
exception. -/
def onMessage (S : Script) (stats : S.Stats) : ℚ × Option Message → Option S.Stats
  | (now, msg) => msg.bind fun msg => (isUserData msg).bind fun userData =>
    if userData then (dataBytes msg).bind fun payload => S.receive stats (now, payload)
    else some stats

def runRnb (S : Script) (msgs : List (ℚ × Option Message)) : Option S.Stats :=
  msgs.foldlM S.onMessage fun _ => none

variable {S : Script} {stats : S.Stats} {now : ℚ} {msg : Message}

theorem onMessage_userData {bytes : List UInt8} (hname : isUserData msg = some true)
    (hdata : dataBytes msg = some bytes) :
    S.onMessage stats (now, some msg) = S.receive stats (now, bytes) := by
  rw [onMessage, Option.bind_some, hname, Option.bind_some, if_pos rfl, hdata, Option.bind_some]

theorem onMessage_other (hname : isUserData msg = some false) :
    S.onMessage stats (now, some msg) = some stats := by
  rw [onMessage, Option.bind_some, hname, Option.bind_some]
  rfl

end Script

/-- The samples with an RNB client, of which the driver takes `mtu` bytes. -/
inductive RnbSample
  | socketTest (mtu : ℕ)
  | accelerometer (mtu : ℕ)

namespace RnbSample

def sender : RnbSample → Sender
  | .socketTest mtu => SocketTest.rnbSender mtu
  | .accelerometer mtu => AccelerometerRnb.rnbSender mtu

/-- The same sample with its UDP client. -/
def udp : RnbSample → Sample
  | .socketTest _ => .socketTest
  | .accelerometer _ => .accelerometer

def script : RnbSample → Script
  | .socketTest _ => Script.socketTestRnb
  | .accelerometer _ => Script.accelerometerRnb

def mirrors (c : RnbSample) : c.sender.Mirrors c.udp.sender :=
  match c with
  | .socketTest mtu => SocketTest.rnbMirrors mtu
  | .accelerometer mtu => AccelerometerRnb.rnbMirrors mtu

/-- `process_msg` reads the packets as the UDP script does. -/
theorem reads (c : RnbSample) : c.script.Reads c.udp.Packet c.udp.uid :=
  match c with
  | .socketTest _ => Script.socketTest_reads
  | .accelerometer _ => Script.accelerometer_reads

end RnbSample

/-- What reaches the script: the event of a packet of node `i`, or another one. -/
inductive Arrival (ι : Type)
  | packet (i : ι) (p : SentPacket)
  | other (msg : Message)

namespace Arrival

variable {ι : Type}

/-- The packet, with the time at which the event is taken. -/
def packet? : ℚ × Arrival ι → Option (ℚ × ι × SentPacket)
  | (now, .packet i p) => some (now, i, p)
  | (_, .other _) => none

theorem now_packet? {a : ℚ × Arrival ι} {p : ℚ × ι × SentPacket} (h : packet? a = some p) :
    p.1 = a.1 := by
  obtain ⟨now, a⟩ := a
  cases a with
  | packet i p => exact congrArg Prod.fst (Option.some.inj h).symm
  | other msg => cases h

def message (event : ι → List UInt8 → Message) : Arrival ι → Message
  | .packet i p => event i p.item
  | .other msg => msg

end Arrival

/-- The nodes, what happens to each, what the gateway publishes, and what reaches the
script, in order. -/
structure RnbNetwork (c : RnbSample) (ι : Type) [DecidableEq ι] where
  euid : ι → Euid
  distinct : Function.Injective euid
  run : ι → List (NodeAct c.sender.Act)
  event : ι → List UInt8 → Message
  event_name : ∀ i bytes, isUserData (event i bytes) = some true
  event_data : ∀ i bytes, dataBytes (event i bytes) = some bytes
  arrivals : List (ℚ × Arrival ι)
  clock : ClockMoves (arrivals.filterMap Arrival.packet?)
  /-- The other events have a name, and another one. -/
  others : ∀ now msg, (now, .other msg) ∈ arrivals → isUserData msg = some false
  /-- Fewer than `2 ^ 31` packets a session. -/
  few : ∀ i e, (ofEpoch e (c.sender.packets (euid i) (run i))).length < 2 ^ 31
  /-- Each node's packets arrive in order and at most once. -/
  channel : ∀ i, (delivered i (arrivals.filterMap Arrival.packet?)).Sublist
    (c.sender.packets (euid i) (run i))

namespace RnbNetwork

variable {c : RnbSample} {ι : Type} [DecidableEq ι]

/-- What node `i` hands to the driver. -/
def sent (n : RnbNetwork c ι) (i : ι) : List SentPacket := c.sender.packets (n.euid i) (n.run i)

def taken (n : RnbNetwork c ι) (i : ι) : List SentPacket :=
  delivered i (n.arrivals.filterMap Arrival.packet?)

/-- The messages, as the callback has them. -/
def messages (n : RnbNetwork c ι) (as : List (ℚ × Arrival ι)) : List (ℚ × Option Message) :=
  as.map fun a => (a.1, some (a.2.message n.event))

/-- Each session's value is other than that of the previous session of which a packet was
delivered. -/
def SessionsTold (n : RnbNetwork c ι) : Prop := ∀ i, LabelsTell (n.taken i)

/-- The script ends with no exception, and after the event of every packet `p`, from node
`i`, it has a row for the node: what it has received is what was delivered of `p`'s session,
and what it has lost is what was sent of it between the first and the last packet delivered,
and was not delivered.  The rows of the other nodes are as before. -/
def Accounted (n : RnbNetwork c ι) : Prop :=
  (∃ stats, c.script.runRnb (n.messages n.arrivals) = some stats) ∧
  ∀ before now i p after, n.arrivals = before ++ (now, .packet i p) :: after →
    let took := delivered i (before.filterMap Arrival.packet? ++ [(now, i, p)])
    ∃ stats stats' row,
      c.script.runRnb (n.messages before) = some stats ∧
      c.script.onMessage stats (now, some (n.event i p.item)) = some stats' ∧
      stats' (c.udp.uid (n.euid i)) = some row ∧
      row.packetsReceived = (ofEpoch p.epoch took).length ∧
      row.packetsLost = (missing (n.sent i) took p).length ∧
      ∀ j, j ≠ i → stats' (c.udp.uid (n.euid j)) = stats (c.udp.uid (n.euid j))

/-- The network of UDP clients with the same packets. -/
def udp (n : RnbNetwork c ι) : Network c.udp ι where
  euid := n.euid
  distinct := n.distinct
  run i := (n.run i).map (.map c.mirrors.act)
  arrivals := n.arrivals.filterMap Arrival.packet?
  clock := n.clock
  few i := c.mirrors.packets_eq (n.euid i) (n.run i) ▸ n.few i
  channel i := c.mirrors.packets_eq (n.euid i) (n.run i) ▸ n.channel i

variable {n : RnbNetwork c ι}

theorem udp_sent (i : ι) : n.udp.sent i = n.sent i :=
  (c.mirrors.packets_eq (n.euid i) (n.run i)).symm

/-- **The messages leave the rows that their packets leave.** -/
theorem runRnb_messages {as : List (ℚ × Arrival ι)}
    (hothers : ∀ now msg, (now, .other msg) ∈ as → isUserData msg = some false)
    (stats : c.script.Stats) :
    (n.messages as).foldlM c.script.onMessage stats =
      (payloads (as.filterMap Arrival.packet?)).foldlM c.script.receive stats := by
  induction as generalizing stats with
  | nil => rfl
  | cons a as ih =>
    obtain ⟨now, a⟩ := a
    have hrest : ∀ now msg, (now, .other msg) ∈ as → isUserData msg = some false :=
      fun now msg hmsg => hothers now msg (List.mem_cons_of_mem _ hmsg)
    rw [messages, List.map_cons, List.foldlM_cons]
    cases a with
    | packet i p =>
      have hmessage : c.script.onMessage stats (now, some (n.event i p.item)) =
          c.script.receive stats (now, p.item) :=
        Script.onMessage_userData (n.event_name i p.item) (n.event_data i p.item)
      rw [List.filterMap_cons_some (by rfl), payloads, List.map_cons, List.foldlM_cons]
      show (c.script.onMessage stats (now, some (n.event i p.item))).bind _ = _
      rw [hmessage]
      exact congrArg (Option.bind _) (funext (ih hrest))
    | other msg =>
      have hmessage : c.script.onMessage stats (now, some msg) = some stats :=
        Script.onMessage_other (hothers now msg List.mem_cons_self)
      rw [List.filterMap_cons_none (by rfl)]
      show (c.script.onMessage stats (now, some msg)).bind _ = _
      rw [hmessage]
      exact ih hrest stats

/-- The script follows the tallies of the packets, with any events in between. -/
theorem runRnb_follows (h : n.SessionsTold) {as rest : List (ℚ × Arrival ι)}
    (has : n.arrivals = as ++ rest) :
    ∃ stats, c.script.runRnb (n.messages as) = some stats ∧
      ∀ i, Option.Rel Script.Follows (tally (delivered i (as.filterMap Arrival.packet?)))
          (stats (c.udp.uid (n.euid i))) ∧
        Timed (as.filterMap Arrival.packet?) i (stats (c.udp.uid (n.euid i))) := by
  have hsplit : n.udp.arrivals =
      as.filterMap Arrival.packet? ++ rest.filterMap Arrival.packet? := by
    show n.arrivals.filterMap Arrival.packet? = _
    rw [has, List.filterMap_append]
  have hothers : ∀ now msg, (now, .other msg) ∈ as → isUserData msg = some false := by
    intro now msg hmsg
    apply n.others now msg
    rw [has]
    exact List.mem_append_left _ hmsg
  have hclock : ClockMoves (as.filterMap Arrival.packet? ++ rest.filterMap Arrival.packet?) :=
    hsplit ▸ n.udp.clock
  have hpacket : ∀ now i p, (now, i, p) ∈ as.filterMap Arrival.packet? →
      c.udp.Packet (n.euid i) p.label (UInt32.ofNat p.index) p.item ∧ p.index < 2 ^ 32 := by
    intro now i p hp
    have harrival : (now, i, p) ∈ n.udp.arrivals := by
      rw [hsplit]
      exact List.mem_append_left _ hp
    exact Network.packet_of_arrival harrival
  obtain ⟨stats, hrun, hrel⟩ := run_follows c.reads n.distinct
    (List.pairwise_append.mp hclock).1 hpacket
    fun before now i p after hb t ht => Network.tally_pos (n := n.udp) h (by
      rw [hsplit, hb, List.append_assoc]
      rfl) ht
  exact ⟨stats, (runRnb_messages hothers _).trans hrun, hrel⟩

/-- **The account of every node is right after every packet**, if the session values tell
the sessions apart of which packets are delivered; and no message ends the script. -/
theorem rnb_accounted (n : RnbNetwork c ι) (h : n.SessionsTold) : n.Accounted := by
  constructor
  · obtain ⟨stats, hrun, -⟩ := runRnb_follows h (List.append_nil n.arrivals).symm
    exact ⟨stats, hrun⟩
  intro before now i p after hsplit took
  have hudp : n.udp.arrivals = before.filterMap Arrival.packet? ++
      (now, i, p) :: after.filterMap Arrival.packet? := by
    show n.arrivals.filterMap Arrival.packet? = _
    rw [hsplit, List.filterMap_append, List.filterMap_cons_some (by rfl)]
  have hclock : ClockMoves (before.filterMap Arrival.packet? ++
      (now, i, p) :: after.filterMap Arrival.packet?) := hudp ▸ n.udp.clock
  have harrival : (now, i, p) ∈ n.udp.arrivals := by
    rw [hudp]
    exact List.mem_append_right _ List.mem_cons_self
  obtain ⟨stats, hrun, hrel⟩ := runRnb_follows h hsplit
  obtain ⟨hp, hindex⟩ := Network.packet_of_arrival harrival
  have htally := tally_append (delivered i (before.filterMap Arrival.packet?)) p
  rw [← delivered_concat i _ now, Network.tally_arrival (n := n.udp) h hudp, udp_sent] at htally
  have hpos := Network.tally_pos (n := n.udp) h hudp
    ((Network.tally_arrival (n := n.udp) h hudp).trans (udp_sent i ▸ htally))
  obtain ⟨row, hreceive, hfollows, -⟩ := Script.receive_follows c.reads hp hindex (hrel i).1
    ((hrel i).2.clock hclock) hpos
  rw [← Option.some.inj htally] at hfollows
  have hmessage : c.script.onMessage stats (now, some (n.event i p.item)) =
      c.script.receive stats (now, p.item) :=
    Script.onMessage_userData (n.event_name i p.item) (n.event_data i p.item)
  refine ⟨stats, _, row, hrun, hmessage.trans hreceive, Function.update_self _ _ _,
    hfollows.received, hfollows.lost, ?_⟩
  intro j hj
  exact Function.update_of_ne (fun hkey => hj (n.distinct (c.reads.injective hkey))) _ _

/-! ## A network -/

/-- A pass of a tag, in which the driver returns `ret`. -/
def offers (ret : Int) : NodeAct AccelerometerRnb.Act :=
  .act (.trigger ⟨0, 0, ⟨0, 0⟩, ⟨0, 0⟩, ⟨9, 810000⟩, ret⟩)

/-- A tag that hands over three packets, with a refusal in between. -/
def refusedRun : List (NodeAct AccelerometerRnb.Act) :=
  [.boot 7, .act (.startClient .tag true true 0), offers 0, offers (-12), offers 0, offers 0]

def refusedPackets : List SentPacket :=
  (AccelerometerRnb.rnbSender 100).packets (rnbUtilsGetEuid 0xFFFFF4CE0ABC1234) refusedRun

def newStateEvent : Message := fun key => if key = "name" then some (.str "new_state") else none

/-- The second of the node's packets is lost, and other events come in between, one a second. -/
def refusedArrivals : List (ℚ × Arrival Unit) :=
  eachSecond (.other newStateEvent ::
    (refusedPackets.eraseIdx 1).flatMap fun p => [.packet () p, .other newStateEvent])

theorem mem_refusedArrivals {now : ℚ} {msg : Message} (h : (now, .other msg) ∈ refusedArrivals) :
    msg = newStateEvent := by
  obtain ⟨⟨a, k⟩, ha, heq⟩ := List.mem_map.mp h
  cases heq
  rcases List.mem_cons.mp (List.fst_mem_of_mem_zipIdx ha) with h | h
  · cases h
    rfl
  · obtain ⟨p, -, hp⟩ := List.mem_flatMap.mp h
    rcases List.mem_cons.mp hp with hp | hp
    · cases hp
    · cases List.mem_singleton.mp hp
      rfl

theorem refusedArrivals_clock : ClockMoves (refusedArrivals.filterMap Arrival.packet?) := by
  refine (pairwise_eachSecond _).filterMap _ ?_
  intro a b hne p hp q hq _
  rwa [Arrival.now_packet? hp, Arrival.now_packet? hq]

theorem length_refusedPackets : refusedPackets.length < 2 ^ 31 := by decide

theorem refusedEuid_injective :
    Function.Injective fun _ : Unit => rnbUtilsGetEuid 0xFFFFF4CE0ABC1234 :=
  Function.injective_of_subsingleton _

def refusedEvent (_ : Unit) (bytes : List UInt8) : Message :=
  userDataEvent (.str "F4CE0ABC1234") bytes

theorem isUserData_refusedEvent (i : Unit) (bytes : List UInt8) :
    isUserData (refusedEvent i bytes) = some true := rfl

theorem dataBytes_refusedEvent (i : Unit) (bytes : List UInt8) :
    dataBytes (refusedEvent i bytes) = some bytes := dataBytes_of_data rfl

theorem few_refusedPackets (_ : Unit) (e : ℕ) : (ofEpoch e refusedPackets).length < 2 ^ 31 :=
  Nat.lt_of_le_of_lt (List.length_filter_le _ _) length_refusedPackets

theorem delivered_refusedPackets (i : Unit) :
    (delivered i (refusedArrivals.filterMap Arrival.packet?)).Sublist refusedPackets := by
  cases i
  decide +kernel

theorem isUserData_of_mem_refusedArrivals (now : ℚ) (msg : Message)
    (hmsg : (now, .other msg) ∈ refusedArrivals) : isUserData msg = some false :=
  mem_refusedArrivals hmsg ▸ rfl

def refusedNetwork : RnbNetwork (.accelerometer 100) Unit where
  euid _ := rnbUtilsGetEuid 0xFFFFF4CE0ABC1234
  distinct := refusedEuid_injective
  run _ := refusedRun
  event := refusedEvent
  event_name := isUserData_refusedEvent
  event_data := dataBytes_refusedEvent
  arrivals := refusedArrivals
  clock := refusedArrivals_clock
  others := isUserData_of_mem_refusedArrivals
  few := few_refusedPackets
  channel := delivered_refusedPackets

theorem rnb_accounted_refusedNetwork : refusedNetwork.Accounted := by
  apply rnb_accounted refusedNetwork
  intro i
  exact (by decide : (refusedNetwork.taken ()).IsChain fun p q =>
    p.epoch ≠ q.epoch → p.label ≠ q.label)

end RnbNetwork

end RedNodeBus.Telemetry

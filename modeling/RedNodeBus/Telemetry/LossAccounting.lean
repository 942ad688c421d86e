import RedNodeBus.Telemetry.Script

/-!
# Loss accounting, end to end

A `Network` is a set of nodes with distinct EUIDs, a run of each (boots, failures to send
and all), and what reaches the host: the packets of the nodes interleaved in any way, each
node's own in the order they were sent, none twice, and any number of them missing.  Each comes
at a time, and no two of a node at one, or the bit rate would divide by zero.

The script tells the sessions of a node apart by their values.  So a session of which
nothing arrives is not seen, and two sessions around it with one value are taken for one:
a session value that differs from the previous one is not enough (`sessions_confused`).
What it takes is that the value changes between two packets that arrive one after the other
from different sessions (`SessionsTold`), and then the script's account of each node is
right after every arrival (`accounted`).

The proof puts three things together: a packet says what it is (`packets_numbered`), a row
is the tally of the packets of its node (`run_follows`), and the tally is right
(`Epochs.tally_exact`).
-/

namespace RedNodeBus.Telemetry

open Epochs

/-- The samples, with their scripts. -/
inductive Sample
  | socketTest
  | accelerometer

namespace Sample

def sender : Sample → Sender
  | .socketTest => SocketTest.sender
  | .accelerometer => Accelerometer.sender

def script : Sample → Script
  | .socketTest => Script.socketTest
  | .accelerometer => Script.accelerometer

/-- The key of a node's row: what the script reads in its packets for the UID. -/
def uid : Sample → Euid → String
  | .socketTest => fun euid => String.ofList (uidField euid)
  | .accelerometer => fun euid => Script.hexKey euid.val.toNat

/-- What the packets of a node say. -/
def Packet : Sample → Euid → UInt32 → UInt32 → List UInt8 → Prop
  | .socketTest => SocketTestPacket
  | .accelerometer => AccelerometerPacket

theorem reads (c : Sample) : c.script.Reads c.Packet c.uid :=
  match c with
  | .socketTest => Script.socketTest_reads
  | .accelerometer => Script.accelerometer_reads

def numbers (c : Sample) : c.sender.Numbers c.Packet :=
  match c with
  | .socketTest => SocketTest.numbers
  | .accelerometer => Accelerometer.numbers

end Sample

/-- A packet, with its session and its place in it. -/
abbrev SentPacket : Type := Numbered UInt32 (List UInt8)

universe u

variable {ι : Type u} [DecidableEq ι]

/-- The arrivals from node `i`. -/
def delivered (i : ι) (arrivals : List (ℚ × ι × SentPacket)) : List SentPacket :=
  arrivals.filterMap fun a => if a.2.1 = i then some a.2.2 else none

/-- The arrivals, as the script sees them. -/
def payloads (arrivals : List (ℚ × ι × SentPacket)) : List (ℚ × List UInt8) :=
  arrivals.map fun a => (a.1, a.2.2.item)

/-- The clock moves on between any two packets of a node. -/
def ClockMoves {β : Type} (arrivals : List (ℚ × ι × β)) : Prop :=
  arrivals.Pairwise fun a b => a.2.1 = b.2.1 → a.1 ≠ b.1

def eachSecond {α : Type u} (arrivals : List α) : List (ℚ × α) :=
  arrivals.zipIdx.map fun a => ((a.2 : ℚ), a.1)

theorem pairwise_eachSecond {α : Type u} (arrivals : List α) :
    (eachSecond arrivals).Pairwise fun a b => a.1 ≠ b.1 := by
  rw [eachSecond, List.pairwise_map, List.pairwise_iff_getElem]
  intro k l hk hl hlt
  rw [List.getElem_zipIdx, List.getElem_zipIdx]
  simpa using hlt.ne

omit [DecidableEq ι] in
theorem clock_eachSecond {β : Type} (arrivals : List (ι × β)) :
    ClockMoves (eachSecond arrivals) := by
  refine (pairwise_eachSecond arrivals).imp ?_
  intro a b hne _
  exact hne

/-- The nodes, what happens to each, and what arrives at the host, in order. -/
structure Network (c : Sample) (ι : Type u) [DecidableEq ι] where
  euid : ι → Euid
  distinct : Function.Injective euid
  run : ι → List (NodeAct c.sender.Act)
  arrivals : List (ℚ × ι × SentPacket)
  clock : ClockMoves arrivals
  /-- Fewer than `2 ^ 31` packets a session. -/
  few : ∀ i e, (ofEpoch e (c.sender.packets (euid i) (run i))).length < 2 ^ 31
  /-- Each node's packets arrive in order and at most once. -/
  channel : ∀ i, (delivered i arrivals).Sublist (c.sender.packets (euid i) (run i))

namespace Network

variable {c : Sample}

/-- What node `i` sends. -/
def sent (n : Network c ι) (i : ι) : List SentPacket := c.sender.packets (n.euid i) (n.run i)

def sessionRands {α : Type} (run : List (NodeAct α)) : List UInt32 :=
  run.filterMap fun
    | .boot sessionRand => some sessionRand
    | .act _ => none

/-- Each reboot draws a session value other than the previous one. -/
def SessionsDiffer (n : Network c ι) : Prop := ∀ i, (sessionRands (n.run i)).IsChain (· ≠ ·)

/-- Each session's value is other than that of the previous session of which a packet was
delivered. -/
def SessionsTold (n : Network c ι) : Prop := ∀ i, LabelsTell (delivered i n.arrivals)

/-- After every arrival `p`, from node `i`, the script has a row for the node: what it has
received is what was delivered of `p`'s session, and what it has lost is what was sent of
it between the first and the last packet delivered, and was not delivered.  The rows of the
other nodes are as before. -/
def Accounted (n : Network c ι) : Prop :=
  ∀ before now i p after, n.arrivals = before ++ (now, i, p) :: after →
    ∃ stats stats' row,
      c.script.run (payloads before) = some stats ∧
      c.script.receive stats (now, p.item) = some stats' ∧
      stats' (c.uid (n.euid i)) = some row ∧
      row.packetsReceived =
        (ofEpoch p.epoch (delivered i (before ++ [(now, i, p)]))).length ∧
      row.packetsLost = (missing (n.sent i) (delivered i (before ++ [(now, i, p)])) p).length ∧
      ∀ j, j ≠ i → stats' (c.uid (n.euid j)) = stats (c.uid (n.euid j))

end Network

/-! ## Arrivals -/

theorem delivered_append (i : ι) (as bs : List (ℚ × ι × SentPacket)) :
    delivered i (as ++ bs) = delivered i as ++ delivered i bs := List.filterMap_append

theorem delivered_concat (i : ι) (as : List (ℚ × ι × SentPacket)) (now : ℚ) (p : SentPacket) :
    delivered i (as ++ [(now, i, p)]) = delivered i as ++ [p] := by
  rw [delivered_append]
  congr 1
  exact List.filterMap_cons_some (if_pos rfl)

theorem delivered_concat_of_ne {i j : ι} (h : j ≠ i) (as : List (ℚ × ι × SentPacket)) (now : ℚ)
    (p : SentPacket) : delivered i (as ++ [(now, j, p)]) = delivered i as := by
  rw [delivered_append]
  have hnone : delivered i [(now, j, p)] = [] := List.filterMap_cons_none (if_neg h)
  rw [hnone, List.append_nil]

theorem mem_delivered {now : ℚ} {i : ι} {p : SentPacket} {as : List (ℚ × ι × SentPacket)}
    (h : (now, i, p) ∈ as) : p ∈ delivered i as :=
  List.mem_filterMap.mpr ⟨(now, i, p), h, if_pos rfl⟩

omit [DecidableEq ι] in
theorem payloads_concat (as : List (ℚ × ι × SentPacket)) (a : ℚ × ι × SentPacket) :
    payloads (as ++ [a]) = payloads as ++ [(a.1, a.2.2.item)] := List.map_append

/-! ## The rows are tallies -/

section Rows

variable {S : Script} {Packet : Euid → UInt32 → UInt32 → List UInt8 → Prop} {uid : Euid → String}
  {euid : ι → Euid}

theorem run_append (S : Script) (as : List (ℚ × List UInt8)) (payload : ℚ × List UInt8)
    {stats : S.Stats} (h : S.run as = some stats) :
    S.run (as ++ [payload]) = S.receive stats payload := by
  rw [Script.run] at h ⊢
  rw [List.foldlM_append, h]
  exact bind_pure (S.receive stats payload)

/-- The time of the row is that of an arrival of its node. -/
def Timed (as : List (ℚ × ι × SentPacket)) (i : ι) (row? : Option (Row S.Data)) : Prop :=
  ∀ row, row? = some row → ∃ p, (row.time, i, p) ∈ as

omit [DecidableEq ι] in
theorem Timed.clock {as after : List (ℚ × ι × SentPacket)} {now : ℚ} {i : ι} {p : SentPacket}
    {row? : Option (Row S.Data)} (h : Timed as i row?)
    (hclock : ClockMoves (as ++ (now, i, p) :: after)) (row : Row S.Data) (hrow : row? = some row) :
    now ≠ row.time := by
  obtain ⟨q, hq⟩ := h row hrow
  obtain ⟨-, -, hall⟩ := List.pairwise_append.mp hclock
  exact (hall _ hq _ List.mem_cons_self rfl).symm

/-- The script follows the tallies of all nodes, unless one makes it divide by zero. -/
theorem run_follows (hS : S.Reads Packet uid) (hinj : Function.Injective euid)
    {as : List (ℚ × ι × SentPacket)} (hclock : ClockMoves as)
    (hpacket : ∀ now i p, (now, i, p) ∈ as →
      Packet (euid i) p.label (UInt32.ofNat p.index) p.item ∧ p.index < 2 ^ 32)
    (hpos : ∀ before now i p after, as = before ++ (now, i, p) :: after →
      ∀ t, tally (delivered i (before ++ [(now, i, p)])) = some t → t.lost + t.received ≠ 0) :
    ∃ stats, S.run (payloads as) = some stats ∧
      ∀ i, Option.Rel Script.Follows (tally (delivered i as)) (stats (uid (euid i))) ∧
        Timed as i (stats (uid (euid i))) := by
  induction as using List.reverseRecOn with
  | nil => exact ⟨_, rfl, fun i => ⟨.none, nofun⟩⟩
  | append_singleton d a ih =>
    obtain ⟨now, i, p⟩ := a
    obtain ⟨hbefore, -⟩ := List.pairwise_append.mp hclock
    obtain ⟨stats, hrun, hrel⟩ := ih hbefore
      (fun now' j q h => hpacket now' j q (List.mem_append_left _ h))
      fun before now' j q after h =>
        hpos before now' j q (after ++ [(now, i, p)]) (by rw [h]; simp)
    obtain ⟨hp, hindex⟩ := hpacket now i p (by simp)
    have htally := tally_append (delivered i d) p
    rw [← delivered_concat i d now] at htally
    obtain ⟨row, hreceive, hfollows, htime⟩ := Script.receive_follows hS hp hindex (hrel i).1
      ((hrel i).2.clock hclock) (hpos d now i p [] rfl _ htally)
    refine ⟨Function.update stats (uid (euid i)) (some row), ?_, ?_⟩
    · rw [payloads_concat]
      exact (run_append S _ _ hrun).trans hreceive
    · intro j
      by_cases hj : j = i
      · subst hj
        rw [htally, Function.update_self]
        refine ⟨.some hfollows, ?_⟩
        intro row' hrow'
        obtain rfl := Option.some.inj hrow'
        rcases htime with htime | ⟨old, hold, htime⟩
        · exact ⟨p, by rw [htime]; simp⟩
        · obtain ⟨q, hq⟩ := (hrel j).2 old hold
          exact ⟨q, by rw [htime]; exact List.mem_append_left _ hq⟩
      · have hkey : uid (euid j) ≠ uid (euid i) := fun h => hj (hinj (hS.injective h))
        rw [delivered_concat_of_ne (Ne.symm hj), Function.update_of_ne hkey]
        refine ⟨(hrel j).1, ?_⟩
        intro row' hrow'
        obtain ⟨q, hq⟩ := (hrel j).2 row' hrow'
        exact ⟨q, List.mem_append_left _ hq⟩

end Rows

/-! ## The account is right -/

namespace Network

variable {c : Sample} {n : Network c ι} {now : ℚ} {i : ι} {p : SentPacket}
  {before after : List (ℚ × ι × SentPacket)}

/-- What arrives was sent: it says what it is, and its counter has not wrapped. -/
theorem packet_of_arrival (h : (now, i, p) ∈ n.arrivals) :
    c.Packet (n.euid i) p.label (UInt32.ofNat p.index) p.item ∧ p.index < 2 ^ 32 := by
  have hsent : p ∈ n.sent i := (n.channel i).subset (mem_delivered h)
  refine ⟨Sender.packets_numbered c.numbers hsent, ?_⟩
  obtain ⟨m, hm⟩ := index_ofEpoch p.epoch (c.sender.marks (n.euid i) (n.run i))
  have hfew : m < 2 ^ 31 := by
    have hlen := congrArg List.length hm
    rw [List.length_map, List.length_range] at hlen
    rw [← hlen]
    exact n.few i p.epoch
  have hindex : p.index ∈ List.range m := by
    rw [← hm]
    exact List.mem_map_of_mem (mem_ofEpoch.mpr ⟨hsent, rfl⟩)
  rw [List.mem_range] at hindex
  omega

/-- The tally of the packets of `p`'s node, after `p`. -/
theorem tally_arrival (htold : n.SessionsTold) (h : n.arrivals = before ++ (now, i, p) :: after) :
    tally (delivered i (before ++ [(now, i, p)])) = some ⟨p.label, p.index,
      (ofEpoch p.epoch (delivered i (before ++ [(now, i, p)]))).length,
      (missing (n.sent i) (delivered i (before ++ [(now, i, p)])) p).length⟩ := by
  have harrivals : delivered i n.arrivals = delivered i before ++ [p] ++ delivered i after := by
    rw [h, ← delivered_concat i before now, ← delivered_append, List.append_assoc]
    rfl
  have hsub : (delivered i before ++ [p]).Sublist (n.sent i) := by
    have hpre : (delivered i before ++ [p]).Sublist (delivered i n.arrivals) := by
      rw [harrivals]
      exact List.sublist_append_left _ _
    exact hpre.trans (n.channel i)
  have htell : LabelsTell (delivered i before ++ [p]) := by
    have hall := htold i
    rw [harrivals] at hall
    exact hall.left_of_append
  rw [delivered_concat]
  exact tally_exact hsub htell

theorem tally_pos (htold : n.SessionsTold) (h : n.arrivals = before ++ (now, i, p) :: after)
    {t : Tally UInt32} (ht : tally (delivered i (before ++ [(now, i, p)])) = some t) :
    t.lost + t.received ≠ 0 := by
  rw [tally_arrival htold h] at ht
  cases ht
  have harrival : (now, i, p) ∈ before ++ [(now, i, p)] := by simp
  have hmem : p ∈ ofEpoch p.epoch (delivered i (before ++ [(now, i, p)])) :=
    mem_ofEpoch.mpr ⟨mem_delivered harrival, rfl⟩
  have hpos := List.length_pos_of_mem hmem
  show ((missing (n.sent i) (delivered i (before ++ [(now, i, p)])) p).length : ℤ) +
    (ofEpoch p.epoch (delivered i (before ++ [(now, i, p)]))).length ≠ 0
  omega

/-- **The account of every node is right after every arrival**, if the session values tell
the sessions apart of which packets are delivered. -/
theorem accounted (n : Network c ι) (h : n.SessionsTold) : n.Accounted := by
  intro before now i p after hsplit
  have hclock : ClockMoves (before ++ (now, i, p) :: after) := hsplit ▸ n.clock
  have hpacket : ∀ now' j q, (now', j, q) ∈ before ++ [(now, i, p)] → c.Packet (n.euid j) q.label
      (UInt32.ofNat q.index) q.item ∧ q.index < 2 ^ 32 := by
    intro now' j q hq
    have harrival : (now', j, q) ∈ n.arrivals := by
      rw [hsplit, ← List.singleton_append, ← List.append_assoc]
      exact List.mem_append_left _ hq
    exact packet_of_arrival harrival
  obtain ⟨stats, hrun, hrel⟩ := run_follows c.reads n.distinct (List.pairwise_append.mp hclock).1
    (fun now' j q hq => hpacket now' j q (List.mem_append_left _ hq))
    (fun before' now' j q after' hb t ht =>
      tally_pos h (hsplit.trans (by rw [hb, List.append_assoc]; rfl)) ht)
  obtain ⟨hp, hindex⟩ := hpacket now i p (by simp)
  have htally := tally_append (delivered i before) p
  rw [← delivered_concat i before now, tally_arrival h hsplit] at htally
  obtain ⟨row, hreceive, hfollows, -⟩ := Script.receive_follows c.reads hp hindex (hrel i).1
    ((hrel i).2.clock hclock) (tally_pos h hsplit ((tally_arrival h hsplit).trans htally))
  rw [← Option.some.inj htally] at hfollows
  refine ⟨stats, _, row, hrun, hreceive, Function.update_self _ _ _, hfollows.received,
    hfollows.lost, ?_⟩
  intro j hj
  exact Function.update_of_ne (fun hkey => hj (n.distinct (c.reads.injective hkey))) _ _

/-! ## Two networks -/

/-- A node of socket_test that sends three packets, with a failure in between. -/
def threePackets : List (NodeAct SocketTest.Act) :=
  [.boot 7, .act (.start 0), .act (.pass 40), .act (.pass (-1)), .act (.pass 40), .act (.pass 40)]

def lossyEuid (b : Bool) : Euid :=
  rnbUtilsGetEuid (if b then 0xFFFFF4CE0ABC1234 else 0xFFFFF4CE0ABC1235)

def lossyPackets (b : Bool) : List SentPacket :=
  SocketTest.sender.packets (lossyEuid b) threePackets

/-- All of what the one node sent, and then that of the other, one a second; its second packet
is lost. -/
def lossyArrivals : List (ℚ × Bool × SentPacket) :=
  eachSecond ((lossyPackets false).map (false, ·) ++ ((lossyPackets true).eraseIdx 1).map (true, ·))

theorem lossyEuid_injective : Function.Injective lossyEuid := by decide

theorem lossyPackets_few (b : Bool) (e : ℕ) : (ofEpoch e (lossyPackets b)).length < 2 ^ 31 :=
  Nat.lt_of_le_of_lt (List.length_filter_le _ _) (by cases b <;> decide)

theorem lossyArrivals_channel (b : Bool) :
    (delivered b lossyArrivals).Sublist (lossyPackets b) := by
  cases b <;> decide +kernel

def lossyNetwork : Network .socketTest Bool where
  euid := lossyEuid
  distinct := lossyEuid_injective
  run _ := threePackets
  arrivals := lossyArrivals
  clock := clock_eachSecond _
  few := lossyPackets_few
  channel := lossyArrivals_channel

theorem accounted_lossyNetwork : lossyNetwork.Accounted := by
  apply accounted lossyNetwork
  rintro (_ | _)
  · exact (by decide : (delivered false lossyNetwork.arrivals).IsChain fun p q =>
      p.epoch ≠ q.epoch → p.label ≠ q.label)
  · exact (by decide : (delivered true lossyNetwork.arrivals).IsChain fun p q =>
      p.epoch ≠ q.epoch → p.label ≠ q.label)

/-- A tag of accelerometer boots and draws a session value. -/
def bootTag (sessionRand : UInt32) : List (NodeAct Accelerometer.Act) :=
  [.boot sessionRand, .act (.startClient .tag 0 true true 0)]

def sends : NodeAct Accelerometer.Act := .act (.trigger ⟨0, 0, ⟨0, 0⟩, ⟨0, 0⟩, ⟨9, 810000⟩, 40⟩)

/-- Three sessions, with the values `1`, `2` and `1`; nothing is sent in the second. -/
def confusedRun : List (NodeAct Accelerometer.Act) :=
  bootTag 1 ++ [sends, sends] ++ bootTag 2 ++ bootTag 1 ++ [sends]

def confusedPackets : List SentPacket :=
  Accelerometer.sender.packets (rnbUtilsGetEuid 0xFFFFF4CE0ABC1234) confusedRun

def confusedArrivals : List (ℚ × Unit × SentPacket) := eachSecond (confusedPackets.map ((), ·))

theorem confusedPackets_few (e : ℕ) : (ofEpoch e confusedPackets).length < 2 ^ 31 :=
  Nat.lt_of_le_of_lt (List.length_filter_le _ _) (by decide)

theorem confusedArrivals_channel (i : Unit) :
    (delivered i confusedArrivals).Sublist confusedPackets := by
  cases i
  decide +kernel

/-- A node that boots three times, and all of whose packets arrive, one a second. -/
def confusedNetwork : Network .accelerometer Unit where
  euid _ := rnbUtilsGetEuid 0xFFFFF4CE0ABC1234
  distinct := Function.injective_of_subsingleton _
  run _ := confusedRun
  arrivals := confusedArrivals
  clock := clock_eachSecond _
  few _ := confusedPackets_few
  channel := confusedArrivals_channel

/-- A session value that differs from the previous one is not enough: the three packets of
`confusedNetwork` are taken for one session, of which the script has received three and
lost `-2`. -/
theorem sessions_confused :
    ¬ ∀ (c : Sample) (n : Network c Unit), n.SessionsDiffer → n.Accounted := by
  intro h
  have hdiffer : confusedNetwork.SessionsDiffer := by
    intro i
    exact (by decide : (sessionRands confusedRun).IsChain (· ≠ ·))
  have hsplit : confusedNetwork.arrivals =
      confusedNetwork.arrivals.take 2 ++ [(2, (), confusedPackets.get ⟨2, by decide⟩)] := rfl
  obtain ⟨stats, stats', row, hrun, hreceive, hrow, hreceived, -⟩ :=
    h .accelerometer confusedNetwork hdiffer _ _ _ _ _ hsplit
  -- the script follows the tally all the same
  have hpos : ∀ before now i p after,
      confusedNetwork.arrivals = before ++ (now, i, p) :: after →
      ∀ t, tally (delivered i (before ++ [(now, i, p)])) = some t → t.lost + t.received ≠ 0 := by
    intro before now i p after hb t ht
    have htake : before ++ [(now, i, p)] = confusedNetwork.arrivals.take (before.length + 1) := by
      have happ := hb.trans (List.append_cons before (now, i, p) after)
      rw [happ]
      exact (List.take_left' (by rw [List.length_append, List.length_singleton])).symm
    have hlen : before.length < 3 := by
      have := congrArg List.length hb
      rw [List.length_append, List.length_cons] at this
      have hthree : confusedNetwork.arrivals.length = 3 := by decide
      omega
    have hall : ∀ k < 3, ∀ t ∈ tally (delivered () (confusedNetwork.arrivals.take (k + 1))),
        t.lost + t.received ≠ 0 := by decide
    rw [htake] at ht
    exact hall before.length hlen t ht
  obtain ⟨stats'', hrun'', hrel⟩ := run_follows Sample.accelerometer.reads confusedNetwork.distinct
    confusedNetwork.clock (fun now i p => packet_of_arrival) hpos
  have hstats : stats'' = stats' := by
    have hlast := (run_append _ _ _ hrun).trans hreceive
    rw [hsplit, payloads_concat] at hrun''
    exact Option.some.inj (hrun''.symm.trans hlast)
  have htally : tally (delivered () confusedNetwork.arrivals) = some ⟨1, 0, 3, -2⟩ := by decide
  have hfollows := (hrel ()).1
  rw [hstats, htally, hrow] at hfollows
  have hthree : row.packetsReceived = 3 := by
    cases hfollows with
    | some hrow => exact hrow.received
  rw [hthree] at hreceived
  exact absurd hreceived (by decide)

end Network

end RedNodeBus.Telemetry

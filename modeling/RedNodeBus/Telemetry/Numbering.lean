import Mathlib.Data.Int.ModEq
import RedNodeBus.Telemetry.ArrivalOrder

/-!
# What the counters count

The three UDP clients put a counter in each packet, and the scripts take a gap in it for
lost packets.  That is right if the counter is the number of packets that `send` accepted
before, in the session: then the packets of a session are numbered from `0` on, without a
gap (`Consecutive`), and a gap between two that arrive is what was sent between them
(`Consecutive.gap`).

`Counts` says what a client's counter is, by the accepted and the failed sends of the
session before.  Two clients count the accepted ones.  The battery client counts both, so a
send that fails leaves a gap that the script calls a loss (`numbersAccepted_iff`).
-/

namespace RedNodeBus.Telemetry

/-! ## Sends -/

/-- What is seen of a node: its boots, and what becomes of its sends. -/
inductive SendEvent
  | boot
  | accepted (payload : List UInt8)
  | failed
  deriving DecidableEq

namespace SendEvent

def isAccepted : SendEvent → Bool
  | .accepted _ => true
  | _ => false

def isFailed : SendEvent → Bool
  | .failed => true
  | _ => false

end SendEvent

/-- The events since the last boot. -/
def currentSession (events : List SendEvent) : List SendEvent :=
  events.foldl (fun session e => if e = .boot then [] else session ++ [e]) []

def acceptedSends (events : List SendEvent) : ℕ :=
  (currentSession events).countP SendEvent.isAccepted

def failedSends (events : List SendEvent) : ℕ :=
  (currentSession events).countP SendEvent.isFailed

theorem currentSession_concat (events : List SendEvent) (e : SendEvent) :
    currentSession (events ++ [e]) = if e = .boot then [] else currentSession events ++ [e] :=
  List.foldl_concat _ _ _ _

theorem countP_currentSession_concat (p : SendEvent → Bool) (events : List SendEvent)
    {e : SendEvent} (he : e ≠ .boot) :
    (currentSession (events ++ [e])).countP p =
      (currentSession events).countP p + [e].countP p := by
  rw [currentSession_concat, if_neg he, List.countP_append]

theorem currentSession_append {events session : List SendEvent} (h : .boot ∉ session) :
    currentSession (events ++ session) = currentSession events ++ session := by
  induction session using List.reverseRecOn with
  | nil => rw [List.append_nil, List.append_nil]
  | append_singleton session e ih =>
    rw [List.mem_append, not_or, List.mem_singleton] at h
    rw [← List.append_assoc, currentSession_concat, if_neg (Ne.symm h.2), ih h.1,
      List.append_assoc]

section

variable (events : List SendEvent) (payload : List UInt8)

@[simp] theorem acceptedSends_boot : acceptedSends (events ++ [.boot]) = 0 := by
  rw [acceptedSends, currentSession_concat, if_pos rfl, List.countP_nil]

@[simp] theorem failedSends_boot : failedSends (events ++ [.boot]) = 0 := by
  rw [failedSends, currentSession_concat, if_pos rfl, List.countP_nil]

@[simp] theorem acceptedSends_accepted :
    acceptedSends (events ++ [.accepted payload]) = acceptedSends events + 1 :=
  countP_currentSession_concat _ events (by simp)

@[simp] theorem failedSends_accepted :
    failedSends (events ++ [.accepted payload]) = failedSends events :=
  countP_currentSession_concat _ events (by simp)

@[simp] theorem acceptedSends_failed :
    acceptedSends (events ++ [.failed]) = acceptedSends events :=
  countP_currentSession_concat _ events (by simp)

@[simp] theorem failedSends_failed :
    failedSends (events ++ [.failed]) = failedSends events + 1 :=
  countP_currentSession_concat _ events (by simp)

end

/-! ## The clients -/

/-- The samples with a UDP client that numbers its packets. -/
inductive UdpSample
  | battery
  | accelerometer
  | socketTest
  deriving DecidableEq

namespace UdpSample

def sender : UdpSample → Sender
  | .battery => BatteryClient.sender
  | .accelerometer => Accelerometer.sender
  | .socketTest => SocketTest.sender

def script : UdpSample → Script
  | .battery => Script.battery
  | .accelerometer => Script.accelerometer
  | .socketTest => Script.socketTest

/-- `send` is called in the step, and fails. -/
def sendFails : (c : UdpSample) → c.sender.Act → Bool
  | .battery => BatteryClient.sendFails
  | .accelerometer => Accelerometer.sendFails
  | .socketTest => SocketTest.sendFails

variable (c : UdpSample)

def event : Option c.sender.State → NodeAct c.sender.Act → Option SendEvent
  | _, .boot _ => some .boot
  | some s, .act a =>
    match c.sender.sent s a with
    | some payload => some (.accepted payload)
    | none => if c.sendFails a then some .failed else none
  | none, .act _ => none

def events (euid : Euid) (run : List (NodeAct c.sender.Act)) : List SendEvent :=
  (c.sender.node euid).observe c.event none run

/-- The counter that the script reads in a payload. -/
def ctr (payload : List UInt8) : Option ℕ := (c.script.read payload).map (·.ctr)

/-- The accepted packets of each session carry `0`, `1`, `2` and so on, in 32 bits. -/
def Consecutive (events : List SendEvent) : Prop :=
  ∀ before payload after, events = before ++ .accepted payload :: after →
    c.ctr payload = some (acceptedSends before % 2 ^ 32)

/-- Between two packets of a session, the script sees a gap of as many as were accepted. -/
def GapsAreSent (events : List SendEvent) : Prop :=
  ∀ before payload between payload' after,
    events = before ++ .accepted payload :: (between ++ .accepted payload' :: after) →
    .boot ∉ between →
    ∃ ctr ctr' : ℕ, c.ctr payload = some ctr ∧ c.ctr payload' = some ctr' ∧
      (ctr' : ℤ) - ctr - 1 ≡ between.countP SendEvent.isAccepted [ZMOD 2 ^ 32]

/-- The counters number the packets that were accepted. -/
structure NumbersAccepted (events : List SendEvent) : Prop where
  consecutive : c.Consecutive events
  gap : c.GapsAreSent events

variable {c}

/-- Without a gap in the packets sent, a gap in those that arrive is what was lost. -/
theorem Consecutive.gap {events : List SendEvent} (h : c.Consecutive events) :
    c.GapsAreSent events := by
  intro before payload between payload' after hsplit hboot
  refine ⟨_, _, h before payload _ hsplit,
    h (before ++ .accepted payload :: between) payload' after (by rw [hsplit]; simp), ?_⟩
  have hsession : .boot ∉ SendEvent.accepted payload :: between := by
    rw [List.mem_cons, not_or]
    exact ⟨fun h => SendEvent.noConfusion h, hboot⟩
  have hcount : acceptedSends (before ++ .accepted payload :: between) =
      acceptedSends before + 1 + between.countP SendEvent.isAccepted := by
    rw [acceptedSends, currentSession_append hsession, List.countP_append, List.countP_cons,
      acceptedSends]
    simp only [SendEvent.isAccepted, if_true]
    omega
  rw [hcount, Int.ModEq]
  omega

/-! ## The counter of a client -/

/-- After `a` accepted and `f` failed sends of a session, the client's counter is
`ctr a f`. -/
structure Counts (c : UdpSample) where
  Packet : Euid → UInt32 → UInt32 → List UInt8 → Prop
  uid : Euid → String
  reads : c.script.Reads Packet uid
  ctr : ℕ → ℕ → ℕ
  R : Euid → UInt32 → ℕ → ℕ → c.sender.State → Prop
  initApp : ∀ euid sessionRand, R euid sessionRand 0 0 (c.sender.initApp euid sessionRand)
  quiet : ∀ {euid sessionRand a f s act s'}, R euid sessionRand a f s →
    c.sender.step s act = some s' → c.sender.sent s act = none → c.sendFails act = false →
      R euid sessionRand a f s'
  fails : ∀ {euid sessionRand a f s act s'}, R euid sessionRand a f s →
    c.sender.step s act = some s' → c.sender.sent s act = none → c.sendFails act = true →
      R euid sessionRand a (f + 1) s'
  sends : ∀ {euid sessionRand a f s act s' payload}, R euid sessionRand a f s →
    c.sender.step s act = some s' → c.sender.sent s act = some payload →
      Packet euid sessionRand (UInt32.ofNat (ctr a f)) payload ∧ R euid sessionRand (a + 1) f s'

namespace Counts

variable (C : c.Counts) {euid : Euid}

/-- What has been seen of a node, and its state. -/
def Inv (euid : Euid) (events : List SendEvent) : Option c.sender.State → Prop
  | none => True
  | some s => ∃ sessionRand, C.R euid sessionRand (acceptedSends events) (failedSends events) s

theorem inv_step {events : List SendEvent} {st st' : Option c.sender.State}
    {a : NodeAct c.sender.Act} (h : C.Inv euid events st)
    (hs : (c.sender.node euid).step st a = some st') :
    C.Inv euid (events ++ (c.event st a).toList) st' := by
  cases a with
  | boot sessionRand =>
    have hst : st' = some (c.sender.initApp euid sessionRand) := by
      cases st <;> exact (Option.some.inj hs).symm
    have hevent : c.event st (.boot sessionRand) = some .boot := by
      cases st <;> rfl
    rw [hst, hevent, Option.toList_some]
    refine ⟨sessionRand, ?_⟩
    rw [acceptedSends_boot, failedSends_boot]
    exact C.initApp euid sessionRand
  | act a =>
    cases st with
    | none => cases hs
    | some s =>
      obtain ⟨s', hstep, rfl⟩ := Option.map_eq_some_iff.mp hs
      obtain ⟨sessionRand, hR⟩ := h
      refine ⟨sessionRand, ?_⟩
      rw [event]
      cases hsent : c.sender.sent s a with
      | some payload =>
        rw [Option.toList_some, acceptedSends_accepted, failedSends_accepted]
        exact (C.sends hR hstep hsent).2
      | none =>
        cases hfails : c.sendFails a with
        | true =>
          rw [if_pos rfl, Option.toList_some, acceptedSends_failed, failedSends_failed]
          exact C.fails hR hstep hsent hfails
        | false =>
          rw [if_neg Bool.false_ne_true, Option.toList_none, List.append_nil]
          exact C.quiet hR hstep hsent hfails

theorem ctr_step {events : List SendEvent} {st st' : Option c.sender.State}
    {a : NodeAct c.sender.Act} (h : C.Inv euid events st)
    (hs : (c.sender.node euid).step st a = some st') {payload : List UInt8}
    (he : c.event st a = some (.accepted payload)) :
    c.ctr payload = some (C.ctr (acceptedSends events) (failedSends events) % 2 ^ 32) := by
  cases a with
  | boot sessionRand => cases st <;> cases he
  | act a =>
    cases st with
    | none => cases hs
    | some s =>
      obtain ⟨s', hstep, rfl⟩ := Option.map_eq_some_iff.mp hs
      obtain ⟨sessionRand, hR⟩ := h
      rw [event] at he
      cases hsent : c.sender.sent s a with
      | none =>
        rw [hsent] at he
        obtain ⟨-, he⟩ := Option.ite_none_right_eq_some.mp he
        cases he
      | some payload' =>
        rw [hsent] at he
        cases he
        obtain ⟨data, hread⟩ := C.reads.read (C.sends hR hstep hsent).1
        rw [UdpSample.ctr, hread, Option.map_some, UInt32.toNat_ofNat']

theorem ctr_of_run {run : List (NodeAct c.sender.Act)} {st : Option c.sender.State}
    (hr : (c.sender.node euid).run run = some st) :
    ∀ before payload after, c.events euid run = before ++ .accepted payload :: after →
      c.ctr payload = some (C.ctr (acceptedSends before) (failedSends before) % 2 ^ 32) := by
  have heach := Machine.history_each (P := fun _ _ => True) (I := C.Inv euid)
    (Q := fun before e => ∀ payload, e = .accepted payload →
      c.ctr payload = some (C.ctr (acceptedSends before) (failedSends before) % 2 ^ 32))
    (fun events st a st' hI _ hs => C.inv_step hI hs)
    (fun events st a st' hI _ hs e he payload hpayload =>
      C.ctr_step hI hs (hpayload ▸ he))
    (h := []) (s := none) trivial (Machine.along_trivial (fun _ _ => trivial) none run) hr
  intro before payload after hsplit
  exact heach before _ after hsplit payload rfl

def ofNumbers {Packet : Euid → UInt32 → UInt32 → List UInt8 → Prop} {uid : Euid → String}
    (hreads : c.script.Reads Packet uid) (N : c.sender.Numbers Packet) : c.Counts where
  Packet := Packet
  uid := uid
  reads := hreads
  ctr a _ := a
  R euid sessionRand a _ s := N.R euid sessionRand (UInt32.ofNat a) s
  initApp := N.initApp
  quiet hR hs hsent _ := N.quiet hR hs hsent
  fails hR hs hsent _ := N.quiet hR hs hsent
  sends := by
    intro euid sessionRand a f s act s' payload hR hs hsent
    rw [UInt32.ofNat_add]
    exact N.sends hR hs hsent

/-- The battery client counts the failed sends too. -/
def battery : Counts .battery where
  Packet := BatteryPacket
  uid euid := Script.hexKey euid.val.toNat
  reads := Script.battery_reads
  ctr a f := a + f
  R euid sessionRand a f (s : BatteryClient) :=
    BatteryClient.Stamped euid sessionRand s ∧ s.packetsSent = UInt32.ofNat (a + f)
  initApp euid sessionRand := ⟨BatteryClient.stamped_initApp euid sessionRand, rfl⟩
  quiet := by
    intro euid sessionRand a f s act s' hR hs hsent hfails
    obtain ⟨hstamped, hcount⟩ := hR
    have hnot := BatteryClient.not_sends_of_quiet hsent hfails
    exact ⟨hstamped.step hs, (BatteryClient.packetsSent_of_not_sends hs hnot).trans hcount⟩
  fails := by
    intro euid sessionRand a f s act s' hR hs hsent hfails
    obtain ⟨hstamped, hcount⟩ := hR
    have hsends := BatteryClient.sends_of_sendFails hfails
    refine ⟨hstamped.step hs, ?_⟩
    rw [BatteryClient.packetsSent_of_sends hs hsends, hcount, ← Nat.add_assoc]
    exact (UInt32.ofNat_add _ 1).symm
  sends := by
    intro euid sessionRand a f s act s' payload hR hs hsent
    obtain ⟨hstamped, hcount⟩ := hR
    have hsends := (BatteryClient.sentUdp_eq_some hsent).1
    have hpacket := BatteryClient.packet_of_sent hstamped hsent
    rw [hcount] at hpacket
    refine ⟨hpacket, hstamped.step hs, ?_⟩
    rw [BatteryClient.packetsSent_of_sends hs hsends, hcount, Nat.add_right_comm]
    exact (UInt32.ofNat_add _ 1).symm

end Counts

def counts : (c : UdpSample) → c.Counts
  | .battery => .battery
  | .accelerometer => .ofNumbers Script.accelerometer_reads Accelerometer.numbers
  | .socketTest => .ofNumbers Script.socketTest_reads SocketTest.numbers

/-- **Which runs number their packets.**  All those of accelerometer and socket_test; of
battery, those in which the sends of a session that failed before an accepted one are a
multiple of `2 ^ 32`. -/
theorem numbersAccepted_iff (c : UdpSample) (euid : Euid) {run : List (NodeAct c.sender.Act)}
    {st : Option c.sender.State} (hr : (c.sender.node euid).run run = some st) :
    c.NumbersAccepted (c.events euid run) ↔
      (c = .battery → ∀ before payload after,
        c.events euid run = before ++ .accepted payload :: after →
          2 ^ 32 ∣ failedSends before) := by
  have hctr := c.counts.ctr_of_run hr
  constructor
  · intro hnumbers hc before payload after hsplit
    subst hc
    have hread := (hctr before payload after hsplit).symm.trans
      (hnumbers.consecutive before payload after hsplit)
    -- the counter is the sum of both
    have hmod : (acceptedSends before + failedSends before) % 2 ^ 32 =
        acceptedSends before % 2 ^ 32 := Option.some.inj hread
    omega
  · intro hfailed
    have hconsecutive : c.Consecutive (c.events euid run) := by
      intro before payload after hsplit
      rw [hctr before payload after hsplit]
      cases c with
      | battery =>
        have hdvd := hfailed rfl before payload after hsplit
        have hmod : (acceptedSends before + failedSends before) % 2 ^ 32 =
            acceptedSends before % 2 ^ 32 := by omega
        exact congrArg some hmod
      | accelerometer => rfl
      | socketTest => rfl
    exact ⟨hconsecutive, hconsecutive.gap⟩

/-- A session of the battery client in which the first send fails. -/
def firstFails : List (NodeAct BatteryClient.Act) :=
  [.boot 7, .act (.start 0), .act (.pass 0 3700 (-1)), .act (.pass 0 3700 20)]

theorem events_firstFails : UdpSample.battery.events batteryEuid firstFails =
    [.boot, .failed, .accepted (batteryPayload 1)] := by decide +kernel

theorem firstFails_runs : ∃ st, (BatteryClient.sender.node batteryEuid).run firstFails = some st :=
  ⟨_, rfl⟩

theorem numbersAccepted_iff_firstFails :
    UdpSample.battery.NumbersAccepted (UdpSample.battery.events batteryEuid firstFails) ↔
      (UdpSample.battery = .battery → ∀ before payload after,
        UdpSample.battery.events batteryEuid firstFails = before ++ .accepted payload :: after →
          2 ^ 32 ∣ failedSends before) := by
  obtain ⟨st, hr⟩ := firstFails_runs
  exact numbersAccepted_iff .battery batteryEuid hr

/-- The packet that is accepted is the first one, and carries the counter `1`. -/
theorem firstFails_not_numbered :
    UdpSample.battery.ctr (batteryPayload 1) = some 1 ∧
    ¬ ∀ (c : UdpSample) (euid : Euid) (run : List (NodeAct c.sender.Act))
      (st : Option c.sender.State), (c.sender.node euid).run run = some st →
        c.NumbersAccepted (c.events euid run) := by
  have hctr : UdpSample.battery.ctr (batteryPayload 1) = some 1 := by decide +kernel
  refine ⟨hctr, ?_⟩
  intro h
  obtain ⟨st, hr⟩ := firstFails_runs
  have hread := (h .battery batteryEuid firstFails st hr).consecutive [.boot, .failed] _ []
    events_firstFails
  rw [hctr] at hread
  exact absurd hread (by decide)

end UdpSample

end RedNodeBus.Telemetry

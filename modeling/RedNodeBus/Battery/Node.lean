import RedNodeBus.Battery.Sample
import RedNodeBus.Telemetry.Battery

/-!
# The battery node

`BatteryClient` takes what `battery_measure_enable` and `battery_sample` return as given, and
`batterySample` the statics of the driver.  Here is the node they are parts of: `battery_setup`
before `main`, the wait for the bus, the loop of `start_client` call by call, the interrupt of
BATT_STAT in between, and resets at any time.

`Inv` relates the state to what has happened: whether the divider was set up, whether anything
was converted since the reset, and, before `send`, that the value in the buffer is that of the
conversion just made.  `May` says what may happen after what has happened, and `may_event` that
nothing else does.
-/

namespace RedNodeBus.Battery

open Bytes Telemetry

/-! ## The drivers -/

/-- The device tree. -/
structure Board where
  divider : DividerConfig
  /-- `power_gpios` has a port. -/
  powerPort : Bool
  /-- `led2_blue` has a port. -/
  ledPort : Bool

/-- The statics of `battery.c` and the pins it drives. -/
structure Soc where
  driver : Driver
  /-- The pin that powers the divider. -/
  power : Bool
  /-- `batt_stat_led.port` -/
  ledPort : Bool
  led : Bool
  /-- `batt_stat_changed` is a callback of the pin. -/
  statCallback : Bool
deriving DecidableEq

/-- What the drivers answer in `divider_setup`. -/
structure DividerAnswers where
  adcReady : Bool
  portReady : Bool
  pinConfigure : Int32
  channelSetup : Int32

/-- What they answer in the set-up of an input pin. -/
structure PinAnswers where
  ready : Bool
  configure : Int32
  interrupt : Int32

/-- What they answer in the set-up of the LED. -/
structure LedAnswers where
  ready : Bool
  configure : Int32

/-- What `gpio_pin_get_dt` returns for the two inputs. -/
structure PinReads where
  battStat : Int32
  pwrGood : Int32

structure SetupAnswers where
  divider : DividerAnswers
  pwrGood : PinAnswers
  battStat : PinAnswers
  led : LedAnswers
  reads : PinReads

def dividerSetup (board : Board) (ans : DividerAnswers) (h : Soc) : Int32 × Soc :=
  if !ans.adcReady then (enoent, h)
  else if board.powerPort && !ans.portReady then (enoent, h)
  else if board.powerPort && ans.pinConfigure ≠ 0 then (ans.pinConfigure, h)
  else
    (ans.channelSetup, { h with
      power := if board.powerPort then false else h.power
      driver := { h.driver with dividerData := { h.driver.dividerData with calibrate := true } } })

def battStatChanged (reads : PinReads) (h : Soc) : Soc :=
  if h.ledPort && 0 ≤ reads.battStat && 0 ≤ reads.pwrGood then
    { h with led := if reads.pwrGood = 0 then false else reads.battStat ≠ 0 }
  else h

/-- `pwr_good_setup`; its callback only logs. -/
def pwrGoodSetup (ans : PinAnswers) : Int32 :=
  if !ans.ready then enoent
  else if ans.configure ≠ 0 then enoent
  else ans.interrupt

def battStatSetup (ans : PinAnswers) (led : LedAnswers) (reads : PinReads) (h : Soc) :
    Int32 × Soc :=
  if !ans.ready then (enoent, h)
  else if ans.configure ≠ 0 then (enoent, h)
  else if ans.interrupt ≠ 0 then (ans.interrupt, h)
  else
    let h := { h with statCallback := true, ledPort := h.ledPort && led.ready }
    if h.ledPort then
      if led.configure ≠ 0 then (led.configure, { h with ledPort := false })
      else (0, battStatChanged reads h)
    else (0, h)

def batterySetup (board : Board) (ans : SetupAnswers) (h : Soc) : Int32 × Soc :=
  let (ret, h) := dividerSetup board ans.divider h
  let h := { h with driver := { h.driver with batteryOk := ret = 0 } }
  if ret ≠ 0 then (ret, h)
  else
    let ret := pwrGoodSetup ans.pwrGood
    if ret ≠ 0 then (ret, h) else battStatSetup ans.battStat ans.led ans.reads h

/-- `battery_measure_enable`, where `gpio_pin_set_dt` returns `ret`. -/
def batteryMeasureEnable (board : Board) (enable : Bool) (ret : Int32) (h : Soc) : Int32 × Soc :=
  if h.driver.batteryOk then
    if board.powerPort then (ret, if ret = 0 then { h with power := enable } else h) else (0, h)
  else (enoent, h)

/-! ## The node -/

/-- Where the main thread stands: before a call, `battery_setup` being the first. -/
inductive MainAt
  | setup
  | isConnected
  | initApp
  | startUdp
  | measureEnable
  | sample
  | send
  | measureDisable
  | returned
  deriving DecidableEq, Repr

structure BatteryNode where
  soc : Soc
  packetBuffer : Vector UInt32 5
  /-- `packets_sent` of `send_udp_data`. -/
  packetsSent : UInt32
  pc : MainAt

namespace BatteryNode

def reset (board : Board) : BatteryNode where
  soc := ⟨⟨false, ⟨0, false⟩⟩, false, board.ledPort, false, false⟩
  packetBuffer := #v[0, 0, 0, 0, 0]
  packetsSent := 0
  pc := .setup

/-- `packet_buffer[3]` and `packet_buffer[4]` -/
theorem counter_lt : 3 < 5 := by decide

theorem battMv_lt : 4 < 5 := by decide

/-- The voltage in `packet_buffer`. -/
def battMv (s : BatteryNode) : UInt32 := getElem s.packetBuffer 4 battMv_lt

/-- A call of the main thread with what it is answered, a change of BATT_STAT, or a reset. -/
inductive Act
  | reset
  | setup (ans : SetupAnswers)
  | isConnected (connected : Bool)
  | initApp (sessionRand : UInt32)
  | startUdp (ret : Int)
  | measureEnable (ret : Int32)
  | sample (adc : AdcRead)
  | send (ret : Int)
  | measureDisable (ret : Int32)
  | battStat (reads : PinReads)

def Act.pc? : Act → Option MainAt
  | .setup _ => some .setup
  | .isConnected _ => some .isConnected
  | .initApp _ => some .initApp
  | .startUdp _ => some .startUdp
  | .measureEnable _ => some .measureEnable
  | .sample _ => some .sample
  | .send _ => some .send
  | .measureDisable _ => some .measureDisable
  | .reset | .battStat _ => none

variable (board : Board) (adcRawToMillivolts : Int32 → Int32) (euid : Euid)

def perform (s : BatteryNode) : Act → Option BatteryNode
  | .reset => some (reset board)
  | .setup ans => some { s with soc := (batterySetup board ans s.soc).2, pc := .isConnected }
  | .isConnected connected => some (if connected then { s with pc := .initApp } else s)
  | .initApp sessionRand => some { s with
      packetBuffer := (BatteryClient.initApp euid sessionRand).packetBuffer
      pc := .startUdp }
  | .startUdp ret => some { s with pc := if ret = 0 then .measureEnable else .returned }
  | .measureEnable ret =>
    let (rc, soc) := batteryMeasureEnable board true ret s.soc
    some { s with soc := soc, pc := if rc ≠ 0 then .returned else .sample }
  | .sample adc =>
    let (battMv, driver) := batterySample board.divider adcRawToMillivolts adc s.soc.driver
    let s := { s with soc := { s.soc with driver := driver } }
    some (if battMv < 0 then { s with pc := .measureDisable }
      else { s with packetBuffer := s.packetBuffer.set 4 battMv.toUInt32 battMv_lt, pc := .send })
  | .send _ =>
    BatteryClient.transmitting.map fun _ => { s with
      packetBuffer := s.packetBuffer.set 3 s.packetsSent counter_lt
      packetsSent := s.packetsSent + 1
      pc := .measureDisable }
  | .measureDisable ret => some { s with
      soc := (batteryMeasureEnable board false ret s.soc).2
      pc := .measureEnable }
  | .battStat reads =>
    if s.soc.statCallback then some { s with soc := battStatChanged reads s.soc } else none

def step (s : BatteryNode) (a : Act) : Option BatteryNode :=
  if a.pc?.all (· = s.pc) then s.perform board adcRawToMillivolts euid a else none

def machine : Machine BatteryNode Act where
  init := reset board
  step := step board adcRawToMillivolts euid

/-! ## What happens -/

/-- A conversion: the state of the divider and of the sequence, and what `adc_read` gave. -/
structure Conversion where
  powered : Bool
  calibrate : Bool
  adc : AdcRead

inductive Event
  | reset
  /-- `divider_setup` returns. -/
  | dividerSetup (ret : Int32)
  | converted (c : Conversion)
  /-- `send` accepts a datagram. -/
  | sent (payload : List UInt8)

/-- The divider is powered: by the pin, if there is one. -/
def powered (s : BatteryNode) : Bool := !board.powerPort || s.soc.power

def event (s : BatteryNode) (a : Act) : Option Event :=
  if a.pc?.all (· = s.pc) then
    match a with
    | .reset => some .reset
    | .setup ans => some (.dividerSetup (dividerSetup board ans.divider s.soc).1)
    | .sample adc =>
      if s.soc.driver.batteryOk then
        some (.converted ⟨s.powered board, s.soc.driver.dividerData.calibrate, adc⟩)
      else none
    | .send ret =>
      if ret < 0 then none
      else BatteryClient.transmitting.map fun transmitting =>
        .sent ((words (s.packetBuffer.set 3 s.packetsSent counter_lt).toList).take transmitting)
    | .isConnected _ | .initApp _ | .startUdp _ | .measureEnable _ | .measureDisable _
    | .battStat _ => none
  else none

/-- What `battery_sample` returns of a conversion that succeeded. -/
def value (raw : Int16) : Int32 :=
  if board.divider.outputOhm ≠ 0 then quotient board.divider (adcRawToMillivolts raw.toInt32)
  else adcRawToMillivolts raw.toInt32

/-- The divider has been set up since the reset. -/
def setUp (events : List Event) : Bool :=
  events.foldl (fun ok e =>
    match e with
    | .reset => false
    | .dividerSetup ret => ret = 0
    | .converted _ | .sent _ => ok) false

/-- Something has been converted since the reset. -/
def converted (events : List Event) : Bool :=
  events.foldl (fun c e =>
    match e with
    | .reset => false
    | .converted _ => true
    | .dividerSetup _ | .sent _ => c) false

/-- `adc_read` returns zero or an error. -/
def Documented (_ : BatteryNode) : Act → Prop
  | .sample adc => adc.rc ≤ 0
  | _ => True

instance (s : BatteryNode) : (a : Act) → Decidable (s.Documented a)
  | .sample adc => inferInstanceAs (Decidable (adc.rc ≤ 0))
  | .reset | .setup _ | .isConnected _ | .initApp _ | .startUdp _ | .measureEnable _ | .send _
  | .measureDisable _ | .battStat _ => isTrue trivial

/-! ## The invariant -/

variable {board adcRawToMillivolts euid} {s s' : BatteryNode} {events : List Event} {a : Act}

@[simp] theorem setUp_concat (events : List Event) (e : Event) :
    setUp (events ++ [e]) = match e with
      | .reset => false
      | .dividerSetup ret => decide (ret = 0)
      | .converted _ | .sent _ => setUp events := List.foldl_concat ..

@[simp] theorem converted_concat (events : List Event) (e : Event) :
    converted (events ++ [e]) = match e with
      | .reset => false
      | .converted _ => true
      | .dividerSetup _ | .sent _ => converted events := List.foldl_concat ..

/-- The conversion whose value is sent next. -/
def Converted (board : Board) (adcRawToMillivolts : Int32 → Int32) (events : List Event)
    (battMv : UInt32) : Prop :=
  ∃ before c, events = before ++ [.converted c] ∧ c.adc.rc = 0 ∧
    0 ≤ value board adcRawToMillivolts c.adc.raw ∧
    battMv = (value board adcRawToMillivolts c.adc.raw).toUInt32

/-- What has happened and where the node stands. -/
structure Inv (board : Board) (adcRawToMillivolts : Int32 → Int32) (events : List Event)
    (s : BatteryNode) : Prop where
  ok : s.soc.driver.batteryOk = setUp events
  fresh : s.pc = .setup → converted events = false
  calibrate : s.soc.driver.batteryOk = true →
    s.soc.driver.dividerData.calibrate = !converted events
  sample : s.pc = .sample → s.soc.driver.batteryOk = true ∧ s.powered board = true
  send : s.pc = .send → Converted board adcRawToMillivolts events s.battMv

/-- What may happen after what has happened. -/
def May (board : Board) (adcRawToMillivolts : Int32 → Int32) (before : List Event) : Event → Prop
  | .reset | .dividerSetup _ => True
  | .converted c => setUp before = true ∧ c.powered = true ∧ c.calibrate = !converted before
  | .sent payload => ∃ battMv, Converted board adcRawToMillivolts before battMv ∧
      slice 16 4 payload = le32 battMv

theorem step_cases (h : step board adcRawToMillivolts euid s a = some s') :
    a.pc?.all (· = s.pc) = true ∧ s.perform board adcRawToMillivolts euid a = some s' := by
  rw [step] at h
  split at h
  · exact ⟨‹_›, h⟩
  · cases h

theorem battStatChanged_frame (reads : PinReads) (h : Soc) :
    (battStatChanged reads h).driver = h.driver ∧ (battStatChanged reads h).power = h.power := by
  rw [battStatChanged]
  split <;> exact ⟨rfl, rfl⟩

/-- The set-up of the two inputs leaves the driver and the divider alone. -/
theorem battStatSetup_frame (ans : PinAnswers) (led : LedAnswers) (reads : PinReads) (h : Soc) :
    (battStatSetup ans led reads h).2.driver = h.driver ∧
      (battStatSetup ans led reads h).2.power = h.power := by
  simp only [battStatSetup]
  split_ifs
  · exact ⟨rfl, rfl⟩
  · exact ⟨rfl, rfl⟩
  · exact ⟨rfl, rfl⟩
  · exact ⟨rfl, rfl⟩
  · exact battStatChanged_frame reads _
  · exact ⟨rfl, rfl⟩

/-- Of the driver and the divider, `battery_setup` only writes what `divider_setup` returns. -/
theorem batterySetup_frame (board : Board) (ans : SetupAnswers) (h : Soc) :
    (batterySetup board ans h).2.power = (dividerSetup board ans.divider h).2.power ∧
      (batterySetup board ans h).2.driver = { (dividerSetup board ans.divider h).2.driver with
        batteryOk := (dividerSetup board ans.divider h).1 = 0 } := by
  simp only [batterySetup]
  split_ifs
  · exact ⟨rfl, rfl⟩
  · exact ⟨rfl, rfl⟩
  · obtain ⟨hdriver, hpower⟩ := battStatSetup_frame ans.battStat ans.led ans.reads
      { (dividerSetup board ans.divider h).2 with
        driver := { (dividerSetup board ans.divider h).2.driver with
          batteryOk := (dividerSetup board ans.divider h).1 = 0 } }
    exact ⟨hpower, hdriver⟩

/-- A `divider_setup` that succeeds has the next conversion calibrate. -/
theorem dividerSetup_calibrate {ans : DividerAnswers} {h : Soc}
    (hret : (dividerSetup board ans h).1 = 0) :
    (dividerSetup board ans h).2.driver.dividerData.calibrate = true := by
  rw [dividerSetup] at hret ⊢
  split_ifs at hret ⊢ with hadc hport hpin
  · cases hret
  · cases hret
  · rw [Bool.and_eq_true, decide_eq_true_eq] at hpin
    exact absurd hret hpin.2
  · rfl
  · rfl

theorem batteryMeasureEnable_powered {ret : Int32} {h : Soc}
    (hret : (batteryMeasureEnable board true ret h).1 = 0) :
    h.driver.batteryOk = true ∧
      (!board.powerPort || (batteryMeasureEnable board true ret h).2.power) = true := by
  rw [batteryMeasureEnable] at hret ⊢
  split_ifs at hret ⊢ with hok hport hzero
  · exact ⟨hok, by simp⟩
  · exact absurd hret hzero
  · exact ⟨hok, by simp [hport]⟩
  · cases hret

theorem batteryMeasureEnable_driver (board : Board) (enable : Bool) (ret : Int32) (h : Soc) :
    (batteryMeasureEnable board enable ret h).2.driver = h.driver := by
  rw [batteryMeasureEnable]
  split_ifs <;> rfl

theorem inv_reset : Inv board adcRawToMillivolts [] (reset board) := by
  constructor <;> simp [reset, setUp, converted]

theorem at_of_pc? {pc : MainAt} (h : a.pc?.all (· = s.pc) = true) (ha : a.pc? = some pc) :
    s.pc = pc := by
  rw [ha] at h
  exact (of_decide_eq_true h).symm

theorem Inv.quiet (hI : Inv board adcRawToMillivolts events s) (he : s.event board a = none)
    (hdriver : s'.soc.driver = s.soc.driver) (hfresh : s'.pc = .setup → s.pc = .setup)
    (hsample : s'.pc = .sample → s.soc.driver.batteryOk = true ∧ s'.powered board = true)
    (hsend : s'.pc = .send → s.pc = .send ∧ s'.packetBuffer = s.packetBuffer) :
    Inv board adcRawToMillivolts (events ++ (s.event board a).toList) s' := by
  rw [he, Option.toList_none, List.append_nil]
  constructor
  case ok => exact hdriver ▸ hI.ok
  case fresh => exact fun h => hI.fresh (hfresh h)
  case calibrate => exact hdriver ▸ hI.calibrate
  case sample => exact hdriver ▸ hsample
  case send =>
    intro h
    obtain ⟨hpc, hbuffer⟩ := hsend h
    rw [battMv, hbuffer]
    exact hI.send hpc

/-- What `battery_sample` does on a driver that is set up. -/
theorem batterySample_ok {adc : AdcRead} {d : Driver} (hok : d.batteryOk = true) :
    batterySample board.divider adcRawToMillivolts adc d =
      (if adc.rc = 0 then value board adcRawToMillivolts adc.raw else adc.rc,
        { d with dividerData := ⟨adc.raw, false⟩ }) := by
  simp only [batterySample, hok, if_true, value]
  split_ifs <;> rfl

/-- `battery_send_value` up to its call of `send`: what is not sent is an error or negative. -/
theorem perform_sample {adc : AdcRead} (hok : s.soc.driver.batteryOk = true) (hadc : adc.rc ≤ 0)
    (h : s.perform board adcRawToMillivolts euid (.sample adc) = some s') :
    s'.soc = { s.soc with driver := ⟨true, ⟨adc.raw, false⟩⟩ } ∧
      (s'.pc = .measureDisable ∨ s'.pc = .send ∧ adc.rc = 0 ∧
        0 ≤ value board adcRawToMillivolts adc.raw ∧
        s'.battMv = (value board adcRawToMillivolts adc.raw).toUInt32) := by
  simp only [perform, batterySample_ok hok, hok] at h
  obtain rfl := Option.some.inj h
  by_cases hrc : adc.rc = 0
  · by_cases hmv : value board adcRawToMillivolts adc.raw < 0
    · simp [hrc, hmv]
    · simp [hrc, hmv, Int32.not_lt.mp hmv, battMv]
  · simp [hrc, Int32.lt_of_le_of_ne hadc hrc]

theorem Inv.setup {ans : SetupAnswers} (hI : Inv board adcRawToMillivolts events s)
    (h : step board adcRawToMillivolts euid s (.setup ans) = some s') :
    Inv board adcRawToMillivolts (events ++ (s.event board (.setup ans)).toList) s' := by
  obtain ⟨hpc, h⟩ := step_cases h
  obtain rfl := Option.some.inj h
  have hs : s.pc = .setup := at_of_pc? hpc rfl
  have he : s.event board (.setup ans) =
      some (.dividerSetup (dividerSetup board ans.divider s.soc).1) := by
    simp [event, Act.pc?, hs]
  obtain ⟨-, hdriver⟩ := batterySetup_frame board ans s.soc
  rw [he, Option.toList_some]
  constructor <;> simp only [setUp_concat, converted_concat, hdriver]
  · exact MainAt.noConfusion
  · intro hret
    rw [dividerSetup_calibrate (of_decide_eq_true hret), hI.fresh hs]
    rfl
  · exact MainAt.noConfusion
  · exact MainAt.noConfusion

theorem Inv.measureEnable {ret : Int32} (hI : Inv board adcRawToMillivolts events s)
    (h : step board adcRawToMillivolts euid s (.measureEnable ret) = some s') :
    Inv board adcRawToMillivolts (events ++ (s.event board (.measureEnable ret)).toList) s' := by
  obtain ⟨hpc, h⟩ := step_cases h
  obtain rfl := Option.some.inj h
  have hdriver := batteryMeasureEnable_driver board true ret s.soc
  by_cases hrc : (batteryMeasureEnable board true ret s.soc).1 = 0
  · have hat : (if (batteryMeasureEnable board true ret s.soc).1 ≠ 0 then MainAt.returned
        else .sample) = .sample := if_neg (not_not.mpr hrc)
    exact hI.quiet (by simp [event]) hdriver (fun h => MainAt.noConfusion (hat.symm.trans h))
      (fun _ => batteryMeasureEnable_powered hrc)
      (fun h => MainAt.noConfusion (hat.symm.trans h))
  · have hat : (if (batteryMeasureEnable board true ret s.soc).1 ≠ 0 then MainAt.returned
        else .sample) = .returned := if_pos hrc
    exact hI.quiet (by simp [event]) hdriver (fun h => MainAt.noConfusion (hat.symm.trans h))
      (fun h => MainAt.noConfusion (hat.symm.trans h))
      (fun h => MainAt.noConfusion (hat.symm.trans h))

theorem Inv.convert {adc : AdcRead} (hI : Inv board adcRawToMillivolts events s) (hadc : adc.rc ≤ 0)
    (h : step board adcRawToMillivolts euid s (.sample adc) = some s') :
    Inv board adcRawToMillivolts (events ++ (s.event board (.sample adc)).toList) s' := by
  obtain ⟨hpc, h⟩ := step_cases h
  have hs : s.pc = .sample := at_of_pc? hpc rfl
  obtain ⟨hok, hpowered⟩ := hI.sample hs
  have he : s.event board (.sample adc) = some (.converted
      ⟨s.powered board, s.soc.driver.dividerData.calibrate, adc⟩) := by
    simp [event, Act.pc?, hs, hok]
  have hok' : setUp (events ++ [.converted ⟨s.powered board,
      s.soc.driver.dividerData.calibrate, adc⟩]) = true := by
    rw [setUp_concat, ← hI.ok, hok]
  obtain ⟨hsoc, hnext⟩ := perform_sample hok hadc h
  rw [he, Option.toList_some]
  constructor
  case ok => rw [hsoc, hok']
  case fresh =>
    intro hs'
    rcases hnext with hnext | ⟨hnext, -⟩ <;> cases hs'.symm.trans hnext
  case calibrate =>
    intro _
    rw [hsoc, converted_concat]
    rfl
  case sample =>
    intro hs'
    rcases hnext with hnext | ⟨hnext, -⟩ <;> cases hs'.symm.trans hnext
  case send =>
    intro hs'
    rcases hnext with hnext | ⟨-, hrc, hmv, hbuffer⟩
    · cases hs'.symm.trans hnext
    · exact ⟨events, _, rfl, hrc, hmv, hbuffer⟩

theorem Inv.call {ret : Int} (hI : Inv board adcRawToMillivolts events s)
    (h : step board adcRawToMillivolts euid s (.send ret) = some s') :
    Inv board adcRawToMillivolts (events ++ (s.event board (.send ret)).toList) s' := by
  obtain ⟨hpc, h⟩ := step_cases h
  have hs : s.pc = .send := at_of_pc? hpc rfl
  rw [perform, BatteryClient.transmitting_eq] at h
  obtain rfl := Option.some.inj h
  have hevents : setUp (events ++ (s.event board (.send ret)).toList) = setUp events ∧
      converted (events ++ (s.event board (.send ret)).toList) = converted events := by
    by_cases hret : ret < 0
    · simp [event, Act.pc?, hs, hret]
    · simp [event, Act.pc?, hs, hret, BatteryClient.transmitting_eq]
  constructor <;> simp only [hevents]
  · exact hI.ok
  · exact MainAt.noConfusion
  · exact hI.calibrate
  · exact MainAt.noConfusion
  · exact MainAt.noConfusion

theorem Inv.battStat {reads : PinReads} (hI : Inv board adcRawToMillivolts events s)
    (h : step board adcRawToMillivolts euid s (.battStat reads) = some s') :
    Inv board adcRawToMillivolts (events ++ (s.event board (.battStat reads)).toList) s' := by
  obtain ⟨hpc, h⟩ := step_cases h
  have h : (if s.soc.statCallback then _ else none) = some s' := h
  split at h
  · obtain rfl := Option.some.inj h
    obtain ⟨hdriver, hpower⟩ := battStatChanged_frame reads s.soc
    refine hI.quiet (by simp [event]) hdriver id ?_ fun hs => ⟨hs, rfl⟩
    intro hs
    rw [powered, hpower]
    exact hI.sample hs
  · cases h

theorem inv_step (hI : Inv board adcRawToMillivolts events s) (ha : s.Documented a)
    (h : step board adcRawToMillivolts euid s a = some s') :
    Inv board adcRawToMillivolts (events ++ (s.event board a).toList) s' := by
  cases a with
  | reset =>
    obtain ⟨-, h⟩ := step_cases h
    obtain rfl := Option.some.inj h
    have he : s.event board .reset = some .reset := rfl
    rw [he, Option.toList_some]
    constructor <;> simp [reset]
  | setup ans => exact hI.setup h
  | isConnected connected =>
    obtain ⟨hpc, h⟩ := step_cases h
    obtain rfl := Option.some.inj h
    have hs : s.pc = .isConnected := at_of_pc? hpc rfl
    refine hI.quiet (by simp [event]) ?_ ?_ ?_ ?_ <;> cases connected <;> simp [hs]
  | initApp sessionRand =>
    obtain ⟨-, h⟩ := step_cases h
    obtain rfl := Option.some.inj h
    exact hI.quiet (by simp [event]) rfl MainAt.noConfusion MainAt.noConfusion MainAt.noConfusion
  | startUdp ret =>
    obtain ⟨-, h⟩ := step_cases h
    obtain rfl := Option.some.inj h
    refine hI.quiet (by simp [event]) rfl ?_ ?_ ?_ <;> by_cases hret : ret = 0 <;> simp [hret]
  | measureEnable ret => exact hI.measureEnable h
  | sample adc => exact hI.convert ha h
  | send ret => exact hI.call h
  | measureDisable ret =>
    obtain ⟨-, h⟩ := step_cases h
    obtain rfl := Option.some.inj h
    exact hI.quiet (by simp [event]) (batteryMeasureEnable_driver board false ret s.soc)
      MainAt.noConfusion MainAt.noConfusion MainAt.noConfusion
  | battStat reads => exact hI.battStat h

theorem may_event (hI : Inv board adcRawToMillivolts events s) {e : Event}
    (he : s.event board a = some e) : May board adcRawToMillivolts events e := by
  unfold event at he
  split at he
  · rename_i hpc
    cases a with
    | reset | setup ans =>
      obtain rfl := Option.some.inj he
      exact trivial
    | sample adc =>
      have hs : s.pc = .sample := at_of_pc? hpc rfl
      obtain ⟨hok, hpowered⟩ := hI.sample hs
      have he := (if_pos hok).symm.trans he
      obtain rfl := Option.some.inj he
      exact ⟨hI.ok ▸ hok, hpowered, hI.calibrate hok⟩
    | send ret =>
      have hs : s.pc = .send := at_of_pc? hpc rfl
      have he : (if ret < 0 then none else _) = some e := he
      split at he
      · cases he
      · rw [BatteryClient.transmitting_eq] at he
        obtain rfl := Option.some.inj he
        refine ⟨s.battMv, hI.send hs, ?_⟩
        rw [List.take_of_length_le (by simp [length_words, BatteryClient.packetLen])]
        have hword := slice_words_toList (s.packetBuffer.set 3 s.packetsSent counter_lt) (i := 4)
          (by decide)
        rw [hword]
        simp [battMv]
    | isConnected connected | initApp sessionRand | startUdp ret | measureEnable ret
    | measureDisable ret | battStat reads => cases he
  · cases he

end BatteryNode

end RedNodeBus.Battery

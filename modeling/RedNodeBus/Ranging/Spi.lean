import RedNodeBus.Lib.Nested
import Mathlib.Logic.Function.Basic

/-!
# The SPI driver of the ranging chip

`rnb_ranging_spi.c`.  Eight functions share `spi_initialized`, `spi_busy`, `spi_cfg`,
the peripheral and the pin CS.  They are here twice: as functions, from the call to the
return (`Spi.openspi`, …), and statement by statement (`exec`), where a call is a `Frame`
that other calls may preempt.  `alone_entry` says that a call nobody preempts is its
function.

`readfromspi` and `writetospi` differ in what they clock only and are one `transfer`;
the same goes for the two speeds and for the two functions that set CS.  What the calls
of the nrfx driver return is the `BusOutcome` of a statement, and what the device tree
says is a parameter (`Board`).
-/

namespace RedNodeBus.Ranging

def eio : Int := 5

/-! ## The configuration of the peripheral -/

inductive NrfSpiFrequency
  | freq125K | freq250K | freq500K | freq1M | freq2M | freq4M | freq8M
  deriving DecidableEq, Repr

inductive NrfSpiMode
  | mode0 | mode1 | mode2 | mode3
  deriving DecidableEq, Repr

inductive NrfSpiBitOrder
  | msbFirst | lsbFirst
  deriving DecidableEq, Repr

def getNrfSpiFrequency (frequency : UInt32) : NrfSpiFrequency :=
  if frequency < 250000 then .freq125K
  else if frequency < 500000 then .freq250K
  else if frequency < 1000000 then .freq500K
  else if frequency < 2000000 then .freq1M
  else if frequency < 4000000 then .freq2M
  else if frequency < 8000000 then .freq4M
  else .freq8M

def spiModeGet (operation : UInt16) : UInt16 := operation &&& 0xE

def spiModeCpol : UInt16 := 0x2

def spiModeCpha : UInt16 := 0x4

def spiTransferLsb : UInt16 := 0x10

def spiWordSet (wordSize : UInt16) : UInt16 := wordSize <<< 5

def getNrfSpiMode (operation : UInt16) : NrfSpiMode :=
  if spiModeGet operation &&& spiModeCpol ≠ 0 then
    if spiModeGet operation &&& spiModeCpha ≠ 0 then .mode3 else .mode2
  else
    if spiModeGet operation &&& spiModeCpha ≠ 0 then .mode1 else .mode0

def getNrfSpiBitOrder (operation : UInt16) : NrfSpiBitOrder :=
  if operation &&& spiTransferLsb ≠ 0 then .lsbFirst else .msbFirst

structure SpiConfig where
  operation : UInt16
  frequency : UInt32
  deriving DecidableEq, Repr

/-- `nrfx_spi_config_t`, as far as it is not the same for every call. -/
structure NrfxSpiConfig where
  frequency : NrfSpiFrequency
  mode : NrfSpiMode
  bitOrder : NrfSpiBitOrder
  deriving DecidableEq, Repr

/-- What the device tree says: `spi_max_frequency` and `def_config`. -/
structure Board where
  spiMaxFrequency : UInt32
  defConfig : NrfxSpiConfig

/-! ## The state -/

/-- The pin `dwm_cs`: whether it is an output, and its level, `true` being active. -/
structure CsPin where
  output : Bool
  level : Bool
  deriving DecidableEq, Repr

inductive PinctrlState
  | default
  | sleep
  deriving DecidableEq, Repr

structure Peripheral where
  enabled : Bool
  config : NrfxSpiConfig
  irq : Bool
  ints : Bool
  deriving DecidableEq, Repr

structure Spi where
  driverInitialized : Bool
  spiInitialized : Bool
  spiBusy : Bool
  /-- The entry of `spi_cfgs` that `spi_cfg` points to. -/
  spiCfg : Option (Fin 2)
  spiCfgs : Fin 2 → SpiConfig
  pmBusy : Bool
  cs : CsPin
  pinctrl : PinctrlState
  peripheral : Peripheral

/-- One transfer of `nrfx_spi_xfer`: what it sends, and how much it receives. -/
structure Xfer where
  tx : List UInt8
  rxLength : Nat
  deriving DecidableEq, Repr

/-- What `readfromspi` and `writetospi` clock. -/
structure Transfer where
  header : Xfer
  body : Xfer
  deriving DecidableEq, Repr

def Transfer.readfromspi (headerBuffer : List UInt8) (readLength : Nat) : Transfer :=
  ⟨⟨headerBuffer, 0⟩, ⟨[], readLength⟩⟩

def Transfer.writetospi (headerBuffer bodyBuffer : List UInt8) : Transfer :=
  ⟨⟨headerBuffer, 0⟩, ⟨bodyBuffer, 0⟩⟩

/-- What a statement gets from the nrfx driver: whether its call succeeds, and the bytes
that come in. -/
structure BusOutcome where
  success : Bool
  rx : List UInt8
  deriving DecidableEq, Repr

/-- What a call returns, and leaves in `readBuffer`; `0` if it returns nothing. -/
structure Returned where
  ret : Int
  readBuffer : List UInt8
  deriving DecidableEq, Repr

namespace Spi

def setOperation (i : Fin 2) (s : Spi) : Spi :=
  { s with
    spiCfgs := Function.update s.spiCfgs i { s.spiCfgs i with operation := spiWordSet 8 } }

def setFrequency (board : Board) (i : Fin 2) (s : Spi) : Spi :=
  { s with
    spiCfgs := Function.update s.spiCfgs i
      { s.spiCfgs i with frequency := if i = 0 then 2000000 else board.spiMaxFrequency } }

/-- The entry of `spi_cfgs` with the slow clock. -/
abbrev slowCfg : Fin 2 := 0

abbrev fastCfg : Fin 2 := 1

/-- `*spi_cfg` -/
def cfg (s : Spi) : SpiConfig := (s.spiCfg.map s.spiCfgs).getD ⟨0, 0⟩

/-- `gpio_pin_set_dt` on `dwm_cs`. -/
def gpioPinSet (level : Bool) (s : Spi) : Spi := { s with cs := { s.cs with level := level } }

/-! ## The functions -/

/-- `openspi` while the driver is not initialised; `found` says that there is a device. -/
def initDriver (board : Board) (found : Bool) (s : Spi) : Spi :=
  let s := (s.setOperation 0).setOperation 1
  let s := (s.setFrequency board 0).setFrequency board 1
  if found then { s with pmBusy := true, driverInitialized := true } else s

def openspi (board : Board) (found success : Bool) (s : Spi) : Returned × Spi :=
  if s.spiBusy then (⟨-eio, []⟩, s)
  else
    let s := if !s.driverInitialized then s.initDriver board found else s
    if !s.driverInitialized then (⟨-eio, []⟩, s)
    else if s.spiInitialized then (⟨-eio, []⟩, s)
    else
      let s := { s with spiCfg := some 0 }
      if !success then (⟨-eio, []⟩, s)
      else
        (⟨0, []⟩,
          { s with
            peripheral := {
              enabled := true
              config := {
                frequency := getNrfSpiFrequency s.cfg.frequency
                mode := getNrfSpiMode s.cfg.operation
                bitOrder := getNrfSpiBitOrder s.cfg.operation }
              irq := false
              ints := false }
            cs := ⟨true, false⟩
            pinctrl := .default
            spiInitialized := true })

def setSpiSpeed (i : Fin 2) (s : Spi) : Returned × Spi :=
  if !s.spiInitialized || s.spiBusy then (⟨0, []⟩, s)
  else if s.spiCfg ≠ some i then
    (⟨0, []⟩,
      { s with
        spiCfg := some i
        peripheral := { s.peripheral with
          config := { s.peripheral.config with
            frequency := getNrfSpiFrequency (s.spiCfgs i).frequency } } })
  else (⟨0, []⟩, s)

def setSpiSpeedSlow : Spi → Returned × Spi := setSpiSpeed 0

def setSpiSpeedFast : Spi → Returned × Spi := setSpiSpeed 1

def closespi (s : Spi) : Returned × Spi :=
  if s.spiBusy then (⟨-eio, []⟩, s)
  else if s.spiInitialized then
    (⟨0, []⟩,
      { s with
        peripheral := { s.peripheral with enabled := false }
        cs := { s.cs with output := false }
        pinctrl := .sleep
        spiInitialized := false })
  else (⟨0, []⟩, s)

def setCs (on : Bool) (s : Spi) : Returned × Spi :=
  if !s.spiInitialized || s.spiBusy then (⟨-eio, []⟩, s)
  else (⟨0, []⟩, s.gpioPinSet on)

def activateCs : Spi → Returned × Spi := setCs true

def deactivateCs : Spi → Returned × Spi := setCs false

/-- `readfromspi` and `writetospi`, with the outcomes of the two stages. -/
def transfer (t : Transfer) (header body : BusOutcome) (s : Spi) : Returned × Spi :=
  if !s.spiInitialized || s.spiBusy then (⟨-eio, []⟩, s)
  else
    let s := { s with spiBusy := true }
    let s := s.gpioPinSet true
    let returned :=
      if !header.success then ⟨-eio, []⟩
      else ⟨if !body.success then -eio else 0, body.rx.take t.body.rxLength⟩
    let s := s.gpioPinSet false
    (returned, { s with spiBusy := false })

def readfromspi (headerBuffer : List UInt8) (readLength : Nat) : BusOutcome → BusOutcome → Spi →
    Returned × Spi := transfer (.readfromspi headerBuffer readLength)

def writetospi (headerBuffer bodyBuffer : List UInt8) : BusOutcome → BusOutcome → Spi →
    Returned × Spi := transfer (.writetospi headerBuffer bodyBuffer)

end Spi

/-! ## The functions statement by statement -/

inductive SpiCall
  | openspi
  | setSpiSpeedSlow
  | setSpiSpeedFast
  | closespi
  | activateCs
  | deactivateCs
  | readfromspi (headerBuffer : List UInt8) (readLength : Nat)
  | writetospi (headerBuffer bodyBuffer : List UInt8)
  deriving DecidableEq, Repr

inductive OpenAt
  | testBusy
  | testDriver
  | setOperation (i : Fin 2)
  | setFrequency (i : Fin 2)
  | getDevice
  | pmBusySet
  | setDriver
  | testInitialized
  | setCfg
  | frequency
  | mode
  | bitOrder
  | nrfxInit
  | configureCs
  | pinctrl
  | irqDisable
  | intDisable
  | setInitialized
  deriving DecidableEq, Repr

inductive SpeedAt
  | testInitialized
  | testBusy
  | testCfg
  | setCfg
  | setFrequency
  deriving DecidableEq, Repr

inductive CloseAt
  | testBusy
  | testInitialized
  | uninit
  | configureCs
  | pinctrl
  | clearInitialized
  deriving DecidableEq, Repr

inductive CsAt
  | testInitialized
  | testBusy
  | set
  deriving DecidableEq, Repr

/-- `enableIrqRejected` is the `__enable_irq` before the early return, and `ret` the return
of an admitted transfer. -/
inductive TransferAt
  | disableIrq
  | testInitialized
  | testBusy
  | enableIrqRejected
  | setBusy
  | enableIrq
  | csOn
  | header
  | body
  | csOff
  | clearBusy
  | ret
  deriving DecidableEq, Repr

/-- A call in progress, with its local variables. -/
inductive Frame
  | openspi (pc : OpenAt) (config : NrfxSpiConfig)
  | setSpiSpeed (pc : SpeedAt) (i : Fin 2)
  | closespi (pc : CloseAt)
  | setCs (pc : CsAt) (on : Bool)
  | transfer (pc : TransferAt) (t : Transfer) (returned : Returned)
  deriving DecidableEq, Repr

/-- What the calls share: whether the interrupts are disabled, the driver, and whether
`openspi` has succeeded before. -/
structure Shared where
  irqDisabled : Bool
  opened : Bool
  spi : Spi

namespace Shared

def goOn (f : Frame) (s : Shared) : (Frame ⊕ Returned) × Shared := (.inl f, s)

def returns (ret : Int) (s : Shared) : (Frame ⊕ Returned) × Shared := (.inr ⟨ret, []⟩, s)

/-- A statement of `openspi`. -/
def execOpenspi (board : Board) (o : BusOutcome) (pc : OpenAt) (config : NrfxSpiConfig)
    (s : Shared) : (Frame ⊕ Returned) × Shared :=
  match pc with
  | .testBusy => if s.spi.spiBusy then s.returns (-eio) else s.goOn (.openspi .testDriver config)
  | .testDriver =>
    if !s.spi.driverInitialized then s.goOn (.openspi (.setOperation 0) config)
    else s.goOn (.openspi .testInitialized config)
  | .setOperation i =>
    { s with spi := s.spi.setOperation i }.goOn
      (.openspi (if i = 0 then .setOperation 1 else .setFrequency 0) config)
  | .setFrequency i =>
    { s with spi := s.spi.setFrequency board i }.goOn
      (.openspi (if i = 0 then .setFrequency 1 else .getDevice) config)
  | .getDevice => if !o.success then s.returns (-eio) else s.goOn (.openspi .pmBusySet config)
  | .pmBusySet => { s with spi := { s.spi with pmBusy := true } }.goOn (.openspi .setDriver config)
  | .setDriver =>
    { s with spi := { s.spi with driverInitialized := true } }.goOn
      (.openspi .testInitialized config)
  | .testInitialized =>
    if s.spi.spiInitialized then s.returns (-eio) else s.goOn (.openspi .setCfg config)
  | .setCfg =>
    { s with spi := { s.spi with spiCfg := some 0 } }.goOn (.openspi .frequency board.defConfig)
  | .frequency =>
    s.goOn (.openspi .mode { config with frequency := getNrfSpiFrequency s.spi.cfg.frequency })
  | .mode =>
    s.goOn (.openspi .bitOrder { config with mode := getNrfSpiMode s.spi.cfg.operation })
  | .bitOrder =>
    s.goOn (.openspi .nrfxInit { config with bitOrder := getNrfSpiBitOrder s.spi.cfg.operation })
  | .nrfxInit =>
    if !o.success then s.returns (-eio)
    else
      { s with spi := { s.spi with
        peripheral := { s.spi.peripheral with enabled := true, config := config } } }.goOn
          (.openspi .configureCs config)
  | .configureCs =>
    { s with spi := { s.spi with cs := ⟨true, false⟩ } }.goOn (.openspi .pinctrl config)
  | .pinctrl =>
    { s with spi := { s.spi with pinctrl := .default } }.goOn (.openspi .irqDisable config)
  | .irqDisable =>
    { s with spi := { s.spi with peripheral := { s.spi.peripheral with irq := false } } }.goOn
      (.openspi .intDisable config)
  | .intDisable =>
    { s with spi := { s.spi with peripheral := { s.spi.peripheral with ints := false } } }.goOn
      (.openspi .setInitialized config)
  | .setInitialized =>
    { s with opened := true, spi := { s.spi with spiInitialized := true } }.returns 0

/-- A statement of `set_spi_speed_slow` or `set_spi_speed_fast`. -/
def execSetSpiSpeed (pc : SpeedAt) (i : Fin 2) (s : Shared) : (Frame ⊕ Returned) × Shared :=
  match pc with
  | .testInitialized =>
    if !s.spi.spiInitialized then s.returns 0 else s.goOn (.setSpiSpeed .testBusy i)
  | .testBusy => if s.spi.spiBusy then s.returns 0 else s.goOn (.setSpiSpeed .testCfg i)
  | .testCfg => if s.spi.spiCfg ≠ some i then s.goOn (.setSpiSpeed .setCfg i) else s.returns 0
  | .setCfg =>
    { s with spi := { s.spi with spiCfg := some i } }.goOn (.setSpiSpeed .setFrequency i)
  | .setFrequency =>
    { s with spi := { s.spi with
      peripheral := { s.spi.peripheral with
        config := { s.spi.peripheral.config with
          frequency := getNrfSpiFrequency s.spi.cfg.frequency } } } }.returns 0

/-- A statement of `closespi`. -/
def execClosespi (pc : CloseAt) (s : Shared) : (Frame ⊕ Returned) × Shared :=
  match pc with
  | .testBusy => if s.spi.spiBusy then s.returns (-eio) else s.goOn (.closespi .testInitialized)
  | .testInitialized =>
    if s.spi.spiInitialized then s.goOn (.closespi .uninit) else s.returns 0
  | .uninit =>
    { s with spi := { s.spi with peripheral := { s.spi.peripheral with enabled := false } } }.goOn
      (.closespi .configureCs)
  | .configureCs =>
    { s with spi := { s.spi with cs := { s.spi.cs with output := false } } }.goOn
      (.closespi .pinctrl)
  | .pinctrl =>
    { s with spi := { s.spi with pinctrl := .sleep } }.goOn (.closespi .clearInitialized)
  | .clearInitialized => { s with spi := { s.spi with spiInitialized := false } }.returns 0

/-- A statement of `activate_cs` or `deactivate_cs`. -/
def execSetCs (pc : CsAt) (on : Bool) (s : Shared) : (Frame ⊕ Returned) × Shared :=
  match pc with
  | .testInitialized =>
    if !s.spi.spiInitialized then s.returns (-eio) else s.goOn (.setCs .testBusy on)
  | .testBusy => if s.spi.spiBusy then s.returns (-eio) else s.goOn (.setCs .set on)
  | .set => { s with spi := s.spi.gpioPinSet on }.returns 0

/-- A statement of `readfromspi` or `writetospi`. -/
def execTransfer (o : BusOutcome) (pc : TransferAt) (t : Transfer) (returned : Returned)
    (s : Shared) : (Frame ⊕ Returned) × Shared :=
  match pc with
  | .disableIrq => { s with irqDisabled := true }.goOn (.transfer .testInitialized t returned)
  | .testInitialized =>
    if !s.spi.spiInitialized then s.goOn (.transfer .enableIrqRejected t returned)
    else s.goOn (.transfer .testBusy t returned)
  | .testBusy =>
    if s.spi.spiBusy then s.goOn (.transfer .enableIrqRejected t returned)
    else s.goOn (.transfer .setBusy t returned)
  | .enableIrqRejected => { s with irqDisabled := false }.returns (-eio)
  | .setBusy =>
    { s with spi := { s.spi with spiBusy := true } }.goOn (.transfer .enableIrq t returned)
  | .enableIrq => { s with irqDisabled := false }.goOn (.transfer .csOn t returned)
  | .csOn => { s with spi := s.spi.gpioPinSet true }.goOn (.transfer .header t returned)
  | .header =>
    if !o.success then s.goOn (.transfer .csOff t ⟨-eio, []⟩)
    else s.goOn (.transfer .body t returned)
  | .body =>
    s.goOn (.transfer .csOff t
      ⟨if !o.success then -eio else returned.ret, o.rx.take t.body.rxLength⟩)
  | .csOff => { s with spi := s.spi.gpioPinSet false }.goOn (.transfer .clearBusy t returned)
  | .clearBusy =>
    { s with spi := { s.spi with spiBusy := false } }.goOn (.transfer .ret t returned)
  | .ret => (.inr returned, s)

def exec (board : Board) (o : BusOutcome) (f : Frame) (s : Shared) :
    (Frame ⊕ Returned) × Shared :=
  match f with
  | .openspi pc config => s.execOpenspi board o pc config
  | .setSpiSpeed pc i => s.execSetSpiSpeed pc i
  | .closespi pc => s.execClosespi pc
  | .setCs pc on => s.execSetCs pc on
  | .transfer pc t returned => s.execTransfer o pc t returned

end Shared

/-! ## What is seen on the bus -/

inductive BusEvent
  | init (config : NrfxSpiConfig)
  | uninit
  | frequency (frequency : NrfSpiFrequency)
  | irqDisable
  | intDisable
  | csConfigure (output : Bool)
  | pinctrl (state : PinctrlState)
  | cs (level : Bool)
  | xfer (x : Xfer) (success : Bool)
  deriving DecidableEq, Repr

/-- An event on the bus, or a transfer setting or clearing `spi_busy`. -/
inductive SpiMark
  | acquired (t : Transfer)
  | bus (e : BusEvent)
  | released
  deriving DecidableEq, Repr

def Frame.emit (o : BusOutcome) (s : Shared) : Frame → Option SpiMark
  | .openspi .nrfxInit config => if o.success then some (.bus (.init config)) else none
  | .openspi .configureCs _ => some (.bus (.csConfigure true))
  | .openspi .pinctrl _ => some (.bus (.pinctrl .default))
  | .openspi .irqDisable _ => some (.bus .irqDisable)
  | .openspi .intDisable _ => some (.bus .intDisable)
  | .setSpiSpeed .setFrequency _ =>
    some (.bus (.frequency (getNrfSpiFrequency s.spi.cfg.frequency)))
  | .closespi .uninit => some (.bus .uninit)
  | .closespi .configureCs => some (.bus (.csConfigure false))
  | .closespi .pinctrl => some (.bus (.pinctrl .sleep))
  | .setCs .set on => some (.bus (.cs on))
  | .transfer .setBusy t _ => some (.acquired t)
  | .transfer .csOn _ _ => some (.bus (.cs true))
  | .transfer .header t _ => some (.bus (.xfer t.header o.success))
  | .transfer .body t _ => some (.bus (.xfer t.body o.success))
  | .transfer .csOff _ _ => some (.bus (.cs false))
  | .transfer .clearBusy _ _ => some .released
  | _ => none

/-! ## The machine -/

def SpiCall.entry (board : Board) : SpiCall → Frame
  | .openspi => .openspi .testBusy board.defConfig
  | .setSpiSpeedSlow => .setSpiSpeed .testInitialized 0
  | .setSpiSpeedFast => .setSpiSpeed .testInitialized 1
  | .closespi => .closespi .testBusy
  | .activateCs => .setCs .testInitialized true
  | .deactivateCs => .setCs .testInitialized false
  | .readfromspi headerBuffer readLength =>
    .transfer .disableIrq (.readfromspi headerBuffer readLength) ⟨0, []⟩
  | .writetospi headerBuffer bodyBuffer =>
    .transfer .disableIrq (.writetospi headerBuffer bodyBuffer) ⟨0, []⟩

/-- A call comes while the interrupts are enabled, and, `openspi` apart, once `openspi`
has succeeded. -/
def SpiCall.enter (board : Board) (k : SpiCall) (s : Shared) : Option Frame :=
  if s.irqDisabled = false ∧ (k = .openspi ∨ s.opened = true) then some (k.entry board) else none

def spiProgram (board : Board) : Program Shared SpiCall Frame BusOutcome Returned SpiMark where
  enter := SpiCall.enter board
  exec o f s := s.exec board o f
  emit o f s := f.emit o s

def Shared.boot (peripheral : Peripheral) : Shared where
  irqDisabled := false
  opened := false
  spi :=
    { driverInitialized := false
      spiInitialized := false
      spiBusy := false
      spiCfg := none
      spiCfgs := fun _ => ⟨0, 0⟩
      pmBusy := false
      cs := ⟨false, false⟩
      pinctrl := .default
      peripheral := peripheral }

def spiMachine (board : Board) (peripheral : Peripheral) :
    Machine (Nested Shared Frame) (NestedAct SpiCall BusOutcome) :=
  (spiProgram board).machine (.boot peripheral)

/-! ## A call that nobody preempts -/

/-- The outcomes of the statements of one call. -/
structure CallOutcomes where
  device : BusOutcome
  nrfxInit : BusOutcome
  header : BusOutcome
  body : BusOutcome

def CallOutcomes.at (os : CallOutcomes) : Frame → BusOutcome
  | .openspi .getDevice _ => os.device
  | .openspi .nrfxInit _ => os.nrfxInit
  | .transfer .header _ _ => os.header
  | .transfer .body _ _ => os.body
  | _ => ⟨true, []⟩

def SpiCall.function (board : Board) (os : CallOutcomes) (s : Spi) : SpiCall → Returned × Spi
  | .openspi => s.openspi board os.device.success os.nrfxInit.success
  | .setSpiSpeedSlow => s.setSpiSpeedSlow
  | .setSpiSpeedFast => s.setSpiSpeedFast
  | .closespi => s.closespi
  | .activateCs => s.activateCs
  | .deactivateCs => s.deactivateCs
  | .readfromspi headerBuffer readLength =>
    s.readfromspi headerBuffer readLength os.header os.body
  | .writetospi headerBuffer bodyBuffer =>
    s.writetospi headerBuffer bodyBuffer os.header os.body

variable {board : Board} {os : CallOutcomes} {s : Shared}

/-- A frame runs to its end as a function does. -/
def EndsAs (board : Board) (os : CallOutcomes) (f : Frame) (s : Shared) (r : Returned × Spi) :
    Prop :=
  ∃ s', (spiProgram board).alone os.at 20 f s = (.inr r.1, s') ∧ s'.spi = r.2 ∧
    s'.irqDisabled = false

theorem endsAs_setSpiSpeed (i : Fin 2) (hs : s.irqDisabled = false) :
    EndsAs board os (.setSpiSpeed .testInitialized i) s (s.spi.setSpiSpeed i) := by
  cases hi : s.spi.spiInitialized <;> cases hb : s.spi.spiBusy <;>
    by_cases hc : s.spi.spiCfg = some i <;>
    simp [EndsAs, Program.alone, spiProgram, Shared.exec, Shared.execSetSpiSpeed, Shared.returns,
      Shared.goOn, Spi.setSpiSpeed, Spi.cfg, hi, hb, hc, hs]

theorem endsAs_closespi (hs : s.irqDisabled = false) :
    EndsAs board os (.closespi .testBusy) s s.spi.closespi := by
  cases hi : s.spi.spiInitialized <;> cases hb : s.spi.spiBusy <;>
    simp [EndsAs, Program.alone, spiProgram, Shared.exec, Shared.execClosespi, Shared.returns,
      Shared.goOn, Spi.closespi, hi, hb, hs]

theorem endsAs_setCs (on : Bool) (hs : s.irqDisabled = false) :
    EndsAs board os (.setCs .testInitialized on) s (s.spi.setCs on) := by
  cases hi : s.spi.spiInitialized <;> cases hb : s.spi.spiBusy <;>
    simp [EndsAs, Program.alone, spiProgram, Shared.exec, Shared.execSetCs, Shared.returns,
      Shared.goOn, Spi.setCs, hi, hb, hs]

theorem endsAs_transfer (t : Transfer) :
    EndsAs board os (.transfer .disableIrq t ⟨0, []⟩) s (s.spi.transfer t os.header os.body) := by
  cases hi : s.spi.spiInitialized <;> cases hb : s.spi.spiBusy <;>
    cases hh : os.header.success <;> cases hbody : os.body.success <;>
    simp [EndsAs, Program.alone, spiProgram, Shared.exec, Shared.execTransfer, Shared.returns,
      Shared.goOn, Spi.transfer, Spi.gpioPinSet, CallOutcomes.at, hi, hb, hh, hbody]

theorem endsAs_openspi (hs : s.irqDisabled = false) :
    EndsAs board os (.openspi .testBusy board.defConfig) s
      (s.spi.openspi board os.device.success os.nrfxInit.success) := by
  cases hb : s.spi.spiBusy with
  | true =>
    simp [EndsAs, Program.alone, spiProgram, Shared.exec, Shared.execOpenspi, Shared.returns,
      Spi.openspi, hb, hs]
  | false =>
    -- the device is looked up by the first call only
    have hdevice : s.spi.driverInitialized = true ∨
        s.spi.driverInitialized = false ∧ os.device.success = false ∨
        s.spi.driverInitialized = false ∧ os.device.success = true := by
      cases s.spi.driverInitialized <;> cases os.device.success <;> simp
    rcases hdevice with hd | ⟨hd, hf⟩ | ⟨hd, hf⟩
    · cases hi : s.spi.spiInitialized <;> cases hn : os.nrfxInit.success <;>
        simp [EndsAs, Program.alone, spiProgram, Shared.exec, Shared.execOpenspi, Shared.returns,
          Shared.goOn, Spi.openspi, Spi.setOperation, Spi.setFrequency, Spi.cfg, CallOutcomes.at,
          hi, hb, hd, hn, hs]
    · simp [EndsAs, Program.alone, spiProgram, Shared.exec, Shared.execOpenspi, Shared.returns,
        Shared.goOn, Spi.openspi, Spi.initDriver, Spi.setOperation, Spi.setFrequency,
        CallOutcomes.at, hb, hd, hf, hs]
    · cases hi : s.spi.spiInitialized <;> cases hn : os.nrfxInit.success <;>
        simp [EndsAs, Program.alone, spiProgram, Shared.exec, Shared.execOpenspi, Shared.returns,
          Shared.goOn, Spi.openspi, Spi.initDriver, Spi.setOperation, Spi.setFrequency, Spi.cfg,
          CallOutcomes.at, hi, hb, hd, hf, hn, hs]

/-- **A call that nobody preempts is its function.** -/
theorem alone_entry (board : Board) (os : CallOutcomes) (k : SpiCall) (hs : s.irqDisabled = false) :
    EndsAs board os (k.entry board) s (k.function board os s.spi) := by
  cases k with
  | openspi => exact endsAs_openspi hs
  | setSpiSpeedSlow => exact endsAs_setSpiSpeed 0 hs
  | setSpiSpeedFast => exact endsAs_setSpiSpeed 1 hs
  | closespi => exact endsAs_closespi hs
  | activateCs => exact endsAs_setCs true hs
  | deactivateCs => exact endsAs_setCs false hs
  | readfromspi headerBuffer readLength => exact endsAs_transfer _
  | writetospi headerBuffer bodyBuffer => exact endsAs_transfer _

/-! ## A concrete board -/

def Board.plain : Board := ⟨8000000, ⟨.freq125K, .mode0, .msbFirst⟩⟩

def Peripheral.off : Peripheral := ⟨false, ⟨.freq125K, .mode0, .msbFirst⟩, true, true⟩

end RedNodeBus.Ranging

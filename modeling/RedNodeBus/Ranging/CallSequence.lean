import RedNodeBus.Ranging.Spi

/-!
# Sequences of calls from the static initial state

The functions once more, one call at a time, with what `Spi` leaves out: they read through
the pointers `spi` and `spi_cfg`, which are `NULL` until `openspi` sets them.  A call that
reads through `NULL` has no result (`Driver.call`); one that has a result has the one of
its function (`call_eq`).

`openspi` sets both pointers before it reads through them.  Five functions read
`spi->config` in their first statement, before any of their tests, so what they test does
not protect them.  `safe_iff` says that a sequence is safe exactly if each of these calls
comes after an `openspi` that found the device (`OpensFirst`): then the bus is open between
a successful `openspi` and a successful `closespi` and closed elsewhere.
-/

namespace RedNodeBus.Ranging

/-- The driver, and whether `spi` points to the device. -/
structure Driver where
  spi : Bool
  state : Spi

namespace Driver

def boot (peripheral : Peripheral) : Driver := ⟨false, (Shared.boot peripheral).spi⟩

/-- `spi->config` -/
def readSpi (d : Driver) : Option Unit := if d.spi then some () else none

def readSpiCfg (d : Driver) : Option SpiConfig := d.state.spiCfg.map d.state.spiCfgs

def returns (ret : Int) (d : Driver) : Option (Returned × Driver) := some (⟨ret, []⟩, d)

/-! ## The functions -/

/-- The first `openspi` looks the device up. -/
def lookUp (board : Board) (found : Bool) (d : Driver) : Driver :=
  if !d.state.driverInitialized then ⟨found, d.state.initDriver board found⟩ else d

/-- `openspi` behind the look-up. -/
def openBus (success : Bool) (d : Driver) : Option (Returned × Driver) :=
  if !d.state.driverInitialized then d.returns (-eio)
  else if d.state.spiInitialized then d.returns (-eio)
  else
    d.readSpi.bind fun _ =>
      let d := { d with state := { d.state with spiCfg := some Spi.slowCfg } }
      d.readSpiCfg.bind fun spiCfg =>
        if !success then d.returns (-eio)
        else
          { d with state := { d.state with
            peripheral := {
              enabled := true
              config := {
                frequency := getNrfSpiFrequency spiCfg.frequency
                mode := getNrfSpiMode spiCfg.operation
                bitOrder := getNrfSpiBitOrder spiCfg.operation }
              irq := false
              ints := false }
            cs := ⟨true, false⟩
            pinctrl := .default
            spiInitialized := true } }.returns 0

def openspi (board : Board) (found success : Bool) (d : Driver) : Option (Returned × Driver) :=
  if d.state.spiBusy then d.returns (-eio) else (d.lookUp board found).openBus success

def setSpiSpeed (i : Fin 2) (d : Driver) : Option (Returned × Driver) :=
  d.readSpi.bind fun _ =>
    if !d.state.spiInitialized || d.state.spiBusy then d.returns 0
    else if d.state.spiCfg ≠ some i then
      let d := { d with state := { d.state with spiCfg := some i } }
      d.readSpiCfg.bind fun spiCfg =>
        { d with state := { d.state with
          peripheral := { d.state.peripheral with
            config := { d.state.peripheral.config with
              frequency := getNrfSpiFrequency spiCfg.frequency } } } }.returns 0
    else d.returns 0

/-- The other functions read through `spi` at most, and that first. -/
def afterReadSpi (f : Spi → Returned × Spi) (d : Driver) : Option (Returned × Driver) :=
  d.readSpi.map fun _ => ((f d.state).1, { d with state := (f d.state).2 })

def closespi : Driver → Option (Returned × Driver) := afterReadSpi Spi.closespi

def transfer (t : Transfer) (header body : BusOutcome) : Driver → Option (Returned × Driver) :=
  afterReadSpi (Spi.transfer t header body)

/-- `activate_cs` and `deactivate_cs` use no pointer. -/
def setCs (on : Bool) (d : Driver) : Option (Returned × Driver) :=
  some ((d.state.setCs on).1, { d with state := (d.state.setCs on).2 })

def call (board : Board) (os : CallOutcomes) (d : Driver) : SpiCall → Option (Returned × Driver)
  | .openspi => d.openspi board os.device.success os.nrfxInit.success
  | .closespi => d.closespi
  | .setSpiSpeedSlow => d.setSpiSpeed Spi.slowCfg
  | .setSpiSpeedFast => d.setSpiSpeed Spi.fastCfg
  | .activateCs => d.setCs true
  | .deactivateCs => d.setCs false
  | .readfromspi headerBuffer readLength =>
    d.transfer (.readfromspi headerBuffer readLength) os.header os.body
  | .writetospi headerBuffer bodyBuffer =>
    d.transfer (.writetospi headerBuffer bodyBuffer) os.header os.body

end Driver

/-- The first statement of the call reads `spi->config`. -/
def SpiCall.readsSpi : SpiCall → Bool
  | .openspi | .activateCs | .deactivateCs => false
  | .setSpiSpeedSlow | .setSpiSpeedFast | .closespi | .readfromspi _ _ | .writetospi _ _ => true

variable {board : Board} {os : CallOutcomes} {d d' : Driver} {k : SpiCall} {r : Returned}

theorem afterReadSpi_eq {f : Spi → Returned × Spi} (h : d.afterReadSpi f = some (r, d')) :
    f d.state = (r, d'.state) := by
  obtain ⟨-, -, he⟩ := Option.map_eq_some_iff.mp h
  cases he
  rfl

theorem setCs_eq {on : Bool} (h : d.setCs on = some (r, d')) :
    d.state.setCs on = (r, d'.state) := by
  cases h
  rfl

theorem setSpiSpeed_eq {i : Fin 2} (h : d.setSpiSpeed i = some (r, d')) :
    d.state.setSpiSpeed i = (r, d'.state) := by
  obtain ⟨-, -, h⟩ := Option.bind_eq_some_iff.mp h
  rw [Spi.setSpiSpeed]
  split at h
  · rename_i hc
    rw [if_pos hc]
    cases h
    rfl
  · rename_i hc
    rw [if_neg hc]
    split at h
    · rename_i hne
      rw [if_pos hne]
      obtain ⟨cfg, hcfg, he⟩ := Option.bind_eq_some_iff.mp h
      cases hcfg
      cases he
      rfl
    · rename_i heq
      rw [if_neg heq]
      cases h
      rfl

theorem openspi_eq {found success : Bool} (h : d.openspi board found success = some (r, d')) :
    d.state.openspi board found success = (r, d'.state) := by
  rw [Driver.openspi] at h
  rw [Spi.openspi]
  split at h
  · rename_i hb
    rw [if_pos hb]
    cases h
    rfl
  · rename_i hb
    rw [if_neg hb]
    have hstate : (if !d.state.driverInitialized then d.state.initDriver board found
        else d.state) = (d.lookUp board found).state := by
      rw [Driver.lookUp]
      split <;> rfl
    simp only [hstate]
    generalize d.lookUp board found = e at h
    rw [Driver.openBus] at h
    split at h
    · rename_i hd
      rw [if_pos hd]
      cases h
      rfl
    · rename_i hd
      rw [if_neg hd]
      split at h
      · rename_i hi
        rw [if_pos hi]
        cases h
        rfl
      · rename_i hi
        rw [if_neg hi]
        obtain ⟨-, -, h⟩ := Option.bind_eq_some_iff.mp h
        obtain ⟨cfg, hcfg, h⟩ := Option.bind_eq_some_iff.mp h
        cases hcfg
        split at h
        · rename_i hs
          rw [if_pos hs]
          cases h
          rfl
        · rename_i hs
          rw [if_neg hs]
          cases h
          rfl

/-- **Where a call has a result it is the one of its function.** -/
theorem call_eq (h : d.call board os k = some (r, d')) :
    k.function board os d.state = (r, d'.state) := by
  cases k with
  | openspi => exact openspi_eq h
  | setSpiSpeedSlow => exact setSpiSpeed_eq h
  | setSpiSpeedFast => exact setSpiSpeed_eq h
  | closespi => exact afterReadSpi_eq h
  | activateCs => exact setCs_eq h
  | deactivateCs => exact setCs_eq h
  | readfromspi headerBuffer readLength => exact afterReadSpi_eq h
  | writetospi headerBuffer bodyBuffer => exact afterReadSpi_eq h

/-! ## Safe sequences -/

/-- Whether the bus is open by what the calls returned: since an `openspi` that succeeded
no `closespi` has. -/
def bracketAfter (bracket : Bool) (k : SpiCall) (r : Returned) : Bool :=
  match k with
  | .openspi => bracket || r.ret == 0
  | .closespi => bracket && r.ret != 0
  | _ => bracket

/-- What a call has to do outside a bracket. -/
def CallSafe (board : Board) (bracket : Bool) (d : Driver) (k : SpiCall) (r : Returned)
    (d' : Driver) : Prop :=
  match k with
  | .readfromspi _ _ | .writetospi _ _ => bracket = false → r = ⟨-eio, []⟩ ∧ d' = d
  | .closespi => bracket = false → r.ret = 0 ∧ d' = d
  | .openspi =>
    bracket = false → r.ret ≠ 0 → d'.state.spiInitialized = false ∧
      ∀ os : CallOutcomes, os.device.success = true → os.nrfxInit.success = true →
        ∃ d'', d'.call board os .openspi = some (⟨0, []⟩, d'')
  | .setSpiSpeedSlow | .setSpiSpeedFast | .activateCs | .deactivateCs => True

/-- From `d` on, no call reads through `NULL`, and each does what it has to. -/
def SafeFrom (board : Board) : Bool → Driver → List (SpiCall × CallOutcomes) → Prop
  | _, _, [] => True
  | bracket, d, (k, os) :: calls =>
    match d.call board os k with
    | none => False
    | some (r, d') =>
      CallSafe board bracket d k r d' ∧ SafeFrom board (bracketAfter bracket k r) d' calls

/-- Whether some `openspi` has found the device. -/
def foundAfter (found : Bool) (k : SpiCall) (os : CallOutcomes) : Bool :=
  found || (k == .openspi && os.device.success)

/-- The calls that read `spi->config` first come after an `openspi` that found the
device. -/
def OpensFirst : Bool → List (SpiCall × CallOutcomes) → Prop
  | _, [] => True
  | found, (k, os) :: calls =>
    (k.readsSpi = true → found = true) ∧ OpensFirst (foundAfter found k os) calls

/-- The driver agrees with what the calls returned. -/
structure Bracketed (bracket found : Bool) (d : Driver) : Prop where
  spi : d.spi = found
  driverInitialized : d.state.driverInitialized = found
  spiInitialized : d.state.spiInitialized = bracket
  spiBusy : d.state.spiBusy = false

variable {bracket found : Bool}

/-- `openspi` opens a bracket exactly if it succeeds. -/
theorem bracketAfter_openspi (device success : Bool) :
    bracketAfter bracket .openspi ⟨if device && !bracket && success then 0 else -eio, []⟩ =
      (bracket || (device && success)) := by
  cases bracket <;> cases device <;> cases success <;> rfl

theorem foundAfter_of_ne (hk : k ≠ .openspi) : foundAfter found k os = found := by
  rw [foundAfter, beq_false_of_ne hk, Bool.false_and, Bool.or_false]

theorem bracketed_boot (peripheral : Peripheral) : Bracketed false false (.boot peripheral) :=
  ⟨rfl, rfl, rfl, rfl⟩

namespace Bracketed

theorem readSpi (h : Bracketed bracket true d) : d.readSpi = some () := by
  rw [Driver.readSpi, h.spi]
  rfl

theorem call_none (h : Bracketed bracket false d) (hk : k.readsSpi = true) :
    d.call board os k = none := by
  have hread : d.readSpi = none := by
    rw [Driver.readSpi, h.spi]
    rfl
  cases k with
  | openspi | activateCs | deactivateCs => cases hk
  | setSpiSpeedSlow | setSpiSpeedFast =>
    rw [Driver.call, Driver.setSpiSpeed, hread]
    rfl
  | closespi =>
    rw [Driver.call, Driver.closespi, Driver.afterReadSpi, hread]
    rfl
  | readfromspi headerBuffer readLength | writetospi headerBuffer bodyBuffer =>
    rw [Driver.call, Driver.transfer, Driver.afterReadSpi, hread]
    rfl

theorem lookUp (h : Bracketed bracket found d) (device : Bool) :
    Bracketed bracket (found || device) (d.lookUp board device) := by
  rw [Driver.lookUp, h.driverInitialized]
  cases found with
  | true => exact h
  | false =>
    cases device with
    | true => exact ⟨rfl, rfl, h.spiInitialized, h.spiBusy⟩
    | false => exact ⟨rfl, h.driverInitialized, h.spiInitialized, h.spiBusy⟩

/-- `openspi` succeeds on a closed bus if the driver has its device and the peripheral is
initialised. -/
theorem openBus (h : Bracketed bracket found d) (success : Bool) :
    ∃ d', d.openBus success =
        some (⟨if found && !bracket && success then 0 else -eio, []⟩, d') ∧
      Bracketed (bracket || (found && success)) found d' := by
  obtain ⟨hs, hd, hi, hb⟩ := h
  cases found with
  | false =>
    refine ⟨d, ?_, hs, hd, by simpa using hi, hb⟩
    rw [Driver.openBus, hd]
    rfl
  | true =>
    cases bracket with
    | true =>
      refine ⟨d, ?_, hs, hd, hi, hb⟩
      rw [Driver.openBus, hd, hi]
      rfl
    | false =>
      have hread : d.readSpi = some () := readSpi ⟨hs, hd, hi, hb⟩
      rw [Driver.openBus, hd, hi, hread]
      cases success with
      | true => exact ⟨_, rfl, hs, hd, rfl, hb⟩
      | false => exact ⟨_, rfl, hs, hd, hi, hb⟩

theorem openspi (h : Bracketed bracket found d) (board : Board) (device success : Bool) :
    ∃ d', d.openspi board device success =
        some (⟨if (found || device) && !bracket && success then 0 else -eio, []⟩, d') ∧
      Bracketed (bracket || ((found || device) && success)) (found || device) d' := by
  rw [Driver.openspi, h.spiBusy, if_neg Bool.false_ne_true]
  exact (h.lookUp device).openBus success

theorem setSpiSpeed (h : Bracketed bracket true d) (i : Fin 2) :
    ∃ r d', d.setSpiSpeed i = some (r, d') ∧ Bracketed bracket true d' := by
  rw [Driver.setSpiSpeed, h.readSpi, Option.bind_some]
  split
  · exact ⟨_, d, rfl, h⟩
  · split
    · exact ⟨_, _, rfl, h.spi, h.driverInitialized, h.spiInitialized, h.spiBusy⟩
    · exact ⟨_, d, rfl, h⟩

theorem afterReadSpi (h : Bracketed bracket true d) (f : Spi → Returned × Spi) :
    d.afterReadSpi f = some ((f d.state).1, { d with state := (f d.state).2 }) := by
  rw [Driver.afterReadSpi, h.readSpi]
  rfl

theorem closespi (h : Bracketed bracket true d) :
    ∃ d', d.closespi = some (⟨0, []⟩, d') ∧ Bracketed false true d' ∧
      (bracket = false → d' = d) := by
  rw [Driver.closespi, h.afterReadSpi, Spi.closespi, h.spiBusy, h.spiInitialized]
  cases bracket with
  | true => exact ⟨_, rfl, ⟨h.spi, h.driverInitialized, rfl, rfl⟩, fun hc => Bool.noConfusion hc⟩
  | false => exact ⟨_, rfl, h, fun _ => rfl⟩

theorem transfer (h : Bracketed bracket true d) (t : Transfer) (header body : BusOutcome) :
    ∃ r d', d.transfer t header body = some (r, d') ∧ Bracketed bracket true d' ∧
      (bracket = false → r = ⟨-eio, []⟩ ∧ d' = d) := by
  rw [Driver.transfer, h.afterReadSpi, Spi.transfer, h.spiInitialized, h.spiBusy]
  cases bracket with
  | true =>
    exact ⟨_, _, rfl, ⟨h.spi, h.driverInitialized, rfl, rfl⟩, fun hc => Bool.noConfusion hc⟩
  | false => exact ⟨_, _, rfl, h, fun _ => ⟨rfl, rfl⟩⟩

theorem setCs (h : Bracketed bracket found d) (on : Bool) :
    ∃ r d', d.setCs on = some (r, d') ∧ Bracketed bracket found d' := by
  rw [Driver.setCs, Spi.setCs]
  split
  · exact ⟨_, _, rfl, h⟩
  · exact ⟨_, _, rfl, h.spi, h.driverInitialized, h.spiInitialized, h.spiBusy⟩

/-- **One call.**  A call that may read `spi->config` has a result, does what it has to,
and what it returns says how the driver is left. -/
theorem call_some (h : Bracketed bracket found d) (board : Board) (k : SpiCall)
    (os : CallOutcomes) (hk : k.readsSpi = true → found = true) :
    ∃ r d', d.call board os k = some (r, d') ∧ CallSafe board bracket d k r d' ∧
      Bracketed (bracketAfter bracket k r) (foundAfter found k os) d' := by
  cases k with
  | openspi =>
    obtain ⟨d', hcall, h'⟩ := h.openspi board os.device.success os.nrfxInit.success
    refine ⟨_, d', hcall, ?_, ?_⟩
    · intro hb hret
      subst hb
      have hclosed : ((found || os.device.success) && os.nrfxInit.success) = false := by
        by_contra hc
        rw [Bool.not_eq_false] at hc
        simp [hc] at hret
      refine ⟨by rw [h'.spiInitialized, hclosed]; rfl, ?_⟩
      intro os' hdev hinit
      rw [hclosed] at h'
      obtain ⟨d'', hcall', -⟩ := h'.openspi board os'.device.success os'.nrfxInit.success
      rw [hdev, hinit] at hcall'
      exact ⟨d'', by simpa [Driver.call, hdev, hinit] using hcall'⟩
    · rw [bracketAfter_openspi]
      exact h'
  | setSpiSpeedSlow | setSpiSpeedFast =>
    obtain rfl := hk rfl
    obtain ⟨r, d', hcall, h'⟩ := h.setSpiSpeed _
    exact ⟨r, d', hcall, trivial, h'⟩
  | closespi =>
    obtain rfl := hk rfl
    obtain ⟨d', hcall, h', hsame⟩ := h.closespi
    refine ⟨_, d', hcall, fun hb => ⟨rfl, hsame hb⟩, ?_⟩
    have hafter : bracketAfter bracket .closespi ⟨0, []⟩ = false := by simp [bracketAfter]
    rw [hafter]
    exact h'
  | activateCs | deactivateCs =>
    obtain ⟨r, d', hcall, h'⟩ := h.setCs _
    refine ⟨r, d', hcall, trivial, ?_⟩
    rw [foundAfter_of_ne (by decide)]
    exact h'
  | readfromspi headerBuffer readLength | writetospi headerBuffer bodyBuffer =>
    obtain rfl := hk rfl
    obtain ⟨r, d', hcall, h', hsafe⟩ := h.transfer _ os.header os.body
    exact ⟨r, d', hcall, hsafe, h'⟩

theorem safeFrom_iff (h : Bracketed bracket found d) (calls : List (SpiCall × CallOutcomes)) :
    SafeFrom board bracket d calls ↔ OpensFirst found calls := by
  induction calls generalizing bracket found d with
  | nil => exact Iff.rfl
  | cons c calls ih =>
    obtain ⟨k, os⟩ := c
    rw [SafeFrom, OpensFirst]
    by_cases hk : k.readsSpi = true → found = true
    · obtain ⟨r, d', hcall, hsafe, h'⟩ := h.call_some board k os hk
      rw [hcall]
      constructor
      · rintro ⟨-, hrest⟩
        exact ⟨hk, (ih h').mp hrest⟩
      · rintro ⟨-, hrest⟩
        exact ⟨hsafe, (ih h').mpr hrest⟩
    · have hreads : k.readsSpi = true := by
        by_contra hr
        exact hk fun h => absurd h hr
      obtain rfl : found = false := by
        by_contra hf
        exact hk fun _ => by simpa using hf
      rw [h.call_none hreads]
      exact ⟨False.elim, fun hopens => absurd hopens.1 hk⟩

end Bracketed

/-- **A sequence of calls from the static initial state is safe exactly if the device is
found by an `openspi` before any call that needs it.** -/
theorem safe_iff (board : Board) (peripheral : Peripheral)
    (calls : List (SpiCall × CallOutcomes)) :
    SafeFrom board false (.boot peripheral) calls ↔ OpensFirst false calls :=
  (bracketed_boot peripheral).safeFrom_iff calls

/-- Closing the bus first reads through `NULL`. -/
theorem closespi_unsafe :
    ¬ ∀ (board : Board) (peripheral : Peripheral) (calls : List (SpiCall × CallOutcomes)),
      SafeFrom board false (.boot peripheral) calls := by
  intro h
  exact h .plain .off [(.closespi, ⟨⟨true, []⟩, ⟨true, []⟩, ⟨true, []⟩, ⟨true, []⟩⟩)]

end RedNodeBus.Ranging

import RedNodeBus.Ranging.CallSequence

/-!
# The clock of the SPI bus

`set_spi_speed_slow` and `set_spi_speed_fast` leave the peripheral alone where `spi_cfg`
points to the wanted entry already.  That is right as long as nobody changes the pointer or
the peripheral alone.  `openspi` moves the pointer before `nrfx_spi_init`, which may fail;
but then the bus is closed, and the next `openspi` that opens it sets both.

`lastSpeed` says from the calls and what they returned which clock was asked for last since
the bus was opened, and `frequency_agrees` that the peripheral and `spi_cfg` both have it.
-/

namespace RedNodeBus.Ranging

def callMachine (board : Board) (peripheral : Peripheral) :
    Machine Driver (SpiCall × CallOutcomes) where
  init := .boot peripheral
  step d c := (d.call board c.2 c.1).map Prod.snd

def returned (board : Board) (d : Driver) (c : SpiCall × CallOutcomes) :
    Option (SpiCall × Returned) :=
  (d.call board c.2 c.1).map fun res => (c.1, res.1)

/-- The speed asked for, after one more call; `none` while the bus is closed. -/
def speedAfter (board : Board) (speed : Option NrfSpiFrequency) (c : SpiCall × Returned) :
    Option NrfSpiFrequency :=
  match c.1 with
  | .openspi => if c.2.ret = 0 then some .freq2M else speed
  | .closespi => if c.2.ret = 0 then none else speed
  | .setSpiSpeedSlow => speed.map fun _ => .freq2M
  | .setSpiSpeedFast => speed.map fun _ => getNrfSpiFrequency board.spiMaxFrequency
  | .activateCs | .deactivateCs | .readfromspi _ _ | .writetospi _ _ => speed

/-- The speed asked for by the last accepted request since the bus was opened. -/
def lastSpeed (board : Board) (history : List (SpiCall × Returned)) : Option NrfSpiFrequency :=
  history.foldl (speedAfter board) none

def frequencyOf (board : Board) (i : Fin 2) : UInt32 :=
  if i = Spi.slowCfg then 2000000 else board.spiMaxFrequency

/-- The bus is open if a speed is asked for, and then both have it. -/
structure Clocked (board : Board) (speed : Option NrfSpiFrequency) (s : Spi) : Prop where
  spiInitialized : s.spiInitialized = speed.isSome
  spiBusy : s.spiBusy = false
  spiCfgs : s.driverInitialized = true → ∀ i, (s.spiCfgs i).frequency = frequencyOf board i
  opened : ∀ f, speed = some f → s.driverInitialized = true ∧ ∃ i, s.spiCfg = some i ∧
    getNrfSpiFrequency (frequencyOf board i) = f ∧ s.peripheral.config.frequency = f

namespace Clocked

variable {board : Board} {speed : Option NrfSpiFrequency} {s : Spi}

theorem frequencyOf_zero : getNrfSpiFrequency (frequencyOf board 0) = .freq2M := by
  show getNrfSpiFrequency 2000000 = .freq2M
  decide

theorem boot (peripheral : Peripheral) : Clocked board none (Shared.boot peripheral).spi :=
  ⟨rfl, rfl, nofun, nofun⟩

theorem initDriver (h : Clocked board speed s) (found : Bool) :
    Clocked board speed (if !s.driverInitialized then s.initDriver board found else s) := by
  cases hd : s.driverInitialized with
  | true => exact h
  | false =>
    have hnone : ∀ f, speed ≠ some f := by
      intro f hf
      have hinit := (h.opened f hf).1
      rw [hd] at hinit
      cases hinit
    have hcfgs : ∀ i, ((s.initDriver board found).spiCfgs i).frequency = frequencyOf board i := by
      cases found <;> exact Fin.forall_fin_two.mpr ⟨rfl, rfl⟩
    rw [Bool.not_false, if_pos rfl]
    refine ⟨?_, ?_, fun _ => hcfgs, fun f hf => absurd hf (hnone f)⟩
    · cases found <;> exact h.spiInitialized
    · cases found <;> exact h.spiBusy

/-- An `openspi` that fails may move the pointer, but leaves the bus closed. -/
theorem openspi (h : Clocked board speed s) (found success : Bool) :
    Clocked board (speedAfter board speed (.openspi, (s.openspi board found success).1))
      (s.openspi board found success).2 := by
  have h₁ := h.initDriver found
  rw [Spi.openspi, h.spiBusy, if_neg Bool.false_ne_true]
  revert h₁
  generalize (if !s.driverInitialized then s.initDriver board found else s) = s₁
  intro h₁
  cases hd : s₁.driverInitialized with
  | false =>
    simp only [hd, Bool.not_false, if_true]
    exact h₁
  | true =>
    cases hi : s₁.spiInitialized with
    | true =>
      simp only [hd, hi, Bool.not_true, Bool.false_eq_true, if_false, if_true]
      exact h₁
    | false =>
      simp only [hd, hi, Bool.not_true, Bool.false_eq_true, if_false]
      have hclosed : speed = none := by
        have hsome := h₁.spiInitialized
        rw [hi] at hsome
        exact Option.not_isSome_iff_eq_none.mp (by rw [← hsome]; decide)
      subst hclosed
      cases success with
      | false =>
        refine ⟨rfl, h₁.spiBusy, fun _ => h₁.spiCfgs hd, ?_⟩
        intro f hf
        cases hf
      | true =>
        refine ⟨rfl, h₁.spiBusy, fun _ => h₁.spiCfgs hd, ?_⟩
        intro f hf
        obtain rfl : NrfSpiFrequency.freq2M = f := Option.some.inj hf
        refine ⟨rfl, 0, rfl, frequencyOf_zero, ?_⟩
        show getNrfSpiFrequency (s₁.spiCfgs 0).frequency = .freq2M
        rw [h₁.spiCfgs hd 0, frequencyOf_zero]

theorem setSpiSpeed (h : Clocked board speed s) (i : Fin 2) :
    Clocked board (speed.map fun _ => getNrfSpiFrequency (frequencyOf board i))
      (s.setSpiSpeed i).2 := by
  cases speed with
  | none =>
    have hs : (s.setSpiSpeed i).2 = s := by simp [Spi.setSpiSpeed, h.spiInitialized]
    rw [hs]
    exact h
  | some f =>
    obtain ⟨hd, j, hj, hf, hp⟩ := h.opened f rfl
    rw [Option.map_some]
    by_cases hij : s.spiCfg = some i
    · -- the pointer stands at the entry, and the peripheral has its frequency
      obtain rfl : j = i := Option.some.inj (hj.symm.trans hij)
      have hs : (s.setSpiSpeed j).2 = s := by
        simp [Spi.setSpiSpeed, h.spiInitialized, h.spiBusy, hij]
      rw [hs, hf]
      exact h
    · have hs : (s.setSpiSpeed i).2 =
          { s with
            spiCfg := some i
            peripheral := { s.peripheral with
              config := { s.peripheral.config with
                frequency := getNrfSpiFrequency (s.spiCfgs i).frequency } } } := by
        simp [Spi.setSpiSpeed, h.spiInitialized, h.spiBusy, hij]
      rw [hs]
      refine ⟨h.spiInitialized, h.spiBusy, h.spiCfgs, ?_⟩
      rintro _ ⟨⟩
      refine ⟨hd, i, rfl, rfl, ?_⟩
      rw [← h.spiCfgs hd i]

theorem closespi (h : Clocked board speed s) :
    Clocked board (speedAfter board speed (.closespi, s.closespi.1)) s.closespi.2 := by
  rw [Spi.closespi, h.spiBusy, if_neg Bool.false_ne_true]
  cases hi : s.spiInitialized with
  | true =>
    refine ⟨rfl, rfl, h.spiCfgs, ?_⟩
    intro f hf
    cases hf
  | false =>
    have hnone : speed = none := by
      have hsome := h.spiInitialized
      rw [hi] at hsome
      exact Option.not_isSome_iff_eq_none.mp (by rw [← hsome]; decide)
    rw [hnone] at h
    exact h

theorem setCs (h : Clocked board speed s) (on : Bool) : Clocked board speed (s.setCs on).2 := by
  rw [Spi.setCs]
  split
  · exact h
  · exact ⟨h.spiInitialized, h.spiBusy, h.spiCfgs, h.opened⟩

theorem transfer (h : Clocked board speed s) (t : Transfer) (header body : BusOutcome) :
    Clocked board speed (s.transfer t header body).2 := by
  rw [Spi.transfer]
  split
  · exact h
  · exact ⟨h.spiInitialized, rfl, h.spiCfgs, h.opened⟩

/-- **One call.** -/
theorem function (h : Clocked board speed s) (os : CallOutcomes) (k : SpiCall) :
    Clocked board (speedAfter board speed (k, (k.function board os s).1))
      (k.function board os s).2 := by
  cases k with
  | openspi => exact h.openspi _ _
  | setSpiSpeedSlow => exact h.setSpiSpeed 0
  | setSpiSpeedFast => exact h.setSpiSpeed 1
  | closespi => exact h.closespi
  | activateCs => exact h.setCs true
  | deactivateCs => exact h.setCs false
  | readfromspi headerBuffer readLength => exact h.transfer _ _ _
  | writetospi headerBuffer bodyBuffer => exact h.transfer _ _ _

end Clocked

variable {board : Board} {peripheral : Peripheral}

theorem callMachine_step {d d' : Driver} {c : SpiCall × CallOutcomes}
    (h : (callMachine board peripheral).step d c = some d') :
    ∃ r, returned board d c = some (c.1, r) ∧ c.1.function board c.2 d.state = (r, d'.state) := by
  obtain ⟨⟨r, e⟩, hcall, rfl⟩ := Option.map_eq_some_iff.mp h
  refine ⟨r, ?_, call_eq hcall⟩
  rw [returned, hcall]
  rfl

theorem lastSpeed_concat (history : List (SpiCall × Returned)) (c : SpiCall × Returned) :
    lastSpeed board (history ++ [c]) = speedAfter board (lastSpeed board history) c := by
  rw [lastSpeed, List.foldl_append]
  rfl

theorem clocked_run {calls : List (SpiCall × CallOutcomes)} {d : Driver}
    (hr : (callMachine board peripheral).run calls = some d) :
    Clocked board (lastSpeed board ((callMachine board peripheral).observe (returned board)
      (.boot peripheral) calls)) d.state := by
  refine Machine.history_invariant (h := []) (P := fun _ _ => True)
    (I := fun history (d : Driver) => Clocked board (lastSpeed board history) d.state)
    ?_ (Clocked.boot peripheral) (Machine.along_trivial (fun _ _ => trivial) _ _) hr
  intro history d c d' hI _ hs
  obtain ⟨r, hret, hfun⟩ := callMachine_step hs
  have hnext := hI.function c.2 c.1
  rw [hfun] at hnext
  rw [hret, Option.toList_some, lastSpeed_concat]
  exact hnext

theorem exists_runFrom {bracket : Bool} {d : Driver} (h : Bracketed bracket true d)
    (calls : List (SpiCall × CallOutcomes)) :
    ∃ d', (callMachine board peripheral).runFrom d calls = some d' := by
  induction calls generalizing bracket d with
  | nil => exact ⟨d, rfl⟩
  | cons c calls ih =>
    obtain ⟨r, d₁, hcall, -, h₁⟩ := h.call_some board c.1 c.2 fun _ => rfl
    obtain ⟨d', hd'⟩ := ih h₁
    refine ⟨d', (Machine.runFrom_cons _).mpr ⟨d₁, ?_, hd'⟩⟩
    simp only [callMachine, hcall, Option.map_some]

/-- The bus is open exactly while a speed is asked for, and then the entry `spi_cfg`
points to has the frequency of the peripheral, which is that speed. -/
structure ClockAgrees (speed : Option NrfSpiFrequency) (d : Driver) : Prop where
  opened : d.state.spiInitialized = speed.isSome
  spiCfg : d.state.spiInitialized = true →
    d.readSpiCfg.map (fun spiCfg => getNrfSpiFrequency spiCfg.frequency) =
      some d.state.peripheral.config.frequency
  speed : d.state.spiInitialized = true → speed = some d.state.peripheral.config.frequency

theorem Clocked.agrees {speed : Option NrfSpiFrequency} {d : Driver}
    (h : Clocked board speed d.state) : ClockAgrees speed d := by
  have hopen : d.state.spiInitialized = true → ∃ f, speed = some f := by
    intro hi
    rw [h.spiInitialized] at hi
    exact Option.isSome_iff_exists.mp hi
  refine ⟨h.spiInitialized, ?_, ?_⟩
  · intro hi
    obtain ⟨f, hf⟩ := hopen hi
    obtain ⟨hd, i, hcfg, hfreq, hp⟩ := h.opened f hf
    rw [Driver.readSpiCfg, hcfg, Option.map_some, Option.map_some, h.spiCfgs hd i, hfreq, hp]
  · intro hi
    obtain ⟨f, hf⟩ := hopen hi
    obtain ⟨-, -, -, -, hp⟩ := h.opened f hf
    rw [hf, hp]

/-- **The configured and the actual clock agree** after every sequence of calls that begins
with an `openspi`. -/
theorem frequency_agrees (board : Board) (peripheral : Peripheral) (os : CallOutcomes)
    (calls : List (SpiCall × CallOutcomes)) :
    (os.device.success = true →
      ∃ d, (callMachine board peripheral).run ((.openspi, os) :: calls) = some d) ∧
    ∀ d, (callMachine board peripheral).run ((.openspi, os) :: calls) = some d →
      ClockAgrees (lastSpeed board ((callMachine board peripheral).observe (returned board)
        (.boot peripheral) ((.openspi, os) :: calls))) d := by
  constructor
  · intro hdev
    obtain ⟨d₁, hcall, h₁⟩ := (bracketed_boot peripheral).openspi board os.device.success
      os.nrfxInit.success
    rw [hdev] at hcall h₁
    obtain ⟨d, hd⟩ := exists_runFrom h₁ calls
    refine ⟨d, (Machine.runFrom_cons _).mpr ⟨d₁, ?_, hd⟩⟩
    simp only [callMachine, Driver.call, hdev, hcall, Option.map_some]
  · intro d hr
    exact (clocked_run hr).agrees

end RedNodeBus.Ranging

import RedNodeBus.Ranging.Spi

/-!
# The wake-up pulse

`port_wakeup` holds CS active by `activate_cs`, sleeps, and lets it go by
`deactivate_cs`.  `activate_cs` looks at `spi_busy` and does not set it, so while
`port_wakeup` sleeps the bus is free for everybody: every other call passes its test,
except `openspi`, which finds the driver initialised.  A transfer then clocks its bytes
in the middle of the pulse and ends it.

`Uninterrupted` is what the pulse needs of the calls that other contexts make meanwhile,
and `uninterrupted_iff` says that it has it exactly if all of them are `openspi`.
-/

namespace RedNodeBus.Ranging

/-- A call of another context, with the outcomes of its statements. -/
structure OtherCall where
  call : SpiCall
  outcomes : CallOutcomes

def OtherCall.run (board : Board) (c : OtherCall) (s : Spi) : Spi :=
  (c.call.function board c.outcomes s).2

/-- The call passes its tests. -/
def SpiCall.Admitted (s : Spi) (k : SpiCall) : Prop :=
  s.spiBusy = false ∧ s.spiInitialized = if k = .openspi then false else true

/-- From here on, through these calls, CS is as it is now, none of the calls is
admitted, and `deactivate_cs` succeeds. -/
def Uninterrupted (board : Board) (cs : CsPin) : Spi → List OtherCall → Prop
  | s, [] => s.cs = cs ∧ s.deactivateCs.1.ret = 0
  | s, c :: calls =>
    s.cs = cs ∧ ¬ c.call.Admitted s ∧ Uninterrupted board cs (c.run board s) calls

/-- The driver between `activate_cs` and `deactivate_cs`. -/
structure Pulse (cs : CsPin) (s : Spi) : Prop where
  spiInitialized : s.spiInitialized = true
  spiBusy : s.spiBusy = false
  cs : s.cs = cs

variable {board : Board} {cs : CsPin} {s : Spi}

/-- `activate_cs` succeeds only on an initialised driver that is not busy. -/
theorem activateCs_ret : s.activateCs.1.ret = 0 ↔ s.spiInitialized = true ∧ s.spiBusy = false := by
  cases hi : s.spiInitialized <;> cases hb : s.spiBusy <;>
    simp [Spi.activateCs, Spi.setCs, hi, hb, eio]

theorem deactivateCs_ret :
    s.deactivateCs.1.ret = 0 ↔ s.spiInitialized = true ∧ s.spiBusy = false := by
  cases hi : s.spiInitialized <;> cases hb : s.spiBusy <;>
    simp [Spi.deactivateCs, Spi.setCs, hi, hb, eio]

theorem pulse_activateCs (h : s.activateCs.1.ret = 0) :
    Pulse ⟨s.cs.output, true⟩ s.activateCs.2 := by
  obtain ⟨hi, hb⟩ := activateCs_ret.mp h
  have hs : s.activateCs.2 = s.gpioPinSet true := by simp [Spi.activateCs, Spi.setCs, hi, hb]
  rw [hs]
  exact ⟨hi, hb, rfl⟩

/-- During the pulse `openspi` is the only call that is turned away. -/
theorem Pulse.admitted_iff {k : SpiCall} (h : Pulse cs s) : k.Admitted s ↔ k ≠ .openspi := by
  rw [SpiCall.Admitted, h.spiInitialized, h.spiBusy]
  by_cases hk : k = .openspi <;> simp [hk]

/-- `openspi` on an initialised driver leaves CS and the flags alone. -/
theorem Pulse.openspi (h : Pulse cs s) (found success : Bool) :
    Pulse cs (s.openspi board found success).2 := by
  obtain ⟨hi, hb, hcs⟩ := h
  cases hd : s.driverInitialized with
  | true =>
    have hs : (s.openspi board found success).2 = s := by simp [Spi.openspi, hb, hd, hi]
    rw [hs]
    exact ⟨hi, hb, hcs⟩
  | false =>
    have hs : (s.openspi board found success).2 = s.initDriver board found := by
      cases found <;>
        simp [Spi.openspi, Spi.initDriver, Spi.setOperation, Spi.setFrequency, hb, hd, hi]
    rw [hs]
    cases found <;> exact ⟨hi, hb, hcs⟩

theorem Pulse.uninterrupted {calls : List OtherCall} (h : Pulse cs s) :
    Uninterrupted board cs s calls ↔ ∀ c ∈ calls, c.call = .openspi := by
  induction calls generalizing s with
  | nil =>
    rw [Uninterrupted, deactivateCs_ret]
    exact iff_of_true ⟨h.cs, h.spiInitialized, h.spiBusy⟩ (by simp)
  | cons c calls ih =>
    rw [Uninterrupted, h.admitted_iff, not_not, List.forall_mem_cons]
    constructor
    · rintro ⟨-, hc, hrest⟩
      have hnext : Pulse cs (c.run board s) := by
        rw [OtherCall.run, hc]
        exact h.openspi _ _
      exact ⟨hc, (ih hnext).mp hrest⟩
    · rintro ⟨hc, hrest⟩
      have hnext : Pulse cs (c.run board s) := by
        rw [OtherCall.run, hc]
        exact h.openspi _ _
      exact ⟨h.cs, hc, (ih hnext).mpr hrest⟩

/-- **The pulse is uninterrupted exactly if the other contexts only call `openspi`.** -/
theorem uninterrupted_iff (board : Board) {s : Spi} (h : s.activateCs.1.ret = 0)
    (calls : List OtherCall) :
    Uninterrupted board ⟨s.cs.output, true⟩ s.activateCs.2 calls ↔
      ∀ c ∈ calls, c.call = .openspi :=
  (pulse_activateCs h).uninterrupted

def SpiCall.succeeds (k : SpiCall) : OtherCall :=
  ⟨k, ⟨⟨true, []⟩, ⟨true, []⟩, ⟨true, []⟩, ⟨true, []⟩⟩⟩

/-- The driver after its first `openspi`. -/
def openedSpi : Spi := ((Shared.boot .off).spi.openspi .plain true true).2

theorem uninterrupted_iff_openspi :
    Uninterrupted .plain ⟨openedSpi.cs.output, true⟩ openedSpi.activateCs.2
        [SpiCall.openspi.succeeds, SpiCall.openspi.succeeds] ↔
      ∀ c ∈ [SpiCall.openspi.succeeds, SpiCall.openspi.succeeds], c.call = .openspi :=
  uninterrupted_iff .plain (by decide) _

/-- A read of four bytes during the pulse ends it. -/
theorem pulse_interrupted :
    ¬ ∀ (s : Spi) (calls : List OtherCall), s.activateCs.1.ret = 0 →
      Uninterrupted .plain ⟨s.cs.output, true⟩ s.activateCs.2 calls := by
  intro h
  obtain ⟨-, -, hcs, -⟩ := h openedSpi [(SpiCall.readfromspi [0] 4).succeeds] (by decide)
  exact absurd hcs (by decide)

end RedNodeBus.Ranging

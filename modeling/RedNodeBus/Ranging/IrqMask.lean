import RedNodeBus.Ranging.Spi

/-!
# The interrupt mask across a transfer

`readfromspi` and `writetospi` test and set `spi_busy` between `__disable_irq` and
`__enable_irq`, and each of their exits has passed an `__enable_irq`.  Neither looks at the
mask it finds.  So a transfer ends with the interrupts enabled, whatever it returns
(`irqDisabled_run`), and a caller that entered with them masked has lost its critical
section; `mask_kept_iff` says that this is the only way to lose it.
-/

namespace RedNodeBus.Ranging

/-- A call of one of the two functions, with the outcomes of its stages. -/
inductive TransferCall
  | readfromspi (headerBuffer : List UInt8) (readLength : Nat) (outcomes : CallOutcomes)
  | writetospi (headerBuffer bodyBuffer : List UInt8) (outcomes : CallOutcomes)

namespace TransferCall

def call : TransferCall → SpiCall
  | readfromspi headerBuffer readLength _ => .readfromspi headerBuffer readLength
  | writetospi headerBuffer bodyBuffer _ => .writetospi headerBuffer bodyBuffer

def outcomes : TransferCall → CallOutcomes
  | readfromspi _ _ outcomes => outcomes
  | writetospi _ _ outcomes => outcomes

/-- What the call returns, and leaves; a transfer has fewer than 20 statements. -/
def alone (board : Board) (c : TransferCall) (s : Shared) : (Frame ⊕ Returned) × Shared :=
  (spiProgram board).alone c.outcomes.at 20 (c.call.entry board) s

def run (board : Board) (c : TransferCall) (s : Shared) : Shared := (c.alone board s).2

end TransferCall

/-- After each of these calls the mask is `masked`. -/
def MaskKept (board : Board) (masked : Bool) : Shared → List TransferCall → Prop
  | _, [] => True
  | s, c :: calls =>
    (c.run board s).irqDisabled = masked ∧ MaskKept board masked (c.run board s) calls

instance decidableMaskKept (board : Board) (masked : Bool) :
    ∀ (s : Shared) (calls : List TransferCall), Decidable (MaskKept board masked s calls)
  | _, [] => isTrue trivial
  | s, c :: calls =>
    have : Decidable (MaskKept board masked (c.run board s) calls) :=
      decidableMaskKept board masked _ calls
    inferInstanceAs (Decidable (_ ∧ _))

variable {board : Board}

/-- A transfer runs to its end as its function, and then the interrupts are enabled. -/
theorem endsAs_transferCall (board : Board) (c : TransferCall) (s : Shared) :
    EndsAs board c.outcomes (c.call.entry board) s (c.call.function board c.outcomes s.spi) := by
  cases c with
  | readfromspi headerBuffer readLength outcomes => exact endsAs_transfer _
  | writetospi headerBuffer bodyBuffer outcomes => exact endsAs_transfer _

theorem irqDisabled_run (c : TransferCall) (s : Shared) : (c.run board s).irqDisabled = false := by
  obtain ⟨s', halone, -, hirq⟩ := endsAs_transferCall board c s
  rw [TransferCall.run, TransferCall.alone, halone]
  exact hirq

theorem maskKept_false (s : Shared) (calls : List TransferCall) :
    MaskKept board false s calls := by
  induction calls generalizing s with
  | nil => exact trivial
  | cons c calls ih => exact ⟨irqDisabled_run c s, ih _⟩

/-- **The transfers keep the mask they find exactly if it is not set**, or if there are
none. -/
theorem mask_kept_iff (board : Board) (s : Shared) (calls : List TransferCall) :
    MaskKept board s.irqDisabled s calls ↔ calls = [] ∨ s.irqDisabled = false := by
  constructor
  · intro h
    cases calls with
    | nil => exact Or.inl rfl
    | cons c calls => exact Or.inr (h.1.symm.trans (irqDisabled_run c s))
  · rintro (rfl | h)
    · exact trivial
    · rw [h]
      exact maskKept_false s calls

/-- The driver after its first `openspi`, from inside a critical section. -/
def Shared.openedMasked : Shared :=
  { Shared.boot .off with
    irqDisabled := true
    opened := true
    spi := ((Shared.boot .off).spi.openspi .plain true true).2 }

/-- A read of four bytes, all of whose calls succeed. -/
theorem mask_lost :
    ¬ ∀ (board : Board) (s : Shared) (calls : List TransferCall),
      MaskKept board s.irqDisabled s calls := by
  intro h
  have hkept := h .plain .openedMasked
    [.readfromspi [0] 4 ⟨⟨true, []⟩, ⟨true, []⟩, ⟨true, []⟩, ⟨true, []⟩⟩]
  exact absurd hkept (by decide)

end RedNodeBus.Ranging

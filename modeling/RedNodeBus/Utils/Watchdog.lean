import Mathlib.Data.List.DropRight
import RedNodeBus.Lib.Machine

/-!
# The watchdog

`rnb_wdt_process_thread` counts the cycles in which the bus was started and no RX signal
came, and leaves the hardware watchdog hungry from the fourth on.  The counter has eight
bits; that it never wraps is no merit of the loop, which would go on counting.  The
hardware ends the run first.

One pass through the loop is one step, so that a signal comes before or after it.

* `cyclesOf` reads the cycles off a run: whether the bus was started, whether the driver
  reported an RX signal since the cycle before, and whether the watchdog was fed.
* `Counted` says that the counter is the length of the silence the cycles end in, and
  that the time since the last feed is that length less three.
-/

namespace RedNodeBus.Utils.Watchdog

/-! ## The thread and the hardware -/

inductive UserRxtxSignal
  | rx
  | tx
  | other (v : UInt8)
  deriving DecidableEq, Repr

/-- The variables of the thread and of the signal handler, and the hardware watchdog. -/
structure Soc where
  rnbStarted : Bool
  rnbRxSignalReceived : Bool
  rxLed : Bool
  txLed : Bool
  cyclesNoRxSignal : UInt8
  /-- The cycles since the last feed. -/
  sinceFeed : ℕ
  inReset : Bool
  deriving DecidableEq, Repr

/-- `nrf5_wdt_start` has armed the watchdog: it counts from there. -/
def Soc.armed : Soc where
  rnbStarted := false
  rnbRxSignalReceived := false
  rxLed := false
  txLed := false
  cyclesNoRxSignal := 0
  sinceFeed := 0
  inReset := false

def handleRnbUserRxtxSignal (sig : UserRxtxSignal) (active : Bool) (s : Soc) : Soc :=
  match sig with
  | .rx => { s with rxLed := active, txLed := false, rnbRxSignalReceived := true }
  | .tx => { s with txLed := active, rxLed := false }
  | .other _ => s

def maxWdtCyclesNoRxSignal : UInt8 := 4

def countCycle (s : Soc) : Soc :=
  if s.rnbStarted && !s.rnbRxSignalReceived then
    { s with cyclesNoRxSignal := s.cyclesNoRxSignal + 1 }
  else
    { s with rnbRxSignalReceived := false, cyclesNoRxSignal := 0 }

/-- The loop calls `wdt_feed` in this cycle. -/
def feeds (s : Soc) : Bool := (countCycle s).cyclesNoRxSignal < maxWdtCyclesNoRxSignal

/-- The loop of `rnb_wdt_process_thread`, once. -/
def rnbWdtProcess (s : Soc) : Soc :=
  { countCycle s with sinceFeed := if feeds s then 0 else s.sinceFeed + 1 }

/-- The hardware resets the SoC no earlier than this many cycles after the last feed. -/
def resetFrom : ℕ := 4

/-- And no later than this many. -/
def resetBy : ℕ := 5

inductive Act
  /-- Another thread assigns `rnb_started`. -/
  | rnbStarted (b : Bool)
  | rxtxSignal (sig : UserRxtxSignal) (active : Bool)
  | cycle
  | reset
  deriving DecidableEq, Repr

/-- A reset falls between the last cycle and where the next one would be. -/
def step (s : Soc) (a : Act) : Option Soc :=
  if s.inReset then none
  else match a with
    | .rnbStarted b => some { s with rnbStarted := b }
    | .rxtxSignal sig active => some (handleRnbUserRxtxSignal sig active s)
    | .cycle => if s.sinceFeed + 1 ≤ resetBy then some (rnbWdtProcess s) else none
    | .reset => if resetFrom ≤ s.sinceFeed + 1 then some { s with inReset := true } else none

def machine : Machine Soc Act where
  init := .armed
  step := step

/-! ## The cycles of a run -/

inductive Mark
  | rxSignal
  | cycle (started fed : Bool)
  deriving DecidableEq, Repr

def mark (s : Soc) : Act → Option Mark
  | .rxtxSignal .rx _ => some .rxSignal
  | .cycle => some (.cycle s.rnbStarted (feeds s))
  | .rxtxSignal .tx _ | .rxtxSignal (.other _) _ | .rnbStarted _ | .reset => none

structure Cycle where
  started : Bool
  /-- An RX signal came since the cycle before. -/
  rxSeen : Bool
  fed : Bool
  deriving DecidableEq, Repr

def Cycle.silent (c : Cycle) : Bool := c.started && !c.rxSeen

/-- The cycles so far, and whether an RX signal came since the last one. -/
structure Log where
  cycles : List Cycle
  rxSeen : Bool

def Log.add (l : Log) : Mark → Log
  | .rxSignal => { l with rxSeen := true }
  | .cycle started fed => ⟨l.cycles ++ [⟨started, l.rxSeen, fed⟩], false⟩

def Log.of (h : List Mark) : Log := h.foldl Log.add ⟨[], false⟩

def cyclesOf (as : List Act) : List Cycle :=
  (Log.of (machine.observe mark machine.init as)).cycles

/-- The last `n` cycles were all started and silent. -/
def SilentFor (n : ℕ) (cs : List Cycle) : Prop :=
  ∃ last, last <:+ cs ∧ last.length = n ∧ ∀ c ∈ last, c.silent

def silence (cs : List Cycle) : ℕ := (cs.rtakeWhile Cycle.silent).length

theorem silence_concat (cs : List Cycle) (c : Cycle) :
    silence (cs ++ [c]) = if c.silent then silence cs + 1 else 0 := by
  rw [silence, List.rtakeWhile_concat]
  cases c.silent with
  | true => exact List.length_append
  | false => rfl

theorem silentFor_iff (n : ℕ) (cs : List Cycle) : SilentFor n cs ↔ n ≤ silence cs := by
  constructor
  · rintro ⟨last, ⟨before, rfl⟩, rfl, hlast⟩
    induction last using List.reverseRecOn with
    | nil => exact Nat.zero_le _
    | append_singleton last c ih =>
      have hc : c.silent = true := hlast c (by simp)
      have hle := ih fun d hd => hlast d (List.mem_append_left _ hd)
      rw [← List.append_assoc, silence_concat, if_pos hc, List.length_append]
      exact Nat.succ_le_succ hle
  · intro hn
    refine ⟨(cs.rtakeWhile Cycle.silent).drop (silence cs - n), ?_, ?_, ?_⟩
    · exact (List.drop_suffix _ _).trans (List.rtakeWhile_suffix _ _)
    · rw [List.length_drop, ← silence]
      omega
    · intro c hc
      exact List.mem_rtakeWhile_imp (List.mem_of_mem_drop hc)

/-! ## The counter and the hardware -/

/-- The counter is the silence, and the hardware has waited since its fourth cycle. -/
structure Counted (l : Log) (s : Soc) : Prop where
  rxSeen : s.rnbRxSignalReceived = l.rxSeen
  counter : s.cyclesNoRxSignal.toNat = silence l.cycles
  sinceFeed : s.sinceFeed = silence l.cycles - 3
  bound : s.sinceFeed ≤ resetBy
  reset : s.inReset = true → resetFrom ≤ s.sinceFeed + 1
  fed : ∀ before c, before ++ [c] <+: l.cycles → (c.fed = false ↔ 4 ≤ silence (before ++ [c]))

namespace Counted

variable {l : Log} {s : Soc}

theorem armed : Counted (Log.of []) .armed where
  rxSeen := rfl
  counter := rfl
  sinceFeed := rfl
  bound := Nat.zero_le _
  reset := by
    intro h
    cases h
  fed := by
    intro before c h
    have := h.length_le
    simp [Log.of] at this

/-- The silence after one more cycle, which the counter does not wrap to count. -/
theorem countCycle_counter (h : Counted l s) (fed : Bool) :
    (countCycle s).cyclesNoRxSignal.toNat =
      silence (l.cycles ++ [⟨s.rnbStarted, l.rxSeen, fed⟩]) := by
  have hc := h.counter
  have hs := h.sinceFeed
  have hb : s.sinceFeed ≤ 5 := h.bound
  rw [silence_concat, Cycle.silent, ← h.rxSeen, countCycle]
  cases s.rnbStarted && !s.rnbRxSignalReceived with
  | true =>
    have hadd : (s.cyclesNoRxSignal + 1).toNat = (s.cyclesNoRxSignal.toNat + 1) % 256 :=
      UInt8.toNat_add _ _
    rw [if_pos rfl, if_pos rfl]
    show (s.cyclesNoRxSignal + 1).toNat = _
    omega
  | false => rfl

theorem feeds_iff (h : Counted l s) (fed : Bool) :
    feeds s = true ↔ silence (l.cycles ++ [⟨s.rnbStarted, l.rxSeen, fed⟩]) < 4 := by
  rw [← h.countCycle_counter fed, feeds, decide_eq_true_iff, UInt8.lt_iff_toNat_lt]
  rfl

theorem cycle (h : Counted l s) (hlive : s.sinceFeed + 1 ≤ resetBy) (hr : s.inReset = false) :
    Counted (l.add (.cycle s.rnbStarted (feeds s))) (rnbWdtProcess s) := by
  have hcount := h.countCycle_counter (feeds s)
  have hfeeds := h.feeds_iff (feeds s)
  have hsil := silence_concat l.cycles ⟨s.rnbStarted, l.rxSeen, feeds s⟩
  have hsince := h.sinceFeed
  have hreset : (countCycle s).inReset = false := by
    rw [countCycle]
    split <;> exact hr
  have hflag : (countCycle s).rnbRxSignalReceived = false := by
    rw [countCycle]
    cases hrx : s.rnbRxSignalReceived with
    | true => simp
    | false => cases s.rnbStarted <;> simp
  have hsinceFeed : (rnbWdtProcess s).sinceFeed =
      silence (l.cycles ++ [⟨s.rnbStarted, l.rxSeen, feeds s⟩]) - 3 := by
    show (if feeds s then 0 else s.sinceFeed + 1) = _
    cases hf : feeds s with
    | true =>
      have hlt := hfeeds.mp hf
      rw [hf] at hlt
      rw [if_pos rfl]
      omega
    | false =>
      have hge : ¬ silence (l.cycles ++ [⟨s.rnbStarted, l.rxSeen, feeds s⟩]) < 4 := by
        intro hlt
        rw [hfeeds.mpr hlt] at hf
        cases hf
      rw [hf] at hge hsil
      rw [if_neg Bool.false_ne_true]
      split at hsil <;> omega
  refine ⟨hflag, hcount, hsinceFeed, ?_, ?_, ?_⟩
  · show (if feeds s then 0 else s.sinceFeed + 1) ≤ resetBy
    split
    · exact Nat.zero_le _
    · exact hlive
  · intro hin
    exact absurd (hreset.symm.trans hin) Bool.false_ne_true
  · intro before c hpre
    rcases List.prefix_concat_iff.mp hpre with heq | hpre
    · obtain ⟨rfl, hc⟩ := List.append_inj' heq rfl
      obtain rfl := List.singleton_injective hc
      rw [← Nat.not_lt, ← hfeeds, Bool.not_eq_true]
    · exact h.fed before c hpre

theorem step (h : Counted l s) {a : Act} {s' : Soc} (hs : Watchdog.step s a = some s') :
    Counted ((mark s a).elim l l.add) s' := by
  unfold Watchdog.step at hs
  obtain ⟨hlive, hs⟩ := Option.ite_none_left_eq_some.mp hs
  cases a with
  | rnbStarted b =>
    obtain rfl := Option.some.inj hs
    exact ⟨h.rxSeen, h.counter, h.sinceFeed, h.bound, h.reset, h.fed⟩
  | rxtxSignal sig active =>
    obtain rfl := Option.some.inj hs
    cases sig with
    | rx => exact ⟨rfl, h.counter, h.sinceFeed, h.bound, h.reset, h.fed⟩
    | tx => exact ⟨h.rxSeen, h.counter, h.sinceFeed, h.bound, h.reset, h.fed⟩
    | other v => exact h
  | cycle =>
    obtain ⟨hle, hs⟩ := Option.ite_none_right_eq_some.mp hs
    obtain rfl := Option.some.inj hs
    exact h.cycle hle (Bool.not_eq_true _ ▸ hlive)
  | reset =>
    obtain ⟨hle, hs⟩ := Option.ite_none_right_eq_some.mp hs
    obtain rfl := Option.some.inj hs
    exact ⟨h.rxSeen, h.counter, h.sinceFeed, h.bound, fun _ => hle, h.fed⟩

/-- And so does every run. -/
theorem run {as : List Act} {s : Soc} (hr : machine.run as = some s) :
    Counted (Log.of (machine.observe mark machine.init as)) s := by
  have hstep : ∀ (h : List Mark) (s : Soc) (a : Act) (s' : Soc), Counted (Log.of h) s → True →
      machine.step s a = some s' → Counted (Log.of (h ++ (mark s a).toList)) s' := by
    intro h s a s' hc _ hs
    have hadd := hc.step hs
    rw [Log.of, List.foldl_append]
    cases hm : mark s a with
    | none =>
      rw [hm] at hadd
      exact hadd
    | some m =>
      rw [hm] at hadd
      exact hadd
  exact Machine.history_invariant hstep armed (Machine.along_trivial (fun _ _ => trivial) _ _) hr

end Counted

/-- **The watchdog starves by silence, and by nothing else.**  It goes hungry in the fourth
silent cycle and in every one after it, the SoC is reset after six at the earliest, and the
counter is the number of them throughout. -/
theorem starved_by_silence (as : List Act) (s : Soc) (hr : machine.run as = some s) :
    (∀ before c, before ++ [c] <+: cyclesOf as →
      (c.fed = false ↔ SilentFor 4 (before ++ [c]))) ∧
    (s.inReset = true → SilentFor 6 (cyclesOf as)) ∧
    (s.cyclesNoRxSignal.toNat = silence (cyclesOf as) ∧ silence (cyclesOf as) ≤ 8) ∧
    ∀ before c d, before ++ [c, d] <+: cyclesOf as → c.fed = false → d.silent = true →
      d.fed = false := by
  have h := Counted.run hr
  have hsince := h.sinceFeed
  have hbound : s.sinceFeed ≤ 5 := h.bound
  refine ⟨?_, ?_, ⟨h.counter, ?_⟩, ?_⟩
  · intro before c hpre
    rw [silentFor_iff]
    exact h.fed before c hpre
  · intro hin
    have hreset : 4 ≤ s.sinceFeed + 1 := h.reset hin
    rw [silentFor_iff, cyclesOf]
    omega
  · rw [cyclesOf]
    omega
  · intro before c d hpre hc hd
    have hsplit : before ++ [c, d] = (before ++ [c]) ++ [d] := by
      rw [List.append_assoc, List.singleton_append]
    rw [hsplit] at hpre
    have hlong := (h.fed before c ((List.prefix_append _ _).trans hpre)).mp hc
    refine (h.fed (before ++ [c]) d hpre).mpr ?_
    rw [silence_concat, if_pos hd]
    exact Nat.le_succ_of_le hlong

/-- The bus is started, and nothing is ever received. -/
def silentRun : List Act := .rnbStarted true :: List.replicate 6 .cycle ++ [.reset]

/-- Six silent cycles may be enough for a reset. -/
theorem starved_by_silence_silentRun :
    ∃ s, machine.run silentRun = some s ∧ s.inReset = true ∧ SilentFor 6 (cyclesOf silentRun) :=
  ⟨_, rfl, rfl, (starved_by_silence silentRun _ rfl).2.1 rfl⟩

end RedNodeBus.Utils.Watchdog

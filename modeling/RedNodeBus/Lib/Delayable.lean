import RedNodeBus.Lib.WorkQueue
import Mathlib.Logic.Function.Basic

/-!
# Delayable work

Items of one work queue that are submitted by a timeout.  An item may have its timeout
running, be pending in the queue and have its handler running, each independently of
the others; it is `Live` while any of the three holds.

Cancelling stops the timeout and takes the item off the queue, but does not wait for a
handler that runs: until that ends the item is `canceling`, and a timeout that expires
meanwhile is lost.

An item may be set up anew while it is idle.  What is left where it was live is not
promised by the kernel, and is a parameter (`Reinit`).
-/

universe u

structure Delayables (ω : Type u) where
  /-- The timeout of the item runs. -/
  scheduled : ω → Bool
  /-- The queue, the next item first. -/
  pending : List ω
  /-- The item whose handler runs. -/
  running : Option ω
  canceling : ω → Bool

namespace Delayables

open WorkQueue

/-- What a kernel leaves where a live item is set up anew; `none` if nothing goes on. -/
abbrev Reinit (ω : Type u) := ω → Delayables ω → Option (Delayables ω)

variable {ω : Type u}

def idle : Delayables ω := ⟨fun _ => false, [], none, fun _ => false⟩

/-- The item is scheduled, queued or running. -/
def Live (d : Delayables ω) (w : ω) : Prop :=
  d.scheduled w = true ∨ w ∈ d.pending ∨ d.running = some w

def take (d : Delayables ω) : Option (Delayables ω) :=
  match d.running, d.pending with
  | none, w :: rest => some { d with running := some w, pending := rest }
  | _, _ => none

/-- An item is being cancelled only while its handler runs. -/
def Sound (d : Delayables ω) : Prop := ∀ w, d.canceling w = true → d.running = some w

variable {d d' : Delayables ω} {v w : ω}

theorem sound_idle : (idle : Delayables ω).Sound := nofun

theorem not_live_idle (w : ω) : ¬ (idle : Delayables ω).Live w := by simp [Live, idle]

theorem live_take (h : d.take = some d') : d'.Live w ↔ d.Live w := by
  simp only [take] at h
  split at h
  · rename_i v rest hrun hpend
    obtain rfl := Option.some.inj h
    simp only [Live, hrun, hpend, List.mem_cons, Option.some.injEq, reduceCtorEq, or_false]
    grind
  · cases h

theorem sound_take (hd : d.Sound) (h : d.take = some d') : d'.Sound := by
  simp only [take] at h
  split at h
  · rename_i v rest hrun hpend
    obtain rfl := Option.some.inj h
    intro w hw
    have := hd w hw
    rw [hrun] at this
    cases this
  · cases h

variable [DecidableEq ω]

instance (d : Delayables ω) (w : ω) : Decidable (d.Live w) :=
  inferInstanceAs (Decidable (_ ∨ _ ∨ _))

/-- The memory of an item set up anew: of an idle one, nothing is left. -/
def init (K : Reinit ω) (w : ω) (d : Delayables ω) : Option (Delayables ω) :=
  if d.Live w then K w d else some { d with canceling := Function.update d.canceling w false }

def reschedule (w : ω) (d : Delayables ω) : Delayables ω :=
  { d with scheduled := Function.update d.scheduled w true }

def cancel (w : ω) (d : Delayables ω) : Delayables ω :=
  { d with
    scheduled := Function.update d.scheduled w false
    pending := d.pending.filter fun v => v ≠ w
    canceling := Function.update d.canceling w (d.running = some w) }

def expire (w : ω) (d : Delayables ω) : Option (Delayables ω) :=
  if d.scheduled w then
    some { d with
      scheduled := Function.update d.scheduled w false
      pending := if d.canceling w then d.pending else submit w d.pending }
  else none

def finish (d : Delayables ω) : Delayables ω :=
  match d.running with
  | some w => { d with running := none, canceling := Function.update d.canceling w false }
  | none => d

/-! ### What is live after an operation -/

theorem scheduled_reschedule : (d.reschedule w).scheduled w = true := by simp [reschedule]

theorem live_reschedule : (d.reschedule v).Live w ↔ w = v ∨ d.Live w := by
  by_cases h : w = v <;> simp [Live, reschedule, h]

/-- Cancelling leaves an item live only if its handler runs. -/
theorem live_cancel : (d.cancel v).Live w ↔ d.Live w ∧ (w = v → d.running = some w) := by
  by_cases h : w = v
  · subst h
    simpa [Live, cancel] using fun hrun : d.running = some w => Or.inr (Or.inr hrun)
  · simp [Live, cancel, h]

/-- Setting an idle item up makes nothing live. -/
theorem live_init {K : Reinit ω} (hv : ¬ d.Live v) (h : d.init K v = some d') :
    d'.Live w ↔ d.Live w := by
  rw [init, if_neg hv] at h
  obtain rfl := Option.some.inj h
  rfl

/-- A timeout moves an item to the queue, or, while it is being cancelled, leaves it to
its handler. -/
theorem live_expire (hd : d.Sound) (h : d.expire v = some d') : d'.Live w ↔ d.Live w := by
  simp only [expire] at h
  split at h
  · rename_i hv
    obtain rfl := Option.some.inj h
    by_cases hw : w = v
    · subst hw
      by_cases hc : d.canceling w = true
      · have hrun := hd w hc
        simp [Live, hrun]
      · simp [Live, hc, hv]
    · by_cases hc : d.canceling v = true <;> simp [Live, hc, hw]
  · cases h

theorem live_finish : d.finish.Live w ↔ d.scheduled w = true ∨ w ∈ d.pending := by
  simp only [finish]
  split
  · simp [Live]
  · rename_i hrun
    simp [Live, hrun]

theorem sound_reschedule (hd : d.Sound) : (d.reschedule v).Sound := hd

theorem sound_cancel (hd : d.Sound) : (d.cancel v).Sound := by
  intro w hw
  by_cases h : w = v
  · subst h
    simpa [cancel] using hw
  · have hw' : d.canceling w = true := by simpa [cancel, h] using hw
    exact hd w hw'

theorem sound_init {K : Reinit ω} (hd : d.Sound) (hv : ¬ d.Live v) (h : d.init K v = some d') :
    d'.Sound := by
  rw [init, if_neg hv] at h
  obtain rfl := Option.some.inj h
  intro w hw
  by_cases he : w = v
  · subst he
    simp at hw
  · have hw' : d.canceling w = true := by simpa [he] using hw
    exact hd w hw'

theorem sound_expire (hd : d.Sound) (h : d.expire v = some d') : d'.Sound := by
  simp only [expire] at h
  split at h
  · obtain rfl := Option.some.inj h
    exact hd
  · cases h

theorem sound_finish (hd : d.Sound) : d.finish.Sound := by
  simp only [finish]
  split
  · rename_i v hrun
    intro w hw
    by_cases h : w = v
    · subst h
      simp at hw
    · have hw' : d.canceling w = true := by simpa [h] using hw
      have := hd w hw'
      rw [hrun] at this
      exact absurd (Option.some.inj this).symm h
  · exact hd

end Delayables

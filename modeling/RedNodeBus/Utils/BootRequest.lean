import RedNodeBus.Utils.Commands

/-!
# The start request at boot

The first `STOPPED` event configures the node and asks for it to be started with
`rnb_utils_start`, which does nothing until `main` has set `rnb_initialized`.  It is
asked only once, since `rnb_configured` is set just before.  `init_rnb` registers the
event handler before it sets `rnb_initialized`, so a utils thread that runs in between
loses the request for good.

`BootInv` says that the node asks exactly once: not before it is configured, and not
again afterwards.  So a configured node with an idle thread has been asked to start if
and only if the one request came when `rnb_initialized` was set (`init_submitted_iff`).
-/

namespace RedNodeBus.Utils

namespace Node

variable {α : Type} {img : Image α} {n n' : Node α}

/-- The request of the utils thread: was `rnb_initialized` set? -/
def bootRequest (n : Node α) : Act → Option Bool
  | .utils _ => if n.At .callStart then some n.rnbInitialized else none
  | _ => none

/-- Nobody but the utils thread gives commands. -/
def Unprompted : Act → Prop
  | .start | .stop => False
  | _ => True

instance : (a : Act) → Decidable (Unprompted a)
  | .start | .stop => isFalse id
  | .report _ | .utils _ | .take | .work _ | .initialized => isTrue trivial

/-- The utils thread calls `rnb_utils_start` with `rnb_initialized` set. -/
def RequestHeard (n : Node α) : Act → Prop
  | .utils _ => n.At .callStart → n.rnbInitialized = true
  | _ => True

instance (n : Node α) : (a : Act) → Decidable (n.RequestHeard a)
  | .utils _ => inferInstanceAs (Decidable (_ → _ = true))
  | .report _ | .take | .work _ | .initialized | .start | .stop => isTrue trivial

/-- The thread is configuring the node. -/
def Configuring (n : Node α) : Prop :=
  n.At .initConfig ∨ n.At .updateConfig ∨ n.At .setConfigured

/-- The requests so far: none before the node is configured, and then one, made by
the event that configured it. -/
structure BootInv (requests : List Bool) (n : Node α) : Prop where
  configuring : n.Configuring → n.rnbConfigured = false
  asking : n.At .callStart → n.rnbConfigured = true ∧ requests = []
  before : n.rnbConfigured = false → requests = []
  after : n.rnbConfigured = true → ¬ n.At .callStart → ∃ b, requests = [b]

theorem BootInv.congr {requests : List Bool} (hI : BootInv requests n)
    (hc : n'.rnbConfigured = n.rnbConfigured) (ht : n'.thread = n.thread) :
    BootInv requests n' := by
  obtain ⟨h₁, h₂, h₃, h₄⟩ := hI
  constructor <;> simp only [Configuring, At, hc, ht] at * <;> assumption

/-- A statement that is not the request and does not set `rnb_configured`. -/
theorem BootInv.quiet {requests : List Bool} (hI : BootInv requests n)
    (hn : ¬ n.At .callStart) (hc : n'.rnbConfigured = n.rnbConfigured)
    (hn' : ¬ n'.At .callStart) (hconf : n'.Configuring → n.rnbConfigured = false) :
    BootInv requests n' :=
  ⟨fun h => hc ▸ hconf h, fun h => absurd h hn', fun h => hI.before (hc ▸ h),
    fun h _ => hI.after (hc ▸ h) hn⟩

theorem branch_initConfig {c : Bool} {evt : UserEvent} {st : EventParamsState}
    (h : branch c evt st = some .initConfig) : c = false := by
  obtain ⟨bus, role⟩ := st
  cases c with
  | false => rfl
  | true => cases evt <;> cases bus <;> simp [branch] at h

theorem bootRequest_of_not_at {ret : Int} (hn : ¬ n.At .callStart) :
    n.bootRequest (.utils ret) = none := if_neg hn

theorem BootInv.other {requests : List Bool} {a : Act} (hI : BootInv requests n)
    (ha : n.bootRequest a = none) (hc : n'.rnbConfigured = n.rnbConfigured)
    (ht : n'.thread = n.thread) : BootInv (requests ++ (n.bootRequest a).toList) n' := by
  rw [ha, Option.toList_none, List.append_nil]
  exact hI.congr hc ht

theorem bootInv_event {requests : List Bool} {ret : Int} {slot : Fin 4} {line : Line}
    (hI : BootInv requests n) (ht : n.thread = .process slot line) :
    BootInv (requests ++ (n.bootRequest (.utils ret)).toList)
      (n.processRnbUtilsEvent img ret slot line) := by
  have hat : n.At line := ⟨slot, ht⟩
  by_cases hline : line = .callStart
  · subst hline
    obtain ⟨hc, rfl⟩ := hI.asking hat
    have hc' : (n.processRnbUtilsEvent img ret slot .callStart).rnbConfigured = true := by
      rw [processRnbUtilsEvent, rnbUtilsStart_eq]
      exact hc
    refine ⟨?_, fun h => absurd h (At.ne ⟨slot, rfl⟩ (by decide)), ?_, ?_⟩
    · rintro (h | h | h) <;> exact absurd h (At.ne ⟨slot, rfl⟩ (by decide))
    · intro h
      rw [hc'] at h
      cases h
    · intro _ _
      exact ⟨n.rnbInitialized, by simp [bootRequest, hat]⟩
  · have hn : ¬ n.At .callStart := hat.ne hline
    rw [bootRequest_of_not_at hn, Option.toList_none, List.append_nil]
    cases line with
    | callStart => exact absurd rfl hline
    | setConfigured =>
      have hc := hI.configuring (Or.inr (Or.inr hat))
      refine ⟨?_, fun _ => ⟨rfl, hI.before hc⟩, ?_, fun _ h => absurd ⟨slot, rfl⟩ h⟩
      · rintro (h | h | h) <;> exact absurd h (At.ne ⟨slot, rfl⟩ (by decide))
      · intro h
        cases h
    | switchEvt =>
      rw [processRnbUtilsEvent]
      split
      · rename_i l hl
        have hl' := branch_cases hl
        refine hI.quiet hn rfl (At.ne ⟨slot, rfl⟩ (by grind)) ?_
        rintro (⟨slot', h⟩ | ⟨slot', h⟩ | ⟨slot', h⟩) <;>
          obtain ⟨-, rfl⟩ := UtilsThread.process.inj h
        · exact branch_initConfig hl
        · simp at hl'
        · simp at hl'
      · exact hI.quiet hn rfl (by simp [At]) (by simp [Configuring, At])
    | initConfig =>
      have hc := hI.configuring (Or.inl hat)
      rw [processRnbUtilsEvent]
      split
      · exact hI.quiet hn rfl (by simp [At]) fun _ => hc
      · exact hI.quiet hn rfl (by simp [At]) fun _ => hc
    | updateConfig =>
      have hc := hI.configuring (Or.inr (Or.inl hat))
      rw [processRnbUtilsEvent]
      split
      · exact hI.quiet hn rfl (by simp [At]) fun _ => hc
      · exact hI.quiet hn rfl (by simp [At]) fun _ => hc
    | setConnected | submitStart | submitStop | clearConnected | handleNewState | userPayload
    | handleUserPayload =>
      exact hI.quiet hn rfl (by simp [At, processRnbUtilsEvent])
        (by simp [Configuring, At, processRnbUtilsEvent])

theorem bootInv_step {requests : List Bool} {a : Act} (hI : BootInv requests n)
    (h : step img n a = some n') : BootInv (requests ++ (n.bootRequest a).toList) n' := by
  cases a with
  | utils ret =>
    rcases utils_cases h with ⟨slot, rest, ht, -, rfl⟩ | ⟨slot, line, ht, rfl⟩ | ⟨slot, ht, rfl⟩
    · have hn : ¬ n.At .callStart := by simp [At, ht]
      rw [bootRequest_of_not_at hn, Option.toList_none, List.append_nil]
      exact hI.quiet hn rfl (by simp [At]) (by simp [Configuring, At])
    · exact bootInv_event hI ht
    · have hn : ¬ n.At .callStart := by simp [At, ht]
      rw [bootRequest_of_not_at hn, Option.toList_none, List.append_nil]
      exact hI.quiet hn rfl (by simp [At]) (by simp [Configuring, At])
  | report r =>
    obtain rfl := Option.some.inj h
    exact hI.other rfl rfl rfl
  | take =>
    obtain ⟨w, rest, -, -, rfl⟩ := take_cases h
    exact hI.other rfl rfl rfl
  | work ret =>
    obtain ⟨pc, -, rfl⟩ := work_cases h
    exact hI.other rfl rfl rfl
  | initialized =>
    obtain ⟨-, rfl⟩ := initialized_cases h
    exact hI.other rfl rfl rfl
  | start =>
    obtain rfl := Option.some.inj h
    rw [rnbUtilsStart_eq]
    exact hI.other rfl rfl rfl
  | stop =>
    obtain rfl := Option.some.inj h
    rw [rnbUtilsStop_eq]
    exact hI.other rfl rfl rfl

/-- **A configured node with an idle thread has made exactly one request.** -/
theorem exists_bootRequest (img : Image α) (app : α) {as : List Act} {n : Node α}
    (hr : (machine img app).run as = some n) (hc : n.rnbConfigured = true)
    (ht : n.thread = .fifoGet) :
    ∃ b, (machine img app).observe bootRequest (boot app) as = [b] := by
  have hboot : BootInv [] (boot app) := by
    constructor <;> simp [Configuring, At, boot]
  have hI := Machine.history_invariant (f := bootRequest) (P := fun _ _ => True) (I := BootInv)
    (fun _ _ _ _ hI _ hs => bootInv_step hI hs) hboot
    (Machine.along_trivial (fun _ _ => trivial) _ _) hr
  exact hI.after hc (by simp [At, ht])

/-- With nobody else giving commands, a command is a request that was heard. -/
theorem command_eq_bind (n : Node α) {a : Act} (ha : Unprompted a) :
    n.command a = (n.bootRequest a).bind fun heard => if heard then some true else none := by
  cases a with
  | utils ret =>
    by_cases hat : n.At .callStart <;> by_cases hi : n.rnbInitialized = true <;>
      simp [command, bootRequest, hat, hi]
  | report r | take | work ret | initialized => rfl
  | start | stop => exact ha.elim

theorem requestHeard_iff (n : Node α) (a : Act) :
    n.RequestHeard a ↔ ∀ heard, n.bootRequest a = some heard → heard = true := by
  cases a with
  | utils ret => by_cases hat : n.At .callStart <;> simp [RequestHeard, bootRequest, hat]
  | report r | take | work ret | initialized | start | stop =>
    refine iff_of_true trivial ?_
    intro heard hb
    cases hb

/-- **The boot start request is kept exactly if it came when `rnb_initialized` was
set**: on a configured node with an idle utils thread, `ot_init_work` has been in the
work queue if and only if the thread called `rnb_utils_start` with the flag set. -/
theorem init_submitted_iff (img : Image α) (app : α) {as : List Act} {n : Node α}
    (hr : (machine img app).run as = some n)
    (hu : (machine img app).Along (fun _ a => Unprompted a) (boot app) as)
    (hc : n.rnbConfigured = true) (ht : n.thread = .fifoGet) :
    (machine img app).Sometime (fun n => .otInitWork ∈ n.pending) (boot app) as ↔
      (machine img app).Along (fun n a => n.RequestHeard a) (boot app) as := by
  obtain ⟨b, hb⟩ := exists_bootRequest img app hr hc ht
  have hcommand : (machine img app).observe command (boot app) as
      = [b].filterMap fun heard => if heard then some true else none := by
    rw [Machine.observe_congr (fun n _ ha => command_eq_bind n ha) hu, Machine.observe_bind, hb]
  have hheard : (machine img app).Along (fun n a => n.RequestHeard a) (boot app) as ↔
      ∀ heard ∈ [b], heard = true := by
    rw [← hb]
    exact Machine.along_iff_observe requestHeard_iff hr
  have hsubmitted : (machine img app).Sometime (fun n => .otInitWork ∈ n.pending) (boot app) as ↔
      true ∈ (machine img app).observe command (boot app) as :=
    Machine.sometime_iff_observe (o := true) (fun _ _ _ _ hs hcmd => pending_of_command hcmd hs)
      (fun _ _ _ _ hs hp => command_of_pending hs hp) List.not_mem_nil hu hr
  rw [hsubmitted, hcommand, hheard]
  cases b <;> simp

/-- The event that configures the node is processed after `main` is done. -/
def configureRun : List Act := [.initialized, .report (.newState 0 0)] ++ Act.utilsTimes 8

theorem init_submitted_iff_configureRun :
    (machine .plain .undefined).Sometime (fun n => .otInitWork ∈ n.pending) (boot .undefined)
      configureRun := by
  obtain ⟨n, hr, hn⟩ := (Option.any_eq_true (fun n : Node UserRole =>
    decide (n.rnbConfigured = true ∧ n.thread = .fifoGet))
    ((machine .plain .undefined).run configureRun)).mp (by decide +kernel)
  obtain ⟨hc, ht⟩ := of_decide_eq_true hn
  exact (init_submitted_iff .plain .undefined hr (by decide) hc ht).mpr (by decide +kernel)

/-- The utils thread preempts `main` between the registration of the event handler
and the write of `rnb_initialized`. -/
def preemptedRun : List Act := [.report (.newState 0 0)] ++ Act.utilsTimes 8 ++ [.initialized]

theorem request_lost :
    ¬ ∀ (as : List Act) (n : Node UserRole), (machine .plain .undefined).run as = some n →
      (machine .plain .undefined).Along (fun _ a => Unprompted a) (boot .undefined) as →
      n.rnbConfigured = true → n.thread = .fifoGet →
      (machine .plain .undefined).Sometime (fun n => .otInitWork ∈ n.pending) (boot .undefined)
        as := by
  intro h
  obtain ⟨n, hr, hn⟩ := (Option.any_eq_true (fun n : Node UserRole =>
    decide (n.rnbConfigured = true ∧ n.thread = .fifoGet))
    ((machine .plain .undefined).run preemptedRun)).mp (by decide +kernel)
  obtain ⟨hc, ht⟩ := of_decide_eq_true hn
  exact absurd (h preemptedRun n hr (by decide) hc ht) (by decide +kernel)

end Node

end RedNodeBus.Utils

import RedNodeBus.Utils.Node

/-!
# The radio and its configuration

The first `STOPPED` event makes two configuration calls and only then calls
`rnb_utils_start`; an error of either call returns before.  The button and the API call
`rnb_utils_start` as well, and there the only test is `rnb_initialized`: a press between
the end of `init_rnb` and that event starts the radio unconfigured.

`ButtonNode` is the node with the handler of the buttons, whose test of `rnb_started`
and whose call are two steps.  `RadioInv` says that what has been asked of
`ot_init_work`, and what it has done, was asked by a configured node; it is kept by
every step that is not such a call (`radioInv_step`), and `started_configured` reads off
it what holds of the flags and of the calls made.
-/

namespace RedNodeBus.Utils

open WorkQueue

/-! ## The button -/

/-- Where `on_button_changed` stands: before its test, or before one of the calls. -/
inductive ButtonAt
  | test
  | callStop
  | callStart
  deriving DecidableEq, Repr

/-- `on_button_changed` up to its call. -/
def onButtonChanged (dkBtn1Msk buttonState hasChanged : UInt32) (rnbStarted : Bool) : ButtonAt :=
  let buttons := buttonState &&& hasChanged
  if buttons &&& dkBtn1Msk ≠ 0 then
    if rnbStarted then .callStop else .callStart
  else .test

structure ButtonNode (α : Type) where
  node : Node α
  button : ButtonAt

namespace ButtonNode

variable {α : Type}

/-- A step of the node, a change of the buttons, or the call of the handler. -/
inductive Act
  | node (a : Node.Act)
  | buttonChanged (buttonState hasChanged : UInt32)
  | buttonCall

def step (img : Image α) (dkBtn1Msk : UInt32) (s : ButtonNode α) : Act → Option (ButtonNode α)
  | .node a => (Node.step img s.node a).map fun n => { s with node := n }
  | .buttonChanged buttonState hasChanged =>
    if s.button = .test then
      some { s with
        button := onButtonChanged dkBtn1Msk buttonState hasChanged s.node.ot.rnbStarted }
    else none
  | .buttonCall =>
    match s.button with
    | .test => none
    | .callStop => some ⟨s.node.rnbUtilsStop, .test⟩
    | .callStart => some ⟨s.node.rnbUtilsStart, .test⟩

/-- The node from the registration of the event handler on, with its buttons. -/
def machine (img : Image α) (dkBtn1Msk : UInt32) (app : α) : Machine (ButtonNode α) Act where
  init := ⟨.boot app, .test⟩
  step := step img dkBtn1Msk

end ButtonNode

/-! ## The calls -/

/-- The calls that configure the radio and the one that starts it, with what they
return. -/
inductive RadioCall
  | initRnbUserConfig (ret : Int)
  | updateRnbUserRuntimeConfig (ret : Int)
  | otIp6SetEnabled (error : Int)
  deriving DecidableEq, Repr

/-- Both configuration calls have succeeded. -/
def ConfiguredBy (calls : List RadioCall) : Prop :=
  .initRnbUserConfig 0 ∈ calls ∧ .updateRnbUserRuntimeConfig 0 ∈ calls

/-- `otIp6SetEnabled` is only called once both configuration calls have succeeded. -/
def ConfiguredFirst (calls : List RadioCall) : Prop :=
  ∀ before error after, calls = before ++ .otIp6SetEnabled error :: after → ConfiguredBy before

theorem ConfiguredBy.append {calls : List RadioCall} (h : ConfiguredBy calls)
    (l : List RadioCall) : ConfiguredBy (calls ++ l) :=
  ⟨List.mem_append_left _ h.1, List.mem_append_left _ h.2⟩

namespace Node

variable {α : Type} {img : Image α} {n n' : Node α}

def radioCall (n : Node α) : Act → Option RadioCall
  | .utils ret =>
    match n.thread with
    | .process _ .initConfig => some (.initRnbUserConfig ret)
    | .process _ .updateConfig => some (.updateRnbUserRuntimeConfig ret)
    | _ => none
  | .work ret => if n.running = some .initIp6 then some (.otIp6SetEnabled ret) else none
  | _ => none

/-! ## The invariant -/

/-- The radio is started, or on its way. -/
def RadioWanted (n : Node α) : Prop :=
  .otInitWork ∈ n.pending ∨ n.current = some .otInitWork ∨ n.ot.rnbStarted = true

/-- What the configuration branch has done where it stands. -/
def LineInv (calls : List RadioCall) (n : Node α) : Prop :=
  match n.thread with
  | .process _ .updateConfig => .initRnbUserConfig 0 ∈ calls
  | .process _ .setConfigured => ConfiguredBy calls
  | .process _ .callStart => n.rnbConfigured = true
  | _ => True

structure RadioInv (calls : List RadioCall) (n : Node α) : Prop where
  line : n.LineInv calls
  configured : n.rnbConfigured = true → ConfiguredBy calls
  wanted : n.RadioWanted → n.rnbConfigured = true

theorem radioInv_boot (app : α) : RadioInv [] (boot app) where
  line := trivial
  configured := by simp [boot]
  wanted := by simp [RadioWanted, boot, current, OtState.stopped]

theorem RadioInv.move {calls : List RadioCall} (hI : RadioInv calls n)
    (hline : n'.LineInv calls) (hc : n'.rnbConfigured = n.rnbConfigured)
    (hw : n'.RadioWanted → n.RadioWanted ∨ n.rnbConfigured = true) : RadioInv calls n' where
  line := hline
  configured := by
    rw [hc]
    exact hI.configured
  wanted := by
    intro h
    rw [hc]
    exact (hw h).elim hI.wanted id

theorem RadioInv.append {calls : List RadioCall} (hI : RadioInv calls n) (l : List RadioCall) :
    RadioInv (calls ++ l) n where
  line := by
    have hline := hI.line
    rw [LineInv] at hline ⊢
    split at hline
    · exact List.mem_append_left _ hline
    · exact hline.append _
    · exact hline
    · exact hline
  configured := fun hc => (hI.configured hc).append _
  wanted := hI.wanted

theorem RadioInv.quiet {calls : List RadioCall} (hI : RadioInv calls n)
    (ht : n'.thread = n.thread) (hc : n'.rnbConfigured = n.rnbConfigured)
    (hw : n'.RadioWanted → n.RadioWanted ∨ n.rnbConfigured = true) : RadioInv calls n' := by
  refine hI.move ?_ hc hw
  have hline := hI.line
  rwa [LineInv, ht, hc, ← LineInv]

/-- `rnb_utils_start` on a configured node, or on one whose `init_rnb` is not done. -/
theorem RadioInv.start {calls : List RadioCall} (hI : RadioInv calls n)
    (hn : n.rnbInitialized = true → n.rnbConfigured = true) : RadioInv calls n.rnbUtilsStart := by
  rw [rnbUtilsStart]
  split
  · exact hI.quiet rfl rfl fun _ => Or.inr (hn ‹_›)
  · exact hI

theorem RadioInv.stop {calls : List RadioCall} (hI : RadioInv calls n) :
    RadioInv calls n.rnbUtilsStop := by
  rw [rnbUtilsStop]
  split
  · refine hI.quiet rfl rfl ?_
    rintro (h | h)
    · rw [kWorkSubmit_pending, mem_submit] at h
      exact Or.inl (Or.inl (h.resolve_left (by decide)))
    · exact Or.inl (Or.inr h)
  · exact hI

theorem RadioInv.take {calls : List RadioCall} (hI : RadioInv calls n)
    (h : step img n .take = some n') : RadioInv calls n' := by
  obtain ⟨w, rest, -, hp, rfl⟩ := take_cases h
  refine hI.quiet rfl rfl ?_
  rintro (hw | hw | hw)
  · refine Or.inl (Or.inl ?_)
    rw [hp]
    exact List.mem_cons_of_mem _ hw
  · rw [current_take] at hw
    obtain rfl := Option.some.inj hw
    refine Or.inl (Or.inl ?_)
    rw [hp]
    exact List.mem_cons_self
  · exact Or.inl (Or.inr (Or.inr hw))

theorem rnbStarted_work {ret : Int} (h : step img n (.work ret) = some n')
    (hs : n'.ot.rnbStarted = true) : n.ot.rnbStarted = true ∨ n.current = some .otInitWork := by
  obtain ⟨pc, hpc, rfl⟩ := work_cases h
  cases pc with
  | initTest | initIp6 | initIp6Ret error =>
    right
    rw [current, hpc]
    rfl
  | deinitTest | startTest | stopTest | stopClear => exact Or.inl hs
  | deinitThread | deinitIp6 | startCall | stopThread =>
    exact Or.inl (by simpa only [handlerStep, OtState.otThreadSetEnabled_rnbStarted,
      OtState.otIp6SetEnabled_rnbStarted, OtState.openthreadStart_rnbStarted] using hs)
  | deinitThreadRet error | deinitIp6Ret error | startRet error =>
    left
    simp only [handlerStep] at hs
    split at hs
    · first | exact hs | cases hs
    · exact hs

theorem RadioInv.work {calls : List RadioCall} {ret : Int} (hI : RadioInv calls n)
    (h : step img n (.work ret) = some n') :
    RadioInv (calls ++ (n.radioCall (.work ret)).toList) n' := by
  have hq : RadioInv calls n' := by
    have hcur := current_work h
    have hstarted := rnbStarted_work h
    obtain ⟨pc, hpc, rfl⟩ := work_cases h
    refine hI.quiet rfl rfl ?_
    rintro (hw | hw | hw)
    · exact Or.inl (Or.inl hw)
    · rw [hw] at hcur
      exact Or.inl (Or.inr (Or.inl (hcur.resolve_left (Option.some_ne_none _)).symm))
    · exact Or.inl (Or.inr ((hstarted hw).symm))
  exact hq.append _

/-- `otIp6SetEnabled` is called on a configured node. -/
theorem RadioInv.configured_of_call {calls : List RadioCall} {a : Act} {error : Int}
    (hI : RadioInv calls n) (h : n.radioCall a = some (.otIp6SetEnabled error)) :
    ConfiguredBy calls := by
  cases a with
  | work ret =>
    rw [radioCall] at h
    split at h
    · rename_i hrun
      have hcur : n.current = some .otInitWork := by
        rw [current, hrun]
        rfl
      exact hI.configured (hI.wanted (Or.inr (Or.inl hcur)))
    · cases h
  | utils ret =>
    rw [radioCall] at h
    split at h <;> cases h
  | report r | take | initialized | start | stop => cases h

theorem radioWanted_submit {w : OtWork} (hw : w ≠ .otInitWork) {thread : UtilsThread}
    (h : RadioWanted { n.kWorkSubmit w with thread := thread }) : n.RadioWanted := by
  rcases h with h | h
  · have hm : OtWork.otInitWork ∈ submit w n.pending := h
    rw [mem_submit] at hm
    exact Or.inl (hm.resolve_left hw.symm)
  · exact Or.inr h

/-- A call of the configuration: an error ends the event, and the next statement may rely on
the call otherwise. -/
theorem RadioInv.called {calls : List RadioCall} {call : RadioCall} {ret : Int} {slot : Fin 4}
    {next : Line} (hI : RadioInv calls n)
    (hnext : ret = 0 → LineInv (calls ++ [call]) { n with thread := .process slot next }) :
    RadioInv (calls ++ [call])
      (if ret ≠ 0 then { n with thread := .clearInUse slot }
        else { n with thread := .process slot next }) := by
  by_cases hret : ret ≠ 0
  · rw [if_pos hret]
    exact (hI.append _).move trivial rfl Or.inl
  · rw [if_neg hret]
    exact (hI.append _).move (hnext (not_not.mp hret)) rfl Or.inl

theorem RadioInv.event {calls : List RadioCall} {ret : Int} {slot : Fin 4} {line : Line}
    (hI : RadioInv calls n) (ht : n.thread = .process slot line) :
    RadioInv (calls ++ (n.radioCall (.utils ret)).toList)
      (n.processRnbUtilsEvent img ret slot line) := by
  have hline := hI.line
  rw [LineInv, ht] at hline
  rw [radioCall, ht]
  cases line with
  | switchEvt =>
    refine .append ?_ _
    rw [processRnbUtilsEvent]
    split
    · rename_i l hl
      refine hI.move ?_ rfl Or.inl
      rcases branch_cases hl with rfl | rfl | rfl | rfl | rfl <;> exact trivial
    · exact hI.move trivial rfl Or.inl
  | initConfig =>
    apply hI.called
    intro hret
    have hinit : RadioCall.initRnbUserConfig 0 ∈ calls ++ [.initRnbUserConfig ret] := by
      simp [hret]
    exact hinit
  | updateConfig =>
    apply hI.called
    intro hret
    have hboth : ConfiguredBy (calls ++ [.updateRnbUserRuntimeConfig ret]) :=
      ⟨List.mem_append_left _ hline, by simp [hret]⟩
    exact hboth
  | setConfigured =>
    refine .append ?_ _
    exact ⟨rfl, fun _ => hline, fun _ => rfl⟩
  | callStart =>
    refine .append ?_ _
    have hs : RadioInv calls n.rnbUtilsStart := hI.start fun _ => hline
    exact hs.move trivial rfl Or.inl
  | submitStart | submitStop =>
    refine .append ?_ _
    exact hI.move trivial rfl fun h => Or.inl (radioWanted_submit (by decide) h)
  | setConnected | clearConnected | handleNewState | userPayload | handleUserPayload =>
    refine .append ?_ _
    exact hI.move trivial rfl Or.inl

theorem RadioInv.utils {calls : List RadioCall} {ret : Int} (hI : RadioInv calls n)
    (h : step img n (.utils ret) = some n') :
    RadioInv (calls ++ (n.radioCall (.utils ret)).toList) n' := by
  rcases utils_cases h with ⟨slot, rest, ht, -, rfl⟩ | ⟨slot, line, ht, rfl⟩ | ⟨slot, ht, rfl⟩
  · refine .append ?_ _
    exact hI.move trivial rfl Or.inl
  · exact hI.event ht
  · refine .append ?_ _
    exact hI.move trivial rfl Or.inl

/-- `init_rnb` is done and the configuration is not. -/
def Unconfigured (n : Node α) : Prop := n.rnbInitialized = true ∧ n.rnbConfigured = false

instance (n : Node α) : Decidable n.Unconfigured := inferInstanceAs (Decidable (_ ∧ _))

theorem RadioInv.start_of_not_unconfigured {calls : List RadioCall} (hI : RadioInv calls n)
    (hn : ¬ n.Unconfigured) : RadioInv calls n.rnbUtilsStart := by
  refine hI.start ?_
  intro hi
  by_contra hc
  exact hn ⟨hi, by simpa using hc⟩

theorem radioInv_step {calls : List RadioCall} {a : Act} (hI : RadioInv calls n)
    (ha : a = .start → ¬ n.Unconfigured) (h : step img n a = some n') :
    RadioInv (calls ++ (n.radioCall a).toList) n' := by
  cases a with
  | utils ret => exact hI.utils h
  | work ret => exact hI.work h
  | report r =>
    obtain rfl := Option.some.inj h
    refine .append ?_ _
    exact hI.quiet rfl rfl Or.inl
  | take => exact (hI.take h).append _
  | initialized =>
    obtain ⟨-, rfl⟩ := initialized_cases h
    refine .append ?_ _
    exact hI.quiet rfl rfl Or.inl
  | start =>
    obtain rfl := Option.some.inj h
    exact (hI.start_of_not_unconfigured (ha rfl)).append _
  | stop =>
    obtain rfl := Option.some.inj h
    exact hI.stop.append _

end Node

namespace ButtonNode

variable {α : Type} {img : Image α} {dkBtn1Msk : UInt32} {s s' : ButtonNode α}

def radioCall (s : ButtonNode α) : Act → Option RadioCall
  | .node a => s.node.radioCall a
  | .buttonChanged .. | .buttonCall => none

/-- The button or the API calls `rnb_utils_start` after `init_rnb` and before the
configuration. -/
def StartsUnconfigured (s : ButtonNode α) : Act → Prop
  | .node .start => s.node.Unconfigured
  | .buttonCall => s.button = .callStart ∧ s.node.Unconfigured
  | _ => False

instance (s : ButtonNode α) : (a : Act) → Decidable (s.StartsUnconfigured a)
  | .node .start => inferInstanceAs (Decidable (Node.Unconfigured _))
  | .buttonCall => inferInstanceAs (Decidable (_ ∧ _))
  | .node (.report _) | .node (.utils _) | .node .take | .node (.work _) | .node .initialized
  | .node .stop | .buttonChanged .. => isFalse id

theorem configured_of_call {calls : List RadioCall} {a : Act} {error : Int}
    (hI : s.node.RadioInv calls) (h : s.radioCall a = some (.otIp6SetEnabled error)) :
    ConfiguredBy calls := by
  cases a with
  | node a => exact hI.configured_of_call h
  | buttonChanged buttonState hasChanged | buttonCall => cases h

theorem step_cases {a : Act} (h : step img dkBtn1Msk s a = some s') :
    (∃ b, a = .node b ∧ Node.step img s.node b = some s'.node) ∨
    (∃ buttonState hasChanged, a = .buttonChanged buttonState hasChanged ∧ s'.node = s.node) ∨
    (a = .buttonCall ∧ s.button = .callStop ∧ s'.node = s.node.rnbUtilsStop) ∨
    (a = .buttonCall ∧ s.button = .callStart ∧ s'.node = s.node.rnbUtilsStart) := by
  cases a with
  | node b =>
    obtain ⟨n, hn, rfl⟩ := Option.map_eq_some_iff.mp h
    exact Or.inl ⟨b, rfl, hn⟩
  | buttonChanged buttonState hasChanged =>
    simp only [step] at h
    split at h
    · obtain rfl := Option.some.inj h
      exact Or.inr (Or.inl ⟨buttonState, hasChanged, rfl, rfl⟩)
    · cases h
  | buttonCall =>
    simp only [step] at h
    split at h
    · cases h
    · obtain rfl := Option.some.inj h
      exact Or.inr (Or.inr (Or.inl ⟨rfl, ‹_›, rfl⟩))
    · obtain rfl := Option.some.inj h
      exact Or.inr (Or.inr (Or.inr ⟨rfl, ‹_›, rfl⟩))

theorem radioInv_step {calls : List RadioCall} {a : Act} (hI : s.node.RadioInv calls)
    (ha : ¬ s.StartsUnconfigured a) (h : step img dkBtn1Msk s a = some s') :
    s'.node.RadioInv (calls ++ (s.radioCall a).toList) := by
  rcases step_cases h with ⟨b, rfl, hb⟩ | ⟨_, _, rfl, hn⟩ | ⟨rfl, -, hn⟩ | ⟨rfl, hstart, hn⟩
  · refine Node.radioInv_step hI ?_ hb
    rintro rfl
    exact ha
  · rw [hn]
    exact hI.append _
  · rw [hn]
    exact hI.stop.append _
  · rw [hn]
    exact (hI.start_of_not_unconfigured fun hu => ha ⟨hstart, hu⟩).append _

/-- **A started radio is configured**, and `otIp6SetEnabled(true)` comes after both
configuration calls have succeeded, in a run in which neither the button nor the API
calls `rnb_utils_start` before the configuration. -/
theorem started_configured (img : Image α) (dkBtn1Msk : UInt32) (app : α) {as : List Act}
    {s : ButtonNode α} (hr : (machine img dkBtn1Msk app).run as = some s)
    (hok : (machine img dkBtn1Msk app).Along (fun s a => ¬ s.StartsUnconfigured a)
      ⟨.boot app, .test⟩ as) :
    (s.node.ot.rnbStarted = true → s.node.rnbConfigured = true) ∧
      ConfiguredFirst
        ((machine img dkBtn1Msk app).observe radioCall ⟨.boot app, .test⟩ as) := by
  have hstep : ∀ calls (s : ButtonNode α) a s', s.node.RadioInv calls →
      ¬ s.StartsUnconfigured a → (machine img dkBtn1Msk app).step s a = some s' →
      s'.node.RadioInv (calls ++ (s.radioCall a).toList) :=
    fun _ _ _ _ hI ha hs => radioInv_step hI ha hs
  constructor
  · intro hs
    have hI := Machine.history_invariant
      (I := fun calls (s : ButtonNode α) => s.node.RadioInv calls)
      hstep (Node.radioInv_boot app) hok hr
    exact hI.wanted (Or.inr (Or.inr hs))
  · intro before error after he
    have heach := Machine.history_each
      (Q := fun calls c => ∀ error, c = .otIp6SetEnabled error → ConfiguredBy calls) hstep
      (fun _ _ _ _ hI _ _ c hc _ hcall => configured_of_call hI (hc.trans (congrArg some hcall)))
      (Node.radioInv_boot app) hok hr
    exact heach before _ after he error rfl

def initHandlerActs : List Act := [.node .take, .node (.work 0), .node (.work 0), .node (.work 0)]

/-- The node is configured and started, then the button stops it. -/
def configuredRun : List Act :=
  [.node .initialized, .node (.report (.newState 0 1))] ++
    (Node.Act.utilsTimes 8).map .node ++ initHandlerActs ++ [.buttonChanged 1 1, .buttonCall]

theorem started_configured_configuredRun :
    ∃ s, (machine .plain 1 .undefined).run configuredRun = some s ∧
      s.node.ot.rnbStarted = true ∧ s.node.rnbConfigured = true ∧
      ConfiguredFirst ((machine .plain 1 .undefined).observe radioCall
        ⟨.boot .undefined, .test⟩ configuredRun) := by
  obtain ⟨s, hr, hs⟩ := (Option.any_eq_true (fun s : ButtonNode UserRole =>
    s.node.ot.rnbStarted) ((machine .plain 1 .undefined).run configuredRun)).mp (by decide +kernel)
  obtain ⟨hconf, hfirst⟩ := started_configured .plain 1 .undefined hr (by decide)
  exact ⟨s, hr, hs, hconf hs, hfirst⟩

/-- The button is pressed right after `init_rnb`. -/
def pressedRun : List Act :=
  [.node .initialized, .buttonChanged 1 1, .buttonCall] ++ initHandlerActs

theorem started_unconfigured :
    ¬ ∀ (as : List Act) (s : ButtonNode UserRole), (machine .plain 1 .undefined).run as = some s →
      s.node.ot.rnbStarted = true → s.node.rnbConfigured = true := by
  intro h
  obtain ⟨s, hr, hs⟩ := (Option.any_eq_true (fun s : ButtonNode UserRole =>
    decide (s.node.ot.rnbStarted = true ∧ s.node.rnbConfigured = false))
    ((machine .plain 1 .undefined).run pressedRun)).mp (by decide +kernel)
  obtain ⟨hstarted, hconf⟩ := of_decide_eq_true hs
  rw [h pressedRun s hr hstarted] at hconf
  cases hconf

end ButtonNode

end RedNodeBus.Utils

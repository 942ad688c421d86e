import RedNodeBus.Utils.Settling
import RedNodeBus.Utils.UserPayload

/-!
# One thing at a time

The defects of `rnb_utils.c` that other modules find are races: two events, or a command and
an event, that overtake each other between the utils thread and the work queue.  This module
says that there are no others.  Where each event, command and the end of `init_rnb` comes when
the node is at rest, the threads may still take turns as they like over it, and yet what they
leave is what the source says when it is read from top to bottom (`paced_sequential`):
`sequential` is `process_rnb_utils_event` with nothing in between, and then the handler of the
item it has submitted.

`due` is what the utils thread will leave, and the item it has still to submit, at any point of
an event.  Its statements do not change `due`, but for the one that submits (`due_utils`), and
the handlers go on to what `finish` says they leave (`finish_step`).  `Phase` puts the two
together: the only variable that both touch is `rnb_connected`, which `ot_start_work_handler`
reads when the event that has submitted it has already set it.
-/

namespace RedNodeBus.Utils

open WorkQueue

/-! ## The source, read from top to bottom -/

/-- What the calls return. -/
structure Returns where
  initRnbUserConfig : Int
  updateRnbUserRuntimeConfig : Int
  otIp6SetEnabled : Int
  otThreadSetEnabled : Int
  openthreadStart : Int

def Returns.ok : Returns := ⟨0, 0, 0, 0, 0⟩

def Returns.ofHandler (r : Returns) : HandlerAt → Int
  | .initIp6 | .deinitIp6 => r.otIp6SetEnabled
  | .deinitThread | .stopThread => r.otThreadSetEnabled
  | .startCall => r.openthreadStart
  | .initTest | .initIp6Ret _ | .deinitTest | .deinitThreadRet _ | .deinitIp6Ret _ | .startTest
  | .startRet _ | .stopTest | .stopClear => 0

def workHandler (r : Returns) (rnbConnected : Bool) : OtWork → OtState → OtState
  | .otInitWork => otInitWorkHandler r.otIp6SetEnabled
  | .otDeinitWork => otDeinitWorkHandler r.otThreadSetEnabled r.otIp6SetEnabled
  | .otStartWork => otStartWorkHandler rnbConnected r.openthreadStart
  | .otStopWork => otStopWorkHandler r.otThreadSetEnabled

/-- The variables. -/
structure View (α : Type) where
  rnbInitialized : Bool
  rnbConfigured : Bool
  rnbConnected : Bool
  ot : OtState
  sntpSem : Bool
  app : α
  deriving DecidableEq, Repr

namespace View

variable {α : Type}

/-- The item `rnb_utils_start` submits. -/
def rnbUtilsStart (v : View α) : Option OtWork :=
  if v.rnbInitialized then some .otInitWork else none

def rnbUtilsStop (v : View α) : Option OtWork :=
  if v.rnbInitialized then some .otDeinitWork else none

/-- `process_rnb_utils_event`, and the item it submits. -/
def processRnbUtilsEvent (img : Image α) (r : Returns) (evt : UserEvent) (params : List UInt8)
    (v : View α) : View α × Option OtWork :=
  let state := img.state params
  let handled := { v with app := img.rnbUtilsHandleNewState state v.app }
  match evt with
  | .newState =>
    match state.state with
    | .stopped =>
      if !v.rnbConfigured then
        if r.initRnbUserConfig ≠ 0 then (v, none)
        else if r.updateRnbUserRuntimeConfig ≠ 0 then (v, none)
        else ({ handled with rnbConfigured := true }, v.rnbUtilsStart)
      else (handled, none)
    | .connected => ({ handled with rnbConnected := true }, some .otStartWork)
    | .unsynchronized => ({ handled with rnbConnected := false }, some .otStopWork)
    | .synchronized | .other _ => (handled, none)
  | .userPayload =>
    let length := params.headD 0
    let payload := params.tail
    ({ v with
      sntpSem := v.sntpSem || Node.isSntpUpdateTrigger length payload
      app := img.rnbUtilsHandleUserPayload length payload v.app }, none)
  | .other _ => (v, none)

/-- The handler of the item that was submitted, if one was. -/
def serve (r : Returns) : View α × Option OtWork → View α
  | (v, some w) => { v with ot := workHandler r v.rnbConnected w v.ot }
  | (v, none) => v

theorem serve_of_some {r : Returns} {g : View α × Option OtWork} {w : OtWork}
    (h : g.2 = some w) : (serve r g).ot = workHandler r g.1.rnbConnected w g.1.ot := by
  obtain ⟨v, o⟩ := g
  obtain rfl : o = some w := h
  rfl

theorem serve_eq (r : Returns) (g : View α × Option OtWork) :
    serve r g = { g.1 with ot := (serve r g).ot } := by
  obtain ⟨v, o⟩ := g
  cases o <;> rfl

end View

/-- What comes to the node from outside. -/
inductive Stimulus
  | report (r : Report)
  | initialized
  | start
  | stop

def Stimulus.act : Stimulus → Node.Act
  | .report r => .report r
  | .initialized => .initialized
  | .start => .start
  | .stop => .stop

def Stimulus.submits {α : Type} (img : Image α) (r : Returns) (v : View α) :
    Stimulus → View α × Option OtWork
  | .report rep => v.processRnbUtilsEvent img r rep.evt rep.memory
  | .initialized => ({ v with rnbInitialized := true }, none)
  | .start => (v, v.rnbUtilsStart)
  | .stop => (v, v.rnbUtilsStop)

def Stimulus.sequential {α : Type} (img : Image α) (r : Returns) (v : View α) (σ : Stimulus) :
    View α :=
  View.serve r (σ.submits img r v)

/-! ## The handlers -/

/-- What is left of a handler, in at most so many statements. -/
def finishIn (r : Returns) (rnbConnected : Bool) : ℕ → HandlerAt → OtState → OtState
  | 0, _, s => s
  | k + 1, pc, s =>
    match handlerStep rnbConnected (r.ofHandler pc) pc s with
    | (some pc', s') => finishIn r rnbConnected k pc' s'
    | (none, s') => s'

def finish (r : Returns) (rnbConnected : Bool) (pc : HandlerAt) (s : OtState) : OtState :=
  finishIn r rnbConnected pc.workLeft pc s

theorem finish_entry (r : Returns) (rnbConnected : Bool) (w : OtWork) (s : OtState) :
    finish r rnbConnected w.entry s = workHandler r rnbConnected w s := by
  cases w with
  | otInitWork =>
    cases h : s.rnbStarted <;>
      simp [finish, finishIn, OtWork.entry, HandlerAt.workLeft, handlerStep, Returns.ofHandler,
        workHandler, otInitWorkHandler, h]
  | otDeinitWork =>
    cases h : s.rnbStarted <;>
      simp [finish, finishIn, OtWork.entry, HandlerAt.workLeft, handlerStep, Returns.ofHandler,
        workHandler, otDeinitWorkHandler, h]
  | otStartWork =>
    cases h : s.otStarted <;> cases rnbConnected <;>
      simp [finish, finishIn, OtWork.entry, HandlerAt.workLeft, handlerStep, Returns.ofHandler,
        workHandler, otStartWorkHandler, h]
  | otStopWork =>
    cases h : s.otStarted <;>
      simp [finish, finishIn, OtWork.entry, HandlerAt.workLeft, handlerStep, Returns.ofHandler,
        workHandler, otStopWorkHandler, h]

theorem finish_step (r : Returns) (rnbConnected : Bool) (pc : HandlerAt) (s : OtState) :
    finish r rnbConnected pc s =
      match handlerStep rnbConnected (r.ofHandler pc) pc s with
      | (some pc', s') => finish r rnbConnected pc' s'
      | (none, s') => s' := by
  cases pc with
  | initTest =>
    cases h : s.rnbStarted <;> simp [finish, finishIn, HandlerAt.workLeft, handlerStep, h]
  | deinitTest =>
    cases h : s.rnbStarted <;> simp [finish, finishIn, HandlerAt.workLeft, handlerStep, h]
  | startTest =>
    cases h : s.otStarted <;> cases rnbConnected <;>
      simp [finish, finishIn, HandlerAt.workLeft, handlerStep, h]
  | stopTest =>
    cases h : s.otStarted <;> simp [finish, finishIn, HandlerAt.workLeft, handlerStep, h]
  | initIp6 | deinitThread | deinitIp6 | startCall | stopThread => rfl
  | initIp6Ret _ | deinitThreadRet _ | deinitIp6Ret _ | startRet _ | stopClear => rfl

/-- Only the test of `ot_start_work_handler` reads `rnb_connected`. -/
theorem handlerStep_connected {pc : HandlerAt} (h : pc ≠ .startTest) (c c' : Bool) (ret : Int)
    (s : OtState) : handlerStep c ret pc s = handlerStep c' ret pc s := by
  cases pc with
  | startTest => exact absurd rfl h
  | _ => rfl

namespace Node

variable {α : Type} {img : Image α} {r : Returns} {n n' : Node α}

def view (n : Node α) : View α :=
  ⟨n.rnbInitialized, n.rnbConfigured, n.rnbConnected, n.ot, n.sntpSem, n.app⟩

/-- A call returns what it is said to. -/
def Gives (r : Returns) (n : Node α) : Act → Prop
  | .utils ret =>
    (n.At .initConfig → ret = r.initRnbUserConfig) ∧
      (n.At .updateConfig → ret = r.updateRnbUserRuntimeConfig)
  | .work ret =>
    (n.running = some .initIp6 ∨ n.running = some .deinitIp6 → ret = r.otIp6SetEnabled) ∧
      (n.running = some .deinitThread ∨ n.running = some .stopThread →
        ret = r.otThreadSetEnabled) ∧
      (n.running = some .startCall → ret = r.openthreadStart)
  | .report _ | .take | .initialized | .start | .stop => True

instance (r : Returns) (n : Node α) (a : Act) : Decidable (n.Gives r a) :=
  match a with
  | .utils _ | .work _ => inferInstanceAs (Decidable (_ ∧ _))
  | .report _ | .take | .initialized | .start | .stop => isTrue trivial

/-! ## The utils thread -/

/-- What is left of an event from a statement on, and the item it has still to submit. -/
def rest (img : Image α) (r : Returns) (event : RnbUtilsEvent) (v : View α) (line : Line) :
    View α × Option OtWork :=
  let state := img.state event.rnbUserEventParams
  let handled := { v with app := img.rnbUtilsHandleNewState state v.app }
  let paid := { v with
    app := img.rnbUtilsHandleUserPayload event.eventParamsLength event.userPayload v.app }
  match line with
  | .switchEvt => v.processRnbUtilsEvent img r event.rnbUserEvent event.rnbUserEventParams
  | .initConfig =>
    if r.initRnbUserConfig ≠ 0 then (v, none)
    else if r.updateRnbUserRuntimeConfig ≠ 0 then (v, none)
    else ({ handled with rnbConfigured := true }, v.rnbUtilsStart)
  | .updateConfig =>
    if r.updateRnbUserRuntimeConfig ≠ 0 then (v, none)
    else ({ handled with rnbConfigured := true }, v.rnbUtilsStart)
  | .setConfigured => ({ handled with rnbConfigured := true }, v.rnbUtilsStart)
  | .callStart => (handled, v.rnbUtilsStart)
  | .setConnected => ({ handled with rnbConnected := true }, some .otStartWork)
  | .submitStart => (handled, some .otStartWork)
  | .submitStop => ({ handled with rnbConnected := false }, some .otStopWork)
  | .clearConnected => ({ handled with rnbConnected := false }, none)
  | .handleNewState => (handled, none)
  | .userPayload =>
    ({ paid with
      sntpSem := v.sntpSem || isSntpUpdateTrigger event.eventParamsLength event.userPayload },
      none)
  | .handleUserPayload => (paid, none)

/-- What the utils thread will leave, and the item it has still to submit. -/
def due (img : Image α) (r : Returns) (n : Node α) : View α × Option OtWork :=
  match n.thread, n.pool.fifo with
  | .fifoGet, slot :: _ => rest img r (n.pool.slots slot) n.view .switchEvt
  | .process slot line, _ => rest img r (n.pool.slots slot) n.view line
  | .fifoGet, [] | .clearInUse _, _ => (n.view, none)

theorem due_process {slot : Fin 4} {line : Line} (h : n.thread = .process slot line) :
    due img r n = rest img r (n.pool.slots slot) n.view line := by
  rw [due, h]

theorem due_clearInUse {slot : Fin 4} (h : n.thread = .clearInUse slot) :
    due img r n = (n.view, none) := by
  rw [due, h]

theorem due_idle (h : n.thread = .fifoGet) (hf : n.pool.fifo = []) :
    due img r n = (n.view, none) := by
  rw [due, h, hf]

theorem rest_switchEvt (event : RnbUtilsEvent) (v : View α) :
    rest img r event v .switchEvt =
      match branch v.rnbConfigured event.rnbUserEvent (img.state event.rnbUserEventParams) with
      | some line => rest img r event v line
      | none => (v, none) := by
  unfold rest View.processRnbUtilsEvent
  cases hevt : event.rnbUserEvent with
  | newState =>
    cases hst : (img.state event.rnbUserEventParams).state with
    | stopped => cases hc : v.rnbConfigured <;> simp [branch, hst]
    | connected | unsynchronized | synchronized | other _ => simp [branch, hst]
  | userPayload => simp [branch, RnbUtilsEvent.eventParamsLength, RnbUtilsEvent.userPayload]
  | other id => simp [branch]

/-- **The utils thread leaves what is due**, and submits the item when it comes to it. -/
theorem due_utils {ret : Int} (h : step img n (.utils ret) = some n')
    (hr : n.Gives r (.utils ret)) (hshort : n.held.length ≤ 1) :
    due img r n' = due img r n ∧ n'.pending = n.pending ∨
      ∃ w, due img r n = ((due img r n').1, some w) ∧ (due img r n').2 = none ∧
        n'.pending = submit w n.pending := by
  rcases utils_cases h with ⟨slot, fifo, ht, hf, rfl⟩ | ⟨slot, line, ht, rfl⟩ | ⟨slot, ht, rfl⟩
  · refine Or.inl ⟨?_, rfl⟩
    rw [due, due, ht, hf]
    rfl
  · have hdue : due img r n = rest img r (n.pool.slots slot) n.view line := due_process ht
    rw [hdue]
    cases line with
    | switchEvt =>
      refine Or.inl ?_
      rw [rest_switchEvt, processRnbUtilsEvent]
      cases hb : branch n.rnbConfigured (n.pool.slots slot).rnbUserEvent
          (img.state (n.pool.slots slot).rnbUserEventParams) with
      | some line => exact ⟨by rw [view, hb]; rfl, rfl⟩
      | none => exact ⟨by rw [view, hb]; rfl, rfl⟩
    | initConfig =>
      refine Or.inl ?_
      rw [processRnbUtilsEvent, hr.1 ⟨slot, ht⟩]
      by_cases hret : r.initRnbUserConfig ≠ 0
      · rw [if_pos hret, rest, if_pos hret]
        exact ⟨rfl, rfl⟩
      · rw [if_neg hret, rest, if_neg hret]
        exact ⟨rfl, rfl⟩
    | updateConfig =>
      refine Or.inl ?_
      rw [processRnbUtilsEvent, hr.2 ⟨slot, ht⟩]
      by_cases hret : r.updateRnbUserRuntimeConfig ≠ 0
      · rw [if_pos hret, rest, if_pos hret]
        exact ⟨rfl, rfl⟩
      · rw [if_neg hret, rest, if_neg hret]
        exact ⟨rfl, rfl⟩
    | callStart =>
      rw [processRnbUtilsEvent, rnbUtilsStart]
      cases hi : n.rnbInitialized with
      | true =>
        refine Or.inr ⟨.otInitWork, ?_, rfl, rfl⟩
        simp [rest, due, view, View.rnbUtilsStart, kWorkSubmit, hi]
      | false =>
        refine Or.inl ⟨?_, rfl⟩
        simp [rest, due, view, View.rnbUtilsStart, hi]
    | submitStart => exact Or.inr ⟨.otStartWork, rfl, rfl, rfl⟩
    | submitStop => exact Or.inr ⟨.otStopWork, rfl, rfl, rfl⟩
    | setConfigured | setConnected | clearConnected | handleNewState | userPayload
    | handleUserPayload => exact Or.inl ⟨rfl, rfl⟩
  · refine Or.inl ⟨?_, rfl⟩
    have hfifo : n.pool.fifo = [] := by
      rw [held, SlotPool.held, ht] at hshort
      exact List.eq_nil_of_length_eq_zero (Nat.le_zero.mp (Nat.le_of_succ_le_succ hshort))
    rw [due_clearInUse ht]
    exact due_idle rfl hfifo

theorem rnbConnected_utils {ret : Int} (h : step img n (.utils ret) = some n') :
    n'.rnbConnected = n.rnbConnected ∨ n.At .setConnected ∨ n.At .clearConnected := by
  cases utils_move h with
  | quiet hc | callStart _ hc | submitStart _ hc | submitStop _ hc => exact Or.inl hc
  | setConnected hat => exact Or.inr (Or.inl hat)
  | clearConnected hat => exact Or.inr (Or.inr hat)

theorem at_clearConnected {ret : Int} (h : step img n (.utils ret) = some n')
    (hat : n'.At .clearConnected) : n.At .submitStop := by
  cases utils_move h with
  | submitStop hstop => exact hstop
  | quiet _ _ _ _ hafter => exact absurd hat hafter.2
  | callStart _ _ _ hnext | setConnected _ _ _ hnext | submitStart _ _ _ hnext
  | clearConnected _ _ _ hnext => exact absurd hat (hnext.ne (by decide))

theorem length_held_utils {ret : Int} (h : step img n (.utils ret) = some n') :
    n'.held.length ≤ n.held.length := by
  cases pool_move h with
  | fifoGet ret hb hf hp ht => simp [held, SlotPool.held, hb, hf, hp, ht, UtilsThread.hand]
  | process ret hb hp hh => rw [held, held, hp, hh, hb, UtilsThread.hand]
  | clearInUse ret hb hp ht =>
    simp [held, SlotPool.held, hb, hp, ht, UtilsThread.hand, SlotPool.release]
  | other _ _ _ _ hp ht => simp [held, hp, ht]

theorem rest_ot (event : RnbUtilsEvent) (v : View α) (line : Line) (ot : OtState) :
    rest img r event { v with ot := ot } line =
      ({ (rest img r event v line).1 with ot := ot }, (rest img r event v line).2) := by
  cases line with
  | switchEvt =>
    simp only [rest, View.processRnbUtilsEvent]
    cases event.rnbUserEvent with
    | newState =>
      cases (img.state event.rnbUserEventParams).state with
      | stopped =>
        dsimp only
        split_ifs <;> rfl
      | connected | unsynchronized | synchronized | other _ => rfl
    | userPayload | other _ => rfl
  | initConfig | updateConfig =>
    simp only [rest]
    split_ifs <;> rfl
  | setConfigured | callStart | setConnected | submitStart | submitStop | clearConnected
  | handleNewState | userPayload | handleUserPayload => rfl

theorem due_ot (img : Image α) (r : Returns) (n : Node α) (running : Option HandlerAt)
    (ot : OtState) :
    due img r { n with running := running, ot := ot } =
      ({ (due img r n).1 with ot := ot }, (due img r n).2) := by
  cases ht : n.thread with
  | fifoGet =>
    cases hf : n.pool.fifo with
    | nil => simp only [due, ht, hf, view]
    | cons slot fifo =>
      simp only [due, ht, hf]
      exact rest_ot (n.pool.slots slot) n.view .switchEvt ot
  | process slot line =>
    simp only [due, ht]
    exact rest_ot (n.pool.slots slot) n.view line ot
  | clearInUse slot => simp only [due, ht, view]

theorem handlerStep_gives {ret : Int} {pc : HandlerAt} (hr : n.Gives r (.work ret))
    (hpc : n.running = some pc) (c : Bool) (s : OtState) :
    handlerStep c ret pc s = handlerStep c (r.ofHandler pc) pc s := by
  obtain ⟨hip6, hthread, hstart⟩ := hr
  cases pc with
  | initIp6 => rw [hip6 (Or.inl hpc)]; rfl
  | deinitIp6 => rw [hip6 (Or.inr hpc)]; rfl
  | deinitThread => rw [hthread (Or.inl hpc)]; rfl
  | stopThread => rw [hthread (Or.inr hpc)]; rfl
  | startCall => rw [hstart hpc]; rfl
  | initTest | initIp6Ret _ | deinitTest | deinitThreadRet _ | deinitIp6Ret _ | startTest
  | startRet _ | stopTest | stopClear => rfl

/-! ## From rest to rest -/

/-- Where the item of `g` is: to come, pending, running, or done with. -/
inductive Queue (r : Returns) (g : View α × Option OtWork) (n : Node α) :
    Option OtWork → Prop
  | coming (pending : n.pending = []) (running : n.running = none) (ot : n.ot = g.1.ot) :
      Queue r g n g.2
  | waiting (w : OtWork) (item : g.2 = some w) (pending : n.pending = [w])
      (running : n.running = none) (ot : n.ot = g.1.ot) : Queue r g n none
  | running (pc : HandlerAt) (item : g.2 = some pc.work) (pending : n.pending = [])
      (running : n.running = some pc)
      (ot : finish r g.1.rnbConnected pc n.ot = (View.serve r g).ot) : Queue r g n none
  | done (pending : n.pending = []) (running : n.running = none)
      (ot : n.ot = (View.serve r g).ot) : Queue r g n none

/-- What comes of a stimulus is under way: `g` is what the event leaves, and its item. -/
structure Phase (img : Image α) (r : Returns) (g : View α × Option OtWork) (n : Node α) :
    Prop where
  short : n.held.length ≤ 1
  view : (due img r n).1 = { g.1 with ot := n.ot }
  clear : n.At .clearConnected → g.2 = some .otStopWork
  connected : (due img r n).2 = none → g.2 = some .otStartWork →
    n.rnbConnected = g.1.rnbConnected
  queue : Queue r g n (due img r n).2

variable {g : View α × Option OtWork}

/-- While the item is to come, it is that of `g`, and the work queue is idle. -/
theorem Queue.of_some {w : OtWork} {o : Option OtWork} (h : Queue r g n o) (ho : o = some w) :
    g.2 = some w ∧ n.pending = [] ∧ n.running = none ∧ n.ot = g.1.ot := by
  cases h with
  | coming hp hrun hot => exact ⟨ho, hp, hrun, hot⟩
  | waiting | running | done => cases ho

theorem Queue.congr {o : Option OtWork} (h : Queue r g n o) (hp : n'.pending = n.pending)
    (hrun : n'.running = n.running) (hot : n'.ot = n.ot) : Queue r g n' o := by
  cases h with
  | coming hp' hrun' hot' =>
    exact .coming (hp.trans hp') (hrun.trans hrun') (hot.trans hot')
  | waiting w hw hp' hrun' hot' =>
    exact .waiting w hw (hp.trans hp') (hrun.trans hrun') (hot.trans hot')
  | running pc hw hp' hrun' hot' =>
    exact .running pc hw (hp.trans hp') (hrun.trans hrun') (by rw [hot]; exact hot')
  | done hp' hrun' hot' => exact .done (hp.trans hp') (hrun.trans hrun') (hot.trans hot')

namespace Phase

/-- An item that is due is that of `g`. -/
theorem item {w : OtWork} (hP : Phase img r g n) (h : (due img r n).2 = some w) :
    g.2 = some w := (hP.queue.of_some h).1

theorem due_at (img : Image α) (r : Returns) {line : Line} (hat : n.At line) :
    ∃ event : RnbUtilsEvent, due img r n = rest img r event n.view line := by
  obtain ⟨slot, ht⟩ := hat
  exact ⟨n.pool.slots slot, due_process ht⟩

theorem utils {ret : Int} (hP : Phase img r g n) (hr : n.Gives r (.utils ret))
    (h : step img n (.utils ret) = some n') : Phase img r g n' := by
  obtain ⟨hot, hrunning, -⟩ := utils_frame h
  have hclear : n'.At .clearConnected → g.2 = some .otStopWork := by
    intro hat
    obtain ⟨event, hdue⟩ := due_at img r (at_clearConnected h hat)
    exact hP.item (by rw [hdue]; rfl)
  have hshort := (length_held_utils h).trans hP.short
  rcases due_utils h hr hP.short with ⟨hdue, hpending⟩ | ⟨w, hdue, hnone, hpending⟩
  · refine ⟨hshort, by rw [hdue, hot]; exact hP.view, hclear, ?_, ?_⟩
    · intro hnone hstart
      rw [hdue] at hnone
      rcases rnbConnected_utils h with hc | hat | hat
      · exact hc.trans (hP.connected hnone hstart)
      · obtain ⟨event, hat⟩ := due_at img r hat
        rw [hat] at hnone
        cases hnone
      · rw [hP.clear hat] at hstart
        cases hstart
    · rw [hdue]
      exact hP.queue.congr hpending hrunning hot
  · have hsome : (due img r n).2 = some w := by rw [hdue]
    obtain ⟨hitem, hempty, hidle, hbefore⟩ := hP.queue.of_some hsome
    have hview : (due img r n').1 = { g.1 with ot := n'.ot } := by
      rw [hot, ← hP.view, hdue]
    refine ⟨hshort, hview, hclear, ?_, ?_⟩
    · intro _ hstart
      obtain rfl : w = .otStartWork := Option.some.inj (hitem.symm.trans hstart)
      have hconn : g.1.rnbConnected = (due img r n').1.rnbConnected := by rw [hview]
      rw [hempty] at hpending
      -- of the statements that submit, only one submits this item
      cases utils_move h with
      | submitStart _ _ _ hnext =>
        obtain ⟨event, hnext⟩ := due_at img r hnext
        rw [hconn, hnext]
        rfl
      | callStart hat =>
        obtain ⟨event, hat⟩ := due_at img r hat
        rw [hat, rest, View.rnbUtilsStart] at hsome
        split at hsome <;> cases hsome
      | submitStop hat =>
        obtain ⟨event, hat⟩ := due_at img r hat
        rw [hat] at hsome
        cases hsome
      | quiet _ hp | setConnected _ _ hp | clearConnected _ _ hp =>
        rw [hp, hempty] at hpending
        cases hpending
    · rw [hnone]
      refine .waiting w hitem ?_ (hrunning.trans hidle) (hot.trans hbefore)
      rw [hpending, hempty]
      rfl

theorem take (hP : Phase img r g n) (h : step img n .take = some n') : Phase img r g n' := by
  obtain ⟨w, rest, hrunning, hpending, rfl⟩ := take_cases h
  refine ⟨hP.short, hP.view, hP.clear, hP.connected, ?_⟩
  have hqueue := hP.queue
  show Queue r g _ (due img r n).2
  generalize (due img r n).2 = o at hqueue
  cases hqueue with
  | coming hp | running _ _ hp | done hp =>
    rw [hpending] at hp
    cases hp
  | waiting w' hitem hp _ hot =>
    obtain ⟨rfl, rfl⟩ := List.cons.inj (hpending.symm.trans hp)
    refine .running w.entry ?_ rfl rfl ?_
    · rw [OtWork.entry_work]
      exact hitem
    · rw [finish_entry, View.serve_of_some hitem, ← hot]

theorem work {ret : Int} (hP : Phase img r g n) (hr : n.Gives r (.work ret))
    (h : step img n (.work ret) = some n') : Phase img r g n' := by
  obtain ⟨pc, hpc, rfl⟩ := work_cases h
  have hqueue := hP.queue
  have hconnected := hP.connected
  have hdue := due_ot img r n (handlerStep n.rnbConnected ret pc n.ot).1
    (handlerStep n.rnbConnected ret pc n.ot).2
  refine ⟨hP.short, ?_, hP.clear, ?_, ?_⟩
  · rw [hdue, hP.view]
  · rw [hdue]
    exact hP.connected
  · rw [hdue]
    show Queue r g _ (due img r n).2
    generalize (due img r n).2 = o at hqueue hconnected
    cases hqueue with
    | coming _ hrun | waiting _ _ _ hrun | done _ hrun =>
      rw [hpc] at hrun
      cases hrun
    | running pc' hitem hp hrun hfinish =>
      obtain rfl : pc = pc' := Option.some.inj (hpc.symm.trans hrun)
      have hstep : handlerStep n.rnbConnected ret pc n.ot =
          handlerStep g.1.rnbConnected (r.ofHandler pc) pc n.ot := by
        rw [handlerStep_gives hr hpc]
        by_cases htest : pc = .startTest
        · subst htest
          rw [hconnected rfl hitem]
        · exact handlerStep_connected htest _ _ _ _
      rw [finish_step] at hfinish
      simp only [hstep]
      cases hs : handlerStep g.1.rnbConnected (r.ofHandler pc) pc n.ot with
      | mk running ot =>
        rw [hs] at hfinish
        cases running with
        | none => exact .done hp rfl hfinish
        | some pc' =>
          have hwork := handlerStep_work (congrArg Prod.fst hs)
          exact .running pc' (hwork ▸ hitem) hp rfl hfinish

theorem step {a : Act} (hP : Phase img r g n) (ha : Own a) (hr : n.Gives r a)
    (h : Node.step img n a = some n') : Phase img r g n' := by
  cases a with
  | utils ret => exact hP.utils hr h
  | take => exact hP.take h
  | work ret => exact hP.work hr h
  | report _ | initialized | start | stop => exact absurd ha not_false

theorem atRest (hP : Phase img r g n) (hn : n.AtRest) : n.view = View.serve r g := by
  have hdue : due img r n = (n.view, none) := due_idle hn.thread hn.fifo
  have hview : n.view = { g.1 with ot := n.ot } := by
    rw [← hP.view, hdue]
  have hqueue := hP.queue
  rw [hdue] at hqueue
  have hot : n.ot = (View.serve r g).ot := by
    generalize ho : (none : Option OtWork) = o at hqueue
    cases hqueue with
    | coming _ _ hot =>
      obtain ⟨v, item⟩ := g
      obtain rfl : none = item := ho
      exact hot
    | waiting w _ hp =>
      rw [hn.pending] at hp
      cases hp
    | running pc _ _ hrun =>
      rw [hn.running] at hrun
      cases hrun
    | done _ _ hot => exact hot
  rw [hview, hot, View.serve_eq]

end Phase

end Node

/-! ## From outside -/

/-- The parameters of a report fit into a slot, and the driver's header and the application's
hook read nothing after them. -/
structure Image.Reads {α : Type} (img : Image α) (rep : Report) : Prop where
  fits : rep.Fits
  state : rep.evt = .newState → ∀ more, img.state (rep.memory ++ more) = img.state rep.memory
  payload : rep.evt = .userPayload → ∀ more app,
    img.rnbUtilsHandleUserPayload rep.eventParamsLength (rep.eventParams ++ more) app =
      img.rnbUtilsHandleUserPayload rep.eventParamsLength rep.eventParams app

def Stimulus.Proper {α : Type} (img : Image α) : Stimulus → Prop
  | .report rep => img.Reads rep
  | .initialized | .start | .stop => True

/-- What comes from outside, what the calls it leads to return, and the acts of the node. -/
structure Request where
  stimulus : Stimulus
  returns : Returns
  own : List Node.Act

def Request.acts (q : Request) : List Node.Act := q.stimulus.act :: q.own

namespace Node

variable {α : Type} {img : Image α} {r : Returns} {n n' : Node α}

theorem processRnbUtilsEvent_append {rep : Report} (h : img.Reads rep) (v : View α)
    (more : List UInt8) :
    v.processRnbUtilsEvent img r rep.evt (rep.memory ++ more) =
      v.processRnbUtilsEvent img r rep.evt rep.memory := by
  simp only [View.processRnbUtilsEvent]
  cases hevt : rep.evt with
  | newState => rw [h.state hevt]
  | userPayload =>
    have htrigger := isSntpUpdateTrigger_eq more rep.length_eq
    have hplain := isSntpUpdateTrigger_eq [] rep.length_eq
    rw [List.append_nil] at hplain
    simp only [Report.memory, List.cons_append, List.headD_cons, List.tail_cons, htrigger, hplain,
      h.payload hevt]
  | other id => rfl

theorem AtRest.firstFree (hn : n.AtRest) :
    ∃ slot, n.pool.firstFree RnbUtilsEvent.inUse = some slot := by
  refine Option.isSome_iff_exists.mp (List.find?_isSome.mpr ⟨0, List.mem_finRange 0, ?_⟩)
  rw [hn.free 0]
  rfl

/-- `process_rnb_utils_event` leaves the flags of the handlers alone. -/
theorem processRnbUtilsEvent_ot (img : Image α) (r : Returns) (evt : UserEvent)
    (params : List UInt8) (v : View α) : (v.processRnbUtilsEvent img r evt params).1 =
      { (v.processRnbUtilsEvent img r evt params).1 with ot := v.ot } :=
  congrArg Prod.fst (rest_ot ⟨0, evt, params, true⟩ v .switchEvt v.ot)

theorem phase_command {v : View α} {item : Option OtWork}
    (hthread : n'.thread = .fifoGet) (hfifo : n'.pool.fifo = []) (hview : n'.view = v)
    (hot : n'.ot = v.ot) (hrunning : n'.running = none) (hpending : n'.pending = item.toList) :
    Phase img r (v, item) n' := by
  have hdue : due img r n' = (v, none) := by rw [due_idle hthread hfifo, hview]
  refine ⟨?_, ?_, ?_, ?_, ?_⟩
  · rw [held, SlotPool.held, hthread, hfifo]
    exact Nat.zero_le _
  · rw [hdue, hot]
  · rintro ⟨slot, ht⟩
    rw [hthread] at ht
    cases ht
  · intro _ _
    exact congrArg View.rnbConnected hview
  · rw [hdue]
    cases item with
    | none => exact .done hpending hrunning hot
    | some w => exact .waiting w rfl hpending hrunning hot

theorem phase_of_atRest (hn : n.AtRest) {σ : Stimulus} (hσ : σ.Proper img)
    (h : step img n σ.act = some n') : Phase img r (σ.submits img r n.view) n' := by
  cases σ with
  | report rep =>
    obtain rfl := Option.some.inj h
    obtain ⟨slot, hslot⟩ := hn.firstFree
    have hput : handleRnbUserEvent rep n.pool =
        { n.pool.set slot ((n.pool.slots slot).fill rep) with fifo := [slot] } := by
      have hbusy : n.pool.firstFree eventOps.busy = some slot := hslot
      have hfree := @SlotPool.put_of_free _ _ _ _ eventOps n.pool slot rep hbusy
      rwa [hn.fifo, List.nil_append] at hfree
    have hfill : ((n.pool.slots slot).fill rep).rnbUserEventParams =
        rep.memory ++ (n.pool.slots slot).rnbUserEventParams.drop rep.memory.length := by
      rw [RnbUtilsEvent.fill, memcpy, Report.eventSize_toNat hσ.fits, List.take_length]
    have hdue : due img r { n with pool := handleRnbUserEvent rep n.pool } =
        n.view.processRnbUtilsEvent img r rep.evt rep.memory := by
      simp only [due, hn.thread, hput, rest, SlotPool.set, Function.update_self, hfill]
      exact processRnbUtilsEvent_append hσ n.view _
    refine ⟨?_, ?_, ?_, ?_, ?_⟩
    · simp [held, SlotPool.held, hn.thread, hput, UtilsThread.hand]
    · rw [hdue]
      exact processRnbUtilsEvent_ot img r rep.evt rep.memory n.view
    · rintro ⟨slot', ht⟩
      rw [hn.thread] at ht
      cases ht
    · intro hnone hstart
      rw [hdue] at hnone
      cases hnone.symm.trans hstart
    · rw [hdue]
      refine .coming hn.pending hn.running ?_
      exact (congrArg View.ot (processRnbUtilsEvent_ot img r rep.evt rep.memory n.view)).symm
  | initialized =>
    obtain ⟨-, rfl⟩ := initialized_cases h
    exact phase_command hn.thread hn.fifo rfl rfl hn.running hn.pending
  | start =>
    obtain rfl := Option.some.inj h
    rw [rnbUtilsStart_eq]
    refine phase_command hn.thread hn.fifo rfl rfl hn.running ?_
    rw [rnbUtilsStart, View.rnbUtilsStart]
    cases hi : n.rnbInitialized <;> simp [view, hi, hn.pending, kWorkSubmit, submit]
  | stop =>
    obtain rfl := Option.some.inj h
    rw [rnbUtilsStop_eq]
    refine phase_command hn.thread hn.fifo rfl rfl hn.running ?_
    rw [rnbUtilsStop, View.rnbUtilsStop]
    cases hi : n.rnbInitialized <;> simp [view, hi, hn.pending, kWorkSubmit, submit]

/-! ## Runs from rest to rest -/

instance : (a : Act) → Decidable (Own a)
  | .utils _ | .take | .work _ => isTrue trivial
  | .report _ | .initialized | .start | .stop => isFalse not_false

instance (n : Node α) : Decidable n.AtRest :=
  decidable_of_iff (n.thread = .fifoGet ∧ n.pool.fifo = [] ∧ n.running = none ∧ n.pending = [] ∧
      ∀ slot, (n.pool.slots slot).inUse = false)
    ⟨fun ⟨a, b, c, d, e⟩ => ⟨a, b, c, d, e⟩, fun ⟨a, b, c, d, e⟩ => ⟨a, b, c, d, e⟩⟩

/-- Each request comes when the node is at rest, and the node comes to rest after it, its
threads taking turns as they like and its calls returning what the request says. -/
def Paced (img : Image α) (app : α) : Node α → List Request → Prop
  | _, [] => True
  | n, q :: qs =>
    (∀ a ∈ q.own, Own a) ∧ ∃ n₁ ∈ step img n q.stimulus.act,
      (machine img app).Along (Gives q.returns) n₁ q.own ∧
        ∃ n₂ ∈ (machine img app).runFrom n₁ q.own, n₂.AtRest ∧ Paced img app n₂ qs

def decidePaced (img : Image α) (app : α) :
    (qs : List Request) → (n : Node α) → Decidable (Paced img app n qs)
  | [], _ => isTrue trivial
  | q :: qs, n =>
    have := decidePaced img app qs
    inferInstanceAs (Decidable ((∀ a ∈ q.own, Own a) ∧ ∃ n₁ ∈ step img n q.stimulus.act,
      (machine img app).Along (Gives q.returns) n₁ q.own ∧
        ∃ n₂ ∈ (machine img app).runFrom n₁ q.own, n₂.AtRest ∧ Paced img app n₂ qs))

instance (img : Image α) (app : α) (n : Node α) (qs : List Request) :
    Decidable (Paced img app n qs) := decidePaced img app qs n

theorem Phase.run {g : View α × Option OtWork} {app : α} {as : List Act} (hP : Phase img r g n)
    (hown : ∀ a ∈ as, Own a) (hr : (machine img app).Along (Gives r) n as)
    (h : (machine img app).runFrom n as = some n') : Phase img r g n' := by
  induction as generalizing n with
  | nil =>
    obtain rfl := Option.some.inj h
    exact hP
  | cons a as ih =>
    obtain ⟨m, hm, h⟩ := (machine img app).runFrom_cons.mp h
    obtain ⟨hgives, hr⟩ := Machine.along_cons hr hm
    exact ih (hP.step (hown a List.mem_cons_self) hgives hm)
      (fun b hb => hown b (List.mem_cons_of_mem _ hb)) hr h

/-- What the requests lead to, one after the other. -/
def sequentially (img : Image α) (v : View α) (qs : List Request) : View α :=
  qs.foldl (fun v q => q.stimulus.sequential img q.returns v) v

theorem view_paced {app : α} {qs : List Request} (hproper : ∀ q ∈ qs, q.stimulus.Proper img)
    (h : Paced img app n qs) (hn : n.AtRest) :
    ∃ n', (machine img app).runFrom n (qs.flatMap Request.acts) = some n' ∧ n'.AtRest ∧
      n'.view = sequentially img n.view qs := by
  induction qs generalizing n with
  | nil => exact ⟨n, rfl, hn, rfl⟩
  | cons q qs ih =>
    obtain ⟨hown, n₁, hstimulus, hgives, n₂, hrun, hrest, hpaced⟩ := h
    have hphase := (phase_of_atRest hn (hproper q List.mem_cons_self) hstimulus).run
      hown hgives hrun
    obtain ⟨n', hrun', hrest', hview⟩ :=
      ih (fun q hq => hproper q (List.mem_cons_of_mem _ hq)) hpaced hrest
    refine ⟨n', ?_, hrest', ?_⟩
    · exact (machine img app).runFrom_cons.mpr
        ⟨n₁, hstimulus, (Machine.runFrom_append _ hrun).trans hrun'⟩
    · rw [hview, hphase.atRest hrest]
      rfl

theorem atRest_boot (app : α) : (boot app).AtRest := ⟨rfl, rfl, rfl, rfl, fun _ => rfl⟩

/-- **One thing at a time, the threads leave what the source says from top to bottom.** -/
theorem paced_sequential (img : Image α) (app : α) {qs : List Request}
    (hproper : ∀ q ∈ qs, q.stimulus.Proper img) (h : Paced img app (boot app) qs) :
    ∃ n, (machine img app).run (qs.flatMap Request.acts) = some n ∧ n.AtRest ∧
      n.view = sequentially img (boot app).view qs :=
  view_paced hproper h (atRest_boot app)

/-- The end of `init_rnb`, the bus stops, is joined and is lost, a command, each with the work
queue in between the statements of the event. -/
def pacedRequests : List Request :=
  [⟨.initialized, .ok, []⟩,
    ⟨.report (.newState 0 1), .ok,
      Act.utilsTimes 6 ++ [.take, .utils 0, .work 0, .work 0, .utils 0, .work 0]⟩,
    ⟨.report (.newState 3 1), .ok,
      Act.utilsTimes 4 ++ [.take, .work 0, .utils 0, .work 0, .utils 0, .work 0]⟩,
    ⟨.report (.newState 1 1), { Returns.ok with otThreadSetEnabled := -1 },
      Act.utilsTimes 3 ++ [.take, .work 0, .work (-1), .utils 0, .work 0, .utils 0, .utils 0]⟩,
    ⟨.stop, .ok, .take :: List.replicate 5 (.work 0)⟩]

theorem reads_newState (state role : UInt8) : Image.plain.Reads (.newState state role) where
  fits := (by decide : 2 ≤ 254)
  state := fun _ _ => rfl
  payload := nofun

theorem proper_pacedRequests : ∀ q ∈ pacedRequests, q.stimulus.Proper .plain := by
  intro q hq
  simp only [pacedRequests, List.mem_cons, List.not_mem_nil, or_false] at hq
  rcases hq with rfl | rfl | rfl | rfl | rfl
  · trivial
  · exact reads_newState 0 1
  · exact reads_newState 3 1
  · exact reads_newState 1 1
  · trivial

theorem paced_sequential_pacedRequests :
    ∃ n, (machine .plain .undefined).run (pacedRequests.flatMap Request.acts) = some n ∧
      n.AtRest ∧
      n.view = ⟨true, true, false, ⟨false, false, false, false⟩, false, .tag⟩ := by
  obtain ⟨n, hr, hrest, hview⟩ :=
    paced_sequential .plain .undefined proper_pacedRequests (by decide +kernel)
  exact ⟨n, hr, hrest, hview.trans (by decide +kernel)⟩

end Node

end RedNodeBus.Utils

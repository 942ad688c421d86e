import RedNodeBus.Lib.SlotPool
import RedNodeBus.Lib.WorkQueue
import RedNodeBus.Utils.OtWork

/-!
# The node: events, the utils thread and the work queue

The part of `rnb_utils.c` that runs from the moment `init_rnb` has registered
`handle_rnb_user_event` with the driver.

* The driver reports events.  `handle_rnb_user_event` copies one into a free slot
  of a pool of four and queues the slot; with no slot free the event is dropped.
* `rnb_utils_process_thread` takes the slots in order, runs
  `process_rnb_utils_event` on each and clears the slot's mark.
* The system work queue runs the four OpenThread handlers, one at a time.
* `rnb_utils_start` and `rnb_utils_stop` may be called from any thread, and `main`
  still has the last statement of `init_rnb` to do, which sets `rnb_initialized`.

The threads interleave statement by statement: `step` is one statement of one of
them, or one report.  A work item is pending until its handler begins, so it can be
submitted again while it runs.

Two things are not in the repository and are a parameter (`Image`): the layout of
the event parameters, and the application's two hooks.
-/

namespace RedNodeBus.Utils

open WorkQueue

/-! ## Events -/

inductive BusState
  | stopped
  | unsynchronized
  | synchronized
  | connected
  | other (v : UInt8)
  deriving DecidableEq, Repr

inductive UserRole
  | undefined
  | tag
  | anchor
  | relay
  | other (v : UInt8)
  deriving DecidableEq, Repr

/-- `struct rednodebus_user_event_params_state`, as far as it is used beyond logging. -/
structure EventParamsState where
  state : BusState
  role : UserRole
  deriving DecidableEq, Repr

inductive UserEvent
  | newState
  | userPayload
  | other (id : Nat)
  deriving DecidableEq, Repr

/-- What the driver passes to `handle_rnb_user_event`: the parameters are a length
byte and that many bytes. -/
structure Report where
  dev : Nat
  evt : UserEvent
  eventParamsLength : UInt8
  eventParams : List UInt8
  length_eq : eventParams.length = eventParamsLength.toNat

/-- The memory `event_params` points to. -/
def Report.memory (r : Report) : List UInt8 := r.eventParamsLength :: r.eventParams

/-- `event_size`, a `uint8_t`: it wraps for the length `255`. -/
def Report.eventSize (r : Report) : UInt8 := 1 + r.eventParamsLength

/-- `struct rednodebus_utils_event`; the parameters are raw memory, the length byte
first. -/
structure RnbUtilsEvent where
  dev : Nat
  rnbUserEvent : UserEvent
  rnbUserEventParams : List UInt8
  inUse : Bool
  deriving DecidableEq, Repr

def RnbUtilsEvent.eventParamsLength (e : RnbUtilsEvent) : UInt8 := e.rnbUserEventParams.headD 0

def RnbUtilsEvent.userPayload (e : RnbUtilsEvent) : List UInt8 := e.rnbUserEventParams.tail

def memcpy (dst src : List UInt8) (n : UInt8) : List UInt8 :=
  src.take n.toNat ++ dst.drop n.toNat

/-- The body of the loop in `handle_rnb_user_event`, on the slot found. -/
def RnbUtilsEvent.fill (r : Report) (e : RnbUtilsEvent) : RnbUtilsEvent where
  inUse := true
  dev := r.dev
  rnbUserEvent := r.evt
  rnbUserEventParams := memcpy e.rnbUserEventParams r.memory r.eventSize

/-- What of an event is handed to `process_rnb_utils_event`: its device, its id and
the parameters up to their length. -/
structure EventArgs where
  dev : Nat
  evt : UserEvent
  params : List UInt8
  deriving DecidableEq, Repr

def RnbUtilsEvent.args (e : RnbUtilsEvent) : EventArgs :=
  ⟨e.dev, e.rnbUserEvent, e.rnbUserEventParams.take (1 + e.eventParamsLength.toNat)⟩

def Report.args (r : Report) : EventArgs := ⟨r.dev, r.evt, r.memory⟩

/-- The parameter copy fits: `event_size` does not wrap. -/
def Report.Fits (r : Report) : Prop := r.eventParamsLength.toNat ≤ 254

instance (r : Report) : Decidable r.Fits := inferInstanceAs (Decidable (_ ≤ _))

theorem Report.eventSize_toNat {r : Report} (h : r.Fits) :
    r.eventSize.toNat = r.memory.length := by
  have : r.eventParamsLength.toNat < 255 := Nat.lt_succ_of_le h
  rw [Report.eventSize, Report.memory, List.length_cons, r.length_eq, UInt8.toNat_add]
  simp only [UInt8.toNat_one]
  omega

theorem RnbUtilsEvent.args_fill {r : Report} (e : RnbUtilsEvent) (h : r.Fits) :
    (e.fill r).args = r.args := by
  have hm : (e.fill r).rnbUserEventParams
      = r.memory ++ e.rnbUserEventParams.drop r.memory.length := by
    rw [RnbUtilsEvent.fill, memcpy, Report.eventSize_toNat h, List.take_length]
  have hl : (e.fill r).eventParamsLength = r.eventParamsLength := by
    rw [RnbUtilsEvent.eventParamsLength, hm]
    rfl
  rw [RnbUtilsEvent.args, hl, hm, List.take_append_of_le_length]
  · rw [List.take_of_length_le]
    · rfl
    · simp [Report.memory, r.length_eq, Nat.add_comm]
  · simp [Report.memory, r.length_eq, Nat.add_comm]

/-- `rnb_utils_events` and `rnb_utils_event_fifo`. -/
abbrev EventPool := SlotPool 4 RnbUtilsEvent

def eventOps : SlotOps RnbUtilsEvent Report EventArgs where
  busy := RnbUtilsEvent.inUse
  fill := fun r e => e.fill r
  clear := fun e => { e with inUse := false }
  view := RnbUtilsEvent.args
  what := Report.args
  fits := Report.Fits
  busy_fill := fun _ _ => rfl
  busy_clear := fun _ => rfl
  view_fill := fun _ e h => e.args_fill h

def EventPool.empty : EventPool := ⟨fun _ => ⟨0, .other 0, [], false⟩, []⟩

/-- `handle_rnb_user_event`: the first slot not in use, or an error in the log. -/
def handleRnbUserEvent (r : Report) (p : EventPool) : EventPool := p.put eventOps r

/-! ## The utils thread -/

/-- What the image adds to `rnb_utils.c`: how the driver's header reads the
parameters of a state event, and the application's two hooks on its own state. -/
structure Image (α : Type) where
  state : List UInt8 → EventParamsState
  rnbUtilsHandleNewState : EventParamsState → α → α
  rnbUtilsHandleUserPayload : UInt8 → List UInt8 → α → α

/-- Where `process_rnb_utils_event` stands. -/
inductive Line
  | switchEvt
  | initConfig
  | updateConfig
  | setConfigured
  | callStart
  | setConnected
  | submitStart
  | submitStop
  | clearConnected
  | handleNewState
  | userPayload
  | handleUserPayload
  deriving DecidableEq, Repr

/-- Where `rnb_utils_process_thread` stands: in `k_fifo_get`, in the event of a
slot, or after it. -/
inductive UtilsThread
  | fifoGet
  | process (slot : Fin 4) (line : Line)
  | clearInUse (slot : Fin 4)
  deriving DecidableEq, Repr

structure Node (α : Type) where
  rnbInitialized : Bool
  rnbConfigured : Bool
  rnbConnected : Bool
  ot : OtState
  /-- `sntp_sem`, of limit one. -/
  sntpSem : Bool
  /-- The work items pending on the system work queue, the next one first. -/
  pending : List OtWork
  /-- The handler the work queue is in. -/
  running : Option HandlerAt
  pool : EventPool
  thread : UtilsThread
  /-- The state of the application's hooks. -/
  app : α

namespace Node

variable {α : Type}

/-- `init_rnb` has just registered `handle_rnb_user_event`. -/
def boot (app : α) : Node α where
  rnbInitialized := false
  rnbConfigured := false
  rnbConnected := false
  ot := .stopped
  sntpSem := false
  pending := []
  running := none
  pool := .empty
  thread := .fifoGet
  app := app

def kWorkSubmit (w : OtWork) (n : Node α) : Node α := { n with pending := submit w n.pending }

def rnbUtilsStart (n : Node α) : Node α :=
  if n.rnbInitialized then n.kWorkSubmit .otInitWork else n

def rnbUtilsStop (n : Node α) : Node α :=
  if n.rnbInitialized then n.kWorkSubmit .otDeinitWork else n

/-- The first statement of the branch `process_rnb_utils_event` takes. -/
def branch (rnbConfigured : Bool) (evt : UserEvent) (state : EventParamsState) : Option Line :=
  match evt with
  | .newState =>
    match state.state with
    | .stopped => if !rnbConfigured then some .initConfig else some .handleNewState
    | .connected => some .setConnected
    | .unsynchronized => some .submitStop
    | .synchronized | .other _ => some .handleNewState
  | .userPayload => some .userPayload
  | .other _ => none

/-- `"CLOCK"`. -/
def sntpUpdateTrigger : List UInt8 := [67, 76, 79, 67, 75]

/-- The payload is the trigger: five bytes, equal to `"CLOCK"`. -/
def isSntpUpdateTrigger (length : UInt8) (payload : List UInt8) : Bool :=
  length == 5 && payload.take 5 == sntpUpdateTrigger

/-- The next statement of `process_rnb_utils_event` on the event in `slot`; `ret` is
what the driver returns if it is a call.  The parameters are read from the slot. -/
def processRnbUtilsEvent (img : Image α) (ret : Int) (slot : Fin 4) (line : Line) (n : Node α) :
    Node α :=
  let event := n.pool.slots slot
  let state := img.state event.rnbUserEventParams
  match line with
  | .switchEvt =>
    match branch n.rnbConfigured event.rnbUserEvent state with
    | some l => { n with thread := .process slot l }
    | none => { n with thread := .clearInUse slot }
  | .initConfig =>
    -- an error returns before the hook
    if ret ≠ 0 then { n with thread := .clearInUse slot }
    else { n with thread := .process slot .updateConfig }
  | .updateConfig =>
    if ret ≠ 0 then { n with thread := .clearInUse slot }
    else { n with thread := .process slot .setConfigured }
  | .setConfigured => { n with rnbConfigured := true, thread := .process slot .callStart }
  | .callStart => { n.rnbUtilsStart with thread := .process slot .handleNewState }
  | .setConnected => { n with rnbConnected := true, thread := .process slot .submitStart }
  | .submitStart => { n.kWorkSubmit .otStartWork with thread := .process slot .handleNewState }
  | .submitStop => { n.kWorkSubmit .otStopWork with thread := .process slot .clearConnected }
  | .clearConnected => { n with rnbConnected := false, thread := .process slot .handleNewState }
  | .handleNewState =>
    { n with app := img.rnbUtilsHandleNewState state n.app, thread := .clearInUse slot }
  | .userPayload =>
    { n with
      sntpSem := n.sntpSem || isSntpUpdateTrigger event.eventParamsLength event.userPayload
      thread := .process slot .handleUserPayload }
  | .handleUserPayload =>
    { n with
      app := img.rnbUtilsHandleUserPayload event.eventParamsLength event.userPayload n.app
      thread := .clearInUse slot }

/-- The next statement of `rnb_utils_process_thread`. -/
def rnbUtilsProcessThread (img : Image α) (ret : Int) (n : Node α) : Option (Node α) :=
  match n.thread with
  | .fifoGet =>
    match n.pool.fifo with
    | slot :: rest =>
      some { n with pool := { n.pool with fifo := rest }, thread := .process slot .switchEvt }
    | [] => none
  | .process slot line => some (n.processRnbUtilsEvent img ret slot line)
  | .clearInUse slot => some { n with pool := n.pool.release eventOps slot, thread := .fifoGet }

/-! ## The machine -/

/-- One step of the system: a report of the driver, a statement of the utils thread,
the work queue beginning the next item, a statement of the running handler, the last
statement of `init_rnb`, or a call of `rnb_utils_start` or `rnb_utils_stop`. -/
inductive Act
  | report (r : Report)
  | utils (ret : Int)
  | take
  | work (ret : Int)
  | initialized
  | start
  | stop

def step (img : Image α) (n : Node α) : Act → Option (Node α)
  | .report r => some { n with pool := handleRnbUserEvent r n.pool }
  | .utils ret => n.rnbUtilsProcessThread img ret
  | .take =>
    match n.running, n.pending with
    | none, w :: rest => some { n with running := some w.entry, pending := rest }
    | _, _ => none
  | .work ret =>
    match n.running with
    | some pc =>
      let (running, ot) := handlerStep n.rnbConnected ret pc n.ot
      some { n with running := running, ot := ot }
    | none => none
  | .initialized => if n.rnbInitialized then none else some { n with rnbInitialized := true }
  | .start => some n.rnbUtilsStart
  | .stop => some n.rnbUtilsStop

/-- The node from the registration of the event handler on. -/
def machine (img : Image α) (app : α) : Machine (Node α) Act where
  init := boot app
  step := step img

variable {img : Image α} {n n' : Node α}

theorem take_cases (h : step img n .take = some n') :
    ∃ w rest, n.running = none ∧ n.pending = w :: rest ∧
      n' = { n with running := some w.entry, pending := rest } := by
  simp only [step] at h
  split at h
  · exact ⟨_, _, ‹_›, ‹_›, (Option.some.inj h).symm⟩
  · cases h

theorem work_cases {ret : Int} (h : step img n (.work ret) = some n') :
    ∃ pc, n.running = some pc ∧
      n' = { n with
        running := (handlerStep n.rnbConnected ret pc n.ot).1
        ot := (handlerStep n.rnbConnected ret pc n.ot).2 } := by
  simp only [step] at h
  split at h
  · exact ⟨_, ‹_›, (Option.some.inj h).symm⟩
  · cases h

theorem utils_cases {ret : Int} (h : step img n (.utils ret) = some n') :
    (∃ slot rest, n.thread = .fifoGet ∧ n.pool.fifo = slot :: rest ∧
      n' = { n with pool := { n.pool with fifo := rest }, thread := .process slot .switchEvt }) ∨
    (∃ slot line, n.thread = .process slot line ∧
      n' = n.processRnbUtilsEvent img ret slot line) ∨
    (∃ slot, n.thread = .clearInUse slot ∧
      n' = { n with pool := n.pool.release eventOps slot, thread := .fifoGet }) := by
  simp only [step, rnbUtilsProcessThread] at h
  split at h
  · split at h
    · exact Or.inl ⟨_, _, ‹_›, ‹_›, (Option.some.inj h).symm⟩
    · cases h
  · exact Or.inr (Or.inl ⟨_, _, ‹_›, (Option.some.inj h).symm⟩)
  · exact Or.inr (Or.inr ⟨_, ‹_›, (Option.some.inj h).symm⟩)

theorem initialized_cases (h : step img n .initialized = some n') :
    n.rnbInitialized = false ∧ n' = { n with rnbInitialized := true } := by
  simp only [step] at h
  split at h
  · cases h
  · rename_i hi
    exact ⟨by simpa using hi, (Option.some.inj h).symm⟩

/-- The branches of `process_rnb_utils_event` begin at five statements. -/
theorem branch_cases {c : Bool} {evt : UserEvent} {st : EventParamsState} {l : Line}
    (h : branch c evt st = some l) :
    l = .initConfig ∨ l = .handleNewState ∨ l = .setConnected ∨ l = .submitStop ∨
      l = .userPayload := by
  obtain ⟨bus, role⟩ := st
  cases evt with
  | newState => cases bus <;> cases c <;> simp_all [branch]
  | userPayload => simp_all [branch]
  | other id => simp_all [branch]

@[simp] theorem kWorkSubmit_pending (w : OtWork) (n : Node α) :
    (n.kWorkSubmit w).pending = submit w n.pending := rfl

theorem rnbUtilsStart_eq (n : Node α) :
    n.rnbUtilsStart = { n with pending := n.rnbUtilsStart.pending } := by
  rw [rnbUtilsStart]
  split <;> rfl

theorem rnbUtilsStop_eq (n : Node α) :
    n.rnbUtilsStop = { n with pending := n.rnbUtilsStop.pending } := by
  rw [rnbUtilsStop]
  split <;> rfl

theorem mem_rnbUtilsStart {w : OtWork} (h : w ∈ n.pending) : w ∈ n.rnbUtilsStart.pending := by
  rw [rnbUtilsStart]
  split
  · simp [h]
  · exact h

theorem mem_rnbUtilsStop {w : OtWork} (h : w ∈ n.pending) : w ∈ n.rnbUtilsStop.pending := by
  rw [rnbUtilsStop]
  split
  · simp [h]
  · exact h

/-- The thread stands at this statement of an event. -/
def At (n : Node α) (line : Line) : Prop := ∃ slot, n.thread = .process slot line

instance (n : Node α) (line : Line) : Decidable (n.At line) :=
  inferInstanceAs (Decidable (∃ slot : Fin 4, n.thread = .process slot line))

theorem At.ne {line line' : Line} (h : n.At line) (hne : line ≠ line') : ¬ n.At line' := by
  obtain ⟨slot, hs⟩ := h
  rintro ⟨slot', hs'⟩
  rw [hs] at hs'
  exact hne (UtilsThread.process.inj hs').2

/-- The thread is not at one of the two statements in the middle of a state change. -/
def Settled (n : Node α) : Prop := ¬ n.At .submitStart ∧ ¬ n.At .clearConnected

theorem At.settled {line : Line} (h : n.At line) (hs : line ≠ .submitStart)
    (hc : line ≠ .clearConnected) : n.Settled := ⟨h.ne hs, h.ne hc⟩

theorem settled_of_fifoGet (h : n.thread = .fifoGet) : n.Settled := by simp [Settled, At, h]

theorem settled_of_clearInUse {slot : Fin 4} (h : n.thread = .clearInUse slot) : n.Settled := by
  simp [Settled, At, h]

/-- **What a statement of the utils thread does** to the connection flag and to the
work queue, and where it leaves the thread. -/
inductive UtilsMove (n n' : Node α) : Prop
  | quiet (rnbConnected : n'.rnbConnected = n.rnbConnected) (pending : n'.pending = n.pending)
      (before : n.Settled) (not_callStart : ¬ n.At .callStart) (after : n'.Settled)
  | callStart (at_callStart : n.At .callStart) (rnbConnected : n'.rnbConnected = n.rnbConnected)
      (pending : n'.pending = n.rnbUtilsStart.pending) (thread : n'.At .handleNewState)
  | setConnected (at_setConnected : n.At .setConnected) (rnbConnected : n'.rnbConnected = true)
      (pending : n'.pending = n.pending) (thread : n'.At .submitStart)
  | submitStart (at_submitStart : n.At .submitStart)
      (rnbConnected : n'.rnbConnected = n.rnbConnected)
      (pending : n'.pending = submit .otStartWork n.pending) (thread : n'.At .handleNewState)
  | submitStop (at_submitStop : n.At .submitStop) (rnbConnected : n'.rnbConnected = n.rnbConnected)
      (pending : n'.pending = submit .otStopWork n.pending) (thread : n'.At .clearConnected)
  | clearConnected (at_clearConnected : n.At .clearConnected)
      (rnbConnected : n'.rnbConnected = false) (pending : n'.pending = n.pending)
      (thread : n'.At .handleNewState)

/-- A statement that leaves the flag and the queue alone, from a line that is none of
those that do not. -/
theorem At.quiet {line : Line} (h : n.At line)
    (hline : line ≠ .submitStart ∧ line ≠ .clearConnected ∧ line ≠ .callStart)
    (hc : n'.rnbConnected = n.rnbConnected) (hp : n'.pending = n.pending)
    (hn : n'.Settled) : UtilsMove n n' :=
  .quiet hc hp (h.settled hline.1 hline.2.1) (h.ne hline.2.2) hn

theorem utils_move {ret : Int} (h : step img n (.utils ret) = some n') : UtilsMove n n' := by
  rcases utils_cases h with ⟨slot, rest, ht, -, rfl⟩ | ⟨slot, line, ht, rfl⟩ | ⟨slot, ht, rfl⟩
  · exact .quiet rfl rfl (settled_of_fifoGet ht) (by simp [At, ht])
      (At.settled ⟨slot, rfl⟩ (by decide) (by decide))
  · have hat : n.At line := ⟨slot, ht⟩
    cases line with
    | switchEvt =>
      rw [processRnbUtilsEvent]
      split
      · rename_i l hl
        have hl' := branch_cases hl
        exact hat.quiet (by decide) rfl rfl (At.settled ⟨slot, rfl⟩ (by grind) (by grind))
      · exact hat.quiet (by decide) rfl rfl (settled_of_clearInUse rfl)
    | initConfig =>
      rw [processRnbUtilsEvent]
      split
      · exact hat.quiet (by decide) rfl rfl (settled_of_clearInUse rfl)
      · exact hat.quiet (by decide) rfl rfl (At.settled ⟨slot, rfl⟩ (by decide) (by decide))
    | updateConfig =>
      rw [processRnbUtilsEvent]
      split
      · exact hat.quiet (by decide) rfl rfl (settled_of_clearInUse rfl)
      · exact hat.quiet (by decide) rfl rfl (At.settled ⟨slot, rfl⟩ (by decide) (by decide))
    | setConfigured | userPayload =>
      exact hat.quiet (by decide) rfl rfl (At.settled ⟨slot, rfl⟩ (by decide) (by decide))
    | callStart =>
      refine .callStart hat ?_ rfl ⟨slot, rfl⟩
      rw [processRnbUtilsEvent, rnbUtilsStart_eq]
    | setConnected => exact .setConnected hat rfl rfl ⟨slot, rfl⟩
    | submitStart => exact .submitStart hat rfl rfl ⟨slot, rfl⟩
    | submitStop => exact .submitStop hat rfl rfl ⟨slot, rfl⟩
    | clearConnected => exact .clearConnected hat rfl rfl ⟨slot, rfl⟩
    | handleNewState | handleUserPayload =>
      exact hat.quiet (by decide) rfl rfl (settled_of_clearInUse rfl)
  · exact .quiet rfl rfl (settled_of_clearInUse ht) (by simp [At, ht]) (settled_of_fifoGet rfl)

/-- A statement of the utils thread leaves the handlers and their flags alone. -/
theorem utils_frame {ret : Int} (h : step img n (.utils ret) = some n') :
    n'.ot = n.ot ∧ n'.running = n.running ∧ n'.rnbInitialized = n.rnbInitialized := by
  rcases utils_cases h with ⟨slot, rest, -, -, rfl⟩ | ⟨slot, line, -, rfl⟩ | ⟨slot, -, rfl⟩
  · exact ⟨rfl, rfl, rfl⟩
  · cases line with
    | switchEvt | initConfig | updateConfig =>
      rw [processRnbUtilsEvent]
      split <;> exact ⟨rfl, rfl, rfl⟩
    | callStart =>
      rw [processRnbUtilsEvent]
      rw [rnbUtilsStart_eq]
      exact ⟨rfl, rfl, rfl⟩
    | setConfigured | setConnected | submitStart | submitStop | clearConnected | handleNewState
    | userPayload | handleUserPayload => exact ⟨rfl, rfl, rfl⟩
  · exact ⟨rfl, rfl, rfl⟩

theorem nodup_rnbUtilsStart (h : n.pending.Nodup) : n.rnbUtilsStart.pending.Nodup := by
  rw [rnbUtilsStart]
  split
  · exact nodup_submit h
  · exact h

theorem nodup_rnbUtilsStop (h : n.pending.Nodup) : n.rnbUtilsStop.pending.Nodup := by
  rw [rnbUtilsStop]
  split
  · exact nodup_submit h
  · exact h

theorem nodup_step {a : Act} (hn : n.pending.Nodup) (h : step img n a = some n') :
    n'.pending.Nodup := by
  cases a with
  | report r =>
    obtain rfl := Option.some.inj h
    exact hn
  | utils ret =>
    cases utils_move h with
    | quiet _ hp | setConnected _ _ hp | clearConnected _ _ hp => exact hp ▸ hn
    | callStart _ _ hp => exact hp ▸ nodup_rnbUtilsStart hn
    | submitStart _ _ hp | submitStop _ _ hp => exact hp ▸ nodup_submit hn
  | take =>
    obtain ⟨w, rest, -, hpend, rfl⟩ := take_cases h
    rw [hpend] at hn
    exact (List.nodup_cons.mp hn).2
  | work ret =>
    obtain ⟨pc, -, rfl⟩ := work_cases h
    exact hn
  | initialized =>
    obtain ⟨-, rfl⟩ := initialized_cases h
    exact hn
  | start =>
    obtain rfl := Option.some.inj h
    exact nodup_rnbUtilsStart hn
  | stop =>
    obtain rfl := Option.some.inj h
    exact nodup_rnbUtilsStop hn

def current (n : Node α) : Option OtWork := n.running.map HandlerAt.work

theorem current_take {w : OtWork} {rest : List OtWork} :
    current { n with running := some w.entry, pending := rest } = some w := by
  simp [current]

theorem current_work {ret : Int} (h : step img n (.work ret) = some n') :
    n'.current = none ∨ n'.current = n.current := by
  obtain ⟨pc, hpc, rfl⟩ := work_cases h
  simp only [current, hpc]
  cases hs : (handlerStep n.rnbConnected ret pc n.ot).1 with
  | none => exact Or.inl rfl
  | some pc' => exact Or.inr (congrArg some (handlerStep_work hs))

/-- No event is being processed, and the work queue is idle. -/
structure Quiescent (n : Node α) : Prop where
  thread : n.thread = .fifoGet
  pending : n.pending = []
  running : n.running = none

instance (n : Node α) : Decidable n.Quiescent :=
  decidable_of_iff (n.thread = .fifoGet ∧ n.pending = [] ∧ n.running = none)
    ⟨fun ⟨a, b, c⟩ => ⟨a, b, c⟩, fun ⟨a, b, c⟩ => ⟨a, b, c⟩⟩

end Node

/-! ## A concrete image -/

/-- One byte for the bus state and one for the role; the hooks keep the last role. -/
def Image.plain : Image UserRole where
  state
    | _ :: state :: role :: _ =>
      { state := match state with
          | 0 => .stopped
          | 1 => .unsynchronized
          | 2 => .synchronized
          | 3 => .connected
          | v => .other v
        role := match role with
          | 0 => .undefined
          | 1 => .tag
          | 2 => .anchor
          | 3 => .relay
          | v => .other v }
    | _ => ⟨.other 255, .undefined⟩
  rnbUtilsHandleNewState state _ := state.role
  rnbUtilsHandleUserPayload _ _ role := role

/-- A state event of `Image.plain`. -/
def Report.newState (state role : UInt8) : Report := ⟨0, .newState, 2, [state, role], rfl⟩

/-- `k` statements of the utils thread, its calls returning `0`. -/
def Node.Act.utilsTimes (k : Nat) : List Node.Act := List.replicate k (.utils 0)

end RedNodeBus.Utils

import RedNodeBus.Lib.Settling
import RedNodeBus.Utils.ConnectionFlag
import RedNodeBus.Utils.EventQueue

/-!
# The node comes to rest

The driver, the application and the button act on the node from outside.  What it does by
itself are the statements of the utils thread and of the handlers, and the work queue
beginning the next item.  The handlers submit nothing, and of an event at most one item comes.
So `workLeft` counts what there is to do: the statements of the handler that runs, of the
event in hand and of the handlers and events that wait, each event with the item it may bring.

Every act of its own takes the count down (`descends`), and it is never above 85.  So from
every state that is reached, the node is at rest after at most 85 acts of its own, in
whichever order the thread and the work queue take turns, and then every event that was taken
is done with and every slot is free (`settles`).
-/

namespace RedNodeBus.Utils

/-- The statements a handler has still to run, at most. -/
def HandlerAt.workLeft : HandlerAt → ℕ
  | .deinitTest => 5
  | .deinitThread => 4
  | .initTest | .startTest | .stopTest | .deinitThreadRet _ => 3
  | .initIp6 | .startCall | .stopThread | .deinitIp6 => 2
  | .initIp6Ret _ | .startRet _ | .stopClear | .deinitIp6Ret _ => 1

/-- The same of an event, with six for the item it submits. -/
def Line.workLeft : Line → ℕ
  | .switchEvt => 13
  | .initConfig => 12
  | .updateConfig => 11
  | .setConfigured | .setConnected | .submitStop => 10
  | .callStart | .submitStart => 9
  | .clearConnected | .userPayload => 3
  | .handleNewState | .handleUserPayload => 2

def UtilsThread.workLeft : UtilsThread → ℕ
  | .fifoGet => 0
  | .process _ line => line.workLeft
  | .clearInUse _ => 1

namespace Node

variable {α : Type} {img : Image α} {n n' : Node α}

def workLeft (n : Node α) : ℕ :=
  14 * n.pool.fifo.length + n.thread.workLeft + 6 * n.pending.length +
    (n.running.map HandlerAt.workLeft).getD 0

/-- The acts that do not come from outside. -/
def Own : Act → Prop
  | .utils _ | .take | .work _ => True
  | .report _ | .initialized | .start | .stop => False

/-- Nothing waits, nothing runs, and every slot is free. -/
structure AtRest (n : Node α) : Prop where
  thread : n.thread = .fifoGet
  fifo : n.pool.fifo = []
  running : n.running = none
  pending : n.pending = []
  free : ∀ slot, (n.pool.slots slot).inUse = false

theorem handlerStep_workLeft (rnbConnected : Bool) (ret : Int) (pc : HandlerAt) (s : OtState) :
    ((handlerStep rnbConnected ret pc s).1.map HandlerAt.workLeft).getD 0 < pc.workLeft := by
  cases pc with
  | initTest | deinitTest | startTest | stopTest =>
    rw [handlerStep]
    split <;> simp [HandlerAt.workLeft]
  | initIp6 | deinitThread | deinitIp6 | startCall | stopThread | initIp6Ret error
  | deinitThreadRet error | deinitIp6Ret error | startRet ret' | stopClear =>
    exact Nat.lt_succ_self _

theorem length_submit_le (w : OtWork) (pending : List OtWork) :
    (WorkQueue.submit w pending).length ≤ pending.length + 1 := by
  rw [WorkQueue.submit]
  split
  · exact Nat.le_succ _
  · rw [List.length_append, List.length_singleton]

theorem length_rnbUtilsStart_le (n : Node α) :
    n.rnbUtilsStart.pending.length ≤ n.pending.length + 1 := by
  rw [rnbUtilsStart]
  split
  · exact length_submit_le .otInitWork n.pending
  · exact Nat.le_succ _

theorem branch_workLeft {c : Bool} {evt : UserEvent} {st : EventParamsState} {l : Line}
    (h : branch c evt st = some l) : l.workLeft < 13 := by
  rcases branch_cases h with rfl | rfl | rfl | rfl | rfl <;> decide

/-- A statement of an event takes the count down, an item it submits included. -/
theorem process_workLeft {ret : Int} {slot : Fin 4} {line : Line}
    (ht : n.thread = .process slot line) :
    (n.processRnbUtilsEvent img ret slot line).workLeft < n.workLeft := by
  have hline : n.thread.workLeft = line.workLeft := by rw [ht, UtilsThread.workLeft]
  cases line with
  | switchEvt =>
    have hthread : (n.processRnbUtilsEvent img ret slot .switchEvt).workLeft =
        14 * n.pool.fifo.length + (n.processRnbUtilsEvent img ret slot .switchEvt).thread.workLeft +
          6 * n.pending.length + (n.running.map HandlerAt.workLeft).getD 0 := by
      rw [processRnbUtilsEvent]
      split <;> rfl
    have hlt : (n.processRnbUtilsEvent img ret slot .switchEvt).thread.workLeft < 13 := by
      rw [processRnbUtilsEvent]
      split
      · rename_i l hl
        exact branch_workLeft hl
      · exact (by decide : 1 < 13)
    rw [hthread, workLeft, hline, Line.workLeft]
    omega
  | initConfig | updateConfig =>
    rw [processRnbUtilsEvent]
    split <;>
    · simp only [workLeft, ht, UtilsThread.workLeft, Line.workLeft]
      omega
  | callStart =>
    have hle := length_rnbUtilsStart_le n
    rw [processRnbUtilsEvent, rnbUtilsStart_eq]
    simp only [workLeft, ht, UtilsThread.workLeft, Line.workLeft]
    omega
  | submitStart =>
    have hle := length_submit_le .otStartWork n.pending
    simp only [processRnbUtilsEvent, kWorkSubmit, workLeft, ht, UtilsThread.workLeft,
      Line.workLeft]
    omega
  | submitStop =>
    have hle := length_submit_le .otStopWork n.pending
    simp only [processRnbUtilsEvent, kWorkSubmit, workLeft, ht, UtilsThread.workLeft,
      Line.workLeft]
    omega
  | setConfigured | setConnected | clearConnected | handleNewState | userPayload
  | handleUserPayload =>
    simp only [processRnbUtilsEvent, workLeft, ht, UtilsThread.workLeft, Line.workLeft]
    omega

/-- **Every act of its own takes the node nearer to rest.** -/
theorem workLeft_step {a : Act} (ha : Own a) (h : step img n a = some n') :
    n'.workLeft < n.workLeft := by
  cases a with
  | utils ret =>
    rcases utils_cases h with ⟨slot, rest, ht, hf, rfl⟩ | ⟨slot, line, ht, rfl⟩ | ⟨slot, ht, rfl⟩
    · simp only [workLeft, ht, hf, UtilsThread.workLeft, Line.workLeft, List.length_cons]
      omega
    · exact process_workLeft ht
    · simp only [workLeft, ht, UtilsThread.workLeft, SlotPool.release, SlotPool.set_fifo]
      omega
  | take =>
    obtain ⟨w, rest, hrun, hpend, rfl⟩ := take_cases h
    have hentry : w.entry.workLeft ≤ 5 := by cases w <;> decide
    simp only [workLeft, hrun, hpend, Option.map_some, Option.getD_some, Option.map_none,
      Option.getD_none, List.length_cons]
    omega
  | work ret =>
    obtain ⟨pc, hrun, rfl⟩ := work_cases h
    have hlt := handlerStep_workLeft n.rnbConnected ret pc n.ot
    simp only [workLeft, hrun, Option.map_some, Option.getD_some]
    omega
  | report _ | initialized | start | stop => exact absurd ha not_false

/-! ## How much there can be to do -/

theorem workLeft_le_of_line (line : Line) : line.workLeft ≤ 13 := by
  cases line <;> exact (by decide)

theorem workLeft_le_of_handler (pc : HandlerAt) : pc.workLeft ≤ 5 := by
  cases pc <;> simp [HandlerAt.workLeft]

theorem workLeft_pool_le (hn : n.Held) :
    14 * n.pool.fifo.length + n.thread.workLeft ≤ 56 := by
  have hle := SlotPool.Held.length_le hn
  rw [SlotPool.held, List.length_append] at hle
  cases ht : n.thread with
  | fifoGet =>
    rw [ht] at hle
    simp only [UtilsThread.hand, Option.toList_none, List.length_nil] at hle
    rw [UtilsThread.workLeft]
    omega
  | process slot line =>
    rw [ht] at hle
    simp only [UtilsThread.hand, Option.toList_some, List.length_singleton] at hle
    have hline := workLeft_le_of_line line
    rw [UtilsThread.workLeft]
    omega
  | clearInUse slot =>
    rw [ht] at hle
    simp only [UtilsThread.hand, Option.toList_some, List.length_singleton] at hle
    rw [UtilsThread.workLeft]
    omega

theorem length_pending_le (hn : n.pending.Nodup) : n.pending.length ≤ 4 :=
  (hn.subperm (fun w _ => by cases w <;> decide) :
    n.pending.Subperm [.otInitWork, .otDeinitWork, .otStartWork, .otStopWork]).length_le

theorem workLeft_le (hn : n.Held) (hp : n.pending.Nodup) : n.workLeft ≤ 85 := by
  have hpool := workLeft_pool_le hn
  have hpending := length_pending_le hp
  have hrunning : (n.running.map HandlerAt.workLeft).getD 0 ≤ 5 := by
    cases n.running with
    | none => exact Nat.zero_le _
    | some pc => exact workLeft_le_of_handler pc
  rw [workLeft]
  omega

theorem nodup_of_run {app : α} {as : List Act} (hr : (machine img app).run as = some n) :
    n.pending.Nodup :=
  Machine.invariant (P := fun _ _ => True) (I := fun n : Node α => n.pending.Nodup)
    (fun _ _ _ hn _ hs => nodup_step hn hs) List.nodup_nil
    (Machine.along_trivial (fun _ _ => trivial) _ _) hr

/-! ## At rest -/

theorem atRest_of_resting {app : α} (hn : n.Held) (h : (machine img app).Resting Own n) :
    n.AtRest := by
  have hutils : step img n (.utils 0) = none := h (.utils 0) trivial
  have htake : step img n .take = none := h .take trivial
  have hwork : step img n (.work 0) = none := h (.work 0) trivial
  have hrunning : n.running = none := by
    cases hrun : n.running with
    | none => rfl
    | some pc => simp [step, hrun] at hwork
  have hpending : n.pending = [] := by
    cases hpend : n.pending with
    | nil => rfl
    | cons w rest => simp [step, hrunning, hpend] at htake
  have hthread : n.thread = .fifoGet := by
    cases ht : n.thread with
    | fifoGet => rfl
    | process slot line => simp [step, rnbUtilsProcessThread, ht] at hutils
    | clearInUse slot => simp [step, rnbUtilsProcessThread, ht] at hutils
  have hfifo : n.pool.fifo = [] := by
    cases hf : n.pool.fifo with
    | nil => rfl
    | cons slot rest => simp [step, rnbUtilsProcessThread, hthread, hf] at hutils
  refine ⟨hthread, hfifo, hrunning, hpending, ?_⟩
  intro slot
  have hfree := hn.busy_iff slot
  rw [SlotPool.held, hthread, hfifo] at hfree
  exact Bool.not_eq_true _ ▸ fun hbusy => absurd (hfree.mp hbusy) List.not_mem_nil

theorem observe_copied_own {app : α} {bs : List Act} (hown : ∀ b ∈ bs, Own b) :
    (machine img app).observe copied n bs = [] := by
  rw [List.eq_nil_iff_forall_not_mem]
  intro e he
  obtain ⟨m, b, hb, hc⟩ := Machine.mem_observe he
  have hb := hown b hb
  cases b with
  | report r => exact hb
  | utils ret | take | work ret | initialized | start | stop => cases hc

/-- What becomes of the node after a run when nothing comes from outside any more. -/
structure Settles (img : Image α) (app : α) (as : List Act) (n : Node α) : Prop where
  /-- It makes at most 85 acts. -/
  bounded : ∀ bs n', (∀ b ∈ bs, Own b) → (machine img app).runFrom n bs = some n' →
    bs.length ≤ 85
  /-- It can come to rest. -/
  comes : ∃ bs n', (∀ b ∈ bs, Own b) ∧ (machine img app).runFrom n bs = some n' ∧
    (machine img app).Resting Own n'
  /-- When it can make no more of them, nothing is left undone. -/
  done : ∀ bs n', (∀ b ∈ bs, Own b) → (machine img app).runFrom n bs = some n' →
    (machine img app).Resting Own n' → n'.AtRest ∧
      (machine img app).observe copied (boot app) as
        = (machine img app).observe finished (boot app) (as ++ bs) ∧
      n'.rnbConnected
        = flagAfter ((machine img app).observe (busState img) (boot app) (as ++ bs))

/-- **The node comes to rest.**  From every state that is reached, in whichever order the
utils thread and the work queue take turns, there are at most 85 acts until neither has one
left; then every slot is free, no item is pending, every event that was taken is done with and
`rnb_connected` is what their bus states leave. -/
theorem settles (img : Image α) (app : α) {as : List Act} {n : Node α}
    (hr : (machine img app).run as = some n) : Settles img app as n := by
  have hdesc : (machine img app).Descends Own workLeft fun _ => True :=
    fun _ _ _ _ ha hs => ⟨workLeft_step ha hs, trivial⟩
  constructor
  case bounded =>
    intro bs n' hown hbs
    have hlen := hdesc.length_le trivial hown hbs
    have hle := workLeft_le (held_of_run hr) (nodup_of_run hr)
    omega
  case comes => exact hdesc.exists_resting trivial
  case done =>
    intro bs n' hown hbs hrest
    have hr' : (machine img app).run (as ++ bs) = some n' :=
      (Machine.runFrom_append bs hr).trans hbs
    have hat := atRest_of_resting (held_of_run hr') hrest
    have hcopied : (machine img app).observe copied (boot app) (as ++ bs)
        = (machine img app).observe copied (boot app) as := by
      refine (Machine.observe_append bs hr).trans ?_
      rw [observe_copied_own hown, List.append_nil]
      rfl
    have hfinished := finished_run hr'
    have hheld : n'.held = [] := by rw [held, SlotPool.held, hat.thread, hat.fifo]; rfl
    rw [hcopied, hheld, argsOf, List.map_nil, List.append_nil] at hfinished
    refine ⟨hat, hfinished, rnbConnected_eq_flagAfter hr' ?_⟩
    intro slot line ht
    rw [hat.thread] at ht
    cases ht

/-- The button is pressed, and the bus stops and is joined before the first item has begun. -/
def busyRun : List Act :=
  [.initialized, .start, .report (.newState 0 1)] ++ Act.utilsTimes 3 ++
    [.report (.newState 3 1), .report emptyPayload]

theorem settles_busyRun : ∃ n, (machine .plain .undefined).run busyRun = some n ∧
    n.running = none ∧ n.pending = [.otInitWork] ∧ n.pool.fifo.length = 2 ∧
    Settles .plain .undefined busyRun n := by
  obtain ⟨n, hr, hn⟩ := (Option.any_eq_true (fun n : Node UserRole =>
    decide (n.running = none ∧ n.pending = [.otInitWork] ∧ n.pool.fifo.length = 2))
    ((machine .plain .undefined).run busyRun)).mp (by decide +kernel)
  obtain ⟨hrunning, hpending, hfifo⟩ := of_decide_eq_true hn
  exact ⟨n, hr, hrunning, hpending, hfifo, settles .plain .undefined hr⟩

end Node

end RedNodeBus.Utils

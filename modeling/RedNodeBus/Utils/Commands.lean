import RedNodeBus.Utils.Node

/-!
# Start and stop commands

`rnb_utils_start` and `rnb_utils_stop` submit two different work items, which
coalesce each on its own.  `Heads n` is what `rnb_started` will be once the queue has
drained: the last of the two items in the queue decides, or the handler that runs.
A handler moves towards it and changes nothing about it (`heads_work`), and a command
sets it, unless the command's own item is pending already with the other one behind
it (`Overtaken`); then the command is lost.

`rnbStarted_iff_not_overtaken` is the consequence: a drained queue leaves
`rnb_started` as the last command wants it exactly if that command was not overtaken.
-/

namespace RedNodeBus.Utils

open WorkQueue

namespace Node

variable {α : Type} {img : Image α} {n n' : Node α}

/-! ## Calls -/

/-- A call of `rnb_utils_start` (`start := true`) or `rnb_utils_stop`; `overtaken` says
that it found its own item pending in front of the other one. -/
structure Call where
  start : Bool
  overtaken : Bool
  deriving DecidableEq, Repr

def commandWork (start : Bool) : OtWork := if start then .otInitWork else .otDeinitWork

/-- The command finds its own item pending in front of the other one. -/
def Overtaken (start : Bool) (n : Node α) : Prop :=
  Ahead (commandWork start) (commandWork !start) n.pending

instance (start : Bool) (n : Node α) : Decidable (Overtaken start n) :=
  inferInstanceAs (Decidable (Ahead _ _ _))

/-- The command a step gives to an initialised node: by a caller, or by the utils
thread when the node is configured. -/
def command (n : Node α) : Act → Option Bool
  | .start => if n.rnbInitialized then some true else none
  | .stop => if n.rnbInitialized then some false else none
  | .utils _ => if n.rnbInitialized ∧ n.At .callStart then some true else none
  | _ => none

def call (n : Node α) (a : Act) : Option Call :=
  (n.command a).map fun start => ⟨start, decide (Overtaken start n)⟩

/-- The calls of `otIp6SetEnabled` and `otThreadSetEnabled` return
`OT_ERROR_NONE`. -/
def SettersSucceed (n : Node α) : Act → Prop
  | .work ret => n.running = some .initIp6 ∨ n.running = some .deinitIp6 ∨
      n.running = some .deinitThread ∨ n.running = some .stopThread → ret = 0
  | _ => True

instance (n : Node α) : (a : Act) → Decidable (n.SettersSucceed a)
  | .work ret => inferInstanceAs (Decidable (_ → ret = 0))
  | .report _ | .utils _ | .take | .initialized | .start | .stop => isTrue trivial

/-! ## Where the queue heads -/

/-- What a handler leaves in `rnb_started`, its setters succeeding. -/
def leaves : OtWork → Bool → Bool
  | .otInitWork, _ => true
  | .otDeinitWork, _ => false
  | .otStartWork, d | .otStopWork, d => d

/-- What the handlers of a queue leave, one after the other. -/
def queueHeads : List OtWork → Bool → Bool
  | [], d => d
  | w :: q, d => queueHeads q (leaves w d)

/-- What the rest of the running handler leaves in `rnb_started`. -/
def handlerHeads (running : Option HandlerAt) (rnbStarted : Bool) : Bool :=
  match running with
  | some (.initIp6Ret error) => if error = 0 then true else rnbStarted
  | some (.deinitIp6Ret error) => if error = 0 then false else rnbStarted
  | some pc => leaves pc.work rnbStarted
  | none => rnbStarted

/-- What `rnb_started` will be when the queue has drained. -/
def heads (n : Node α) : Bool :=
  queueHeads n.pending (handlerHeads n.running n.ot.rnbStarted)

theorem leaves_commandWork (start d : Bool) : leaves (commandWork start) d = start := by
  cases start <;> rfl

theorem leaves_of_ne {w : OtWork} {start : Bool} (h : w ≠ commandWork start)
    (h' : w ≠ commandWork !start) (d : Bool) : leaves w d = d := by
  cases start <;> cases w <;> simp_all [commandWork, leaves]

theorem queueHeads_append (q q' : List OtWork) (d : Bool) :
    queueHeads (q ++ q') d = queueHeads q' (queueHeads q d) := by
  induction q generalizing d with
  | nil => rfl
  | cons w q ih => exact ih _

theorem queueHeads_of_not_mem (start : Bool) {q : List OtWork} (h : commandWork start ∉ q)
    (h' : commandWork (!start) ∉ q) (d : Bool) : queueHeads q d = d := by
  induction q generalizing d with
  | nil => rfl
  | cons w q ih =>
    rw [List.mem_cons, not_or] at h h'
    rw [queueHeads, leaves_of_ne (Ne.symm h.1) (Ne.symm h'.1), ih h.2 h'.2]

theorem queueHeads_of_mem (start : Bool) {q : List OtWork} (hq : q.Nodup)
    (h : commandWork start ∈ q) (h' : commandWork (!start) ∉ q) (d : Bool) :
    queueHeads q d = start := by
  induction q generalizing d with
  | nil => simp at h
  | cons w q ih =>
    rw [List.nodup_cons] at hq
    rw [List.mem_cons, not_or] at h'
    rw [queueHeads]
    rcases List.mem_cons.mp h with rfl | hm
    · rw [leaves_commandWork, queueHeads_of_not_mem start hq.1 h'.2]
    · exact ih hq.2 hm h'.2 _

/-- A pending item decides unless the other one is behind it. -/
theorem queueHeads_eq_iff (start : Bool) {q : List OtWork} (hq : q.Nodup)
    (h : commandWork start ∈ q) (d : Bool) :
    queueHeads q d = start ↔ ¬ Ahead (commandWork start) (commandWork !start) q := by
  induction q generalizing d with
  | nil => simp at h
  | cons w q ih =>
    have hw := (List.nodup_cons.mp hq).1
    have hq' := (List.nodup_cons.mp hq).2
    rw [queueHeads, ahead_cons]
    by_cases he : w = commandWork start
    · subst he
      have hno : ¬ Ahead (commandWork start) (commandWork !start) q := fun ha => hw ha.mem_left
      by_cases hm : commandWork (!start) ∈ q
      · have := queueHeads_of_mem (!start) hq' hm (by simpa using hw)
          (leaves (commandWork start) d)
        simp [this, hm]
      · rw [leaves_commandWork, queueHeads_of_not_mem start hw hm]
        simp [hm, hno]
    · have hm := (List.mem_cons.mp h).resolve_left (Ne.symm he)
      rw [ih hq' hm]
      simp [he]

/-- **A command sets where the queue heads**, unless it is overtaken. -/
theorem queueHeads_submit (start : Bool) {q : List OtWork} (hq : q.Nodup) (d : Bool) :
    queueHeads (submit (commandWork start) q) d = start ↔
      ¬ Ahead (commandWork start) (commandWork !start) q := by
  by_cases h : commandWork start ∈ q
  · rw [submit_of_mem h, queueHeads_eq_iff start hq h]
  · rw [submit_of_not_mem h, queueHeads_append]
    have hno : ¬ Ahead (commandWork start) (commandWork !start) q := fun ha => h ha.mem_left
    simp [queueHeads, leaves_commandWork, hno]

theorem queueHeads_submit_other {w : OtWork} (hw : w = .otStartWork ∨ w = .otStopWork)
    (q : List OtWork) (d : Bool) : queueHeads (submit w q) d = queueHeads q d := by
  by_cases h : w ∈ q
  · rw [submit_of_mem h]
  · rw [submit_of_not_mem h, queueHeads_append]
    rcases hw with rfl | rfl <;> rfl

/-! ## The steps -/

theorem heads_take (h : step img n .take = some n') : n'.heads = n.heads := by
  obtain ⟨w, rest, hrun, hpend, rfl⟩ := take_cases h
  simp only [heads, hrun, hpend, queueHeads]
  cases w <;> rfl

theorem heads_work {ret : Int} (hok : n.SettersSucceed (.work ret))
    (h : step img n (.work ret) = some n') : n'.heads = n.heads := by
  obtain ⟨pc, hpc, rfl⟩ := work_cases h
  simp only [heads, hpc, SettersSucceed, Option.some.injEq] at hok ⊢
  congr 1
  cases pc with
  | initIp6 => simp [handlerStep, handlerHeads, HandlerAt.work, leaves, hok]
  | deinitIp6 => simp [handlerStep, handlerHeads, HandlerAt.work, leaves, hok]
  | initIp6Ret error | deinitIp6Ret error =>
    by_cases he : error = 0 <;> simp [handlerStep, handlerHeads, he]
  | initTest | deinitTest =>
    cases hs : n.ot.rnbStarted <;> simp [handlerStep, handlerHeads, HandlerAt.work, leaves, hs]
  | deinitThread | deinitThreadRet error => rfl
  | startCall | stopThread | stopClear =>
    simp [handlerStep, handlerHeads, HandlerAt.work, leaves]
  | startTest | startRet error | stopTest =>
    simp only [handlerStep]
    split <;> simp [handlerHeads, HandlerAt.work, leaves]

theorem heads_of_eq (hot : n'.ot = n.ot) (hrun : n'.running = n.running)
    (hp : n'.pending = n.pending) : n'.heads = n.heads := by
  rw [heads, hot, hrun, hp, heads]

theorem heads_rnbUtilsStart (hn : n.pending.Nodup) (hi : n.rnbInitialized = true)
    (hot : n'.ot = n.ot) (hrun : n'.running = n.running)
    (hp : n'.pending = n.rnbUtilsStart.pending) : n'.heads = true ↔ ¬ Overtaken true n := by
  rw [rnbUtilsStart, if_pos hi] at hp
  rw [heads, hot, hrun, hp]
  exact queueHeads_submit true hn _

theorem heads_rnbUtilsStop (hn : n.pending.Nodup) (hi : n.rnbInitialized = true)
    (hot : n'.ot = n.ot) (hrun : n'.running = n.running)
    (hp : n'.pending = n.rnbUtilsStop.pending) : n'.heads = false ↔ ¬ Overtaken false n := by
  rw [rnbUtilsStop, if_pos hi] at hp
  rw [heads, hot, hrun, hp]
  exact queueHeads_submit false hn _

theorem heads_submit_other {w : OtWork} (hw : w = .otStartWork ∨ w = .otStopWork)
    (hot : n'.ot = n.ot) (hrun : n'.running = n.running) (hp : n'.pending = submit w n.pending) :
    n'.heads = n.heads := by
  rw [heads, hot, hrun, hp, queueHeads_submit_other hw, heads]

theorem heads_step_quiet {a : Act} (hc : n.command a = none) (hh : n'.heads = n.heads) :
    (n.command a = none → n'.heads = n.heads) ∧
      ∀ start, n.command a = some start → (n'.heads = start ↔ ¬ Overtaken start n) := by
  refine ⟨fun _ => hh, ?_⟩
  intro start hs
  rw [hc] at hs
  cases hs

theorem heads_step_command {a : Act} {start : Bool} (hc : n.command a = some start)
    (hh : n'.heads = start ↔ ¬ Overtaken start n) :
    (n.command a = none → n'.heads = n.heads) ∧
      ∀ start, n.command a = some start → (n'.heads = start ↔ ¬ Overtaken start n) := by
  rw [hc]
  constructor
  · intro hs
    cases hs
  · intro start' hs
    obtain rfl := Option.some.inj hs
    exact hh

theorem command_utils {ret : Int} (hn : ¬ (n.rnbInitialized = true ∧ n.At .callStart)) :
    n.command (.utils ret) = none := if_neg hn

/-- **A step that gives no command leaves where the queue heads**, and one that does
sets it unless the command is overtaken. -/
theorem heads_step {a : Act} (hn : n.pending.Nodup) (hok : n.SettersSucceed a)
    (h : step img n a = some n') :
    (n.command a = none → n'.heads = n.heads) ∧
      ∀ start, n.command a = some start → (n'.heads = start ↔ ¬ Overtaken start n) := by
  cases a with
  | report r =>
    obtain rfl := Option.some.inj h
    exact heads_step_quiet rfl rfl
  | take => exact heads_step_quiet rfl (heads_take h)
  | work ret => exact heads_step_quiet rfl (heads_work hok h)
  | initialized =>
    obtain ⟨-, rfl⟩ := initialized_cases h
    exact heads_step_quiet rfl rfl
  | start =>
    obtain rfl := Option.some.inj h
    by_cases hi : n.rnbInitialized = true
    · refine heads_step_command (if_pos hi) ?_
      rw [rnbUtilsStart_eq]
      exact heads_rnbUtilsStart hn hi rfl rfl rfl
    · rw [rnbUtilsStart, if_neg hi]
      exact heads_step_quiet (if_neg hi) rfl
  | stop =>
    obtain rfl := Option.some.inj h
    by_cases hi : n.rnbInitialized = true
    · refine heads_step_command (if_pos hi) ?_
      rw [rnbUtilsStop_eq]
      exact heads_rnbUtilsStop hn hi rfl rfl rfl
    · rw [rnbUtilsStop, if_neg hi]
      exact heads_step_quiet (if_neg hi) rfl
  | utils ret =>
    obtain ⟨hot, hrun, -⟩ := utils_frame h
    cases utils_move h with
    | quiet _ hp _ hno _ =>
      have hc : n.command (.utils ret) = none := command_utils fun hc => hno hc.2
      exact heads_step_quiet hc (heads_of_eq hot hrun hp)
    | setConnected hat _ hp _ | clearConnected hat _ hp _ =>
      have hc : n.command (.utils ret) = none := command_utils fun hc => hat.ne (by decide) hc.2
      exact heads_step_quiet hc (heads_of_eq hot hrun hp)
    | submitStart hat _ hp _ =>
      have hc : n.command (.utils ret) = none := command_utils fun hc => hat.ne (by decide) hc.2
      exact heads_step_quiet hc (heads_submit_other (Or.inl rfl) hot hrun hp)
    | submitStop hat _ hp _ =>
      have hc : n.command (.utils ret) = none := command_utils fun hc => hat.ne (by decide) hc.2
      exact heads_step_quiet hc (heads_submit_other (Or.inr rfl) hot hrun hp)
    | callStart hat _ hp _ =>
      by_cases hi : n.rnbInitialized = true
      · have hc : n.command (.utils ret) = some true := if_pos ⟨hi, hat⟩
        exact heads_step_command hc (heads_rnbUtilsStart hn hi hot hrun hp)
      · have hc : n.command (.utils ret) = none := command_utils fun hc => hi hc.1
        rw [rnbUtilsStart, if_neg hi] at hp
        exact heads_step_quiet hc (heads_of_eq hot hrun hp)

/-- **What a command does**: the item it submits is pending after the call. -/
theorem pending_of_command {a : Act} {start : Bool} (hc : n.command a = some start)
    (h : step img n a = some n') : commandWork start ∈ n'.pending := by
  cases a with
  | report r | take | work ret | initialized => cases hc
  | start =>
    obtain ⟨hi, hs⟩ := Option.ite_none_right_eq_some.mp hc
    obtain rfl := Option.some.inj hs
    obtain rfl := Option.some.inj h
    rw [rnbUtilsStart, if_pos hi]
    exact mem_submit.mpr (Or.inl rfl)
  | stop =>
    obtain ⟨hi, hs⟩ := Option.ite_none_right_eq_some.mp hc
    obtain rfl := Option.some.inj hs
    obtain rfl := Option.some.inj h
    rw [rnbUtilsStop, if_pos hi]
    exact mem_submit.mpr (Or.inl rfl)
  | utils ret =>
    obtain ⟨⟨hi, hat⟩, hs⟩ := Option.ite_none_right_eq_some.mp hc
    obtain rfl := Option.some.inj hs
    cases utils_move h with
    | callStart _ _ hp =>
      rw [hp, rnbUtilsStart, if_pos hi]
      exact mem_submit.mpr (Or.inl rfl)
    | quiet _ _ _ hno => exact absurd hat hno
    | setConnected hat' | submitStart hat' | submitStop hat' | clearConnected hat' =>
      exact absurd hat (hat'.ne (by decide))

theorem command_of_pending {a : Act} {start : Bool} (h : step img n a = some n')
    (hp : commandWork start ∈ n'.pending) :
    commandWork start ∈ n.pending ∨ n.command a = some start := by
  cases a with
  | report r =>
    obtain rfl := Option.some.inj h
    exact Or.inl hp
  | take =>
    obtain ⟨w, rest, -, hpend, rfl⟩ := take_cases h
    exact Or.inl (hpend ▸ List.mem_cons_of_mem w hp)
  | work ret =>
    obtain ⟨pc, -, rfl⟩ := work_cases h
    exact Or.inl hp
  | initialized =>
    obtain ⟨-, rfl⟩ := initialized_cases h
    exact Or.inl hp
  | start =>
    obtain rfl := Option.some.inj h
    by_cases hi : n.rnbInitialized = true
    · rw [rnbUtilsStart, if_pos hi] at hp
      rcases mem_submit.mp hp with hw | hw
      · cases start
        · cases hw
        · exact Or.inr (if_pos hi)
      · exact Or.inl hw
    · rw [rnbUtilsStart, if_neg hi] at hp
      exact Or.inl hp
  | stop =>
    obtain rfl := Option.some.inj h
    by_cases hi : n.rnbInitialized = true
    · rw [rnbUtilsStop, if_pos hi] at hp
      rcases mem_submit.mp hp with hw | hw
      · cases start
        · exact Or.inr (if_pos hi)
        · cases hw
      · exact Or.inl hw
    · rw [rnbUtilsStop, if_neg hi] at hp
      exact Or.inl hp
  | utils ret =>
    cases utils_move h with
    | quiet _ hq | setConnected _ _ hq | clearConnected _ _ hq => exact Or.inl (hq ▸ hp)
    | submitStart _ _ hq | submitStop _ _ hq =>
      rcases mem_submit.mp (hq ▸ hp) with hw | hw
      · cases start <;> cases hw
      · exact Or.inl hw
    | callStart hat _ hq =>
      rw [hq] at hp
      by_cases hi : n.rnbInitialized = true
      · rw [rnbUtilsStart, if_pos hi] at hp
        rcases mem_submit.mp hp with hw | hw
        · cases start
          · cases hw
          · exact Or.inr (if_pos ⟨hi, hat⟩)
        · exact Or.inl hw
      · rw [rnbUtilsStart, if_neg hi] at hp
        exact Or.inl hp

/-! ## The last command -/

/-- The queue heads where the last command wants, unless that was overtaken. -/
def LastCall (calls : List Call) (n : Node α) : Prop :=
  n.pending.Nodup ∧
    ∀ c, calls.getLast? = some c → (n.heads = c.start ↔ c.overtaken = false)

theorem lastCall_step {calls : List Call} {a : Act} (hI : LastCall calls n)
    (hok : n.SettersSucceed a) (h : step img n a = some n') :
    LastCall (calls ++ (n.call a).toList) n' := by
  obtain ⟨hn, hlast⟩ := hI
  obtain ⟨hkeep, hset⟩ := heads_step hn hok h
  refine ⟨nodup_step hn h, ?_⟩
  intro c hc
  cases hcmd : n.command a with
  | none =>
    rw [call, hcmd, Option.map_none, Option.toList_none, List.append_nil] at hc
    rw [hkeep hcmd]
    exact hlast c hc
  | some start =>
    rw [call, hcmd, Option.map_some, Option.toList_some, List.getLast?_concat] at hc
    obtain rfl := Option.some.inj hc
    rw [hset start hcmd]
    exact decide_eq_false_iff_not.symm

/-- **The last command wins exactly if it was not overtaken**: once the queue has
drained, `rnb_started` is what the last call of `rnb_utils_start` or `rnb_utils_stop`
asked for if and only if that call did not find its own item pending in front of the
other one. -/
theorem rnbStarted_iff_not_overtaken (img : Image α) (app : α) {as : List Act} {n : Node α}
    (hr : (machine img app).run as = some n)
    (hok : (machine img app).Along (fun n a => n.SettersSucceed a) (boot app) as)
    (hp : n.pending = []) (hrun : n.running = none) {c : Call}
    (hc : ((machine img app).observe call (boot app) as).getLast? = some c) :
    n.ot.rnbStarted = c.start ↔ c.overtaken = false := by
  have hboot : LastCall [] (boot app) := ⟨List.nodup_nil, by simp⟩
  have hI := Machine.history_invariant (f := call) (I := LastCall)
    (fun _ _ _ _ => lastCall_step) hboot hok hr
  have := hI.2 c hc
  simpa [heads, hp, hrun, queueHeads, handlerHeads] using this

/-- Started, and stopped again after the queue drained. -/
def startStopRun : List Act :=
  [.initialized, .start, .take] ++ List.replicate 3 (.work 0) ++ [.stop, .take] ++
    List.replicate 5 (.work 0)

theorem rnbStarted_iff_not_overtaken_startStopRun :
    ∃ n, (machine .plain .undefined).run startStopRun = some n ∧
      n.ot.rnbStarted = false := by
  obtain ⟨n, hr, hn⟩ := (Option.any_eq_true (fun n : Node UserRole =>
    decide (n.pending = [] ∧ n.running = none)) ((machine .plain .undefined).run startStopRun)).mp
    (by decide)
  obtain ⟨hp, hrun⟩ := of_decide_eq_true hn
  exact ⟨n, hr, (rnbStarted_iff_not_overtaken .plain .undefined hr (by decide) hp hrun
    (c := ⟨false, false⟩) (by decide)).mpr rfl⟩

/-- Start, stop and start again before the queue runs: the second start is the first
one, in front of the stop. -/
def overtakenRun : List Act :=
  [.initialized, .start, .stop, .start, .take] ++ List.replicate 3 (.work 0) ++ [.take] ++
    List.replicate 5 (.work 0)

theorem last_start_lost :
    ¬ ∀ (as : List Act) (n : Node UserRole) (c : Call),
      (machine .plain .undefined).run as = some n →
      (machine .plain .undefined).Along (fun n a => n.SettersSucceed a) (boot .undefined) as →
      n.pending = [] → n.running = none →
      ((machine .plain .undefined).observe call (boot .undefined) as).getLast? = some c →
      n.ot.rnbStarted = c.start := by
  intro h
  obtain ⟨n, hr, hn⟩ := (Option.any_eq_true (fun n : Node UserRole =>
    decide (n.pending = [] ∧ n.running = none ∧ n.ot.rnbStarted = false))
    ((machine .plain .undefined).run overtakenRun)).mp (by decide +kernel)
  obtain ⟨hp, hrun, hs⟩ := of_decide_eq_true hn
  rw [h overtakenRun n ⟨true, true⟩ hr (by decide) hp hrun (by decide)] at hs
  cases hs

end Node

end RedNodeBus.Utils

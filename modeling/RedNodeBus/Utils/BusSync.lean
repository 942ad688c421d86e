import RedNodeBus.Utils.Node

/-!
# OpenThread follows the bus, and where it does not

OpenThread is to run while the bus is connected.  The `CONNECTED` branch of
`process_rnb_utils_event` writes `rnb_connected` and then submits `ot_start_work`,
whose handler tests the flag again; the `UNSYNCHRONIZED` branch submits
`ot_stop_work` and then writes the flag, and its handler tests nothing.  Each item
coalesces on its own, and this breaks the two directions in two ways.

* `StartsInWindow`: the stop submitted by an `UNSYNCHRONIZED` event was pending
  already, in front of a start; both run before the flag is written, and the start
  still finds the bus connected.  Without such a step a quiescent node with
  OpenThread started is connected (`connected_of_otStarted`).
* `StartCoalesced`: the start submitted by a `CONNECTED` event was pending already,
  in front of a stop, which then runs last.  Without such a step a quiescent node
  that is connected has OpenThread started (`otStarted_of_connected`).
-/

namespace RedNodeBus.Utils

open WorkQueue

namespace Node

variable {α : Type} {img : Image α} {n n' : Node α}

/-! ## Stopping -/

/-- OpenThread is started, or the start handler has passed its test and not failed. -/
def OtLive (n : Node α) : Prop :=
  n.ot.otStarted = true ∨ n.running = some .startCall ∨ n.running = some (.startRet 0)

/-- The stop handler is pending or running. -/
def StopDue (n : Node α) : Prop :=
  .otStopWork ∈ n.pending ∨ n.current = some .otStopWork

/-- The start handler passes its test while the thread is between the submission of
`ot_stop_work` and the write of `rnb_connected`, and no stop is pending. -/
def StartsInWindow (n : Node α) : Act → Prop
  | .work _ => n.running = some .startTest ∧ n.rnbConnected = true ∧ n.ot.otStarted = false ∧
      n.At .clearConnected ∧ .otStopWork ∉ n.pending
  | _ => False

instance (n : Node α) : (a : Act) → Decidable (n.StartsInWindow a)
  | .work _ => inferInstanceAs (Decidable (_ ∧ _))
  | .report _ | .utils _ | .take | .initialized | .start | .stop => isFalse id

/-- Once the bus is lost, a live OpenThread has a stop coming. -/
def StopInv (n : Node α) : Prop :=
  n.rnbConnected = false ∨ n.At .clearConnected → n.OtLive → n.StopDue

/-- OpenThread comes to life only where the start handler passes its test. -/
theorem otLive_work {ret : Int} (h : step img n (.work ret) = some n') (hlive : n'.OtLive) :
    n.OtLive ∨ n.running = some .startTest ∧ n.rnbConnected = true ∧ n.ot.otStarted = false := by
  obtain ⟨pc, hpc, rfl⟩ := work_cases h
  simp only [OtLive, hpc] at hlive ⊢
  cases pc with
  | startTest =>
    cases hc : n.rnbConnected <;> cases ho : n.ot.otStarted <;>
      simp [handlerStep, hc, ho] at hlive ⊢
  | startCall => exact Or.inl (Or.inr (Or.inl rfl))
  | startRet ret' =>
    by_cases hret : ret' = 0
    · exact Or.inl (Or.inr (Or.inr (by rw [hret])))
    · have hl : n.ot.otStarted = true := by simpa [handlerStep, hret] using hlive
      exact Or.inl (Or.inl hl)
  | initTest | deinitTest | stopTest =>
    have hl : n.ot.otStarted = true := by
      simp only [handlerStep] at hlive
      split at hlive <;> simpa using hlive
    exact Or.inl (Or.inl hl)
  | initIp6Ret error | deinitIp6Ret error =>
    have hl : n.ot.otStarted = true := by
      simpa [handlerStep, apply_ite OtState.otStarted] using hlive
    exact Or.inl (Or.inl hl)
  | deinitThreadRet error =>
    have hl : error ≠ 0 ∧ n.ot.otStarted = true := by
      simpa [handlerStep, apply_ite OtState.otStarted] using hlive
    exact Or.inl (Or.inl hl.2)
  | initIp6 | deinitThread | deinitIp6 | stopThread =>
    have hl : n.ot.otStarted = true := by simpa [handlerStep] using hlive
    exact Or.inl (Or.inl hl)
  | stopClear => simp [handlerStep] at hlive

/-- A stop that is due stays due until its handler has ended, and then OpenThread is not
live. -/
theorem stopDue_work {ret : Int} (h : step img n (.work ret) = some n') (hdue : n.StopDue) :
    n'.StopDue ∨ ¬ n'.OtLive := by
  obtain ⟨pc, hpc, rfl⟩ := work_cases h
  rcases hdue with hpend | hcur
  · exact Or.inl (Or.inl hpend)
  · simp only [current, hpc, Option.map_some, Option.some.injEq] at hcur
    cases pc with
    | stopTest =>
      cases ho : n.ot.otStarted with
      | true => exact Or.inl (Or.inr (by simp [current, handlerStep, ho, HandlerAt.work]))
      | false => exact Or.inr (by simp [OtLive, handlerStep, ho])
    | stopThread => exact Or.inl (Or.inr rfl)
    | stopClear => exact Or.inr (by simp [OtLive, handlerStep])
    | initTest | initIp6 | initIp6Ret error | deinitTest | deinitThread | deinitThreadRet error
    | deinitIp6 | deinitIp6Ret error | startTest | startCall | startRet ret => cases hcur

theorem stopInv_work {ret : Int} (hI : n.StopInv) (hw : ¬ n.StartsInWindow (.work ret))
    (h : step img n (.work ret) = some n') : n'.StopInv := by
  intro hoff hlive
  have hoff' : n.rnbConnected = false ∨ n.At .clearConnected := by
    obtain ⟨pc, -, rfl⟩ := work_cases h
    exact hoff
  rcases otLive_work h hlive with hl | ⟨hrun, hc, ho⟩
  · exact (stopDue_work h (hI hoff' hl)).resolve_right fun hn => hn hlive
  · -- the test passes only in the window, and there a stop is pending
    have hat : n.At .clearConnected := hoff'.resolve_left (by rw [hc]; decide)
    have hpend : .otStopWork ∈ n.pending := by
      by_contra hno
      exact hw ⟨hrun, hc, ho, hat, hno⟩
    obtain ⟨pc, -, rfl⟩ := work_cases h
    exact Or.inl hpend

theorem stopInv_take (hI : n.StopInv) (h : step img n .take = some n') : n'.StopInv := by
  obtain ⟨w, rest, hrun, hpend, rfl⟩ := take_cases h
  intro hoff hlive
  have hdue := hI hoff
  simp only [OtLive, StopDue, current, hrun, hpend] at hdue hlive ⊢
  cases w <;> simp_all [OtWork.entry, HandlerAt.work]

/-- With more pending, and the window no wider, a stop is still coming. -/
theorem StopInv.mono (hI : n.StopInv) (hot : n'.ot = n.ot) (hrun : n'.running = n.running)
    (hpend : ∀ w ∈ n.pending, w ∈ n'.pending)
    (hoff : n'.rnbConnected = false ∨ n'.At .clearConnected →
      n.rnbConnected = false ∨ n.At .clearConnected) : n'.StopInv := by
  intro h hlive
  rw [OtLive, hot, hrun] at hlive
  rw [StopDue, current, hrun]
  exact (hI (hoff h) hlive).imp_left (hpend _)

theorem stopInv_utils {ret : Int} (hI : n.StopInv) (h : step img n (.utils ret) = some n') :
    n'.StopInv := by
  obtain ⟨hot, hrun, -⟩ := utils_frame h
  cases utils_move h with
  | quiet hc hp _ _ hn =>
    exact hI.mono hot hrun (fun w hw => hp ▸ hw) fun ho => Or.inl (hc ▸ ho.resolve_right hn.2)
  | callStart _ hc hp ht =>
    exact hI.mono hot hrun (fun w hw => hp ▸ mem_rnbUtilsStart hw)
      fun ho => Or.inl (hc ▸ ho.resolve_right (ht.ne (by decide)))
  | setConnected _ hc _ ht =>
    intro ho
    rcases ho with ho | ho
    · rw [hc] at ho
      cases ho
    · exact absurd ho (ht.ne (by decide))
  | submitStart _ hc hp ht =>
    exact hI.mono hot hrun (fun w hw => by rw [hp, mem_submit]; exact Or.inr hw)
      fun ho => Or.inl (hc ▸ ho.resolve_right (ht.ne (by decide)))
  | submitStop _ _ hp _ => exact fun _ _ => Or.inl (by rw [hp, mem_submit]; exact Or.inl rfl)
  | clearConnected hw _ hp _ => exact hI.mono hot hrun (fun w hw => hp ▸ hw) fun _ => Or.inr hw

theorem stopInv_step {a : Act} (hI : n.StopInv) (hw : ¬ n.StartsInWindow a)
    (h : step img n a = some n') : n'.StopInv := by
  cases a with
  | report r =>
    obtain rfl := Option.some.inj h
    exact hI
  | utils ret => exact stopInv_utils hI h
  | take => exact stopInv_take hI h
  | work ret => exact stopInv_work hI hw h
  | initialized =>
    obtain ⟨-, rfl⟩ := initialized_cases h
    exact hI
  | start =>
    obtain rfl := Option.some.inj h
    rw [rnbUtilsStart_eq]
    exact hI.mono rfl rfl (fun w => mem_rnbUtilsStart) id
  | stop =>
    obtain rfl := Option.some.inj h
    rw [rnbUtilsStop_eq]
    exact hI.mono rfl rfl (fun w => mem_rnbUtilsStop) id

/-- **OpenThread is not left running on an unsynchronised bus**, in a run in which no
start passes its test in the stop window. -/
theorem connected_of_otStarted (img : Image α) (app : α) {as : List Act} {n : Node α}
    (hr : (machine img app).run as = some n)
    (hw : (machine img app).Along (fun n a => ¬ n.StartsInWindow a) (boot app) as)
    (hq : n.Quiescent) (hot : n.ot.otStarted = true) : n.rnbConnected = true := by
  have hboot : (boot app).StopInv := fun _ hlive => by simp [OtLive, boot, OtState.stopped] at hlive
  have hI : n.StopInv := Machine.invariant (fun _ _ _ => stopInv_step) hboot hw hr
  by_contra hc
  rcases hI (Or.inl (by simpa using hc)) (Or.inl hot) with h | h
  · simp [hq.pending] at h
  · simp [current, hq.running] at h

/-- Booted, configured, and with the interface coming up: the work queue stands in the
init handler, at the OpenThread call. -/
def bootRun : List Act :=
  [.initialized, .report (.newState 0 0)] ++ Act.utilsTimes 8 ++ [.take, .work 0]

def connectRun : List Act :=
  bootRun ++ [.work 0, .work 0, .report (.newState 3 1)] ++ Act.utilsTimes 6 ++
    [.take, .work 0, .work 0, .work 0]

theorem connected_of_otStarted_connectRun :
    ∃ n, (machine .plain .undefined).run connectRun = some n ∧ n.Quiescent ∧
      n.ot.otStarted = true ∧ n.rnbConnected = true := by
  obtain ⟨n, hr, hn⟩ := (Option.any_eq_true (fun n : Node UserRole =>
    decide (n.Quiescent ∧ n.ot.otStarted = true)) ((machine .plain .undefined).run connectRun)).mp
    (by decide)
  obtain ⟨hq, hot⟩ := of_decide_eq_true hn
  exact ⟨n, hr, hq, hot, connected_of_otStarted .plain .undefined hr (by decide) hq hot⟩

/-- While the init handler is in its call, the bus is lost, found and lost again.  The
second stop is the first one, still pending in front of the start; both handlers run
before `rnb_connected` is cleared. -/
def lostStopRun : List Act :=
  bootRun ++ [.report (.newState 1 1), .report (.newState 3 1), .report (.newState 1 1)] ++
    Act.utilsTimes 15 ++
    [.work 0, .work 0, .take, .work 0, .take, .work 0, .work 0, .work 0] ++ Act.utilsTimes 3

theorem otStarted_unsynchronized :
    ¬ ∀ (as : List Act) (n : Node UserRole), (machine .plain .undefined).run as = some n →
      n.Quiescent → n.ot.otStarted = true → n.rnbConnected = true := by
  intro h
  obtain ⟨n, hr, hn⟩ := (Option.any_eq_true (fun n : Node UserRole =>
    decide (n.Quiescent ∧ n.ot.otStarted = true ∧ n.rnbConnected = false))
    ((machine .plain .undefined).run lostStopRun)).mp (by decide +kernel)
  obtain ⟨hq, hot, hc⟩ := of_decide_eq_true hn
  rw [h lostStopRun n hr hq hot] at hc
  cases hc

/-! ## Restarting -/

/-- The call of `openthread_start` returns `0`, and nobody calls `rnb_utils_stop`. -/
def StartSucceeds (n : Node α) : Act → Prop
  | .work ret => n.running = some .startCall → ret = 0
  | .stop => False
  | _ => True

/-- The thread submits `ot_start_work` while it is pending in front of `ot_stop_work`. -/
def StartCoalesced (n : Node α) : Act → Prop
  | .utils _ => n.At .submitStart ∧ Ahead .otStartWork .otStopWork n.pending
  | _ => False

instance (n : Node α) : (a : Act) → Decidable (n.StartSucceeds a)
  | .work ret => inferInstanceAs (Decidable (_ → ret = 0))
  | .stop => isFalse id
  | .report _ | .utils _ | .take | .initialized | .start => isTrue trivial

instance (n : Node α) : (a : Act) → Decidable (n.StartCoalesced a)
  | .utils _ => inferInstanceAs (Decidable (_ ∧ _))
  | .report _ | .work _ | .take | .initialized | .start | .stop => isFalse id

/-- Left to itself the work queue ends with OpenThread started: a start is pending
with no stop behind it, or no stop is left and the start is done or under way. -/
def StartDue (n : Node α) : Prop :=
  (.otStartWork ∈ n.pending ∧ ¬ Ahead .otStartWork .otStopWork n.pending) ∨
    (.otStopWork ∉ n.pending ∧ n.current ≠ some .otStopWork ∧
      (n.ot.otStarted = true ∨ n.running = some .startTest ∨ n.running = some .startCall ∨
        n.running = some (.startRet 0)))

/-- No deinit is under way, and while the bus is connected a start is due, unless the
thread is at one of the two statements that settle it. -/
structure StartInv (n : Node α) : Prop where
  pending : .otDeinitWork ∉ n.pending
  current : n.current ≠ some .otDeinitWork
  due : n.rnbConnected = true → n.Settled → n.StartDue

theorem startInv_take (hI : n.StartInv) (h : step img n .take = some n') : n'.StartInv := by
  obtain ⟨w, rest, hrun, hpend, rfl⟩ := take_cases h
  obtain ⟨hp, hr, hd⟩ := hI
  rw [hpend, List.mem_cons, not_or] at hp
  refine ⟨hp.2, ?_, ?_⟩
  · rw [current_take]
    exact fun he => hp.1 (Option.some.inj he).symm
  · intro hc hs
    have hdue := hd hc hs
    simp only [StartDue, current_take, hrun, hpend, ahead_cons, List.mem_cons, not_or] at hdue ⊢
    cases w with
    | otStartWork =>
      -- what was behind the start is what is pending now
      refine Or.inr ⟨?_, by simp, Or.inr (Or.inl rfl)⟩
      rcases hdue with ⟨-, hno, -⟩ | ⟨hno, -⟩
      · exact fun hm => hno ⟨rfl, hm⟩
      · exact hno.2
    | otStopWork =>
      rcases hdue with ⟨hm, -, hno⟩ | ⟨hno, -⟩
      · exact Or.inl ⟨hm.resolve_left (by decide), hno⟩
      · exact absurd rfl hno.1
    | otInitWork =>
      rcases hdue with ⟨hm, -, hno⟩ | ⟨hno, -, hlive⟩
      · exact Or.inl ⟨hm.resolve_left (by decide), hno⟩
      · exact Or.inr ⟨hno.2, by simp, Or.inl (by simpa using hlive)⟩
    | otDeinitWork => exact absurd rfl hp.1

theorem startInv_work {ret : Int} (hI : n.StartInv) (hok : n.StartSucceeds (.work ret))
    (h : step img n (.work ret) = some n') : n'.StartInv := by
  have hcur := current_work h
  obtain ⟨pc, hpc, rfl⟩ := work_cases h
  obtain ⟨hp, hr, hd⟩ := hI
  refine ⟨hp, ?_, ?_⟩
  · intro he
    rcases hcur with hn | hn
    · simp [hn] at he
    · exact hr (hn.symm.trans he)
  · intro hc hs
    refine (hd hc hs).imp_right ?_
    rintro ⟨hstop, hnstop, hlive⟩
    refine ⟨hstop, ?_, ?_⟩
    · intro he
      rcases hcur with hn | hn
      · simp [hn] at he
      · exact hnstop (hn.symm.trans he)
    · simp only [hpc, Option.some.injEq, StartSucceeds, Node.current, Option.map_some, ne_eq]
        at hlive hok hr hnstop ⊢
      change n.rnbConnected = true at hc
      cases pc with
      | startTest => cases ho : n.ot.otStarted <;> simp [handlerStep, hc, ho]
      | startCall => simp [handlerStep, hok rfl]
      | startRet ret =>
        rcases hlive with ho | ho | ho | ho
        · by_cases hret : ret = 0 <;> simp [handlerStep, ho, hret]
        · cases ho
        · cases ho
        · simp [handlerStep, HandlerAt.startRet.inj ho]
      | initTest | initIp6 | initIp6Ret error =>
        -- the init handler does not touch `ot_started`
        have ho : n.ot.otStarted = true := by simpa using hlive
        exact Or.inl (by simp [handlerStep, apply_ite OtState.otStarted, ho])
      | deinitTest | deinitThread | deinitThreadRet error | deinitIp6 | deinitIp6Ret error =>
        exact absurd rfl hr
      | stopTest | stopThread | stopClear => exact absurd rfl hnstop

/-- Submitting an item other than the stop and the deinit keeps a start due. -/
theorem StartDue.submit {w : OtWork} (hd : n.StartDue) (hw : w ≠ .otStopWork)
    (hot : n'.ot = n.ot) (hrun : n'.running = n.running)
    (hp : n'.pending = WorkQueue.submit w n.pending) : n'.StartDue := by
  simp only [StartDue, Node.current, hot, hrun, hp, mem_submit, ahead_submit] at hd ⊢
  refine hd.imp ?_ ?_
  · rintro ⟨hm, hno⟩
    exact ⟨Or.inr hm, fun ha => hno (ha.resolve_right fun hk => hw hk.1)⟩
  · rintro ⟨hno, hrest⟩
    exact ⟨fun hm => hno (hm.resolve_left (Ne.symm hw)), hrest⟩

theorem StartDue.of_eq (hd : n.StartDue) (hot : n'.ot = n.ot) (hrun : n'.running = n.running)
    (hp : n'.pending = n.pending) : n'.StartDue := by
  simpa only [StartDue, Node.current, hot, hrun, hp] using hd

theorem StartDue.rnbUtilsStart (hd : n.StartDue) (hot : n'.ot = n.ot)
    (hrun : n'.running = n.running) (hp : n'.pending = n.rnbUtilsStart.pending) :
    n'.StartDue := by
  rw [Node.rnbUtilsStart] at hp
  split at hp
  · exact hd.submit (by decide) hot hrun hp
  · exact hd.of_eq hot hrun hp

theorem not_mem_rnbUtilsStart (h : .otDeinitWork ∉ n.pending) :
    .otDeinitWork ∉ n.rnbUtilsStart.pending := by
  rw [Node.rnbUtilsStart]
  split
  · simpa using h
  · exact h

theorem startInv_utils {ret : Int} (hI : n.StartInv) (hco : ¬ n.StartCoalesced (.utils ret))
    (h : step img n (.utils ret) = some n') : n'.StartInv := by
  obtain ⟨hot, hrun, -⟩ := utils_frame h
  obtain ⟨hp, hr, hd⟩ := hI
  have hr' : n'.current ≠ some .otDeinitWork := by rwa [Node.current, hrun]
  cases utils_move h with
  | quiet hc hp' hn _ _ =>
    exact ⟨hp' ▸ hp, hr', fun hc' _ => (hd (hc ▸ hc') hn).of_eq hot hrun hp'⟩
  | callStart hat hc hp' ht =>
    refine ⟨hp' ▸ not_mem_rnbUtilsStart hp, hr', ?_⟩
    intro hc' _
    exact (hd (hc ▸ hc') (hat.settled (by decide) (by decide))).rnbUtilsStart hot hrun hp'
  | setConnected _ hc hp' ht => exact ⟨hp' ▸ hp, hr', fun _ hn => absurd ht hn.1⟩
  | submitStart hat hc hp' ht =>
    refine ⟨?_, hr', fun _ _ => Or.inl ⟨?_, ?_⟩⟩
    · rw [hp', mem_submit]
      exact fun hm => hp (hm.resolve_left (by decide))
    · rw [hp', mem_submit]
      exact Or.inl rfl
    · rw [hp', ahead_submit]
      rintro (ha | hk)
      · exact hco ⟨hat, ha⟩
      · exact absurd hk.1 (by decide)
  | submitStop _ hc hp' ht =>
    refine ⟨?_, hr', fun _ hn => absurd ht hn.2⟩
    rw [hp', mem_submit]
    exact fun hm => hp (hm.resolve_left (by decide))
  | clearConnected _ hc hp' _ =>
    refine ⟨hp' ▸ hp, hr', ?_⟩
    intro hc'
    rw [hc] at hc'
    cases hc'

theorem startInv_step {a : Act} (hI : n.StartInv)
    (ha : n.StartSucceeds a ∧ ¬ n.StartCoalesced a) (h : step img n a = some n') :
    n'.StartInv := by
  obtain ⟨hok, hco⟩ := ha
  cases a with
  | report r =>
    obtain rfl := Option.some.inj h
    exact ⟨hI.pending, hI.current, hI.due⟩
  | utils ret => exact startInv_utils hI hco h
  | take => exact startInv_take hI h
  | work ret => exact startInv_work hI hok h
  | initialized =>
    obtain ⟨-, rfl⟩ := initialized_cases h
    exact ⟨hI.pending, hI.current, hI.due⟩
  | start =>
    obtain rfl := Option.some.inj h
    rw [rnbUtilsStart_eq]
    exact ⟨not_mem_rnbUtilsStart hI.pending, hI.current,
      fun hc hn => (hI.due hc hn).rnbUtilsStart rfl rfl rfl⟩
  | stop => exact hok.elim

/-- **A reconnection is not lost**, in a run in which no start is coalesced into one
pending in front of a stop. -/
theorem otStarted_of_connected (img : Image α) (app : α) {as : List Act} {n : Node α}
    (hr : (machine img app).run as = some n)
    (hok : (machine img app).Along (fun n a => n.StartSucceeds a) (boot app) as)
    (hco : (machine img app).Along (fun n a => ¬ n.StartCoalesced a) (boot app) as)
    (hq : n.Quiescent) (hc : n.rnbConnected = true) : n.ot.otStarted = true := by
  have hboot : (boot app).StartInv := ⟨by simp [boot], by simp [Node.current, boot], nofun⟩
  have hI : n.StartInv :=
    Machine.invariant (fun _ _ _ => startInv_step) hboot (Machine.along_and hok hco) hr
  rcases hI.due hc (settled_of_fifoGet hq.thread) with ⟨hm, -⟩ | ⟨-, -, hlive⟩
  · simp [hq.pending] at hm
  · simpa [hq.running] using hlive

theorem otStarted_of_connected_connectRun :
    ∃ n, (machine .plain .undefined).run connectRun = some n ∧ n.Quiescent ∧
      n.rnbConnected = true ∧ n.ot.otStarted = true := by
  obtain ⟨n, hr, hn⟩ := (Option.any_eq_true (fun n : Node UserRole =>
    decide (n.Quiescent ∧ n.rnbConnected = true)) ((machine .plain .undefined).run connectRun)).mp
    (by decide)
  obtain ⟨hq, hc⟩ := of_decide_eq_true hn
  exact ⟨n, hr, hq, hc,
    otStarted_of_connected .plain .undefined hr (by decide) (by decide) hq hc⟩

/-- While the init handler is in its call, the bus is found, lost and found again.  The
second start is the first one, still pending in front of the stop. -/
def lostStartRun : List Act :=
  bootRun ++ [.report (.newState 3 1), .report (.newState 1 1), .report (.newState 3 1)] ++
    Act.utilsTimes 18 ++
    [.work 0, .work 0, .take, .work 0, .work 0, .work 0, .take, .work 0, .work 0, .work 0]

theorem connected_not_otStarted :
    ¬ ∀ (as : List Act) (n : Node UserRole), (machine .plain .undefined).run as = some n →
      (machine .plain .undefined).Along (fun n a => n.StartSucceeds a) (boot .undefined) as →
      n.Quiescent → n.rnbConnected = true → n.ot.otStarted = true := by
  intro h
  obtain ⟨n, hr, hn⟩ := (Option.any_eq_true (fun n : Node UserRole =>
    decide (n.Quiescent ∧ n.rnbConnected = true ∧ n.ot.otStarted = false))
    ((machine .plain .undefined).run lostStartRun)).mp (by decide +kernel)
  obtain ⟨hq, hc, hot⟩ := of_decide_eq_true hn
  rw [h lostStartRun n hr (by decide) hq hc] at hot
  cases hot

end Node

end RedNodeBus.Utils

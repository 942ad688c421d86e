import RedNodeBus.Lib.Machine

/-!
# The OpenThread work handlers

`rnb_utils.c` drives OpenThread from four work items on the system work queue.
Each handler is here twice: as one function of the flags and of what its calls
return (`otInitWorkHandler`, …), and statement by statement (`handlerStep`), for
the threads that run between its statements.  `handlerRun_entry` says the second,
run to its end, is the first.

`OtState` holds the two flags next to the OpenThread stack they stand for.  The
stack is two booleans: the IPv6 interface is up, Thread is enabled.  A call that
fails changes nothing.

The flags are meant to say what the stack does (`Mirrors`).  Two error paths leave
them wrong.  `ot_stop_work_handler` clears `ot_started` whatever
`otThreadSetEnabled` returned, where `ot_deinit_work_handler` tests it; and in
`ot_deinit_work_handler` the second call takes Thread down with the interface
after the first one failed.  `mirrors_always_iff` says these two are all.
-/

namespace RedNodeBus.Utils

/-- The flags of the handlers, and the stack: interface up, Thread enabled. -/
structure OtState where
  rnbStarted : Bool
  otStarted : Bool
  ip6Up : Bool
  threadEnabled : Bool
  deriving DecidableEq, Repr

namespace OtState

/-- As `init_rnb` leaves the flags, with OpenThread not started. -/
def stopped : OtState := ⟨false, false, false, false⟩

/-- `otIp6SetEnabled`, returning `error`; taking the interface down takes Thread
down with it. -/
def otIp6SetEnabled (on : Bool) (error : Int) (s : OtState) : OtState :=
  if error = 0 then { s with ip6Up := on, threadEnabled := on && s.threadEnabled } else s

/-- `otThreadSetEnabled`, returning `error`. -/
def otThreadSetEnabled (on : Bool) (error : Int) (s : OtState) : OtState :=
  if error = 0 then { s with threadEnabled := on } else s

/-- `openthread_start`, returning `ret`. -/
def openthreadStart (ret : Int) (s : OtState) : OtState :=
  if ret = 0 then { s with threadEnabled := true } else s

/-! The calls leave the flags of the handlers alone. -/

section Flags

variable (on : Bool) (error : Int) (s : OtState)

@[simp] theorem otIp6SetEnabled_rnbStarted :
    (s.otIp6SetEnabled on error).rnbStarted = s.rnbStarted := by
  rw [otIp6SetEnabled]
  split <;> rfl

@[simp] theorem otIp6SetEnabled_otStarted :
    (s.otIp6SetEnabled on error).otStarted = s.otStarted := by
  rw [otIp6SetEnabled]
  split <;> rfl

@[simp] theorem otThreadSetEnabled_rnbStarted :
    (s.otThreadSetEnabled on error).rnbStarted = s.rnbStarted := by
  rw [otThreadSetEnabled]
  split <;> rfl

@[simp] theorem otThreadSetEnabled_otStarted :
    (s.otThreadSetEnabled on error).otStarted = s.otStarted := by
  rw [otThreadSetEnabled]
  split <;> rfl

@[simp] theorem openthreadStart_rnbStarted :
    (s.openthreadStart error).rnbStarted = s.rnbStarted := by
  rw [openthreadStart]
  split <;> rfl

@[simp] theorem openthreadStart_otStarted : (s.openthreadStart error).otStarted = s.otStarted := by
  rw [openthreadStart]
  split <;> rfl

end Flags

end OtState

/-! ## The handlers as functions -/

def otInitWorkHandler (error : Int) (s : OtState) : OtState :=
  if s.rnbStarted then s
  else
    let s := s.otIp6SetEnabled true error
    if error = 0 then { s with rnbStarted := true } else s

def otDeinitWorkHandler (threadError ip6Error : Int) (s : OtState) : OtState :=
  if !s.rnbStarted then s
  else
    let s := s.otThreadSetEnabled false threadError
    let s := if threadError = 0 then { s with otStarted := false } else s
    let s := s.otIp6SetEnabled false ip6Error
    if ip6Error = 0 then { s with rnbStarted := false } else s

def otStartWorkHandler (rnbConnected : Bool) (ret : Int) (s : OtState) : OtState :=
  if rnbConnected && !s.otStarted then
    let s := s.openthreadStart ret
    if ret = 0 then { s with otStarted := true } else s
  else s

/-- The result of the call is not looked at. -/
def otStopWorkHandler (error : Int) (s : OtState) : OtState :=
  if s.otStarted then { s.otThreadSetEnabled false error with otStarted := false } else s

/-! ## The handlers statement by statement -/

/-- The four work items. -/
inductive OtWork
  | otInitWork
  | otDeinitWork
  | otStartWork
  | otStopWork
  deriving DecidableEq, Repr

/-- Where a running handler stands: before its test, before a call, or after a
call with what it returned. -/
inductive HandlerAt
  | initTest
  | initIp6
  | initIp6Ret (error : Int)
  | deinitTest
  | deinitThread
  | deinitThreadRet (error : Int)
  | deinitIp6
  | deinitIp6Ret (error : Int)
  | startTest
  | startCall
  | startRet (ret : Int)
  | stopTest
  | stopThread
  | stopClear
  deriving DecidableEq, Repr

def OtWork.entry : OtWork → HandlerAt
  | .otInitWork => .initTest
  | .otDeinitWork => .deinitTest
  | .otStartWork => .startTest
  | .otStopWork => .stopTest

def HandlerAt.work : HandlerAt → OtWork
  | .initTest | .initIp6 | .initIp6Ret _ => .otInitWork
  | .deinitTest | .deinitThread | .deinitThreadRet _ | .deinitIp6 | .deinitIp6Ret _ =>
    .otDeinitWork
  | .startTest | .startCall | .startRet _ => .otStartWork
  | .stopTest | .stopThread | .stopClear => .otStopWork

@[simp] theorem OtWork.entry_work (w : OtWork) : w.entry.work = w := by cases w <;> rfl

/-- One statement of a handler; `ret` is what it returns if it is a call. -/
def handlerStep (rnbConnected : Bool) (ret : Int) :
    HandlerAt → OtState → Option HandlerAt × OtState
  | .initTest, s => (if s.rnbStarted then none else some .initIp6, s)
  | .initIp6, s => (some (.initIp6Ret ret), s.otIp6SetEnabled true ret)
  | .initIp6Ret error, s => (none, if error = 0 then { s with rnbStarted := true } else s)
  | .deinitTest, s => (if !s.rnbStarted then none else some .deinitThread, s)
  | .deinitThread, s => (some (.deinitThreadRet ret), s.otThreadSetEnabled false ret)
  | .deinitThreadRet error, s =>
    (some .deinitIp6, if error = 0 then { s with otStarted := false } else s)
  | .deinitIp6, s => (some (.deinitIp6Ret ret), s.otIp6SetEnabled false ret)
  | .deinitIp6Ret error, s => (none, if error = 0 then { s with rnbStarted := false } else s)
  | .startTest, s => (if rnbConnected && !s.otStarted then some .startCall else none, s)
  | .startCall, s => (some (.startRet ret), s.openthreadStart ret)
  | .startRet ret, s => (none, if ret = 0 then { s with otStarted := true } else s)
  | .stopTest, s => (if s.otStarted then some .stopThread else none, s)
  | .stopThread, s => (some .stopClear, s.otThreadSetEnabled false ret)
  | .stopClear, s => (none, { s with otStarted := false })

theorem handlerStep_work {rnbConnected : Bool} {ret : Int} {pc pc' : HandlerAt} {s : OtState}
    (h : (handlerStep rnbConnected ret pc s).1 = some pc') : pc'.work = pc.work := by
  cases pc <;> simp only [handlerStep] at h <;> (try split at h) <;> cases h <;> rfl

/-- The statements of a handler with nothing in between, `rets` being what they
return in order. -/
def handlerRun (rnbConnected : Bool) : List Int → HandlerAt → OtState → Option HandlerAt × OtState
  | [], pc, s => (some pc, s)
  | ret :: rets, pc, s =>
    match handlerStep rnbConnected ret pc s with
    | (some pc', s') => handlerRun rnbConnected rets pc' s'
    | (none, s') => (none, s')

/-- **Run to its end, a handler is its function.** -/
theorem handlerRun_entry (rnbConnected : Bool) (s : OtState) (r e r' e' r'' : Int) :
    handlerRun rnbConnected [r, e, r'] OtWork.otInitWork.entry s = (none, otInitWorkHandler e s) ∧
    handlerRun rnbConnected [r, e, r', e', r''] OtWork.otDeinitWork.entry s
      = (none, otDeinitWorkHandler e e' s) ∧
    handlerRun rnbConnected [r, e, r'] OtWork.otStartWork.entry s
      = (none, otStartWorkHandler rnbConnected e s) ∧
    handlerRun rnbConnected [r, e, r'] OtWork.otStopWork.entry s
      = (none, otStopWorkHandler e s) := by
  refine ⟨?_, ?_, ?_, ?_⟩
  · cases h : s.rnbStarted <;> simp [handlerRun, handlerStep, OtWork.entry, otInitWorkHandler, h]
  · cases h : s.rnbStarted <;> simp [handlerRun, handlerStep, OtWork.entry, otDeinitWorkHandler, h]
  · cases h : s.otStarted <;> cases rnbConnected <;>
      simp [handlerRun, handlerStep, OtWork.entry, otStartWorkHandler, h]
  · cases h : s.otStarted <;> simp [handlerRun, handlerStep, OtWork.entry, otStopWorkHandler, h]

/-! ## The flags and the stack -/

/-- A run of one handler, with what its calls return. -/
inductive OtRun
  | init (error : Int)
  | deinit (threadError ip6Error : Int)
  | start (rnbConnected : Bool) (ret : Int)
  | stop (error : Int)
  deriving DecidableEq, Repr

def OtRun.apply : OtRun → OtState → OtState
  | .init error => otInitWorkHandler error
  | .deinit threadError ip6Error => otDeinitWorkHandler threadError ip6Error
  | .start rnbConnected ret => otStartWorkHandler rnbConnected ret
  | .stop error => otStopWorkHandler error

/-- The stack can give these returns: where `openthread_start` is called, it
returns `0` only with the interface up. -/
def OtRun.Possible (s : OtState) : OtRun → Prop
  | .start rnbConnected ret => rnbConnected = true → s.otStarted = false → ret = 0 → s.ip6Up = true
  | _ => True

instance (s : OtState) : (r : OtRun) → Decidable (r.Possible s)
  | .start _ _ => inferInstanceAs (Decidable (_ → _ → _ → _))
  | .init _ | .deinit _ _ | .stop _ => isTrue trivial

/-- Runs of the handlers, one after the other, over the stack. -/
def otMachine (s : OtState) : Machine OtState OtRun where
  init := s
  step s r := if r.Possible s then some (r.apply s) else none

/-- `rnb_started` says the interface is up, `ot_started` that Thread is enabled. -/
def Mirrors (s : OtState) : Prop :=
  s.rnbStarted = s.ip6Up ∧ s.otStarted = s.threadEnabled

instance (s : OtState) : Decidable (Mirrors s) := inferInstanceAs (Decidable (_ ∧ _))

/-- While Thread is enabled, the stop handler's call does not fail, and the deinit
handler's first call does not fail with the second one succeeding. -/
def OtRun.Faithful (s : OtState) : OtRun → Prop
  | .stop error => s.otStarted = true → error = 0
  | .deinit threadError ip6Error =>
    s.rnbStarted = true → s.otStarted = true → ip6Error = 0 → threadError = 0
  | _ => True

theorem otMachine_step {s₀ s s' : OtState} {r : OtRun} (h : (otMachine s₀).step s r = some s') :
    r.Possible s ∧ s' = r.apply s := by
  simp only [otMachine] at h
  split at h
  · exact ⟨‹_›, (Option.some.inj h).symm⟩
  · cases h

theorem mirrors_init {s : OtState} (h : Mirrors s) (error : Int) :
    Mirrors (otInitWorkHandler error s) := by
  obtain ⟨h₁, h₂⟩ := h
  by_cases hs : s.rnbStarted = true
  · rw [otInitWorkHandler, if_pos hs]
    exact ⟨h₁, h₂⟩
  · by_cases he : error = 0
    · simp [otInitWorkHandler, hs, he, OtState.otIp6SetEnabled, Mirrors, h₂]
    · simp [otInitWorkHandler, hs, he, OtState.otIp6SetEnabled, Mirrors, ← h₁, h₂]

theorem mirrors_start {s : OtState} (h : Mirrors s) (rnbConnected : Bool) (ret : Int) :
    Mirrors (otStartWorkHandler rnbConnected ret s) := by
  obtain ⟨h₁, h₂⟩ := h
  by_cases hc : (rnbConnected && !s.otStarted) = true
  · by_cases he : ret = 0
    · simp [otStartWorkHandler, hc, he, OtState.openthreadStart, Mirrors, h₁]
    · simp [otStartWorkHandler, he, OtState.openthreadStart, Mirrors, h₁, h₂]
  · rw [otStartWorkHandler, if_neg hc]
    exact ⟨h₁, h₂⟩

theorem mirrors_stop_iff {s : OtState} (h : Mirrors s) (error : Int) :
    Mirrors (otStopWorkHandler error s) ↔ (OtRun.stop error).Faithful s := by
  obtain ⟨h₁, h₂⟩ := h
  by_cases hs : s.otStarted = true
  · by_cases he : error = 0
    · simp [otStopWorkHandler, hs, he, OtState.otThreadSetEnabled, Mirrors, OtRun.Faithful, h₁]
    · simp [otStopWorkHandler, hs, he, OtState.otThreadSetEnabled, Mirrors, OtRun.Faithful, ← h₂]
  · rw [otStopWorkHandler, if_neg hs]
    exact ⟨fun _ h => absurd h hs, fun _ => ⟨h₁, h₂⟩⟩

theorem mirrors_deinit_iff {s : OtState} (h : Mirrors s) (threadError ip6Error : Int) :
    Mirrors (otDeinitWorkHandler threadError ip6Error s) ↔
      (OtRun.deinit threadError ip6Error).Faithful s := by
  obtain ⟨h₁, h₂⟩ := h
  by_cases hs : s.rnbStarted = true
  · by_cases ht : threadError = 0 <;> by_cases hi : ip6Error = 0 <;>
      simp [otDeinitWorkHandler, hs, ht, hi, OtState.otThreadSetEnabled, OtState.otIp6SetEnabled,
        Mirrors, OtRun.Faithful, ← h₁, ← h₂]
  · rw [otDeinitWorkHandler, if_pos (by simp [hs])]
    exact ⟨fun _ h => absurd h hs, fun _ => ⟨h₁, h₂⟩⟩

/-- **The step of the invariant.**  From a state whose flags mirror the stack, a
handler keeps that exactly if its run is `Faithful`. -/
theorem mirrors_step_iff {s₀ s s' : OtState} {r : OtRun} (h : Mirrors s)
    (hs : (otMachine s₀).step s r = some s') : Mirrors s' ↔ r.Faithful s := by
  obtain ⟨-, rfl⟩ := otMachine_step hs
  cases r with
  | init error => exact ⟨fun _ => trivial, fun _ => mirrors_init h error⟩
  | deinit threadError ip6Error => exact mirrors_deinit_iff h threadError ip6Error
  | start rnbConnected ret => exact ⟨fun _ => trivial, fun _ => mirrors_start h rnbConnected ret⟩
  | stop error => exact mirrors_stop_iff h error

/-- **The flags mirror the stack after every handler of a run exactly if every
handler of the run is `Faithful`.** -/
theorem mirrors_always_iff {s t : OtState} {rs : List OtRun} (h : Mirrors s)
    (hr : (otMachine s).run rs = some t) :
    (otMachine s).Always Mirrors s rs ↔ (otMachine s).Along (fun s r => r.Faithful s) s rs :=
  Machine.always_iff_along (fun _ _ _ => mirrors_step_iff) h hr

/-- A stop and a deinit that succeed, after a start. -/
theorem mirrors_always_iff_started :
    (otMachine .stopped).Always Mirrors .stopped
        [.init 0, .start true 0, .stop 0, .start true 0, .deinit 0 0] ↔
      (otMachine .stopped).Along (fun s r => r.Faithful s) .stopped
        [.init 0, .start true 0, .stop 0, .start true 0, .deinit 0 0] :=
  mirrors_always_iff (t := .stopped) (by decide) (by decide)

/-- Started and connected, then `otThreadSetEnabled(false)` fails in the stop
handler: Thread stays enabled and `ot_started` is false. -/
theorem stop_failure_not_mirrored :
    ¬ ∀ (rs : List OtRun) (t : OtState), (otMachine .stopped).run rs = some t →
      (otMachine .stopped).Always Mirrors .stopped rs := by
  intro h
  have := h [.init 0, .start true 0, .stop 1] ⟨true, false, true, true⟩ (by decide)
  exact absurd this (by decide)

end RedNodeBus.Utils

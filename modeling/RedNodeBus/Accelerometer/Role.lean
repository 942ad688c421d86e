import RedNodeBus.Utils.EventQueue

/-!
# The accelerometer: the role and the connection

`main` of the accelerometer sample polls `is_rnb_connected` and then, once, tests
`rnb_role`, which the sample's hook stores.  The `CONNECTED` branch of
`process_rnb_utils_event` writes `rnb_connected` before the hook runs, and the
submission of `ot_start_work` in between lets the work queue preempt the thread, so
`main` can leave its loop with the old role.

What saves it is `k_thread_priority_set` in front of `start_client`: in the builds with
RedNodeBus, which set `CONFIG_NET_TC_THREAD_PREEMPTIVE`, it puts `main` below the utils
thread.  `main` then runs only when that thread waits, for an event or for the driver,
and by then the hook of the event `main` saw has run (`role_published`).

The threads are scheduled by priority, a smaller number being a higher priority.  A
thread that is preempted stays ready; only a call into the driver or into OpenThread
blocks it.
-/

namespace RedNodeBus.Accelerometer

open RedNodeBus.Utils

/-- The sample's hooks on `rnb_role`: it does not handle payloads. -/
def image (layout : List UInt8 → EventParamsState) : Image UserRole where
  state := layout
  rnbUtilsHandleNewState state _ := state.role
  rnbUtilsHandleUserPayload _ _ rnbRole := rnbRole

/-- `THREAD_PRIORITY`, with and without `CONFIG_NET_TC_THREAD_PREEMPTIVE`. -/
def threadPriority (netTcThreadPreemptive : Bool) : Int := if netTcThreadPreemptive then 8 else -1

inductive Thread
  | utils
  | workQueue
  | main
  deriving DecidableEq, Repr

/-- Where `main` stands, from the last statement of `init_rnb` on. -/
inductive MainAt
  | initRnb
  | poll
  | sleep
  | initApp
  | prioritySet
  | startClient
  | startUdp
  | returned
  deriving DecidableEq, Repr

structure System where
  node : Node UserRole
  main : MainAt
  mainPriority : Int
  /-- The utils thread waits for the driver. -/
  utilsBlocked : Bool
  /-- The work queue waits for OpenThread. -/
  workBlocked : Bool

namespace System

def boot (rnbRole : UserRole) : System where
  node := .boot rnbRole
  main := .initRnb
  mainPriority := 0
  utilsBlocked := false
  workBlocked := false

/-! ## Scheduling -/

/-- `REDNODEBUS_UTILS_THREAD_PRIORITY`, `CONFIG_SYSTEM_WORKQUEUE_PRIORITY`, and `main`'s
own. -/
def priority (s : System) : Thread → Int
  | .utils => 3
  | .workQueue => 2
  | .main => s.mainPriority

def Ready (s : System) : Thread → Prop
  | .utils => s.utilsBlocked = false ∧ (s.node.thread ≠ .fifoGet ∨ s.node.pool.fifo ≠ [])
  | .workQueue => s.workBlocked = false ∧ (s.node.running ≠ none ∨ s.node.pending ≠ [])
  | .main => s.main ≠ .sleep ∧ s.main ≠ .startUdp ∧ s.main ≠ .returned

instance (s : System) : (t : Thread) → Decidable (s.Ready t)
  | .utils | .workQueue | .main => inferInstanceAs (Decidable (_ ∧ _))

/-- The thread is ready, and no ready thread has a higher priority. -/
def MayRun (s : System) (t : Thread) : Prop :=
  s.Ready t ∧ ∀ u, s.Ready u → s.priority t ≤ s.priority u

instance (s : System) (t : Thread) : Decidable (s.MayRun t) :=
  decidable_of_iff (s.Ready t ∧ ∀ u ∈ [Thread.utils, .workQueue, .main],
      s.Ready u → s.priority t ≤ s.priority u)
    (and_congr_right fun _ => ⟨fun h u => h u (by cases u <;> simp), fun h u _ => h u⟩)

/-- Who makes a step of the node may run; reports and commands come from outside, and
the end of `init_rnb` is a statement of `main`. -/
def NodeMayStep (s : System) : Node.Act → Prop
  | .utils _ => s.MayRun .utils
  | .take | .work _ => s.MayRun .workQueue
  | .report _ | .start | .stop => True
  | .initialized => False

instance (s : System) : (a : Node.Act) → Decidable (s.NodeMayStep a)
  | .utils _ | .take | .work _ => inferInstanceAs (Decidable (s.MayRun _))
  | .report _ | .start | .stop => isTrue trivial
  | .initialized => isFalse id

/-! ## The machine -/

/-- The next statement of `main`. -/
def mainStep (img : Image UserRole) (preemptive : Bool) (s : System) : Option System :=
  match s.main with
  | .initRnb =>
    (Node.step img s.node .initialized).map fun node => { s with node := node, main := .poll }
  | .poll => some { s with main := if s.node.rnbConnected then .initApp else .sleep }
  | .initApp => some { s with main := .prioritySet }
  | .prioritySet => some { s with mainPriority := threadPriority preemptive, main := .startClient }
  | .startClient => some { s with main := if s.node.app = .tag then .startUdp else .returned }
  | .sleep | .startUdp | .returned => none

/-- One step: a step of the node, a statement of `main`, the end of its sleep, or a call
that begins or ends to block. -/
inductive Act
  | node (a : Node.Act)
  | main
  | wake
  | blockUtils (blocked : Bool)
  | blockWork (blocked : Bool)

def step (img : Image UserRole) (preemptive : Bool) (s : System) : Act → Option System
  | .node a =>
    if s.NodeMayStep a then
      (Node.step img s.node a).map fun node => { s with node := node }
    else none
  | .main => if s.MayRun .main then s.mainStep img preemptive else none
  | .wake => if s.main = .sleep then some { s with main := .poll } else none
  | .blockUtils blocked =>
    -- the two calls of the driver
    if s.node.At .initConfig ∨ s.node.At .updateConfig then
      some { s with utilsBlocked := blocked }
    else none
  | .blockWork blocked =>
    if s.node.running ≠ none then some { s with workBlocked := blocked } else none

def machine (layout : List UInt8 → EventParamsState) (preemptive : Bool) (rnbRole : UserRole) :
    Machine System Act where
  init := boot rnbRole
  step := step (image layout) preemptive

/-! ## What is seen of a run -/

/-- The writes of `rnb_connected`, with the role its event carries; the writes of
`rnb_role`; and `main` leaving its loop.  `RoleMove` says what their steps do. -/
inductive Mark
  | setConnected (role : UserRole)
  | clearConnected
  | setRole (role : UserRole)
  | leaveLoop
  deriving DecidableEq, Repr

def roleIn (layout : List UInt8 → EventParamsState) (n : Node UserRole) (slot : Fin 4) : UserRole :=
  (layout (n.pool.slots slot).rnbUserEventParams).role

def nodeMark (layout : List UInt8 → EventParamsState) (n : Node UserRole) : Node.Act → Option Mark
  | .utils _ =>
    match n.thread with
    | .process slot .setConnected => some (.setConnected (roleIn layout n slot))
    | .process _ .clearConnected => some .clearConnected
    | .process slot .handleNewState => some (.setRole (roleIn layout n slot))
    | _ => none
  | _ => none

def mark (layout : List UInt8 → EventParamsState) (s : System) : Act → Option Mark
  | .node a => nodeMark layout s.node a
  | .main =>
    match s.main with
    | .poll => if s.node.rnbConnected then some .leaveLoop else none
    | _ => none
  | _ => none

/-- The mark writes `rnb_connected`. -/
def Mark.WritesFlag : Mark → Prop
  | .setConnected _ | .clearConnected => True
  | _ => False

def rolesOf (marks : List Mark) : List UserRole :=
  marks.filterMap fun
    | .setRole role => some role
    | _ => none

/-! ## The role is published -/

variable {layout : List UInt8 → EventParamsState} {preemptive : Bool} {n n' : Node UserRole}
  {s s' : System}

/-- The thread is between the write of `rnb_connected` for an event with this role and
the event's hook. -/
def RoleDue (layout : List UInt8 → EventParamsState) (n : Node UserRole) (role : UserRole) : Prop :=
  ∃ slot line, n.thread = .process slot line ∧ (line = .submitStart ∨ line = .handleNewState) ∧
    roleIn layout n slot = role

/-- **What a step of the node does** to the flag and to the role. -/
inductive RoleMove (layout : List UInt8 → EventParamsState) (n n' : Node UserRole) :
    Option Mark → Prop
  | quiet (rnbConnected : n'.rnbConnected = n.rnbConnected) (app : n'.app = n.app)
      (due : ∀ role, RoleDue layout n role → RoleDue layout n' role) : RoleMove layout n n' none
  | setConnected (role : UserRole) (none_due : ∀ r, ¬ RoleDue layout n r)
      (app : n'.app = n.app) (due : RoleDue layout n' role)
      (rnbConnected : n'.rnbConnected = true) : RoleMove layout n n' (some (.setConnected role))
  | clearConnected (none_due : ∀ r, ¬ RoleDue layout n r) (rnbConnected : n'.rnbConnected = false)
      (app : n'.app = n.app) : RoleMove layout n n' (some .clearConnected)
  | setRole (role : UserRole) (due : ∀ r, RoleDue layout n r → r = role)
      (rnbConnected : n'.rnbConnected = n.rnbConnected) (app : n'.app = role) :
      RoleMove layout n n' (some (.setRole role))

theorem not_roleDue (hs : ¬ n.At .submitStart) (hh : ¬ n.At .handleNewState) (role : UserRole) :
    ¬ RoleDue layout n role := by
  rintro ⟨slot, line, ht, rfl | rfl, -⟩
  · exact hs ⟨slot, ht⟩
  · exact hh ⟨slot, ht⟩

/-- A statement that writes neither, at a line at which no role is due. -/
theorem RoleMove.quietAt {line : Line} (hat : n.At line) (hs : line ≠ .submitStart)
    (hh : line ≠ .handleNewState) (hc : n'.rnbConnected = n.rnbConnected)
    (ha : n'.app = n.app) : RoleMove layout n n' none :=
  .quiet hc ha fun role hdue => absurd hdue (not_roleDue (hat.ne hs) (hat.ne hh) role)

theorem role_move_event {ret : Int} {slot : Fin 4} {line : Line}
    (ht : n.thread = .process slot line) :
    RoleMove layout n (n.processRnbUtilsEvent (image layout) ret slot line)
      (nodeMark layout n (.utils ret)) := by
  have hat : n.At line := ⟨slot, ht⟩
  simp only [nodeMark, ht]
  cases line with
  | switchEvt | initConfig | updateConfig =>
    rw [Node.processRnbUtilsEvent]
    split <;> exact .quietAt hat (by decide) (by decide) rfl rfl
  | setConfigured | submitStop | userPayload | handleUserPayload =>
    exact .quietAt hat (by decide) (by decide) rfl rfl
  | callStart =>
    rw [Node.processRnbUtilsEvent, Node.rnbUtilsStart_eq]
    exact .quietAt hat (by decide) (by decide) rfl rfl
  | setConnected =>
    exact .setConnected _ (not_roleDue (hat.ne (by decide)) (hat.ne (by decide))) rfl
      ⟨slot, .submitStart, rfl, Or.inl rfl, rfl⟩ rfl
  | submitStart =>
    refine .quiet rfl rfl ?_
    rintro role ⟨slot', line', ht', -, hrole⟩
    rw [ht] at ht'
    obtain ⟨rfl, -⟩ := UtilsThread.process.inj ht'
    exact ⟨slot, .handleNewState, rfl, Or.inr rfl, hrole⟩
  | clearConnected =>
    exact .clearConnected (not_roleDue (hat.ne (by decide)) (hat.ne (by decide))) rfl rfl
  | handleNewState =>
    refine .setRole _ ?_ rfl rfl
    rintro role ⟨slot', line', ht', -, hrole⟩
    rw [ht] at ht'
    obtain ⟨rfl, -⟩ := UtilsThread.process.inj ht'
    exact hrole.symm

theorem RoleDue.other {a : Node.Act} {role : UserRole} (hdue : RoleDue layout n role)
    (hn : n.Held) (h : Node.step (image layout) n a = some n') (ht' : n'.thread = n.thread) :
    RoleDue layout n' role := by
  obtain ⟨slot, line, ht, hline, hrole⟩ := hdue
  have hheld : slot ∈ n.held := Node.mem_held_iff.mpr (Or.inr (by rw [ht]; rfl))
  have hslot : n'.pool.slots slot = n.pool.slots slot := by
    refine (Node.slots_step hn h hheld).resolve_right ?_
    rintro ⟨hclear, -⟩
    rw [ht] at hclear
    cases hclear
  refine ⟨slot, line, ht'.trans ht, hline, ?_⟩
  rw [roleIn, hslot]
  exact hrole

theorem role_move {a : Node.Act} (hn : n.Held) (h : Node.step (image layout) n a = some n') :
    RoleMove layout n n' (nodeMark layout n a) := by
  have hother : n'.thread = n.thread → ∀ role, RoleDue layout n role → RoleDue layout n' role :=
    fun ht role hdue => hdue.other hn h ht
  cases a with
  | utils ret =>
    rcases Node.utils_cases h with
      ⟨slot, rest, ht, -, rfl⟩ | ⟨slot, line, ht, rfl⟩ | ⟨slot, ht, rfl⟩
    · simp only [nodeMark, ht]
      exact .quiet rfl rfl fun role hdue =>
        absurd hdue (not_roleDue (by simp [Node.At, ht]) (by simp [Node.At, ht]) role)
    · exact role_move_event ht
    · simp only [nodeMark, ht]
      exact .quiet rfl rfl fun role hdue =>
        absurd hdue (not_roleDue (by simp [Node.At, ht]) (by simp [Node.At, ht]) role)
  | report r =>
    obtain rfl := Option.some.inj h
    exact .quiet rfl rfl (hother rfl)
  | take =>
    obtain ⟨w, rest, -, -, rfl⟩ := Node.take_cases h
    exact .quiet rfl rfl (hother rfl)
  | work ret =>
    obtain ⟨pc, -, rfl⟩ := Node.work_cases h
    exact .quiet rfl rfl (hother rfl)
  | initialized =>
    obtain ⟨-, rfl⟩ := Node.initialized_cases h
    exact .quiet rfl rfl fun role hdue => hdue
  | start =>
    obtain rfl := Option.some.inj h
    rw [Node.rnbUtilsStart_eq] at hother ⊢
    exact .quiet rfl rfl (hother rfl)
  | stop =>
    obtain rfl := Option.some.inj h
    rw [Node.rnbUtilsStop_eq] at hother ⊢
    exact .quiet rfl rfl (hother rfl)

/-! ## The invariant -/

/-- What was seen since `rnb_connected` was written for an event with role `r₀`: its hook
is still due, or the roles written begin with `r₀` and `rnb_role` is the last of them. -/
def Published (layout : List UInt8 → EventParamsState) (n : Node UserRole) (r₀ : UserRole)
    (marks : List Mark) : Prop :=
  (rolesOf marks = [] ∧ RoleDue layout n r₀) ∨
    ∃ rs, rolesOf marks = r₀ :: rs ∧ (r₀ :: rs).getLast? = some n.app

theorem rolesOf_append (marks marks' : List Mark) :
    rolesOf (marks ++ marks') = rolesOf marks ++ rolesOf marks' := List.filterMap_append

theorem Published.step {r₀ : UserRole} {marks : List Mark} {m : Option Mark}
    (hp : Published layout n r₀ marks) (hm : RoleMove layout n n' m) :
    Published layout n' r₀ (marks ++ m.toList) := by
  rw [Published, rolesOf_append]
  cases hm with
  | quiet hc ha hdue =>
    rw [ha]
    exact hp.imp (fun ⟨h, hd⟩ => ⟨by rw [h]; rfl, hdue _ hd⟩)
      (fun ⟨rs, h, hl⟩ => ⟨rs, by rw [h]; simp [rolesOf], hl⟩)
  | setConnected role hnone ha =>
    rw [ha]
    rcases hp with ⟨-, hd⟩ | ⟨rs, h, hl⟩
    · exact absurd hd (hnone _)
    · exact Or.inr ⟨rs, by rw [h]; simp [rolesOf], hl⟩
  | clearConnected hnone _ ha =>
    rw [ha]
    rcases hp with ⟨-, hd⟩ | ⟨rs, h, hl⟩
    · exact absurd hd (hnone _)
    · exact Or.inr ⟨rs, by rw [h]; simp [rolesOf], hl⟩
  | setRole role hdue _ ha =>
    rw [ha]
    rcases hp with ⟨h, hd⟩ | ⟨rs, h, hl⟩
    · obtain rfl := hdue _ hd
      exact Or.inr ⟨[], by rw [h]; rfl, rfl⟩
    · refine Or.inr ⟨rs ++ [role], by rw [h]; rfl, ?_⟩
      rw [← List.cons_append, List.getLast?_concat]

/-- The last write of `rnb_connected` set it. -/
def ConnectedBy (layout : List UInt8 → EventParamsState) (marks : List Mark)
    (n : Node UserRole) : Prop :=
  ∃ t₁ r₀ t₂, marks = t₁ ++ .setConnected r₀ :: t₂ ∧ (∀ m ∈ t₂, ¬ m.WritesFlag) ∧
    Published layout n r₀ t₂

/-- `main` left its loop when the last write of `rnb_connected` had set it. -/
def LeftLoop (layout : List UInt8 → EventParamsState) (marks : List Mark)
    (n : Node UserRole) : Prop :=
  ∃ t₁ r₀ t₂ t₃, marks = t₁ ++ .setConnected r₀ :: (t₂ ++ .leaveLoop :: t₃) ∧
    (∀ m ∈ t₂, ¬ m.WritesFlag) ∧ Published layout n r₀ (t₂ ++ .leaveLoop :: t₃)

structure RoleInv (layout : List UInt8 → EventParamsState) (preemptive : Bool)
    (marks : List Mark) (s : System) : Prop where
  held : s.node.Held
  blocked : s.utilsBlocked = true → s.node.At .initConfig ∨ s.node.At .updateConfig
  connected : s.node.rnbConnected = true → ConnectedBy layout marks s.node
  left : s.main = .initApp ∨ s.main = .prioritySet ∨ s.main = .startClient →
    LeftLoop layout marks s.node
  priority : s.main = .startClient → s.mainPriority = threadPriority preemptive

variable {marks x : List Mark}

theorem ConnectedBy.append (hc : ConnectedBy layout marks n) (hx : ∀ m ∈ x, ¬ m.WritesFlag)
    (hp : ∀ r t, Published layout n r t → Published layout n' r (t ++ x)) :
    ConnectedBy layout (marks ++ x) n' := by
  obtain ⟨t₁, r₀, t₂, rfl, hflag, hpub⟩ := hc
  refine ⟨t₁, r₀, t₂ ++ x, by simp, ?_, hp r₀ t₂ hpub⟩
  intro m hm
  rcases List.mem_append.mp hm with hm | hm
  · exact hflag m hm
  · exact hx m hm

theorem LeftLoop.append (hl : LeftLoop layout marks n)
    (hp : ∀ r t, Published layout n r t → Published layout n' r (t ++ x)) :
    LeftLoop layout (marks ++ x) n' := by
  obtain ⟨t₁, r₀, t₂, t₃, rfl, hflag, hpub⟩ := hl
  refine ⟨t₁, r₀, t₂, t₃ ++ x, by simp, hflag, ?_⟩
  have := hp r₀ _ hpub
  rwa [List.append_assoc, List.cons_append] at this

/-- A mark of `main` is about neither the flag nor the role. -/
theorem Published.append {r₀ : UserRole} (hp : Published layout n r₀ marks)
    (hx : rolesOf x = []) : Published layout n r₀ (marks ++ x) := by
  rw [Published, rolesOf_append, hx, List.append_nil]
  exact hp

theorem roleInv_boot (rnbRole : UserRole) : RoleInv layout preemptive [] (boot rnbRole) where
  held := Node.held_boot rnbRole
  blocked := by simp [boot]
  connected := by simp [boot, Node.boot]
  left := by simp [boot]
  priority := by simp [boot]

theorem roleInv_node {a : Node.Act} (hI : RoleInv layout preemptive marks s)
    (hmay : s.NodeMayStep a) (h : Node.step (image layout) s.node a = some n') :
    RoleInv layout preemptive (marks ++ (nodeMark layout s.node a).toList)
      { s with node := n' } := by
  have hm := role_move hI.held h
  have hpub : ∀ r t, Published layout s.node r t →
      Published layout n' r (t ++ (nodeMark layout s.node a).toList) := fun r t hp => hp.step hm
  refine ⟨Node.held_step hI.held h, ?_, ?_, fun hl => (hI.left hl).append hpub,
    hI.priority⟩
  · intro hb
    have hat := hI.blocked hb
    have hthread : n'.thread = s.node.thread := by
      cases Node.pool_move h with
      | report r hp ht => exact ht
      | other _ _ _ _ _ ht => exact ht
      | fifoGet | process | clearInUse =>
        have hready := hmay.1.1
        rw [show s.utilsBlocked = true from hb] at hready
        cases hready
    simp only [Node.At, hthread] at hat ⊢
    exact hat
  · intro hc
    cases hmark : nodeMark layout s.node a with
    | none =>
      rw [hmark] at hm hpub
      cases hm with
      | quiet hc' => exact (hI.connected (hc' ▸ hc)).append (by simp) hpub
    | some m =>
      rw [hmark] at hm hpub
      cases hm with
      | setConnected role hnone ha hdue =>
        exact ⟨marks, role, [], rfl, by simp, Or.inl ⟨rfl, hdue⟩⟩
      | clearConnected hnone hc' ha =>
        rw [show n'.rnbConnected = true from hc] at hc'
        cases hc'
      | setRole role hdue hc' ha =>
        refine (hI.connected (hc' ▸ hc)).append ?_ hpub
        simp [Mark.WritesFlag]

/-- A statement of `main` that touches the node at most in `rnb_initialized`. -/
theorem RoleInv.main (hI : RoleInv layout preemptive marks s) (hflag : ∀ m ∈ x, ¬ m.WritesFlag)
    (hroles : rolesOf x = []) (hn : s'.node = s.node) (hb : s'.utilsBlocked = s.utilsBlocked)
    (hl : s'.main = .initApp ∨ s'.main = .prioritySet ∨ s'.main = .startClient →
      LeftLoop layout (marks ++ x) s.node)
    (hp : s'.main = .startClient → s'.mainPriority = threadPriority preemptive) :
    RoleInv layout preemptive (marks ++ x) s' := by
  refine ⟨hn ▸ hI.held, ?_, ?_, fun h => hn ▸ hl h, hp⟩
  · intro h
    rw [hb] at h
    rw [hn]
    exact hI.blocked h
  · intro h
    rw [hn] at h ⊢
    exact (hI.connected h).append hflag fun r t ht => ht.append hroles

theorem roleInv_main (hI : RoleInv layout preemptive marks s)
    (h : s.mainStep (image layout) preemptive = some s') :
    RoleInv layout preemptive (marks ++ (mark layout s .main).toList) s' := by
  have hleft : s.main = .initApp ∨ s.main = .prioritySet ∨ s.main = .startClient →
      LeftLoop layout (marks ++ []) s.node := fun hm => by
    rw [List.append_nil]
    exact hI.left hm
  cases hs : s.main with
  | initRnb =>
    simp only [mainStep, hs] at h
    obtain ⟨node, hnode, rfl⟩ := Option.map_eq_some_iff.mp h
    obtain ⟨-, rfl⟩ := Node.initialized_cases hnode
    simp only [mark, hs, Option.toList_none, List.append_nil]
    exact ⟨hI.held, hI.blocked, hI.connected, by simp, by simp⟩
  | poll =>
    simp only [mainStep, hs] at h
    obtain rfl := Option.some.inj h
    by_cases hc : s.node.rnbConnected = true
    · simp only [mark, hs, hc, if_true, Option.toList_some]
      refine hI.main (by simp [Mark.WritesFlag]) rfl rfl rfl ?_ (by simp)
      intro _
      obtain ⟨t₁, r₀, t₂, rfl, hflag, hpub⟩ := hI.connected hc
      exact ⟨t₁, r₀, t₂, [], by simp, hflag, hpub.append rfl⟩
    · simp only [mark, hs, if_neg hc, Option.toList_none]
      exact hI.main (by simp) rfl rfl rfl (by simp) (by simp)
  | initApp =>
    simp only [mainStep, hs] at h
    obtain rfl := Option.some.inj h
    simp only [mark, hs, Option.toList_none]
    exact hI.main (by simp) rfl rfl rfl (fun _ => hleft (Or.inl hs)) (by simp)
  | prioritySet =>
    simp only [mainStep, hs] at h
    obtain rfl := Option.some.inj h
    simp only [mark, hs, Option.toList_none]
    exact hI.main (by simp) rfl rfl rfl (fun _ => hleft (Or.inr (Or.inl hs))) fun _ => rfl
  | startClient =>
    simp only [mainStep, hs] at h
    obtain rfl := Option.some.inj h
    simp only [mark, hs, Option.toList_none]
    refine hI.main (by simp) rfl rfl rfl ?_ ?_
    · intro hm
      by_cases ha : s.node.app = .tag <;> simp [ha] at hm
    · intro hm
      by_cases ha : s.node.app = .tag <;> simp [ha] at hm
  | sleep | startUdp | returned =>
    simp only [mainStep, hs] at h
    cases h

theorem roleInv_step {a : Act} (hI : RoleInv layout preemptive marks s)
    (h : step (image layout) preemptive s a = some s') :
    RoleInv layout preemptive (marks ++ (mark layout s a).toList) s' := by
  cases a with
  | node a =>
    simp only [step] at h
    split at h
    · rename_i hmay
      obtain ⟨node, hnode, rfl⟩ := Option.map_eq_some_iff.mp h
      exact roleInv_node hI hmay hnode
    · cases h
  | main =>
    simp only [step] at h
    split at h
    · exact roleInv_main hI h
    · cases h
  | wake =>
    simp only [step] at h
    split at h
    · obtain rfl := Option.some.inj h
      exact hI.main (by simp [mark]) rfl rfl rfl (by simp) (by simp)
    · cases h
  | blockUtils blocked =>
    simp only [step] at h
    split at h
    · rename_i hat
      obtain rfl := Option.some.inj h
      have hm : mark layout s (.blockUtils blocked) = none := rfl
      rw [hm, Option.toList_none, List.append_nil]
      exact ⟨hI.held, fun _ => hat, hI.connected, hI.left, hI.priority⟩
    · cases h
  | blockWork blocked =>
    simp only [step] at h
    split at h
    · obtain rfl := Option.some.inj h
      have hm : mark layout s (.blockWork blocked) = none := rfl
      rw [hm, Option.toList_none, List.append_nil]
      exact ⟨hI.held, hI.blocked, hI.connected, hI.left, hI.priority⟩
    · cases h

/-! ## The test in `start_client` -/

/-- While `main` runs below the utils thread, that thread waits, and no hook is due. -/
theorem not_roleDue_of_mayRun (hI : RoleInv layout true marks s) (hs : s.main = .startClient)
    (hmay : s.MayRun .main) (role : UserRole) : ¬ RoleDue layout s.node role := by
  have hprio : s.priority .utils < s.priority .main := by
    show (3 : Int) < s.mainPriority
    rw [hI.priority hs]
    decide
  have hwait : ¬ s.Ready .utils := fun hready => Int.not_le.mpr hprio (hmay.2 .utils hready)
  rintro ⟨slot, line, ht, hline, -⟩
  refine hwait ⟨?_, Or.inl (by simp [ht])⟩
  by_contra hb
  have hat : s.node.At line := ⟨slot, ht⟩
  rcases hI.blocked (by simpa using hb) with h | h
  · exact hat.ne (by rcases hline with rfl | rfl <;> decide) h
  · exact hat.ne (by rcases hline with rfl | rfl <;> decide) h

/-- The test sends a node whose role is `TAG` to start its client, and no other. -/
theorem main_of_test (hs : s.main = .startClient)
    (h : step (image layout) preemptive s .main = some s') :
    s.MayRun .main ∧ (s'.main = .startUdp ↔ s.node.app = .tag) := by
  simp only [step] at h
  split at h
  · rename_i hmay
    simp only [mainStep, hs] at h
    obtain rfl := Option.some.inj h
    refine ⟨hmay, ?_⟩
    by_cases ha : s.node.app = .tag <;> simp [ha]
  · cases h

/-- **The role is published before `main` tests it**: the `rnb_role` that `start_client`
tests is the last role written since the `CONNECTED` event set the flag `main` saw, and
the first of these is that event's own.  A node that is a tag from then on starts its
client. -/
theorem role_published (layout : List UInt8 → EventParamsState) (rnbRole : UserRole)
    {as : List Act} {s s' : System} (hr : (machine layout true rnbRole).run as = some s)
    (hs : s.main = .startClient) (h : (machine layout true rnbRole).step s .main = some s') :
    ∃ t₁ r₀ t₂ t₃ rs, (machine layout true rnbRole).observe (mark layout) (boot rnbRole) as
        = t₁ ++ .setConnected r₀ :: (t₂ ++ .leaveLoop :: t₃) ∧
      (∀ m ∈ t₂, ¬ m.WritesFlag) ∧
      rolesOf (t₂ ++ t₃) = r₀ :: rs ∧ (r₀ :: rs).getLast? = some s.node.app ∧
      (s'.main = .startUdp ↔ s.node.app = .tag) ∧
      ((∀ r ∈ r₀ :: rs, r = .tag) → s'.main = .startUdp) := by
  have hI := Machine.history_invariant (f := mark layout) (P := fun _ _ => True)
    (I := RoleInv layout true) (fun _ _ _ _ hI _ hs => roleInv_step hI hs)
    (roleInv_boot rnbRole) (Machine.along_trivial (fun _ _ => trivial) _ _) hr
  rw [List.nil_append] at hI
  obtain ⟨hmay, htest⟩ := main_of_test hs h
  obtain ⟨t₁, r₀, t₂, t₃, hmarks, hflag, hpub⟩ := hI.left (Or.inr (Or.inr hs))
  obtain ⟨-, hdue⟩ | ⟨rs, hroles, hlast⟩ := hpub
  · exact absurd hdue (not_roleDue_of_mayRun hI hs hmay r₀)
  · have hroles' : rolesOf (t₂ ++ t₃) = r₀ :: rs := by
      rw [← hroles, rolesOf_append, rolesOf_append]
      rfl
    refine ⟨t₁, r₀, t₂, t₃, rs, hmarks, hflag, hroles', hlast, htest, ?_⟩
    intro htag
    exact htest.mpr (htag _ (List.mem_of_getLast? hlast))

/-- A `CONNECTED` event is processed up to the submission of `ot_start_work`; its handler
begins, and `main` wakes and lowers its priority. -/
def wakeRun : List Act :=
  [.main, .main, .node (.report (.newState 3 1))] ++ (Node.Act.utilsTimes 4).map .node ++
    [.node .take, .node (.work 0), .wake, .main, .main, .main]

/-- The handler ends and the hook runs: `main` is at the test. -/
def tagRun : List Act :=
  wakeRun ++ [.node (.work 0), .node (.work 0)] ++ (Node.Act.utilsTimes 2).map .node

theorem role_published_tagRun :
    ∃ s s', (machine Image.plain.state true .undefined).run tagRun = some s ∧
      (machine Image.plain.state true .undefined).step s .main = some s' ∧
      s'.main = .startUdp ∧
      ∃ t₁ r₀ t₂ t₃ rs, (machine Image.plain.state true .undefined).observe
          (mark Image.plain.state) (boot .undefined) tagRun
            = t₁ ++ .setConnected r₀ :: (t₂ ++ .leaveLoop :: t₃) ∧
        (∀ m ∈ t₂, ¬ m.WritesFlag) ∧
        rolesOf (t₂ ++ t₃) = r₀ :: rs ∧ (r₀ :: rs).getLast? = some s.node.app := by
  obtain ⟨s, hr, hs⟩ := (Option.any_eq_true (fun s : System =>
    decide (s.main = .startClient ∧ s.node.app = .tag ∧
      ((machine Image.plain.state true .undefined).step s .main).isSome = true))
    ((machine Image.plain.state true .undefined).run tagRun)).mp (by decide +kernel)
  obtain ⟨hmain, htag, hsome⟩ := of_decide_eq_true hs
  obtain ⟨s', h⟩ := Option.isSome_iff_exists.mp hsome
  obtain ⟨t₁, r₀, t₂, t₃, rs, hmarks, hflag, hroles, hlast, htest, -⟩ :=
    role_published Image.plain.state .undefined hr hmain h
  exact ⟨s, s', hr, h, htest.mpr htag, t₁, r₀, t₂, t₃, rs, hmarks, hflag, hroles, hlast⟩

/-- With the other priority `main` goes on at once, tests the old role and returns. -/
example : ((machine Image.plain.state false .undefined).run (wakeRun ++ [.main])).map
    (·.main) = some .returned := by decide +kernel

end System

end RedNodeBus.Accelerometer

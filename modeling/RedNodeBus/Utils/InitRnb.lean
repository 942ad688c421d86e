import RedNodeBus.Utils.Configured

/-!
# From reset to the running node

`Node.boot` and `ButtonNode.machine` begin where `init_rnb` has registered the event handler.
Here the node begins at reset, with `init_rnb` one more party: the buttons are live as soon as
`dk_buttons_init` has been called, the application may call `rnb_utils_start` at any time, the
utils thread runs from its creation and the driver reports from the registration on, all of it
between two statements of `init_rnb`.

`Ready` is the invariant.  It says that what has been set up is what stands before the next
statement, and that the node is untouched until the event handler is registered: until then
`rnb_initialized` is clear, so that nothing is submitted, and no event is reported.  So a run
from reset is a run of the node that begins initialised (`bootRefines`), and no step relies on
what is not there yet: no item is submitted before its `k_work_init`, and nothing is put into
the FIFO or taken from it before its `k_fifo_init` (`from_reset`).
-/

namespace RedNodeBus.Utils

/-! ## The statements of `init_rnb` -/

/-- What the build decides of `init_rnb`. -/
structure BuildConfig where
  /-- `CONFIG_BOARD_FANSTEL_BU840XE` -/
  boardFanstel : Bool
  /-- `CONFIG_DK_LIBRARY` -/
  dkLibrary : Bool
  /-- `CONFIG_REDNODERANGING` -/
  rednoderanging : Bool
  /-- `CONFIG_WATCHDOG` without `CONFIG_REDNODEBUS_WATCHDOG` -/
  watchdog : Bool
  deriving DecidableEq, Repr

structure UserRuntimeConfig where
  energySaveModeEnabled : Bool
  rangingEnabled : Bool
  rangingPeriodMs : Nat
  deriving DecidableEq, Repr

/-- The runtime configuration as `init_rnb` writes it. -/
def BuildConfig.runtimeConfig (cfg : BuildConfig) : UserRuntimeConfig :=
  ⟨true, cfg.rednoderanging, 0⟩

/-- What `init_rnb` sets up. -/
inductive Resource
  | buttons
  | eventFifo
  | utilsThread
  | sntpThread
  | wdtThread
  | work (w : OtWork)
  | eventHandler
  | signalHandler
  deriving DecidableEq, Repr

/-- Where `init_rnb` stands. -/
inductive InitAt
  | ledsInit
  | paLnaInit
  | buttonsInit
  | clearConfigured
  | clearStarted
  | clearConnected
  | clearOtStarted
  | setEnergySaveMode
  | setRangingEnabled
  | setRangingPeriod
  | fifoInit
  | createUtils
  | createSntp
  | createWdt
  | workInit (w : OtWork)
  | configureEvent
  | configureSignal
  | setInitialized
  | returned (ret : Int)
  deriving DecidableEq, Repr

namespace InitAt

/-- The statement that comes next; `ret` is what this one returns if it is a call. -/
def next (cfg : BuildConfig) (ret : Int) : InitAt → Option InitAt
  -- an error of the LEDs or of the amplifier is only logged
  | .ledsInit => some (if cfg.boardFanstel then .paLnaInit
      else if cfg.dkLibrary then .buttonsInit else .clearConfigured)
  | .paLnaInit => some (if cfg.dkLibrary then .buttonsInit else .clearConfigured)
  | .buttonsInit => some (if ret ≠ 0 then .returned ret else .clearConfigured)
  | .clearConfigured => some .clearStarted
  | .clearStarted => some .clearConnected
  | .clearConnected => some .clearOtStarted
  | .clearOtStarted => some .setEnergySaveMode
  | .setEnergySaveMode => some .setRangingEnabled
  | .setRangingEnabled => some .setRangingPeriod
  | .setRangingPeriod => some .fifoInit
  | .fifoInit => some .createUtils
  | .createUtils => some .createSntp
  | .createSntp => some (if cfg.watchdog then .createWdt else .workInit .otInitWork)
  | .createWdt => some (.workInit .otInitWork)
  | .workInit .otInitWork => some (.workInit .otDeinitWork)
  | .workInit .otDeinitWork => some (.workInit .otStartWork)
  | .workInit .otStartWork => some (.workInit .otStopWork)
  | .workInit .otStopWork => some .configureEvent
  | .configureEvent => some .configureSignal
  | .configureSignal => some .setInitialized
  | .setInitialized => some (.returned 0)
  | .returned _ => none

def sets : InitAt → Option Resource
  | .buttonsInit => some .buttons
  | .fifoInit => some .eventFifo
  | .createUtils => some .utilsThread
  | .createSntp => some .sntpThread
  | .createWdt => some .wdtThread
  | .workInit w => some (.work w)
  | .configureEvent => some .eventHandler
  | .configureSignal => some .signalHandler
  | .ledsInit | .paLnaInit | .clearConfigured | .clearStarted | .clearConnected | .clearOtStarted
  | .setEnergySaveMode | .setRangingEnabled | .setRangingPeriod | .setInitialized
  | .returned _ => none

def write {α : Type} (n : Node α) : InitAt → Node α
  | .clearConfigured => { n with rnbConfigured := false }
  | .clearStarted => { n with ot := { n.ot with rnbStarted := false } }
  | .clearConnected => { n with rnbConnected := false }
  | .clearOtStarted => { n with ot := { n.ot with otStarted := false } }
  | .setInitialized => { n with rnbInitialized := true }
  | .ledsInit | .paLnaInit | .buttonsInit | .setEnergySaveMode | .setRangingEnabled
  | .setRangingPeriod | .fifoInit | .createUtils | .createSntp | .createWdt | .workInit _
  | .configureEvent | .configureSignal | .returned _ => n

/-- What a statement writes of the runtime configuration. -/
def writeConfig (cfg : BuildConfig) (c : UserRuntimeConfig) : InitAt → UserRuntimeConfig
  | .setEnergySaveMode => { c with energySaveModeEnabled := true }
  | .setRangingEnabled => { c with rangingEnabled := cfg.rednoderanging }
  | .setRangingPeriod => { c with rangingPeriodMs := 0 }
  | .ledsInit | .paLnaInit | .buttonsInit | .clearConfigured | .clearStarted | .clearConnected
  | .clearOtStarted | .fifoInit | .createUtils | .createSntp | .createWdt | .workInit _
  | .configureEvent | .configureSignal | .setInitialized | .returned _ => c

end InitAt

/-- The node with `init_rnb`, and what has been set up. -/
structure BootNode (α : Type) where
  node : ButtonNode α
  pc : InitAt
  runtimeConfig : UserRuntimeConfig
  ready : List Resource

namespace BootNode

variable {α : Type} {cfg : BuildConfig} {img : Image α} {dkBtn1Msk : UInt32} {app : α}
  {s s' : BootNode α}

def reset (app : α) : BootNode α where
  node := ⟨.boot app, .test⟩
  pc := .ledsInit
  runtimeConfig := ⟨false, false, 0⟩
  ready := []

/-- The next statement of `init_rnb`; `ret` is what it returns if it is a call. -/
def initRnb (cfg : BuildConfig) (ret : Int) (s : BootNode α) : Option (BootNode α) :=
  (s.pc.next cfg ret).map fun pc =>
    { node := { s.node with node := s.pc.write s.node.node }
      pc := pc
      runtimeConfig := s.pc.writeConfig cfg s.runtimeConfig
      ready := s.ready ++ s.pc.sets.toList }

/-! ## The machine -/

/-- A statement of `init_rnb`, or a step of what runs around it. -/
inductive Act
  | initRnb (ret : Int)
  | node (a : ButtonNode.Act)

/-- The party that makes the step is there. -/
def Live (s : BootNode α) : ButtonNode.Act → Prop
  | .node (.report _) => .eventHandler ∈ s.ready
  | .node (.utils _) => .utilsThread ∈ s.ready
  | .buttonChanged .. | .buttonCall => .buttons ∈ s.ready
  | .node .take | .node (.work _) | .node .start | .node .stop => True
  | .node .initialized => False

instance (s : BootNode α) : (a : ButtonNode.Act) → Decidable (s.Live a)
  | .node (.report _) | .node (.utils _) | .buttonChanged .. | .buttonCall =>
    inferInstanceAs (Decidable (_ ∈ _))
  | .node .take | .node (.work _) | .node .start | .node .stop => isTrue trivial
  | .node .initialized => isFalse id

def step (cfg : BuildConfig) (img : Image α) (dkBtn1Msk : UInt32) (s : BootNode α) :
    Act → Option (BootNode α)
  | .initRnb ret => s.initRnb cfg ret
  | .node a =>
    if s.Live a then (ButtonNode.step img dkBtn1Msk s.node a).map fun n => { s with node := n }
    else none

def machine (cfg : BuildConfig) (img : Image α) (dkBtn1Msk : UInt32) (app : α) :
    Machine (BootNode α) Act where
  init := reset app
  step := step cfg img dkBtn1Msk

/-- What a step of the node relies on: an item it submits, and the FIFO it uses. -/
def uses (n : ButtonNode α) : ButtonNode.Act → List Resource
  | .node (.report _) => [.eventFifo]
  | .node (.utils _) =>
    match n.node.thread with
    | .fifoGet => [.eventFifo]
    | .process _ .callStart => if n.node.rnbInitialized then [.work .otInitWork] else []
    | .process _ .submitStart => [.work .otStartWork]
    | .process _ .submitStop => [.work .otStopWork]
    | _ => []
  | .node .start => if n.node.rnbInitialized then [.work .otInitWork] else []
  | .node .stop => if n.node.rnbInitialized then [.work .otDeinitWork] else []
  | .buttonCall =>
    match n.button with
    | .test => []
    | .callStart => if n.node.rnbInitialized then [.work .otInitWork] else []
    | .callStop => if n.node.rnbInitialized then [.work .otDeinitWork] else []
  | .buttonChanged .. | .node .take | .node (.work _) | .node .initialized => []

def nodeAct (s : BootNode α) : Act → Option ButtonNode.Act
  | .initRnb _ => if s.pc = .setInitialized then some (.node .initialized) else none
  | .node a => some a

/-! ## The invariant -/

/-- How far `init_rnb` has come. -/
def rank : InitAt → ℕ
  | .ledsInit => 0
  | .paLnaInit => 1
  | .buttonsInit => 2
  | .clearConfigured => 3
  | .clearStarted => 4
  | .clearConnected => 5
  | .clearOtStarted => 6
  | .setEnergySaveMode => 7
  | .setRangingEnabled => 8
  | .setRangingPeriod => 9
  | .fifoInit => 10
  | .createUtils => 11
  | .createSntp => 12
  | .createWdt => 13
  | .workInit .otInitWork => 14
  | .workInit .otDeinitWork => 15
  | .workInit .otStartWork => 16
  | .workInit .otStopWork => 17
  | .configureEvent => 18
  | .configureSignal => 19
  | .setInitialized => 20
  -- an error is returned before anything else is set up
  | .returned ret => if ret = 0 then 21 else 3

def setBy : Resource → InitAt
  | .buttons => .buttonsInit
  | .eventFifo => .fifoInit
  | .utilsThread => .createUtils
  | .sntpThread => .createSntp
  | .wdtThread => .createWdt
  | .work w => .workInit w
  | .eventHandler => .configureEvent
  | .signalHandler => .configureSignal

/-- Everything the build sets up, in the order of the statements. -/
def resources (cfg : BuildConfig) : List Resource :=
  (if cfg.dkLibrary then [.buttons] else []) ++ [.eventFifo, .utilsThread, .sntpThread] ++
    (if cfg.watchdog then [.wdtThread] else []) ++
    [.work .otInitWork, .work .otDeinitWork, .work .otStartWork, .work .otStopWork,
      .eventHandler, .signalHandler]

def readyAt (cfg : BuildConfig) (pc : InitAt) : List Resource :=
  (resources cfg).filter fun r => rank (setBy r) < rank pc

def runtimeConfigAt (cfg : BuildConfig) (pc : InitAt) : UserRuntimeConfig where
  energySaveModeEnabled := rank .setEnergySaveMode < rank pc
  rangingEnabled := rank .setRangingEnabled < rank pc && cfg.rednoderanging
  rangingPeriodMs := 0

/-- What stands before the next statement of `init_rnb` is done and nothing else is, and until
the event handler is registered the node is untouched. -/
structure Ready (cfg : BuildConfig) (app : α) (s : BootNode α) : Prop where
  dkLibrary : s.pc = .buttonsInit → cfg.dkLibrary = true
  watchdog : s.pc = .createWdt → cfg.watchdog = true
  ready : s.ready = readyAt cfg s.pc
  runtimeConfig : s.runtimeConfig = runtimeConfigAt cfg s.pc
  untouched : rank s.pc ≤ rank .configureEvent → s.node.node = .boot app
  initialized : s.node.node.rnbInitialized = true ↔ s.pc = .returned 0

theorem ready_reset : Ready cfg app (reset app) := by
  constructor <;> simp [reset, rank, Node.boot, readyAt, runtimeConfigAt]

/-! ### A statement of `init_rnb` -/

theorem next_spec {ret : Int} {pc pc' : InitAt} (h : pc.next cfg ret = some pc') :
    rank pc ≤ rank pc' ∧ (pc' = .buttonsInit → cfg.dkLibrary = true) ∧
      (pc' = .createWdt → cfg.watchdog = true) ∧ (pc' = .returned 0 → pc = .setInitialized) := by
  cases pc with
  | ledsInit | paLnaInit | createSntp =>
    rw [InitAt.next, Option.some.injEq] at h
    split_ifs at h <;> subst h <;> simp_all [rank]
  | buttonsInit =>
    obtain rfl := Option.some.inj h
    by_cases hret : ret = 0 <;> simp [hret, rank]
  | workInit w => cases w <;> obtain rfl := Option.some.inj h <;> simp [rank]
  | returned ret => cases h
  | _ =>
    obtain rfl := Option.some.inj h
    simp [rank]

theorem readyAt_next {ret : Int} {pc pc' : InitAt} (hdk : pc = .buttonsInit → cfg.dkLibrary = true)
    (hwdt : pc = .createWdt → cfg.watchdog = true) (h : pc.next cfg ret = some pc') :
    readyAt cfg pc' = readyAt cfg pc ++ pc.sets.toList := by
  obtain ⟨fan, dk, rng, wdt⟩ := cfg
  cases pc with
  | workInit w => cases w <;> obtain rfl := Option.some.inj h <;> cases dk <;> cases wdt <;> rfl
  | buttonsInit =>
    obtain rfl : dk = true := hdk rfl
    obtain rfl := Option.some.inj h
    by_cases hret : ret = 0
    · subst hret
      cases wdt <;> rfl
    · cases wdt <;> simp [readyAt, resources, hret, rank, setBy, InitAt.sets]
  | createWdt =>
    obtain rfl : wdt = true := hwdt rfl
    obtain rfl := Option.some.inj h
    cases dk <;> rfl
  | returned ret => cases h
  | ledsInit | paLnaInit => 
    obtain rfl := Option.some.inj h
    cases fan <;> cases dk <;> cases wdt <;> rfl
  | _ =>
    obtain rfl := Option.some.inj h
    cases dk <;> cases wdt <;> rfl

theorem runtimeConfigAt_next {ret : Int} {pc pc' : InitAt} (h : pc.next cfg ret = some pc') :
    runtimeConfigAt cfg pc' = pc.writeConfig cfg (runtimeConfigAt cfg pc) := by
  obtain ⟨fan, dk, rng, wdt⟩ := cfg
  cases pc with
  | workInit w => cases w <;> obtain rfl := Option.some.inj h <;> rfl
  | buttonsInit =>
    obtain rfl := Option.some.inj h
    by_cases hret : ret = 0
    · subst hret
      rfl
    · simp [runtimeConfigAt, hret, rank, InitAt.writeConfig]
  | returned ret => cases h
  | ledsInit | paLnaInit | createSntp =>
    obtain rfl := Option.some.inj h
    cases fan <;> cases dk <;> cases wdt <;> rfl
  | setRangingEnabled =>
    obtain rfl := Option.some.inj h
    cases rng <;> rfl
  | _ =>
    obtain rfl := Option.some.inj h
    rfl

/-- The statements before the last write what the memory holds after a reset. -/
theorem write_boot {pc : InitAt} (h : pc ≠ .setInitialized) :
    pc.write (Node.boot app) = Node.boot app := by
  cases pc with
  | setInitialized => exact absurd rfl h
  | _ => rfl

theorem write_of_rank {pc : InitAt} (n : Node α) (h : pc ≠ .setInitialized)
    (hlt : rank .configureEvent < rank pc) : pc.write n = n := by
  cases pc with
  | setInitialized => exact absurd rfl h
  | clearConfigured | clearStarted | clearConnected | clearOtStarted =>
    exact absurd hlt (by decide)
  | _ => rfl

theorem Ready.write_eq (hI : Ready cfg app s) (h : s.pc ≠ .setInitialized) :
    s.pc.write s.node.node = s.node.node := by
  rcases le_or_gt (rank s.pc) (rank .configureEvent) with hle | hlt
  · rw [hI.untouched hle]
    exact write_boot h
  · exact write_of_rank s.node.node h hlt

theorem ready_initRnb {ret : Int} (hI : Ready cfg app s) (h : s.initRnb cfg ret = some s') :
    Ready cfg app s' := by
  obtain ⟨pc, hpc, rfl⟩ := Option.map_eq_some_iff.mp h
  obtain ⟨hrank, hdk, hwdt, hret⟩ := next_spec hpc
  constructor
  case dkLibrary => exact hdk
  case watchdog => exact hwdt
  case ready =>
    rw [hI.ready]
    exact (readyAt_next hI.dkLibrary hI.watchdog hpc).symm
  case runtimeConfig =>
    rw [hI.runtimeConfig]
    exact (runtimeConfigAt_next hpc).symm
  case untouched =>
    intro hle
    have hle' : rank s.pc ≤ rank .configureEvent := hrank.trans hle
    show s.pc.write s.node.node = .boot app
    rw [hI.untouched hle']
    refine write_boot ?_
    intro hs
    rw [hs] at hle'
    exact absurd hle' (by decide)
  case initialized =>
    by_cases hs : s.pc = .setInitialized
    · rw [hs] at hpc
      obtain rfl := Option.some.inj hpc
      simp [hs, InitAt.write]
    · show (s.pc.write s.node.node).rnbInitialized = true ↔ pc = .returned 0
      rw [hI.write_eq hs, hI.initialized]
      refine iff_of_false ?_ (mt hret hs)
      intro hreturned
      rw [hreturned] at hpc
      cases hpc

/-! ### A step of the node -/

theorem mem_readyAt {pc : InitAt} {r : Resource} :
    r ∈ readyAt cfg pc ↔ r ∈ resources cfg ∧ rank (setBy r) < rank pc := by
  simp [readyAt]

theorem Ready.mem_ready (hI : Ready cfg app s) {r : Resource} (hr : r ∈ resources cfg)
    (h : rank (setBy r) < rank s.pc) : r ∈ s.ready := by
  rw [hI.ready]
  exact mem_readyAt.mpr ⟨hr, h⟩

theorem Ready.rank_lt (hI : Ready cfg app s) {r : Resource} (h : r ∈ s.ready) :
    rank (setBy r) < rank s.pc := by
  rw [hI.ready] at h
  exact (mem_readyAt.mp h).2

theorem Ready.of_node_ne (hI : Ready cfg app s) (h : s.node.node ≠ .boot app) :
    rank .configureEvent < rank s.pc := not_le.mp (mt hI.untouched h)

theorem step_boot {button : ButtonAt} {a : ButtonNode.Act} {t : ButtonNode α}
    (hreport : ∀ r, a ≠ .node (.report r)) (hinit : a ≠ .node .initialized)
    (h : ButtonNode.step img dkBtn1Msk ⟨.boot app, button⟩ a = some t) : t.node = .boot app := by
  cases a with
  | node b =>
    obtain ⟨n, hn, rfl⟩ := Option.map_eq_some_iff.mp h
    cases b with
    | report r => exact absurd rfl (hreport r)
    | initialized => exact absurd rfl hinit
    | utils ret | take | work ret => cases hn
    | start | stop => exact (Option.some.inj hn).symm
  | buttonChanged buttonState hasChanged =>
    simp only [ButtonNode.step] at h
    split at h
    · exact (Option.some.inj h) ▸ rfl
    · cases h
  | buttonCall =>
    cases button with
    | test => cases h
    | callStop | callStart => exact (Option.some.inj h) ▸ rfl

/-- Only the last statement of `init_rnb` sets `rnb_initialized`. -/
theorem rnbInitialized_step {n n' : ButtonNode α} {a : ButtonNode.Act}
    (hinit : a ≠ .node .initialized) (h : ButtonNode.step img dkBtn1Msk n a = some n') :
    n'.node.rnbInitialized = n.node.rnbInitialized := by
  rcases ButtonNode.step_cases h with ⟨b, rfl, hb⟩ | ⟨_, _, rfl, hn⟩ | ⟨rfl, -, hn⟩ | ⟨rfl, -, hn⟩
  · cases b with
    | utils ret => exact (Node.utils_frame hb).2.2
    | report r =>
      rw [← Option.some.inj hb]
    | take =>
      obtain ⟨w, rest, -, -, hn⟩ := Node.take_cases hb
      rw [hn]
    | work ret =>
      obtain ⟨pc, -, hn⟩ := Node.work_cases hb
      rw [hn]
    | initialized => exact absurd rfl hinit
    | start =>
      rw [← Option.some.inj hb, Node.rnbUtilsStart_eq]
    | stop =>
      rw [← Option.some.inj hb, Node.rnbUtilsStop_eq]
  · rw [hn]
  · rw [hn, Node.rnbUtilsStop_eq]
  · rw [hn, Node.rnbUtilsStart_eq]

theorem ready_node {a : ButtonNode.Act} {t : ButtonNode α} (hI : Ready cfg app s)
    (hlive : s.Live a) (h : ButtonNode.step img dkBtn1Msk s.node a = some t) :
    Ready cfg app { s with node := t } := by
  have hinit : a ≠ .node .initialized := by
    rintro rfl
    exact hlive
  constructor
  case dkLibrary => exact hI.dkLibrary
  case watchdog => exact hI.watchdog
  case ready => exact hI.ready
  case runtimeConfig => exact hI.runtimeConfig
  case untouched =>
    intro hle
    have hboot := hI.untouched hle
    have hnode : s.node = ⟨.boot app, s.node.button⟩ := by rw [← hboot]
    rw [hnode] at h
    refine step_boot ?_ hinit h
    rintro r rfl
    exact absurd (hI.rank_lt hlive) (not_lt.mpr hle)
  case initialized =>
    rw [rnbInitialized_step hinit h]
    exact hI.initialized

theorem ready_step {a : Act} (hI : Ready cfg app s) (h : step cfg img dkBtn1Msk s a = some s') :
    Ready cfg app s' := by
  cases a with
  | initRnb ret => exact ready_initRnb hI h
  | node a =>
    rw [step] at h
    split at h
    · rename_i hlive
      obtain ⟨t, ht, rfl⟩ := Option.map_eq_some_iff.mp h
      exact ready_node hI hlive ht
    · cases h

/-! ## Runs from reset -/

/-- **A run from reset is a run of the node that begins initialised**, its acts those of
`nodeAct`: all that is proved of `ButtonNode.machine` holds of the node from reset. -/
def bootRefines (cfg : BuildConfig) (img : Image α) (dkBtn1Msk : UInt32) (app : α) :
    Machine.Refines (machine cfg img dkBtn1Msk app) (ButtonNode.machine img dkBtn1Msk app)
      (fun _ _ => True) nodeAct where
  R s t := s.node = t ∧ Ready cfg app s
  init := ⟨rfl, ready_reset⟩
  step := by
    rintro s t a s' ⟨rfl, hI⟩ - h
    have hI' := ready_step hI h
    cases a with
    | initRnb ret =>
      obtain ⟨pc, hpc, rfl⟩ := Option.map_eq_some_iff.mp h
      by_cases hs : s.pc = .setInitialized
      · have hact : nodeAct s (.initRnb ret) = some (.node .initialized) := if_pos hs
        have hclear : s.node.node.rnbInitialized = false := by
          rw [← Bool.not_eq_true, hI.initialized, hs]
          exact InitAt.noConfusion
        rw [hact]
        refine ⟨_, ?_, rfl, hI'⟩
        simp [ButtonNode.machine, ButtonNode.step, Node.step, hclear, hs, InitAt.write]
      · have hact : nodeAct s (.initRnb ret) = none := if_neg hs
        rw [hact]
        refine ⟨?_, hI'⟩
        show { s.node with node := s.pc.write s.node.node } = s.node
        rw [hI.write_eq hs]
    | node a =>
      have h : (if s.Live a then _ else none) = some s' := h
      split at h
      · obtain ⟨t, ht, rfl⟩ := Option.map_eq_some_iff.mp h
        exact ⟨t, ht, rfl, hI'⟩
      · cases h

theorem ready_of_run {as : List Act} (hr : (machine cfg img dkBtn1Msk app).run as = some s) :
    Ready cfg app s :=
  Machine.invariant (P := fun _ _ => True) (I := Ready cfg app)
    (fun _ _ _ hI _ hs => ready_step hI hs) ready_reset
    (Machine.along_trivial (fun _ _ => trivial) _ _) hr

theorem work_ready (hI : Ready cfg app s) (w : OtWork)
    (h : s.node.node.rnbInitialized = true ∨ s.node.node ≠ .boot app) :
    .work w ∈ s.ready := by
  have hlt : rank .configureEvent < rank s.pc := by
    rcases h with hinit | hnode
    · rw [hI.initialized.mp hinit]
      decide
    · exact hI.of_node_ne hnode
  refine hI.mem_ready ?_ (lt_trans ?_ hlt)
  · cases w <;> simp [resources]
  · cases w <;> decide

theorem uses_ready (hI : Ready cfg app s) {a : ButtonNode.Act} (hlive : s.Live a) :
    ∀ r ∈ uses s.node a, r ∈ s.ready := by
  have hinit : ∀ w r, r ∈ (if s.node.node.rnbInitialized then [Resource.work w] else []) →
      r ∈ s.ready := by
    intro w r hr
    split at hr
    · rename_i hi
      rw [List.mem_singleton] at hr
      exact hr ▸ work_ready hI w (Or.inl hi)
    · cases hr
  intro r hr
  cases a with
  | buttonChanged buttonState hasChanged => cases hr
  | buttonCall =>
    rw [uses] at hr
    split at hr
    · cases hr
    · exact hinit .otInitWork r hr
    · exact hinit .otDeinitWork r hr
  | node b =>
    cases b with
    | take | work ret | initialized => cases hr
    | start => exact hinit .otInitWork r hr
    | stop => exact hinit .otDeinitWork r hr
    | report r' =>
      rw [List.mem_singleton.mp hr]
      exact hI.mem_ready (by simp [resources]) (lt_trans (by decide) (hI.rank_lt hlive))
    | utils ret =>
      -- a thread that is in an event is not the one of a node that nothing has reached
      have hnode {slot : Fin 4} {line : Line} (ht : s.node.node.thread = .process slot line) :
          s.node.node ≠ .boot app := by
        intro hboot
        cases ht.symm.trans (congrArg Node.thread hboot)
      rw [uses] at hr
      split at hr
      · rw [List.mem_singleton.mp hr]
        exact hI.mem_ready (by simp [resources]) (lt_trans (by decide) (hI.rank_lt hlive))
      · exact hinit .otInitWork r hr
      · rename_i ht
        rw [List.mem_singleton.mp hr]
        exact work_ready hI .otStartWork (Or.inr (hnode ht))
      · rename_i ht
        rw [List.mem_singleton.mp hr]
        exact work_ready hI .otStopWork (Or.inr (hnode ht))
      · cases hr

/-- `init_rnb` does not go on after it has returned. -/
theorem pc_of_returned {ret : Int} {bs : List Act} (hs : s.pc = .returned ret)
    (hr : (machine cfg img dkBtn1Msk app).runFrom s bs = some s') : s'.pc = .returned ret := by
  induction bs generalizing s with
  | nil => exact Option.some.inj hr ▸ hs
  | cons b bs ih =>
    obtain ⟨t, ht, hr⟩ := (Machine.runFrom_cons _).mp hr
    refine ih ?_ hr
    cases b with
    | initRnb ret' =>
      obtain ⟨pc, hpc, -⟩ := Option.map_eq_some_iff.mp ht
      rw [hs] at hpc
      cases hpc
    | node a =>
      have ht : (if s.Live a then _ else none) = some t := ht
      split at ht
      · obtain ⟨n, -, rfl⟩ := Option.map_eq_some_iff.mp ht
        exact hs
      · cases ht

/-- What is known of the node after a run from reset. -/
structure FromReset (cfg : BuildConfig) (img : Image α) (dkBtn1Msk : UInt32) (app : α)
    (as : List Act) (s : BootNode α) : Prop where
  /-- It is where a run that begins initialised comes to. -/
  refines : (ButtonNode.machine img dkBtn1Msk app).run
    ((machine cfg img dkBtn1Msk app).observe nodeAct (reset app) as) = some s.node
  /-- Whatever makes a step, all that the step relies on is there. -/
  uses : ∀ a, s.Live a → ∀ r ∈ uses s.node a, r ∈ s.ready
  /-- The runtime configuration is complete when the utils thread passes it on. -/
  configured : s.node.node.At .updateConfig → s.runtimeConfig = ⟨true, cfg.rednoderanging, 0⟩
  /-- Commands are heard exactly from the regular end of `init_rnb` on. -/
  initialized : s.node.node.rnbInitialized = true ↔ s.pc = .returned 0
  complete : s.pc = .returned 0 → s.ready = resources cfg
  /-- After an error of `dk_buttons_init` nothing ever happens to the node. -/
  failed : ∀ ret, s.pc = .returned ret → ret ≠ 0 → ∀ bs s',
    (machine cfg img dkBtn1Msk app).runFrom s bs = some s' → s'.node.node = .boot app

/-- **`init_rnb` brings the node up in order**, whatever runs between its statements. -/
theorem from_reset (cfg : BuildConfig) (img : Image α) (dkBtn1Msk : UInt32) (app : α)
    {as : List Act} {s : BootNode α} (hr : (machine cfg img dkBtn1Msk app).run as = some s) :
    FromReset cfg img dkBtn1Msk app as s := by
  have hI := ready_of_run hr
  constructor
  case refines =>
    obtain ⟨t, ht, hR⟩ := (bootRefines cfg img dkBtn1Msk app).run
      (Machine.along_trivial (fun _ _ => trivial) _ _) hr
    obtain ⟨rfl, -⟩ : s.node = t ∧ Ready cfg app s := hR
    exact ht
  case uses => exact fun a ha => uses_ready hI ha
  case configured =>
    rintro ⟨slot, ht⟩
    have hlt := hI.of_node_ne (by
      intro hboot
      rw [hboot] at ht
      cases ht)
    rw [hI.runtimeConfig, runtimeConfigAt]
    have henergy : rank .setEnergySaveMode < rank s.pc := lt_trans (by decide) hlt
    have hranging : rank .setRangingEnabled < rank s.pc := lt_trans (by decide) hlt
    simp [henergy, hranging]
  case initialized => exact hI.initialized
  case complete =>
    intro hpc
    rw [hI.ready, hpc, readyAt, List.filter_eq_self]
    intro r _
    cases r with
    | work w => cases w <;> decide
    | _ => exact (by decide)
  case failed =>
    intro ret hpc hret bs s' hbs
    have hI' := ready_of_run ((Machine.runFrom_append bs hr).trans hbs)
    refine hI'.untouched ?_
    rw [pc_of_returned hpc hbs]
    simp [rank, hret]

/-- The button is pressed while `init_rnb` runs, and the first event comes before its end. -/
def earlyRun : List Act :=
  List.replicate 3 (.initRnb 0) ++ [.node (.buttonChanged 1 1), .node .buttonCall] ++
    List.replicate 14 (.initRnb 0) ++ [.node (.node (.report (.newState 0 1)))] ++
    (Node.Act.utilsTimes 4).map (fun a => .node (.node a)) ++ List.replicate 2 (.initRnb 0) ++
    (Node.Act.utilsTimes 4).map (fun a => .node (.node a))

theorem from_reset_earlyRun : ∃ s : BootNode UserRole,
    (machine ⟨false, true, true, false⟩ .plain 1 .undefined).run earlyRun = some s ∧
      s.pc = .returned 0 ∧ s.node.node.pending = [.otInitWork] ∧
      FromReset ⟨false, true, true, false⟩ .plain 1 .undefined earlyRun s := by
  obtain ⟨s, hr, hs⟩ := (Option.any_eq_true (fun s : BootNode UserRole =>
    decide (s.pc = .returned 0 ∧ s.node.node.pending = [.otInitWork]))
    ((machine ⟨false, true, true, false⟩ .plain 1 .undefined).run earlyRun)).mp (by decide +kernel)
  obtain ⟨hpc, hpending⟩ := of_decide_eq_true hs
  exact ⟨s, hr, hpc, hpending, from_reset ⟨false, true, true, false⟩ .plain 1 .undefined hr⟩

end BootNode

end RedNodeBus.Utils

import RedNodeBus.Utils.Awaiting
import RedNodeBus.Utils.ClockTrigger

/-!
# From the trigger to the request

A trigger comes as a payload, waits in the event pool, is given to `sntp_sem` by the utils
thread, and taken from there by the SNTP thread, which then goes round its loop once.  The
semaphore counts to one, so triggers that come close together are served by one pass.

None of them is made up, and none is lost.  What the pool takes is given, one for one
(`clocks_step`); the semaphore is taken no more often than it is given, and once there is a time
no pass begins without that (`Ledger`).  And each step on the way follows the one before it, as
soon as the thread that makes it stands still (`Answered`).
-/

namespace RedNodeBus.Utils

def EventArgs.isClock (args : EventArgs) : Bool :=
  args.evt = .userPayload ∧ args.params = 5 :: Node.sntpUpdateTrigger

/-- What a slot shows is the trigger exactly if `rnb_utils_user_payload` takes it for it. -/
theorem RnbUtilsEvent.isClock_args (e : RnbUtilsEvent) :
    e.args.isClock = true ↔ e.rnbUserEvent = .userPayload ∧
      Node.isSntpUpdateTrigger e.eventParamsLength e.userPayload = true := by
  rw [EventArgs.isClock, decide_eq_true_iff]
  refine and_congr_right fun _ => ?_
  rw [args, eventParamsLength, userPayload, Node.isSntpUpdateTrigger, Bool.and_eq_true,
    beq_iff_eq, beq_iff_eq]
  cases e.rnbUserEventParams with
  | nil => simp
  | cons b rest =>
    rw [List.headD_cons, List.tail_cons, Nat.add_comm, List.take_succ_cons, List.cons.injEq]
    refine and_congr_right ?_
    rintro rfl
    rfl

namespace Node

variable {α : Type} {img : Image α} {n n' : Node α}

/-! ## In the node -/

/-- The slots whose payload `rnb_utils_user_payload` has not compared yet, if it is one. -/
def ungiven (n : Node α) : List (Fin 4) :=
  match n.thread with
  | .process slot line => if line = .handleUserPayload then n.pool.fifo else slot :: n.pool.fifo
  | .fifoGet | .clearInUse _ => n.pool.fifo

def clocks (n : Node α) : ℕ := (n.argsOf n.ungiven).countP EventArgs.isClock

/-- `handle_rnb_user_event` takes a trigger. -/
def takesClock (n : Node α) (a : Act) : Bool := (n.accepted a).any EventArgs.isClock

/-- `rnb_utils_user_payload` gives `sntp_sem`. -/
def givesSem (n : Node α) : Act → Bool
  | .utils _ =>
    match n.thread with
    | .process slot .userPayload =>
      let event := n.pool.slots slot
      isSntpUpdateTrigger event.eventParamsLength event.userPayload
    | _ => false
  | _ => false

theorem mem_held_of_ungiven {slot : Fin 4} (h : slot ∈ n.ungiven) : slot ∈ n.held := by
  apply mem_held_of_awaiting
  rw [ungiven] at h
  rw [awaiting]
  cases ht : n.thread with
  | fifoGet | clearInUse slot' =>
    rw [ht] at h
    exact h
  | process slot' line =>
    simp only [ht] at h
    split at h
    · exact List.mem_cons_of_mem _ h
    · exact h

theorem ungiven_process {slot : Fin 4} {line : Line} (ht : n.thread = .process slot line)
    (hline : line ≠ .handleUserPayload) : n.ungiven = slot :: n.pool.fifo := by
  simp only [ungiven, ht, if_neg hline]

theorem ungiven_handle {slot : Fin 4} (ht : n.thread = .process slot .handleUserPayload) :
    n.ungiven = n.pool.fifo := by
  simp only [ungiven, ht, if_true]

theorem ungiven_clear {slot : Fin 4} (ht : n.thread = .clearInUse slot) :
    n.ungiven = n.pool.fifo := by
  simp only [ungiven, ht]

theorem countP_argsOf_cons (n : Node α) (slot : Fin 4) (l : List (Fin 4)) :
    (n.argsOf (slot :: l)).countP EventArgs.isClock =
      (n.pool.slots slot).args.isClock.toNat + (n.argsOf l).countP EventArgs.isClock := by
  rw [argsOf, List.map_cons, List.countP_cons, Nat.add_comm]
  cases (n.pool.slots slot).args.isClock <;> rfl

/-- A statement that goes on in the branch of an event leaves the triggers alone, -/
theorem clocks_goes {slot : Fin 4} {line line' : Line} (ht : n.thread = .process slot line)
    (hline : line ≠ .handleUserPayload) (m : Node α) (hm : m.thread = .process slot line')
    (hpool : m.pool = n.pool) (hline' : line' ≠ .handleUserPayload) : n.clocks = m.clocks := by
  rw [clocks, clocks, argsOf, argsOf, ungiven_process ht hline, ungiven_process hm hline', hpool]

/-- and so does one that leaves the branch of another event. -/
theorem clocks_done {slot : Fin 4} {line : Line} (ht : n.thread = .process slot line)
    (hline : line ≠ .handleUserPayload) (hevt : (n.pool.slots slot).rnbUserEvent ≠ .userPayload)
    (m : Node α) (hm : m.thread = .clearInUse slot) (hpool : m.pool = n.pool) :
    n.clocks = m.clocks := by
  have hno : (n.pool.slots slot).args.isClock = false := by
    rw [← Bool.not_eq_true, RnbUtilsEvent.isClock_args]
    exact fun h => hevt h.1
  rw [clocks, clocks, ungiven_process ht hline, ungiven_clear hm, countP_argsOf_cons, hno, argsOf,
    argsOf, hpool]
  exact Nat.zero_add _

/-- A statement of `process_rnb_utils_event`. -/
theorem clocks_process (img : Image α) {ret : Int} {slot : Fin 4} {line : Line} (hi : n.InBranch)
    (ht : n.thread = .process slot line) :
    n.clocks = (n.givesSem (.utils ret)).toNat +
      (n.processRnbUtilsEvent img ret slot line).clocks := by
  have hkind := hi slot line ht
  have hevt (h1 : line ≠ .switchEvt) (h2 : line ≠ .userPayload) (h3 : line ≠ .handleUserPayload) :
      (n.pool.slots slot).rnbUserEvent ≠ .userPayload := by
    intro h
    rcases (hkind h1).mp h with h | h
    · exact h2 h
    · exact h3 h
  have hquiet (h : line ≠ .userPayload) : (n.givesSem (.utils ret)).toNat = 0 := by
    rw [givesSem, ht]
    cases line <;> first | rfl | exact absurd rfl h
  cases line with
  | switchEvt =>
    rw [hquiet (by simp), Nat.zero_add, processRnbUtilsEvent]
    split
    · rename_i l hl
      exact clocks_goes ht (by simp) _ rfl rfl (branch_kind hl).1
    · rename_i hl
      exact clocks_done ht (by simp) (branch_none hl) _ rfl rfl
  | initConfig | updateConfig =>
    rw [hquiet (by simp), Nat.zero_add, processRnbUtilsEvent]
    split
    · exact clocks_done ht (by simp) (hevt (by simp) (by simp) (by simp)) _ rfl rfl
    · exact clocks_goes ht (by simp) _ rfl rfl (by simp)
  | callStart =>
    rw [hquiet (by simp), Nat.zero_add, processRnbUtilsEvent, rnbUtilsStart_eq]
    exact clocks_goes ht (by simp) _ rfl rfl (by simp)
  | setConfigured | setConnected | submitStart | submitStop | clearConnected =>
    rw [hquiet (by simp), Nat.zero_add]
    exact clocks_goes ht (by simp) _ rfl rfl (by simp)
  | handleNewState =>
    rw [hquiet (by simp), Nat.zero_add]
    exact clocks_done ht (by simp) (hevt (by simp) (by simp) (by simp)) _ rfl rfl
  | userPayload =>
    -- the payload is compared, and given if it is the trigger
    have hclock : (n.pool.slots slot).args.isClock = n.givesSem (.utils ret) := by
      rw [Bool.eq_iff_iff, RnbUtilsEvent.isClock_args, givesSem, ht]
      exact and_iff_right ((hkind (by simp)).mpr (.inl rfl))
    rw [← hclock, clocks, ungiven_process ht (by simp), countP_argsOf_cons]
    rfl
  | handleUserPayload =>
    rw [hquiet (by simp), Nat.zero_add, clocks, ungiven_handle ht]
    rfl

theorem clocks_report {r : Report} (hn : n.Held) (ha : n.ReportFits (.report r))
    (hp : n'.pool = handleRnbUserEvent r n.pool) (ht : n'.thread = n.thread) :
    n.clocks + (n.takesClock (.report r)).toNat = n'.clocks := by
  have hungiven (fifo : List (Fin 4)) (hf : n'.pool.fifo = n.pool.fifo ++ fifo) :
      n'.ungiven = n.ungiven ++ fifo := by
    rw [ungiven, ungiven, ht, hf]
    split
    · split <;> rfl
    · rfl
    · rfl
  rw [clocks, clocks, ← argsOf_report_append hn hp (fun _ => mem_held_of_ungiven) hungiven,
    List.countP_append, copied_eq_accepted ha, takesClock]
  cases n.accepted (.report r) with
  | none => rfl
  | some args => cases h : args.isClock <;> simp [h]

/-- **The triggers that wait**: what is taken is given, one for one. -/
theorem clocks_step {a : Act} (hn : n.Held) (hi : n.InBranch) (ha : n.ReportFits a)
    (h : step img n a = some n') :
    n.clocks + (n.takesClock a).toNat = (n.givesSem a).toNat + n'.clocks := by
  have hsame (hp : n'.pool = n.pool) (ht : n'.thread = n.thread) :
      n.clocks + 0 = 0 + n'.clocks := by
    rw [clocks, clocks, argsOf, argsOf, ungiven, ungiven, hp, ht, Nat.zero_add, Nat.add_zero]
  cases a with
  | report r =>
    obtain rfl := Option.some.inj h
    have hreport : _ = ({ n with pool := handleRnbUserEvent r n.pool } : Node α).clocks :=
      clocks_report hn ha rfl rfl
    exact hreport.trans (Nat.zero_add _).symm
  | utils ret =>
    rcases utils_cases h with ⟨slot, rest, ht, hf, rfl⟩ | ⟨slot, line, ht, rfl⟩ | ⟨slot, ht, rfl⟩
    · rw [givesSem, ht]
      have hungiven : n.ungiven = slot :: rest := by simp only [ungiven, ht, hf]
      rw [clocks, hungiven]
      exact (Nat.zero_add _).symm
    · exact clocks_process img hi ht
    · have hargs : n.argsOf n.pool.fifo = ({ n with
          pool := n.pool.release eventOps slot, thread := .fifoGet } : Node α).argsOf _ :=
        argsOf_release hn ht rfl
      rw [givesSem, ht, clocks, ungiven_clear ht, hargs]
      exact (Nat.zero_add _).symm
  | take =>
    obtain ⟨w, rest, -, -, rfl⟩ := take_cases h
    exact hsame rfl rfl
  | work ret =>
    obtain ⟨pc, -, rfl⟩ := work_cases h
    exact hsame rfl rfl
  | initialized =>
    obtain ⟨-, rfl⟩ := initialized_cases h
    exact hsame rfl rfl
  | start =>
    obtain rfl := Option.some.inj h
    refine hsame ?_ ?_ <;> rw [rnbUtilsStart_eq]
  | stop =>
    obtain rfl := Option.some.inj h
    refine hsame ?_ ?_ <;> rw [rnbUtilsStop_eq]

theorem sntpSem_eq {a : Act} (h : step img n a = some n') :
    n'.sntpSem = (n.sntpSem || n.givesSem a) := by
  cases a with
  | report r =>
    obtain rfl := Option.some.inj h
    exact (Bool.or_false _).symm
  | utils ret =>
    rcases utils_cases h with ⟨slot, rest, ht, -, rfl⟩ | ⟨slot, line, ht, rfl⟩ | ⟨slot, ht, rfl⟩
    · rw [givesSem, ht]
      exact (Bool.or_false _).symm
    · rw [givesSem, ht]
      cases line with
      | switchEvt | initConfig | updateConfig =>
        rw [processRnbUtilsEvent]
        split <;> exact (Bool.or_false _).symm
      | callStart =>
        rw [processRnbUtilsEvent, rnbUtilsStart_eq]
        exact (Bool.or_false _).symm
      | userPayload => rfl
      | setConfigured | setConnected | submitStart | submitStop | clearConnected | handleNewState
      | handleUserPayload => exact (Bool.or_false _).symm
    · rw [givesSem, ht]
      exact (Bool.or_false _).symm
  | take =>
    obtain ⟨w, rest, -, -, rfl⟩ := take_cases h
    exact (Bool.or_false _).symm
  | work ret =>
    obtain ⟨pc, -, rfl⟩ := work_cases h
    exact (Bool.or_false _).symm
  | initialized =>
    obtain ⟨-, rfl⟩ := initialized_cases h
    exact (Bool.or_false _).symm
  | start =>
    obtain rfl := Option.some.inj h
    rw [rnbUtilsStart_eq]
    exact (Bool.or_false _).symm
  | stop =>
    obtain rfl := Option.some.inj h
    rw [rnbUtilsStop_eq]
    exact (Bool.or_false _).symm

/-- A trigger is taken by the driver's call, and given by the utils thread. -/
theorem takes_or_gives (n : Node α) (a : Act) :
    (n.takesClock a = true ∧ n.givesSem a = false) ∨
      (n.takesClock a = false ∧ n.givesSem a = true) ∨
      (n.takesClock a = false ∧ n.givesSem a = false) := by
  cases a with
  | report r =>
    cases n.takesClock (.report r) with
    | true => exact .inl ⟨rfl, rfl⟩
    | false => exact .inr (.inr ⟨rfl, rfl⟩)
  | utils ret =>
    cases n.givesSem (.utils ret) with
    | true => exact .inr (.inl ⟨rfl, rfl⟩)
    | false => exact .inr (.inr ⟨rfl, rfl⟩)
  | take | work ret | initialized | start | stop => exact .inr (.inr ⟨rfl, rfl⟩)

end Node

namespace Sntp

open Machine (Followed)

variable {α : Type} {img : Image α} {s s' : SntpNode α}

/-! ## On the way to the server -/

/-- What is seen of the triggers. -/
inductive Seen
  /-- `handle_rnb_user_event` takes a trigger. -/
  | accepted
  /-- `rnb_utils_user_payload` gives `sntp_sem`. -/
  | given
  /-- `k_sem_take` returns. -/
  | consumed
  /-- The thread calls `is_rnb_connected`. -/
  | tested (connected : Bool)
  /-- It calls `sntp_init`, with or without a time. -/
  | asked (synchronized : Bool)
  deriving DecidableEq

def seen (s : SntpNode α) : Act → Option Seen
  | .node a =>
    if s.node.takesClock a then some .accepted
    else if s.node.givesSem a then some .given
    else none
  | .sntp _ _ _ =>
    match s.line with
    | .isConnected => some (.tested s.node.rnbConnected)
    | .sntpInit => some (.asked s.clock.sntpSynchronized)
    | .semTake => some .consumed
    | .clearSynchronized | .sntpQuery | .setReference | .setSynchronized | .sntpClose
    | .ifSynchronized | .sleep => none
  | .getUnixTime _ => none

def triggers (img : Image α) (app : α) (as : List Act) : List Seen :=
  (machine img app).observe seen (machine img app).init as

/-- Every report can be copied. -/
def ReportsFit (s : SntpNode α) : Act → Prop
  | .node a => s.node.ReportFits a
  | .sntp _ _ _ | .getUnixTime _ => True

instance (s : SntpNode α) : (a : Act) → Decidable (ReportsFit s a)
  | .node a => inferInstanceAs (Decidable (s.node.ReportFits a))
  | .sntp _ _ _ | .getUnixTime _ => isTrue trivial

/-- The thread is in a pass in which it has not asked yet. -/
def Asks (s : SntpNode α) : Bool := s.line = .isConnected ∨ s.line = .sntpInit

/-- The accounts of the triggers. -/
structure Ledger (h : List Seen) (s : SntpNode α) : Prop where
  held : s.node.Held
  inBranch : s.node.InBranch
  accepted : h.count .accepted = h.count .given + s.node.clocks
  consumed : h.count .consumed + s.node.sntpSem.toNat ≤ h.count .given
  asked : h.count (.asked true) + (s.clock.sntpSynchronized && Asks s).toNat ≤ h.count .consumed
  asleep : s.line = .sleep → s.clock.sntpSynchronized = false

/-- What follows what, where the next thread on the way stands still. -/
structure Answered (h : List Seen) (s : SntpNode α) : Prop where
  given : s.node.clocks = 0 → Followed (· = .accepted) (· = .given) h
  consumed : s.node.sntpSem = false → Followed (· = .given) (· = .consumed) h
  tested : s.line ≠ .isConnected → Followed (· = .consumed) (fun o => ∃ c, o = .tested c) h
  asked : s.line ≠ .sntpInit → Followed (· = .tested true) (fun o => ∃ b, o = .asked b) h

variable {h : List Seen} {app : α}

theorem ledger_boot (app : α) : Ledger [] (boot app) where
  held := Node.held_boot app
  inBranch := by
    intro slot line hline
    cases hline
  accepted := rfl
  consumed := le_rfl
  asked := le_rfl
  asleep := Line.noConfusion

theorem answered_boot (app : α) : Answered [] (boot app) where
  given _ := .nil _ _
  consumed _ := .nil _ _
  tested _ := .nil _ _
  asked _ := .nil _ _

theorem Ledger.quiet (hL : Ledger h s) (hnode : s'.node = s.node)
    (hasks : (s'.clock.sntpSynchronized && Asks s') = false)
    (hasleep : s'.line = .sleep → s'.clock.sntpSynchronized = false) : Ledger h s' where
  held := hnode ▸ hL.held
  inBranch := hnode ▸ hL.inBranch
  accepted := hnode ▸ hL.accepted
  consumed := hnode ▸ hL.consumed
  asked := by
    rw [hasks]
    exact (Nat.le_add_right _ _).trans hL.asked
  asleep := hasleep

theorem Ledger.sntp {rv : Int} {seconds : UInt64} {uptime : Int64} {m : Option Mark}
    (hL : Ledger h s) (hm : SntpMove s s' rv m) :
    Ledger (h ++ (seen s (.sntp rv seconds uptime)).toList) s' := by
  have hasked := hL.asked
  cases hm with
  | clear hl eq | queried hl _ eq | referenced hl _ eq | synchronized hl eq | closed hl eq
  | waits hl _ eq =>
    subst eq
    simp only [seen, hl, Option.toList_none, List.append_nil]
    exact hL.quiet rfl (by simp [Asks]) Line.noConfusion
  | sleeps hl hsync eq =>
    subst eq
    simp only [seen, hl, Option.toList_none, List.append_nil]
    exact hL.quiet rfl (by simp [Asks]) fun _ => hsync
  | slept hl eq =>
    subst eq
    simp only [seen, hl, Option.toList_none, List.append_nil]
    exact hL.quiet rfl (by simp [hL.asleep hl]) Line.noConfusion
  | connected hl hc eq =>
    subst eq
    have hasks : Asks s = true := by simp [Asks, hl]
    rw [hasks] at hasked
    simp only [seen, hl, Option.toList_some]
    refine ⟨hL.held, hL.inBranch, ?_, ?_, ?_, Line.noConfusion⟩
    · simpa using hL.accepted
    · simpa using hL.consumed
    · simpa [Asks] using hasked
  | disconnected hl hc eq =>
    subst eq
    simp only [seen, hl, Option.toList_some]
    refine ⟨hL.held, hL.inBranch, ?_, ?_, ?_, Line.noConfusion⟩
    · simpa using hL.accepted
    · simpa using hL.consumed
    · have hle := (Nat.le_add_right _ _).trans hasked
      simpa [Asks] using hle
  | opened hl eq =>
    subst eq
    have hasks : Asks s = true := by simp [Asks, hl]
    rw [hasks] at hasked
    simp only [seen, hl, Option.toList_some]
    refine ⟨hL.held, hL.inBranch, ?_, ?_, ?_, Line.noConfusion⟩
    · simpa using hL.accepted
    · simpa using hL.consumed
    · cases hsync : s.clock.sntpSynchronized <;> simpa [hsync, Asks] using hasked
  | failed hl hrv eq =>
    subst eq
    rcases hl with hl | hl
    · have hasks : Asks s = true := by simp [Asks, hl]
      rw [hasks] at hasked
      simp only [seen, hl, Option.toList_some]
      refine ⟨hL.held, hL.inBranch, ?_, ?_, ?_, Line.noConfusion⟩
      · simpa using hL.accepted
      · simpa using hL.consumed
      · cases hsync : s.clock.sntpSynchronized <;> simpa [hsync, Asks] using hasked
    · simp only [seen, hl, Option.toList_none, List.append_nil]
      exact hL.quiet rfl (by simp [Asks]) Line.noConfusion
  | consumed hl hsem eq =>
    subst eq
    have hasks : Asks s = false := by simp [Asks, hl]
    rw [hasks, Bool.and_false] at hasked
    have hgiven := hL.consumed
    rw [hsem] at hgiven
    simp only [seen, hl, Option.toList_some]
    refine ⟨hL.held, hL.inBranch, ?_, ?_, ?_, Line.noConfusion⟩
    · show _ = _ + s.node.clocks
      simpa using hL.accepted
    · simpa using hgiven
    · have hle : (s.clock.sntpSynchronized && true).toNat ≤ 1 := Bool.toNat_le _
      simpa [Asks] using Nat.add_le_add hasked hle

/-- **The accounts stay right**, whoever makes the step. -/
theorem Ledger.step {a : Act} (hL : Ledger h s) (ha : ReportsFit s a)
    (hs : Sntp.step img s a = some s') : Ledger (h ++ (seen s a).toList) s' := by
  cases a with
  | node a =>
    obtain ⟨n, hn, rfl⟩ := node_cases hs
    have hclocks := Node.clocks_step hL.held hL.inBranch ha hn
    have hsem := Node.sntpSem_eq hn
    have haccepted := hL.accepted
    have hconsumed := hL.consumed
    refine ⟨Node.held_step hL.held hn, Node.inBranch_step hL.held hL.inBranch hn, ?_, ?_, ?_,
      hL.asleep⟩
    · rcases s.node.takes_or_gives a with ⟨ht, hg⟩ | ⟨ht, hg⟩ | ⟨ht, hg⟩ <;>
        simp only [ht, hg] at hclocks <;> simp [seen, ht, hg] at hclocks ⊢ <;> omega
    · rw [hsem]
      rcases s.node.takes_or_gives a with ⟨ht, hg⟩ | ⟨ht, hg⟩ | ⟨ht, hg⟩
      · simpa [seen, ht, hg] using hconsumed
      · have hle : (s.node.sntpSem || true).toNat ≤ 1 := Bool.toNat_le _
        simp [seen, ht, hg]
        omega
      · simpa [seen, ht, hg] using hconsumed
    · rcases s.node.takes_or_gives a with ⟨ht, hg⟩ | ⟨ht, hg⟩ | ⟨ht, hg⟩ <;>
        simpa [seen, ht, hg, Asks] using hL.asked
  | sntp rv seconds uptime => exact hL.sntp (sntp_move hs)
  | getUnixTime now =>
    obtain rfl := Option.some.inj hs
    simp only [seen, Option.toList_none, List.append_nil]
    exact hL

theorem Answered.quiet (hA : Answered h s) (hnode : s'.node = s.node) (h1 : s.line ≠ .isConnected)
    (h2 : s.line ≠ .sntpInit) : Answered h s' where
  given hc := hA.given (hnode ▸ hc)
  consumed hsem := hA.consumed (hnode ▸ hsem)
  tested _ := hA.tested h1
  asked _ := hA.asked h2

/-- The call of `sntp_init`. -/
theorem Answered.asks (hA : Answered h s) (hl : s.line ≠ .isConnected) {b : Bool}
    (hnode : s'.node = s.node) : Answered (h ++ [.asked b]) s' where
  given hc := (hA.given (hnode ▸ hc)).concat (by simp)
  consumed hsem := (hA.consumed (hnode ▸ hsem)).concat (by simp)
  tested _ := (hA.tested hl).concat (by simp)
  asked _ := .of_concat (by simp) ⟨b, rfl⟩

theorem Answered.sntp {rv : Int} {seconds : UInt64} {uptime : Int64} {m : Option Mark}
    (hA : Answered h s) (hm : SntpMove s s' rv m) :
    Answered (h ++ (seen s (.sntp rv seconds uptime)).toList) s' := by
  cases hm with
  | clear hl eq | queried hl _ eq | referenced hl _ eq | synchronized hl eq | closed hl eq
  | waits hl _ eq | sleeps hl _ eq | slept hl eq =>
    subst eq
    simp only [seen, hl, Option.toList_none, List.append_nil]
    exact hA.quiet rfl (by simp [hl]) (by simp [hl])
  | connected hl hc eq =>
    subst eq
    simp only [seen, hl, Option.toList_some]
    refine ⟨?_, ?_, ?_, ?_⟩
    · exact fun hc => (hA.given hc).concat (by simp)
    · exact fun hsem => (hA.consumed hsem).concat (by simp)
    · exact fun _ => .of_concat (by simp) ⟨_, rfl⟩
    · exact fun hne => absurd rfl hne
  | disconnected hl hc eq =>
    subst eq
    simp only [seen, hl, Option.toList_some]
    refine ⟨?_, ?_, ?_, ?_⟩
    · exact fun hc => (hA.given hc).concat (by simp)
    · exact fun hsem => (hA.consumed hsem).concat (by simp)
    · exact fun _ => .of_concat (by simp) ⟨_, rfl⟩
    · exact fun _ => (hA.asked (by simp [hl])).concat (by simp [hc])
  | opened hl eq =>
    subst eq
    simp only [seen, hl, Option.toList_some]
    exact hA.asks (by simp [hl]) rfl
  | failed hl hrv eq =>
    subst eq
    rcases hl with hl | hl
    · simp only [seen, hl, Option.toList_some]
      exact hA.asks (by simp [hl]) rfl
    · simp only [seen, hl, Option.toList_none, List.append_nil]
      exact hA.quiet rfl (by simp [hl]) (by simp [hl])
  | consumed hl hsem eq =>
    subst eq
    simp only [seen, hl, Option.toList_some]
    refine ⟨?_, ?_, ?_, ?_⟩
    · exact fun hc => (hA.given hc).concat (by simp)
    · exact fun _ => .of_concat (by simp) rfl
    · exact fun hne => absurd rfl hne
    · exact fun _ => (hA.asked (by simp [hl])).concat (by simp)

/-- **The answers keep coming**, whoever makes the step. -/
theorem Answered.step {a : Act} (hL : Ledger h s) (hA : Answered h s) (ha : ReportsFit s a)
    (hs : Sntp.step img s a = some s') : Answered (h ++ (seen s a).toList) s' := by
  cases a with
  | node a =>
    obtain ⟨n, hn, rfl⟩ := node_cases hs
    have hclocks := Node.clocks_step hL.held hL.inBranch ha hn
    have hsem := Node.sntpSem_eq hn
    rcases s.node.takes_or_gives a with ⟨ht, hg⟩ | ⟨ht, hg⟩ | ⟨ht, hg⟩ <;>
      rw [ht, hg] at hclocks <;> rw [hg] at hsem <;>
      simp only [Bool.toNat_true, Bool.toNat_false, Nat.add_zero, Nat.zero_add] at hclocks
    · have hseen : seen s (.node a) = some .accepted := by simp [seen, ht]
      rw [hseen, Option.toList_some]
      refine ⟨?_, ?_, ?_, ?_⟩
      · intro hnone
        have hzero : n.clocks = 0 := hnone
        omega
      · intro hnone
        rw [show n.sntpSem = false from hnone, Bool.or_false] at hsem
        exact (hA.consumed hsem.symm).concat (by simp)
      · exact fun hne => (hA.tested hne).concat (by simp)
      · exact fun hne => (hA.asked hne).concat (by simp)
    · have hseen : seen s (.node a) = some .given := by simp [seen, ht, hg]
      rw [hseen, Option.toList_some]
      refine ⟨?_, ?_, ?_, ?_⟩
      · exact fun _ => .of_concat (by simp) rfl
      · intro hnone
        rw [Bool.or_true] at hsem
        exact absurd (hsem.symm.trans hnone) (by simp)
      · exact fun hne => (hA.tested hne).concat (by simp)
      · exact fun hne => (hA.asked hne).concat (by simp)
    · have hseen : seen s (.node a) = none := by simp [seen, ht, hg]
      rw [hseen, Option.toList_none, List.append_nil]
      refine ⟨fun hnone => hA.given (hclocks.trans hnone), ?_, hA.tested, hA.asked⟩
      intro hnone
      rw [show n.sntpSem = false from hnone, Bool.or_false] at hsem
      exact hA.consumed hsem.symm
  | sntp rv seconds uptime => exact hA.sntp (sntp_move hs)
  | getUnixTime now =>
    obtain rfl := Option.some.inj hs
    simp only [seen, Option.toList_none, List.append_nil]
    exact hA

/-- What a run tells of the triggers. -/
structure Conserved (img : Image α) (app : α) (as : List Act) (s : SntpNode α) : Prop where
  /-- What the pool took was given, or waits. -/
  accepted : (triggers img app as).count .accepted =
    (triggers img app as).count .given + s.node.clocks
  /-- Once there is a time, the thread asks no more often than the semaphore was given. -/
  asked : (triggers img app as).count (.asked true) ≤ (triggers img app as).count .given
  /-- When the thread is blocked and none waits, it has gone round its loop after each. -/
  served : Blocked s → s.node.clocks = 0 →
    Followed (· = .accepted) (fun o => ∃ c, o = .tested c) (triggers img app as)
  /-- Where it found the bus connected, it asked. -/
  connected : Blocked s →
    Followed (· = .tested true) (fun o => ∃ b, o = .asked b) (triggers img app as)

/-- **No trigger is lost, and none is made up**, in every run of the node, its SNTP thread and
the readers of the time, in which every report can be copied. -/
theorem triggers_conserved (img : Image α) (app : α) {as : List Act} {s : SntpNode α}
    (hr : (machine img app).run as = some s)
    (hfit : (machine img app).Along ReportsFit (machine img app).init as) :
    Conserved img app as s := by
  have hboth : Ledger ([] ++ triggers img app as) s ∧ Answered ([] ++ triggers img app as) s :=
    Machine.history_invariant (I := fun h s => Ledger h s ∧ Answered h s)
      (fun _ _ _ _ hI ha hs => ⟨hI.1.step ha hs, hI.2.step hI.1 ha hs⟩)
      ⟨ledger_boot app, answered_boot app⟩ hfit hr
  obtain ⟨hL, hA⟩ := hboth
  rw [List.nil_append] at hL hA
  constructor
  case accepted => exact hL.accepted
  case asked =>
    have hasked := hL.asked
    have hconsumed := hL.consumed
    omega
  case served =>
    intro hb hnone
    have hconsumed := (hA.given hnone).trans (hA.consumed hb.2)
    exact hconsumed.trans (hA.tested (by simp [hb.1]))
  case connected =>
    intro hb
    exact hA.asked (by simp [hb.1])

/-- Two triggers that come while the thread is asking after a third one. -/
def twoWhileAsking : List Act :=
  firstSync 1700000000 20000 ++ trigger ++ List.replicate 2 (.sntp 0 0 0) ++
    nodeActs (Node.payloadActs Node.clockReport ++ Node.Act.utilsTimes 1 ++
      Node.payloadActs Node.clockReport ++ Node.Act.utilsTimes 1) ++
    List.replicate 13 (.sntp 0 1700086400 86420000)

theorem triggers_conserved_twoWhileAsking :
    (triggers .plain .undefined twoWhileAsking).count .accepted = 3 ∧
      (triggers .plain .undefined twoWhileAsking).count (.asked true) = 2 ∧
      ∃ s, (machine .plain .undefined).run twoWhileAsking = some s ∧ Blocked s ∧
        Conserved .plain .undefined twoWhileAsking s := by
  refine ⟨by decide +kernel, by decide +kernel, ?_⟩
  obtain ⟨s, hr, hs⟩ := (Option.any_eq_true (fun s : SntpNode UserRole => decide (Blocked s))
    ((machine .plain .undefined).run twoWhileAsking)).mp (by decide +kernel)
  exact ⟨s, hr, of_decide_eq_true hs, triggers_conserved .plain .undefined hr (by decide +kernel)⟩

end Sntp

end RedNodeBus.Utils

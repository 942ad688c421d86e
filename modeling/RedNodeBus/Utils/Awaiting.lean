import RedNodeBus.Utils.EventQueue

/-!
# The events that wait

An event waits from `handle_rnb_user_event` on until `process_rnb_utils_event` is done with
it.  What waits shows what it showed (`argsOf_awaiting`), and past its first test the utils
thread is in the branch of a payload exactly if its event is one (`InBranch`), so that every
payload that waits reaches the hook (`await_move`).
-/

namespace RedNodeBus.Utils

theorem RnbUtilsEvent.handed_of_args {e : RnbUtilsEvent} {dev : Nat} {evt : UserEvent} {l : UInt8}
    {p : List UInt8} (h : e.args = ⟨dev, evt, l :: p⟩) :
    e.userPayload.take e.eventParamsLength.toNat = p := by
  have hparams : e.rnbUserEventParams.take (1 + e.eventParamsLength.toNat) = l :: p :=
    (EventArgs.mk.inj h).2.2
  rw [RnbUtilsEvent.userPayload]
  cases hp : e.rnbUserEventParams with
  | nil =>
    rw [hp, List.take_nil] at hparams
    cases hparams
  | cons b rest =>
    rw [hp, Nat.add_comm, List.take_succ_cons] at hparams
    exact (List.cons.inj hparams).2

namespace Node

variable {α : Type} {img : Image α} {n n' : Node α}

/-- The slots whose event `process_rnb_utils_event` is not done with, oldest first. -/
def awaiting (n : Node α) : List (Fin 4) :=
  match n.thread with
  | .process slot _ => slot :: n.pool.fifo
  | .fifoGet | .clearInUse _ => n.pool.fifo

theorem awaiting_concat {slot : Fin 4} (ht : n'.thread = n.thread)
    (hf : n'.pool.fifo = n.pool.fifo ++ [slot]) : n'.awaiting = n.awaiting ++ [slot] := by
  rw [awaiting, awaiting, ht, hf]
  cases n.thread <;> rfl

theorem mem_held_of_awaiting {slot : Fin 4} (h : slot ∈ n.awaiting) : slot ∈ n.held := by
  rw [awaiting] at h
  rw [held, SlotPool.held]
  cases ht : n.thread with
  | fifoGet | clearInUse slot' =>
    rw [ht] at h
    exact List.mem_append_right _ h
  | process slot' line =>
    rw [ht] at h
    exact h

/-- Past the first test the thread is in the branch of a payload exactly if its event is
one. -/
def InBranch (n : Node α) : Prop :=
  ∀ slot line, n.thread = .process slot line → line ≠ .switchEvt →
    ((n.pool.slots slot).rnbUserEvent = .userPayload ↔
      line = .userPayload ∨ line = .handleUserPayload)

/-- **What a statement of the utils thread does to the events that wait.** -/
inductive AwaitMove (n n' : Node α) : Prop
  | waits (awaiting : n'.awaiting = n.awaiting)
      (goes : ∀ slot line, n.thread = .process slot line → ∀ slot', n'.thread ≠ .clearInUse slot')
  | done {slot : Fin 4} {line : Line} (before : n.thread = .process slot line)
      (after : n'.thread = .clearInUse slot) (awaiting : n.awaiting = slot :: n'.awaiting)
      (kind : (n.pool.slots slot).rnbUserEvent = .userPayload ↔ line = .handleUserPayload)

theorem branch_none {c : Bool} {evt : UserEvent} {st : EventParamsState}
    (h : branch c evt st = none) : evt ≠ .userPayload := by
  rintro rfl
  cases h

theorem branch_kind {c : Bool} {evt : UserEvent} {st : EventParamsState} {l : Line}
    (h : branch c evt st = some l) :
    l ≠ .handleUserPayload ∧ (evt = .userPayload ↔ l = .userPayload) := by
  obtain ⟨bus, role⟩ := st
  cases evt with
  | newState => cases bus <;> cases c <;> cases h <;> simp
  | userPayload =>
    cases h
    simp
  | other id => cases h

theorem await_move {ret : Int} (hi : n.InBranch) (h : step img n (.utils ret) = some n') :
    AwaitMove n n' ∧ n'.InBranch := by
  rcases utils_cases h with ⟨slot, rest, ht, hf, rfl⟩ | ⟨slot, line, ht, rfl⟩ | ⟨slot, ht, rfl⟩
  · refine ⟨.waits ?_ ?_, ?_⟩
    · rw [awaiting, awaiting, ht, hf]
    · intro slot' line' ht'
      cases ht.symm.trans ht'
    · intro slot' line' ht' hline
      cases ht'
      exact absurd rfl hline
  · have hkind := hi slot line ht
    -- a statement that goes on in the branch
    have hgoes (m : Node α) (line' : Line) (hm : m.thread = .process slot line')
        (hpool : m.pool = n.pool) (hline : (n.pool.slots slot).rnbUserEvent = .userPayload ↔
          line' = .userPayload ∨ line' = .handleUserPayload) : AwaitMove n m ∧ m.InBranch := by
      refine ⟨.waits ?_ ?_, ?_⟩
      · rw [awaiting, awaiting, hm, ht, hpool]
      · intro slot' line'' _ slot'' hclear
        cases hm.symm.trans hclear
      · intro slot' line'' hm' _
        cases hm.symm.trans hm'
        rw [hpool]
        exact hline
    -- a statement that leaves it
    have hdone (m : Node α) (hm : m.thread = .clearInUse slot) (hpool : m.pool = n.pool)
        (hline : (n.pool.slots slot).rnbUserEvent = .userPayload ↔ line = .handleUserPayload) :
        AwaitMove n m ∧ m.InBranch := by
      refine ⟨.done ht hm ?_ hline, ?_⟩
      · rw [awaiting, awaiting, hm, ht, hpool]
      · intro slot' line' hm'
        cases hm.symm.trans hm'
    cases line with
    | switchEvt =>
      rw [processRnbUtilsEvent]
      split
      · rename_i l hl
        obtain ⟨hne, hiff⟩ := branch_kind hl
        refine hgoes _ l rfl rfl ?_
        rw [hiff]
        simp [hne]
      · rename_i hl
        have hne := branch_none hl
        exact hdone _ rfl rfl ⟨fun he => absurd he hne, Line.noConfusion⟩
    | initConfig | updateConfig =>
      have hne : ¬ (n.pool.slots slot).rnbUserEvent = .userPayload := by
        rw [hkind (by decide)]
        simp
      rw [processRnbUtilsEvent]
      split
      · exact hdone _ rfl rfl ⟨fun he => absurd he hne, Line.noConfusion⟩
      · exact hgoes _ _ rfl rfl ⟨fun he => absurd he hne, by simp⟩
    | callStart =>
      have hne : ¬ (n.pool.slots slot).rnbUserEvent = .userPayload := by
        rw [hkind (by decide)]
        simp
      rw [processRnbUtilsEvent, rnbUtilsStart_eq]
      exact hgoes _ _ rfl rfl ⟨fun he => absurd he hne, by simp⟩
    | setConfigured | setConnected | submitStart | submitStop | clearConnected =>
      have hne : ¬ (n.pool.slots slot).rnbUserEvent = .userPayload := by
        rw [hkind (by decide)]
        simp
      exact hgoes _ _ rfl rfl ⟨fun he => absurd he hne, by simp⟩
    | handleNewState =>
      have hne : ¬ (n.pool.slots slot).rnbUserEvent = .userPayload := by
        rw [hkind (by decide)]
        simp
      exact hdone _ rfl rfl ⟨fun he => absurd he hne, Line.noConfusion⟩
    | userPayload =>
      have he := (hkind (by decide)).mpr (Or.inl rfl)
      exact hgoes _ _ rfl rfl ⟨fun _ => Or.inr rfl, fun _ => he⟩
    | handleUserPayload =>
      have he := (hkind (by decide)).mpr (Or.inr rfl)
      exact hdone _ rfl rfl ⟨fun _ => rfl, fun _ => he⟩
  · refine ⟨.waits ?_ ?_, ?_⟩
    · rw [awaiting, awaiting, ht]
      rfl
    · intro slot' line' ht'
      cases ht.symm.trans ht'
    · intro slot' line' ht'
      cases ht'

theorem inBranch_step {a : Act} (hn : n.Held) (hi : n.InBranch) (h : step img n a = some n') :
    n'.InBranch := by
  have hsame (ht : n'.thread = n.thread)
      (hslot : ∀ slot ∈ n.awaiting, n'.pool.slots slot = n.pool.slots slot) : n'.InBranch := by
    intro slot line hline hne
    rw [ht] at hline
    rw [hslot slot (by rw [awaiting, hline]; exact List.mem_cons_self)]
    exact hi slot line hline hne
  cases pool_move h with
  | report r hp ht =>
    exact hsame ht fun slot hslot => by
      rw [hp]
      exact SlotPool.Held.put_slots hn (mem_held_of_awaiting hslot)
  | fifoGet ret | process ret | clearInUse ret => exact (await_move hi h).2
  | other _ _ _ _ hp ht => exact hsame ht fun slot _ => by rw [hp]

theorem argsOf_awaiting {a : Act} (hn : n.Held) (h : step img n a = some n') {l : List (Fin 4)}
    (hl : ∀ slot ∈ l, slot ∈ n.awaiting) : n'.argsOf l = n.argsOf l := by
  refine List.map_congr_left fun slot hs => ?_
  have hwait := hl slot hs
  rcases slots_step hn h (mem_held_of_awaiting hwait) with heq | ⟨ht, -⟩
  · rw [heq]
  · -- the slot that is cleared does not wait
    have hnodup : (slot :: n.pool.fifo).Nodup := by
      have hheld := SlotPool.Held.nodup hn
      rwa [SlotPool.held, ht] at hheld
    rw [awaiting, ht] at hwait
    exact absurd hwait (List.nodup_cons.mp hnodup).1

end Node

end RedNodeBus.Utils

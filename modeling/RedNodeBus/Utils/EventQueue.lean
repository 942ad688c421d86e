import RedNodeBus.Utils.Node

/-!
# The event queue

The pool of four slots, the FIFO and the utils thread as one queue.  `SlotPool.Held`
is kept by every step of the node (`held_step`): a slot is in use exactly when it is
in the FIFO or in the hand of the thread, and no slot is there twice.  So the node
performs runs of the pool (`poolRefines`) and, as long as the parameters of every
report can be copied, of a bounded queue of capacity four (`queueRefines`).

Which events are done with, and when one is dropped, are then the laws of the bounded
queue.  What holds of the copies even where they are not the reports, and the order in
which events are handed to `process_rnb_utils_event`, is read off two balance laws over
runs of the node itself (`processed_run` and `finished_run`).
-/

namespace RedNodeBus.Utils

/-- The slot the thread holds. -/
def UtilsThread.hand : UtilsThread → Option (Fin 4)
  | .fifoGet => none
  | .process slot _ => some slot
  | .clearInUse slot => some slot

namespace Node

variable {α : Type} {img : Image α} {n n' : Node α}

/-- The slots in use: the one in the hand of the thread and those in the FIFO. -/
def held (n : Node α) : List (Fin 4) := n.pool.held n.thread.hand

/-- The slots whose event has not been handed to `process_rnb_utils_event`. -/
def unprocessed (n : Node α) : List (Fin 4) :=
  match n.thread with
  | .process slot .switchEvt => slot :: n.pool.fifo
  | _ => n.pool.fifo

def argsOf (n : Node α) (slots : List (Fin 4)) : List EventArgs :=
  slots.map fun slot => (n.pool.slots slot).args

/-- The events `handle_rnb_user_event` takes, as it has copied them. -/
def copied (n : Node α) : Act → Option EventArgs
  | .report r =>
    (n.pool.firstFree RnbUtilsEvent.inUse).map fun slot => ((n.pool.slots slot).fill r).args
  | _ => none

/-- The events `handle_rnb_user_event` takes, as they were reported. -/
def accepted (n : Node α) : Act → Option EventArgs
  | .report r => (n.pool.firstFree RnbUtilsEvent.inUse).map fun _ => r.args
  | _ => none

/-- The events `handle_rnb_user_event` drops. -/
def dropped (n : Node α) : Act → Option EventArgs
  | .report r => if n.pool.firstFree RnbUtilsEvent.inUse = none then some r.args else none
  | _ => none

/-- The events handed to `process_rnb_utils_event`. -/
def processed (n : Node α) : Act → Option EventArgs
  | .utils _ =>
    match n.thread with
    | .process slot .switchEvt => some (n.pool.slots slot).args
    | _ => none
  | _ => none

def finished (n : Node α) : Act → Option EventArgs
  | .utils _ =>
    match n.thread with
    | .clearInUse slot => some (n.pool.slots slot).args
    | _ => none
  | _ => none

/-- Every report can be copied. -/
def ReportFits (_ : Node α) : Act → Prop
  | .report r => r.Fits
  | _ => True

instance (n : Node α) : (a : Act) → Decidable (n.ReportFits a)
  | .report r => inferInstanceAs (Decidable r.Fits)
  | .utils _ | .take | .work _ | .initialized | .start | .stop => isTrue trivial

/-! ## The node performs runs of the pool -/

def poolAct (n : Node α) : Act → Option (BoundedQueue.Act Report)
  | .report r => some (.offer r)
  | .utils _ =>
    match n.thread with
    | .fifoGet => some .serve
    | .process _ _ => none
    | .clearInUse _ => some .finish
  | _ => none

/-- **What a step does to the pool and to the hand of the thread.** -/
inductive PoolMove (n n' : Node α) : Act → Prop
  | report (r : Report) (pool : n'.pool = handleRnbUserEvent r n.pool)
      (thread : n'.thread = n.thread) : PoolMove n n' (.report r)
  | fifoGet {slot : Fin 4} {rest : List (Fin 4)} (ret : Int) (before : n.thread = .fifoGet)
      (fifo : n.pool.fifo = slot :: rest) (pool : n'.pool = { n.pool with fifo := rest })
      (thread : n'.thread = .process slot .switchEvt) : PoolMove n n' (.utils ret)
  | process {slot : Fin 4} {line : Line} (ret : Int) (before : n.thread = .process slot line)
      (pool : n'.pool = n.pool) (hand : n'.thread.hand = some slot)
      (line_ne : n'.thread ≠ .process slot .switchEvt) : PoolMove n n' (.utils ret)
  | clearInUse {slot : Fin 4} (ret : Int) (before : n.thread = .clearInUse slot)
      (pool : n'.pool = n.pool.release eventOps slot) (thread : n'.thread = .fifoGet) :
      PoolMove n n' (.utils ret)
  | other {a : Act} (poolAct : n.poolAct a = none) (copied : n.copied a = none)
      (processed : n.processed a = none) (finished : n.finished a = none)
      (pool : n'.pool = n.pool) (thread : n'.thread = n.thread) : PoolMove n n' a

theorem process_pool (img : Image α) (n : Node α) (ret : Int) (slot : Fin 4) (line : Line) :
    (n.processRnbUtilsEvent img ret slot line).pool = n.pool ∧
      (n.processRnbUtilsEvent img ret slot line).thread.hand = some slot ∧
      (n.processRnbUtilsEvent img ret slot line).thread ≠ .process slot .switchEvt := by
  cases line with
  | switchEvt =>
    rw [processRnbUtilsEvent]
    split
    · rename_i l hl
      refine ⟨rfl, rfl, ?_⟩
      intro h
      obtain rfl := (UtilsThread.process.inj h).2
      simpa using branch_cases hl
    · exact ⟨rfl, rfl, by simp⟩
  | initConfig | updateConfig =>
    rw [processRnbUtilsEvent]
    split
    · exact ⟨rfl, rfl, by simp⟩
    · exact ⟨rfl, rfl, by simp⟩
  | callStart =>
    rw [processRnbUtilsEvent, rnbUtilsStart_eq]
    exact ⟨rfl, rfl, by simp⟩
  | setConfigured | setConnected | submitStart | submitStop | clearConnected | handleNewState
  | userPayload | handleUserPayload =>
    exact ⟨rfl, rfl, by simp [processRnbUtilsEvent]⟩

theorem pool_move {a : Act} (h : step img n a = some n') : PoolMove n n' a := by
  cases a with
  | report r =>
    obtain rfl := Option.some.inj h
    exact .report r rfl rfl
  | utils ret =>
    rcases utils_cases h with ⟨slot, rest, ht, hf, rfl⟩ | ⟨slot, line, ht, rfl⟩ | ⟨slot, ht, rfl⟩
    · exact .fifoGet ret ht hf rfl rfl
    · obtain ⟨hp, hh, hne⟩ := process_pool img n ret slot line
      exact .process ret ht hp hh hne
    · exact .clearInUse ret ht rfl rfl
  | take =>
    obtain ⟨w, rest, -, -, rfl⟩ := take_cases h
    exact .other rfl rfl rfl rfl rfl rfl
  | work ret =>
    obtain ⟨pc, -, rfl⟩ := work_cases h
    exact .other rfl rfl rfl rfl rfl rfl
  | initialized =>
    obtain ⟨-, rfl⟩ := initialized_cases h
    exact .other rfl rfl rfl rfl rfl rfl
  | start =>
    obtain rfl := Option.some.inj h
    rw [rnbUtilsStart_eq]
    exact .other rfl rfl rfl rfl rfl rfl
  | stop =>
    obtain rfl := Option.some.inj h
    rw [rnbUtilsStop_eq]
    exact .other rfl rfl rfl rfl rfl rfl

/-- The slots in use are distinct and are those of the FIFO and the hand. -/
def Held (n : Node α) : Prop := SlotPool.Held eventOps n.pool n.thread.hand

theorem held_boot (app : α) : (boot app).Held := by
  refine ⟨List.nodup_nil, ?_⟩
  intro slot
  simp [boot, EventPool.empty, SlotPool.held, UtilsThread.hand, eventOps]

theorem held_step {a : Act} (hn : n.Held) (h : step img n a = some n') : n'.Held := by
  cases pool_move h with
  | report r hp ht =>
    rw [Held, hp, ht]
    exact SlotPool.Held.put hn r
  | fifoGet ret hb hf hp ht =>
    rw [Held, hb] at hn
    rw [Held, hp, ht]
    exact SlotPool.Held.take hn hf
  | process ret hb hp hh =>
    rw [Held, hb] at hn
    rw [Held, hp, hh]
    exact hn
  | clearInUse ret hb hp ht =>
    rw [Held, hb] at hn
    rw [Held, hp, ht]
    exact SlotPool.Held.release hn
  | other _ _ _ _ hp ht =>
    rw [Held, hp, ht]
    exact hn

theorem held_of_run {app : α} {as : List Act} (hr : (machine img app).run as = some n) : n.Held :=
  Machine.reachable_invariant (M := machine img app) (held_boot app)
    (fun _ _ _ hn hs => held_step hn hs) ⟨as, hr⟩

/-- A slot in use is written only to clear its mark, by the thread that holds it. -/
theorem slots_step {a : Act} {slot : Fin 4} (hn : n.Held) (h : step img n a = some n')
    (hs : slot ∈ n.held) :
    n'.pool.slots slot = n.pool.slots slot ∨
      n.thread = .clearInUse slot ∧
        n'.pool.slots slot = { n.pool.slots slot with inUse := false } := by
  cases pool_move h with
  | report r hp ht =>
    rw [hp]
    exact Or.inl (SlotPool.Held.put_slots hn hs)
  | fifoGet ret hb hf hp ht =>
    rw [hp]
    exact Or.inl rfl
  | process ret hb hp => exact Or.inl (by rw [hp])
  | @clearInUse slot' ret hb hp ht =>
    rw [hp, SlotPool.release]
    by_cases he : slot = slot'
    · subst he
      exact Or.inr ⟨hb, SlotPool.set_slots_self _⟩
    · exact Or.inl (SlotPool.set_slots_of_ne _ he)
  | other _ _ _ _ hp ht => exact Or.inl (by rw [hp])

/-- **The node performs runs of the pool**, its acts those of `poolAct`. -/
def poolRefines (img : Image α) (app : α) :
    Machine.Refines (machine img app) (SlotPool.machine eventOps EventPool.empty.slots)
      ReportFits poolAct where
  R n s := s = (n.pool, n.thread.hand)
  init := rfl
  step := by
    rintro n _ a n' rfl - h
    cases pool_move h with
    | report r hp ht => exact ⟨_, rfl, by rw [hp, ht]; rfl⟩
    | fifoGet ret hb hf hp ht =>
      simp only [poolAct, hb, hp, ht]
      exact ⟨_, SlotPool.machine_serve hf, rfl⟩
    | process ret hb hp hh =>
      simp only [poolAct, hb, hp, hh]
      rfl
    | clearInUse ret hb hp ht =>
      simp only [poolAct, hb, hp, ht]
      exact ⟨_, rfl, rfl⟩
    | other ha _ _ _ hp ht => simp only [ha, hp, ht]

def queueAct (n : Node α) (a : Act) : Option (BoundedQueue.Act EventArgs) :=
  (n.poolAct a).bind fun b => some (b.map Report.args)

/-- **The node performs runs of a bounded queue of capacity four**, as long as the
parameters of every report can be copied. -/
def queueRefines (img : Image α) (app : α) :
    Machine.Refines (machine img app) (BoundedQueue.machine 4) ReportFits queueAct :=
  (poolRefines img app).trans (SlotPool.refines eventOps EventPool.empty.slots fun _ => rfl) <| by
    rintro n s (r | ret | _ | ret | _ | _ | _) b hok hb
    · obtain rfl := Option.some.inj hb
      exact hok
    · simp only [poolAct] at hb
      split at hb
      · obtain rfl := Option.some.inj hb
        trivial
      · cases hb
      · obtain rfl := Option.some.inj hb
        trivial
    all_goals cases hb

/-! ## The order of the events -/

theorem argsOf_append (l l' : List (Fin 4)) : n.argsOf (l ++ l') = n.argsOf l ++ n.argsOf l' :=
  List.map_append

theorem mem_held_of_unprocessed {slot : Fin 4} (h : slot ∈ n.unprocessed) : slot ∈ n.held := by
  rw [unprocessed] at h
  split at h
  · rename_i slot' ht
    simpa [held, SlotPool.held, ht, UtilsThread.hand] using h
  · simp [held, SlotPool.held, h]

theorem unprocessed_of_ne (h : ∀ slot, n.thread ≠ .process slot .switchEvt) :
    n.unprocessed = n.pool.fifo := by
  rw [unprocessed]
  split
  · exact absurd ‹_› (h _)
  · rfl

theorem unprocessed_congr {l : List (Fin 4)} (ht : n'.thread = n.thread)
    (hf : n'.pool.fifo = n.pool.fifo ++ l) : n'.unprocessed = n.unprocessed ++ l := by
  rw [unprocessed, unprocessed, ht, hf]
  split <;> simp

theorem argsOf_report {r : Report} {l : List (Fin 4)} (hn : n.Held)
    (hp : n'.pool = handleRnbUserEvent r n.pool) (hl : ∀ slot ∈ l, slot ∈ n.held) :
    n'.argsOf l = n.argsOf l :=
  List.map_congr_left fun slot hs => by
    rw [hp, handleRnbUserEvent, SlotPool.Held.put_slots hn (hl slot hs)]

theorem report_cases {r : Report} (hp : n'.pool = handleRnbUserEvent r n.pool) :
    (n.copied (.report r) = none ∧ n'.pool = n.pool) ∨
      ∃ slot, n'.pool.fifo = n.pool.fifo ++ [slot] ∧
        n.copied (.report r) = some (n'.pool.slots slot).args := by
  cases hf : n.pool.firstFree RnbUtilsEvent.inUse with
  | none =>
    refine Or.inl ⟨by simp [copied, hf], ?_⟩
    rw [hp, handleRnbUserEvent, SlotPool.put_of_full hf]
  | some slot =>
    refine Or.inr ⟨slot, ?_, ?_⟩
    · rw [hp, handleRnbUserEvent, SlotPool.put_of_free hf]
    · rw [hp, handleRnbUserEvent, SlotPool.put_of_free hf]
      simp [copied, hf, eventOps]

theorem argsOf_report_append {r : Report} {l l' : List (Fin 4)} (hn : n.Held)
    (hp : n'.pool = handleRnbUserEvent r n.pool) (hl : ∀ slot ∈ l, slot ∈ n.held)
    (hl' : ∀ fifo, n'.pool.fifo = n.pool.fifo ++ fifo → l' = l ++ fifo) :
    n.argsOf l ++ (n.copied (.report r)).toList = n'.argsOf l' := by
  rcases report_cases hp with ⟨hc, hp'⟩ | ⟨slot, hf, hc⟩
  · rw [hc, hl' [] (by rw [hp', List.append_nil]), argsOf_append, argsOf_report hn hp hl]
    rfl
  · rw [hc, hl' [slot] hf, argsOf_append, argsOf_report hn hp hl]
    rfl

theorem argsOf_release {slot : Fin 4} (hn : n.Held) (hb : n.thread = .clearInUse slot)
    (hp : n'.pool = n.pool.release eventOps slot) :
    n.argsOf n.pool.fifo = n'.argsOf n'.pool.fifo := by
  rw [Held, hb] at hn
  have hc := SlotPool.Held.contents_release hn
  rw [← hp] at hc
  exact (List.cons.inj hc).2

/-- What is handed to `process_rnb_utils_event` and what still waits is what was
copied. -/
theorem processed_step {a : Act} (hn : n.Held) (h : step img n a = some n') :
    n.argsOf n.unprocessed ++ (n.copied a).toList
      = (n.processed a).toList ++ n'.argsOf n'.unprocessed := by
  cases pool_move h with
  | report r hp ht =>
    exact argsOf_report_append hn hp (fun _ => mem_held_of_unprocessed) fun _ =>
      unprocessed_congr ht
  | fifoGet ret hb hf hp ht =>
    simp only [unprocessed, hb, hf, ht, hp, copied, processed, argsOf]
    simp
  | @process slot line ret hb hp hh hne =>
    have hu : n'.unprocessed = n.pool.fifo := by
      rw [unprocessed_of_ne, hp]
      intro slot' ht
      rw [ht] at hh
      obtain rfl := Option.some.inj hh
      exact hne ht
    rw [hu]
    simp only [argsOf, hp]
    by_cases hl : line = .switchEvt
    · subst hl
      simp [unprocessed, hb, copied, processed]
    · have hu' : n.unprocessed = n.pool.fifo :=
        unprocessed_of_ne fun slot' ht => hl (UtilsThread.process.inj (hb.symm.trans ht)).2
      have hpr : n.processed (.utils ret) = none := by
        simp only [processed, hb]
        split
        · rename_i ht
          exact absurd (UtilsThread.process.inj ht).2 hl
        · rfl
      rw [hu', hpr]
      simp [copied]
  | clearInUse ret hb hp ht =>
    have hu : n.unprocessed = n.pool.fifo := unprocessed_of_ne (by simp [hb])
    have hu' : n'.unprocessed = n'.pool.fifo := unprocessed_of_ne (by simp [ht])
    rw [hu, hu', argsOf_release hn hb hp]
    simp [copied, processed, hb]
  | other _ hc hpr _ hp ht =>
    rw [hc, hpr, unprocessed_congr (l := []) ht (by rw [hp, List.append_nil])]
    simp [argsOf, hp]

/-- What the thread is done with and what is in use is what was copied. -/
theorem finished_step {a : Act} (hn : n.Held) (h : step img n a = some n') :
    n.argsOf n.held ++ (n.copied a).toList
      = (n.finished a).toList ++ n'.argsOf n'.held := by
  cases pool_move h with
  | report r hp ht =>
    refine argsOf_report_append hn hp (fun _ hs => hs) ?_
    intro fifo hf
    rw [held, held, SlotPool.held, SlotPool.held, ht, hf, List.append_assoc]
  | fifoGet ret hb hf hp ht =>
    simp only [held, SlotPool.held, UtilsThread.hand, hb, hf, ht, hp, copied, finished, argsOf]
    simp
  | process ret hb hp hh =>
    have hheld : n'.held = n.held := by
      rw [held, held, hp, hh, hb]
      rfl
    rw [hheld]
    simp [copied, finished, hb, hp, argsOf]
  | @clearInUse slot ret hb hp ht =>
    have hheld : n.held = slot :: n.pool.fifo := by
      rw [held, hb]
      rfl
    have hheld' : n'.held = n'.pool.fifo := by
      rw [held, ht]
      rfl
    rw [hheld, hheld', ← argsOf_release hn hb hp]
    simp [copied, finished, hb, argsOf]
  | other _ hc _ hfin hp ht =>
    rw [hc, hfin]
    simp [argsOf, held, hp, ht]

theorem processed_run {app : α} {as : List Act} (hr : (machine img app).run as = some n) :
    (machine img app).observe copied (boot app) as
      = (machine img app).observe processed (boot app) as ++ n.argsOf n.unprocessed :=
  Machine.observe_balance (f := copied) (I := Held) (fun _ _ _ hn hs => held_step hn hs)
    (fun _ _ _ hn hs => processed_step hn hs) (held_boot app) hr

theorem finished_run {app : α} {as : List Act} (hr : (machine img app).run as = some n) :
    (machine img app).observe copied (boot app) as
      = (machine img app).observe finished (boot app) as ++ n.argsOf n.held :=
  Machine.observe_balance (f := copied) (I := Held) (fun _ _ _ hn hs => held_step hn hs)
    (fun _ _ _ hn hs => finished_step hn hs) (held_boot app) hr

theorem copied_eq_accepted {a : Act} (ha : n.ReportFits a) : n.copied a = n.accepted a := by
  cases a with
  | report r =>
    refine Option.map_congr ?_
    intro slot _
    exact RnbUtilsEvent.args_fill _ ha
  | utils ret | take | work ret | initialized | start | stop => rfl

theorem firstFree_eq_none_iff {app : α} {as : List Act}
    (hr : (machine img app).run as = some n) :
    n.pool.firstFree RnbUtilsEvent.inUse = none ↔
      ((machine img app).observe copied (boot app) as).length
        = ((machine img app).observe finished (boot app) as).length + 4 := by
  have hn := held_of_run hr
  have hle := SlotPool.Held.length_le hn
  have hlen := congrArg List.length (finished_run hr)
  rw [List.length_append, argsOf, List.length_map] at hlen
  refine (SlotPool.Held.firstFree_eq_none hn).trans ?_
  simp only [held] at hlen
  omega

/-- The pool of the node after a run, what its next step may do to it, and what became
of the events reported in the run. -/
structure EventsQueued (img : Image α) (app : α) (as : List Act) (n : Node α) : Prop where
  inUse_iff : ∀ slot, (n.pool.slots slot).inUse = true ↔
    slot ∈ n.pool.fifo ∨ n.thread.hand = some slot
  fifo_nodup : n.pool.fifo.Nodup
  hand_not_queued : ∀ slot, n.thread.hand = some slot → slot ∉ n.pool.fifo
  not_rewritten : ∀ a n', step img n a = some n' → ∀ slot, (n.pool.slots slot).inUse = true →
    n'.pool.slots slot = n.pool.slots slot ∨
      n.thread = .clearInUse slot ∧ n'.pool.slots slot = { n.pool.slots slot with inUse := false }
  in_order : (machine img app).observe accepted (boot app) as
    = (machine img app).observe processed (boot app) as ++ n.argsOf n.unprocessed
  completed : (machine img app).observe accepted (boot app) as
    = (machine img app).observe finished (boot app) as ++ n.argsOf n.held
  dropped_iff : ∀ r, n.dropped (.report r) = some r.args ↔
    ((machine img app).observe accepted (boot app) as).length
      = ((machine img app).observe finished (boot app) as).length + 4
  all_free : n.thread = .fifoGet → n.pool.fifo = [] → ∀ slot, (n.pool.slots slot).inUse = false
  refines : ∃ q, (BoundedQueue.machine 4).run ((machine img app).observe queueAct (boot app) as)
      = some q ∧ q.unfinished = n.argsOf n.held ∧
    (machine img app).observe accepted (boot app) as
      = (BoundedQueue.machine 4).observe (BoundedQueue.accepted 4) ⟨none, []⟩
          ((machine img app).observe queueAct (boot app) as) ∧
    (machine img app).observe dropped (boot app) as
      = (BoundedQueue.machine 4).observe (BoundedQueue.dropped 4) ⟨none, []⟩
          ((machine img app).observe queueAct (boot app) as)

theorem mem_held_iff {slot : Fin 4} :
    slot ∈ n.held ↔ slot ∈ n.pool.fifo ∨ n.thread.hand = some slot := by
  simp only [held, SlotPool.held, List.mem_append, Option.mem_toList, or_comm]

theorem accepted_eq {app : α} {q : BoundedQueue EventArgs}
    (hR : (queueRefines img app).R n q) (a : Act) :
    n.accepted a = (n.queueAct a).bind (BoundedQueue.accepted 4 q) ∧
      n.dropped a = (n.queueAct a).bind (BoundedQueue.dropped 4 q) := by
  obtain ⟨_, rfl, hS⟩ := hR
  have hfree : n.pool.firstFree RnbUtilsEvent.inUse = none ↔ ¬ q.unfinished.length < 4 :=
    hS.firstFree_eq_none
  cases a with
  | report r =>
    by_cases hlt : q.unfinished.length < 4
    · obtain ⟨slot, hs⟩ := Option.ne_none_iff_exists'.mp fun h => hfree.mp h hlt
      simp [accepted, dropped, queueAct, poolAct, BoundedQueue.Act.map, BoundedQueue.accepted,
        BoundedQueue.dropped, hs, hlt]
    · have hs := hfree.mpr hlt
      simp [accepted, dropped, queueAct, poolAct, BoundedQueue.Act.map, BoundedQueue.accepted,
        BoundedQueue.dropped, hs, hlt]
  | utils ret =>
    rw [queueAct, poolAct]
    split <;> exact ⟨rfl, rfl⟩
  | take | work ret | initialized | start | stop => exact ⟨rfl, rfl⟩

theorem finished_eq {app : α} {q : BoundedQueue EventArgs}
    (hR : (queueRefines img app).R n q) (a : Act) :
    n.finished a = (n.queueAct a).bind (BoundedQueue.finished q) := by
  obtain ⟨_, rfl, hS⟩ := hR
  cases a with
  | utils ret =>
    cases ht : n.thread with
    | fifoGet => simp [finished, queueAct, poolAct, ht, BoundedQueue.Act.map, BoundedQueue.finished]
    | process slot line => simp [finished, queueAct, poolAct, ht]
    | clearInUse slot =>
      have hserving : q.serving = some (n.pool.slots slot).args := by
        rw [hS.serving, ht]
        rfl
      simp [finished, queueAct, poolAct, ht, BoundedQueue.Act.map, BoundedQueue.finished, hserving]
  | report r | take | work ret | initialized | start | stop => rfl

theorem dropped_eq_some_iff {app : α} {q : BoundedQueue EventArgs}
    (hR : (queueRefines img app).R n q) (r : Report) :
    n.dropped (.report r) = some r.args ↔ ¬ q.unfinished.length < 4 := by
  rw [(accepted_eq hR (.report r)).2]
  show (if q.unfinished.length < 4 then none else some r.args) = some r.args ↔ _
  by_cases hlt : q.unfinished.length < 4
  · simp [hlt]
  · simp [hlt]

theorem unfinished_eq {app : α} {q : BoundedQueue EventArgs}
    (hR : (queueRefines img app).R n q) : q.unfinished = n.argsOf n.held := by
  obtain ⟨s, rfl, hS⟩ := hR
  exact hS.contents

/-- **A run of the node is a run of the queue**, which takes, drops and finishes the same
events. -/
theorem exists_queue_run {app : α} {as : List Act} (hr : (machine img app).run as = some n)
    (hfit : (machine img app).Along (fun n a => n.ReportFits a) (boot app) as) :
    ∃ q, (queueRefines img app).R n q ∧
      (BoundedQueue.machine 4).run ((machine img app).observe queueAct (boot app) as) = some q ∧
      (machine img app).observe accepted (boot app) as
        = (BoundedQueue.machine 4).observe (BoundedQueue.accepted 4) ⟨none, []⟩
            ((machine img app).observe queueAct (boot app) as) ∧
      (machine img app).observe dropped (boot app) as
        = (BoundedQueue.machine 4).observe (BoundedQueue.dropped 4) ⟨none, []⟩
            ((machine img app).observe queueAct (boot app) as) ∧
      (machine img app).observe accepted (boot app) as
        = (machine img app).observe finished (boot app) as ++ q.unfinished := by
  obtain ⟨q, hq, hR⟩ := (queueRefines img app).run hfit hr
  have haccepted := (queueRefines img app).observe_eq (fun _ _ a hR _ => (accepted_eq hR a).1)
    (queueRefines img app).init hfit hr
  have hdropped := (queueRefines img app).observe_eq (fun _ _ a hR _ => (accepted_eq hR a).2)
    (queueRefines img app).init hfit hr
  have hfinished := (queueRefines img app).observe_eq (fun _ _ a hR _ => finished_eq hR a)
    (queueRefines img app).init hfit hr
  refine ⟨q, hR, hq, haccepted, hdropped, ?_⟩
  calc (machine img app).observe accepted (boot app) as
      = (BoundedQueue.machine 4).observe (BoundedQueue.accepted 4) ⟨none, []⟩
          ((machine img app).observe queueAct (boot app) as) := haccepted
    _ = (BoundedQueue.machine 4).observe BoundedQueue.finished ⟨none, []⟩
          ((machine img app).observe queueAct (boot app) as) ++ q.unfinished :=
        BoundedQueue.unfinished_run hq
    _ = (machine img app).observe finished (boot app) as ++ q.unfinished := by
        exact congrArg (· ++ q.unfinished) hfinished.symm

/-- **The event pool and its FIFO are a bounded queue of capacity four**: every event
taken is processed at most once, in the order of the reports and as it was reported,
an event is dropped exactly when four are unfinished, and no slot is leaked. -/
theorem events_queued (img : Image α) (app : α) {as : List Act} {n : Node α}
    (hr : (machine img app).run as = some n)
    (hfit : (machine img app).Along (fun n a => n.ReportFits a) (boot app) as) :
    EventsQueued img app as n := by
  have hn := held_of_run hr
  have hinUse : ∀ slot, (n.pool.slots slot).inUse = true ↔ slot ∈ n.held := hn.busy_iff
  have hacc : (machine img app).observe copied (boot app) as
      = (machine img app).observe accepted (boot app) as :=
    Machine.observe_congr (fun _ _ ha => copied_eq_accepted ha) hfit
  obtain ⟨q, hR, hq, haccepted, hdropped, hcompleted⟩ := exists_queue_run hr hfit
  constructor
  case inUse_iff => exact fun slot => (hinUse slot).trans mem_held_iff
  case fifo_nodup => exact (List.nodup_append.mp hn.nodup).2.1
  case hand_not_queued =>
    intro slot hh hmem
    have hnd := hn.nodup
    rw [SlotPool.held, hh] at hnd
    exact (List.nodup_cons.mp hnd).1 hmem
  case not_rewritten => exact fun a n' h slot hs => slots_step hn h ((hinUse slot).mp hs)
  case in_order => exact hacc ▸ processed_run hr
  case completed => exact unfinished_eq hR ▸ hcompleted
  case dropped_iff =>
    intro r
    have hle := BoundedQueue.length_le_of_reachable ⟨_, hq⟩
    have hlen := congrArg List.length hcompleted
    rw [List.length_append] at hlen
    rw [dropped_eq_some_iff hR r]
    omega
  case all_free =>
    intro ht hf slot
    rw [← Bool.not_eq_true, hinUse]
    simp [held, SlotPool.held, ht, hf, UtilsThread.hand]
  case refines => exact ⟨q, hq, unfinished_eq hR, haccepted, hdropped⟩

def emptyPayload : Report := ⟨0, .userPayload, 0, [], rfl⟩

/-- Five reports for four slots, and one more when the first of them is done. -/
def burstRun : List Act :=
  [.report (.newState 3 1)] ++ List.replicate 4 (.report emptyPayload) ++ Act.utilsTimes 6 ++
    [.report (.newState 1 1)] ++ Act.utilsTimes 1

theorem events_queued_burstRun : ∃ n, (machine .plain .undefined).run burstRun = some n ∧
    EventsQueued .plain .undefined burstRun n := by
  obtain ⟨n, hr⟩ := Option.isSome_iff_exists.mp
    (show ((machine .plain .undefined).run burstRun).isSome = true by decide +kernel)
  exact ⟨n, hr, events_queued .plain .undefined hr (by decide)⟩

/-! ## The last bus state -/

def reported (_ : Node α) : Act → Option EventArgs
  | .report r => some r.args
  | _ => none

def lastState (events : List EventArgs) : Option EventArgs :=
  (events.filter fun e => e.evt = .newState).getLast?

/-- An act that reports no bus state. -/
def NotState : Act → Prop
  | .report r => r.evt ≠ .newState
  | _ => True

theorem lastState_append (l : List EventArgs) {e : EventArgs} {l' : List EventArgs}
    (he : e.evt = .newState) (hl' : ∀ e ∈ l', e.evt ≠ .newState) :
    lastState (l ++ (e :: l')) = some e := by
  have hnil : l'.filter (fun e => e.evt = .newState) = [] := by simpa using hl'
  rw [lastState, List.filter_append, List.filter_cons_of_pos (by simpa using he), hnil,
    List.getLast?_append]
  rfl

theorem copied_not_newState {a : Act} {e : EventArgs} (ha : NotState a)
    (h : n.copied a = some e) : e.evt ≠ .newState := by
  cases a with
  | report r =>
    obtain ⟨slot, -, rfl⟩ := Option.map_eq_some_iff.mp h
    exact ha
  | utils ret | take | work ret | initialized | start | stop => cases h

def stateRun : List Act := .report (.newState 3 1) :: Act.utilsTimes 6

/-- A connected node; four payloads, then the loss of the bus; and all of it processed. -/
def shedRun : List Act :=
  stateRun ++ List.replicate 4 (.report emptyPayload) ++ [.report (.newState 1 1)] ++
    Act.utilsTimes 20

end Node

end RedNodeBus.Utils

import RedNodeBus.Utils.Node

/-!
# The connection flag

`rnb_connected` is written by two of the state branches of `process_rnb_utils_event`:
`CONNECTED` sets it and `UNSYNCHRONIZED` clears it.  `STOPPED` leaves it alone, so a
node whose bus stops while it is connected stays connected for `is_rnb_connected`.

`flagAfter` is the flag the bus states of the events leave, and `FlagInv` says that
the flag of the node, with what the event in hand will still do to it, is that one.
The flag is then right exactly if no event has stopped the bus since it was connected
without another one having lost it (`rnbConnected_iff`).
-/

namespace RedNodeBus.Utils

namespace Node

variable {α : Type} {img : Image α} {n n' : Node α}

def isRnbConnected (n : Node α) : Bool := n.rnbConnected

/-- The bus state of an event handed to `process_rnb_utils_event`. -/
def busState (img : Image α) (n : Node α) : Act → Option BusState
  | .utils _ =>
    match n.thread with
    | .process slot .switchEvt =>
      if (n.pool.slots slot).rnbUserEvent = .newState then
        some (img.state (n.pool.slots slot).rnbUserEventParams).state
      else none
    | _ => none
  | _ => none

/-! ## The flag and the bus states -/

def flagStep (connected : Bool) : BusState → Bool
  | .connected => true
  | .unsynchronized => false
  | .stopped | .synchronized | .other _ => connected

def flagAfter (states : List BusState) : Bool := states.foldl flagStep false

theorem flagAfter_concat (states : List BusState) (st : BusState) :
    flagAfter (states ++ [st]) = flagStep (flagAfter states) st := List.foldl_concat ..

theorem flagStep_of_ne {c : Bool} {st : BusState} (hc : st ≠ .connected)
    (hu : st ≠ .unsynchronized) : flagStep c st = c := by
  cases st with
  | connected => exact absurd rfl hc
  | unsynchronized => exact absurd rfl hu
  | stopped | synchronized | other v => rfl

/-- The flag is set if and only if no `UNSYNCHRONIZED` follows the latest `CONNECTED`. -/
theorem flagAfter_eq_true {states : List BusState} :
    flagAfter states = true ↔ ∃ before after, states = before ++ .connected :: after ∧
      .connected ∉ after ∧ .unsynchronized ∉ after := by
  induction states using List.reverseRecOn with
  | nil => simp [flagAfter]
  | append_singleton states st ih =>
    rw [flagAfter_concat]
    by_cases hc : st = .connected
    · subst hc
      exact iff_of_true rfl ⟨states, [], rfl, by simp, by simp⟩
    · constructor
      · intro h
        have hu : st ≠ .unsynchronized := by
          rintro rfl
          cases h
        rw [flagStep_of_ne hc hu] at h
        obtain ⟨before, after, rfl, hca, hua⟩ := ih.mp h
        refine ⟨before, after ++ [st], by simp, ?_, ?_⟩
        · simpa [hca] using Ne.symm hc
        · simpa [hua] using Ne.symm hu
      · rintro ⟨before, after, he, hca, hua⟩
        -- the last state is the last one after the latest `CONNECTED`
        rcases List.eq_nil_or_concat after with rfl | ⟨after, st', rfl⟩
        · exact absurd (List.append_inj' he rfl).2 (by simpa using hc)
        · rw [List.concat_eq_append, ← List.cons_append, ← List.append_assoc] at he
          obtain ⟨rfl, hst⟩ := List.append_inj' he rfl
          obtain rfl : st = st' := by simpa using hst
          have hu : st ≠ .unsynchronized := by
            rintro rfl
            exact hua (by simp)
          rw [flagStep_of_ne hc hu]
          exact ih.mpr ⟨before, after, rfl, fun h => hca (by simp [h]), fun h => hua (by simp [h])⟩

/-! ## The invariant -/

def flagDue (n : Node α) : Bool :=
  match n.thread with
  | .process _ .setConnected => true
  | .process _ .submitStop | .process _ .clearConnected => false
  | _ => n.rnbConnected

theorem flagDue_eq (h : ¬ n.At .setConnected ∧ ¬ n.At .submitStop ∧ ¬ n.At .clearConnected) :
    n.flagDue = n.rnbConnected := by
  rw [flagDue]
  split
  · exact absurd ⟨_, ‹_›⟩ h.1
  · exact absurd ⟨_, ‹_›⟩ h.2.1
  · exact absurd ⟨_, ‹_›⟩ h.2.2
  · rfl

/-- What a statement of an event leaves of what is due: only the first statement of an
event with a bus state changes it. -/
theorem flagDue_event {ret : Int} {slot : Fin 4} {line : Line}
    (ht : n.thread = .process slot line) :
    (n.processRnbUtilsEvent img ret slot line).flagDue
      = (n.busState img (.utils ret)).elim n.flagDue (flagStep n.flagDue) := by
  cases line with
  | switchEvt =>
    have hdue : n.flagDue = n.rnbConnected := by rw [flagDue, ht]
    rw [busState, ht, hdue, processRnbUtilsEvent]
    cases hevt : (n.pool.slots slot).rnbUserEvent with
    | newState =>
      cases hst : (img.state (n.pool.slots slot).rnbUserEventParams).state with
      | stopped =>
        cases hconf : n.rnbConfigured <;> simp [branch, hevt, hst, flagDue, flagStep]
      | connected | unsynchronized | synchronized | other v =>
        simp [branch, hevt, hst, flagDue, flagStep]
    | userPayload | other id => simp [branch, hevt, flagDue]
  | initConfig | updateConfig =>
    rw [busState, ht, processRnbUtilsEvent]
    split <;> simp [flagDue, ht]
  | callStart =>
    rw [busState, ht, processRnbUtilsEvent, rnbUtilsStart_eq]
    simp [flagDue, ht]
  | setConfigured | setConnected | submitStart | submitStop | clearConnected | handleNewState
  | userPayload | handleUserPayload =>
    simp [busState, ht, flagDue, processRnbUtilsEvent, kWorkSubmit]

/-- The flag is, or is about to be, what the bus states leave. -/
def FlagInv (states : List BusState) (n : Node α) : Prop := n.flagDue = flagAfter states

theorem FlagInv.quiet {states : List BusState} {a : Act} (hI : FlagInv states n)
    (ha : n.busState img a = none) (hdue : n'.flagDue = n.flagDue) :
    FlagInv (states ++ (n.busState img a).toList) n' := by
  rw [ha, Option.toList_none, List.append_nil, FlagInv, hdue]
  exact hI

theorem flagInv_step {states : List BusState} {a : Act} (hI : FlagInv states n)
    (h : step img n a = some n') : FlagInv (states ++ (n.busState img a).toList) n' := by
  cases a with
  | utils ret =>
    rcases utils_cases h with ⟨slot, rest, ht, -, rfl⟩ | ⟨slot, line, ht, rfl⟩ | ⟨slot, ht, rfl⟩
    · exact hI.quiet (by simp [busState, ht]) (by simp [flagDue, ht])
    · have hdue : (n.processRnbUtilsEvent img ret slot line).flagDue = _ := flagDue_event ht
      rw [FlagInv, hdue]
      cases hst : n.busState img (.utils ret) with
      | none =>
        rw [Option.toList_none, List.append_nil]
        exact hI
      | some st =>
        rw [Option.toList_some, flagAfter_concat, ← hI]
        rfl
    · exact hI.quiet (by simp [busState, ht]) (by simp [flagDue, ht])
  | report r =>
    obtain rfl := Option.some.inj h
    exact hI.quiet rfl rfl
  | take =>
    obtain ⟨w, rest, -, -, rfl⟩ := take_cases h
    exact hI.quiet rfl rfl
  | work ret =>
    obtain ⟨pc, -, rfl⟩ := work_cases h
    exact hI.quiet rfl rfl
  | initialized =>
    obtain ⟨-, rfl⟩ := initialized_cases h
    exact hI.quiet rfl rfl
  | start =>
    obtain rfl := Option.some.inj h
    rw [rnbUtilsStart_eq]
    exact hI.quiet rfl rfl
  | stop =>
    obtain rfl := Option.some.inj h
    rw [rnbUtilsStop_eq]
    exact hI.quiet rfl rfl

theorem rnbConnected_eq_flagAfter {app : α} {as : List Act}
    (hr : (machine img app).run as = some n) (ht : ∀ slot line, n.thread ≠ .process slot line) :
    n.rnbConnected = flagAfter ((machine img app).observe (busState img) (boot app) as) := by
  have hboot : FlagInv [] (boot app) := rfl
  have hI := Machine.history_invariant (f := busState img) (P := fun _ _ => True) (I := FlagInv)
    (fun _ _ _ _ hI _ hs => flagInv_step hI hs) hboot
    (Machine.along_trivial (fun _ _ => trivial) _ _) hr
  have hat : ∀ line, ¬ n.At line := fun line ⟨slot, h⟩ => ht slot line h
  rw [← flagDue_eq ⟨hat _, hat _, hat _⟩]
  exact hI

/-! ## What `is_rnb_connected` returns -/

/-- The bus is connected: a `CONNECTED` event, and since the latest one no event that
says the bus is lost or stopped. -/
def BusUp (states : List BusState) : Prop :=
  ∃ before after, states = before ++ .connected :: after ∧ .connected ∉ after ∧
    .unsynchronized ∉ after ∧ .stopped ∉ after

/-- A bus that was stopped since the latest `CONNECTED` event was also lost since. -/
def StopsFollowLosses (states : List BusState) : Prop :=
  ∀ before after, states = before ++ .connected :: after → .connected ∉ after →
    .stopped ∈ after → .unsynchronized ∈ after

/-- What follows the latest `CONNECTED` is one list. -/
theorem latest_unique {b b' t t' : List BusState}
    (h : b ++ .connected :: t = b' ++ .connected :: t') (ht : .connected ∉ t)
    (ht' : .connected ∉ t') : t = t' := by
  have hrev : t.reverse ++ .connected :: b.reverse = t'.reverse ++ .connected :: b'.reverse := by
    simpa using congrArg List.reverse h
  have hlen : ∀ {u u' v v' : List BusState}, u ++ .connected :: v = u' ++ .connected :: v' →
      .connected ∉ u → .connected ∉ u' → u = u' := by
    intro u
    induction u with
    | nil =>
      intro u' v v' he _ hu'
      cases u' with
      | nil => rfl
      | cons x u' =>
        obtain ⟨rfl, -⟩ := List.cons.inj he
        exact absurd List.mem_cons_self hu'
    | cons x u ih =>
      intro u' v v' he hu hu'
      cases u' with
      | nil =>
        obtain ⟨rfl, -⟩ := List.cons.inj he
        exact absurd List.mem_cons_self hu
      | cons x' u' =>
        obtain ⟨rfl, he'⟩ := List.cons.inj he
        rw [ih he' (fun hm => hu (List.mem_cons_of_mem _ hm))
          fun hm => hu' (List.mem_cons_of_mem _ hm)]
  exact List.reverse_injective (hlen hrev (by simpa using ht) (by simpa using ht'))

/-- **The flag is set only on a connected bus exactly if no event stopped the bus since
the latest `CONNECTED` one without another one having lost it.** -/
theorem rnbConnected_iff (img : Image α) (app : α) {as : List Act} {n : Node α}
    (hr : (machine img app).run as = some n) (ht : ∀ slot line, n.thread ≠ .process slot line) :
    (n.isRnbConnected = true → BusUp ((machine img app).observe (busState img) (boot app) as)) ↔
      StopsFollowLosses ((machine img app).observe (busState img) (boot app) as) := by
  rw [isRnbConnected, rnbConnected_eq_flagAfter hr ht, flagAfter_eq_true]
  constructor
  · intro h before after he hca hs
    by_contra hu
    obtain ⟨before', after', he', hca', -, hs'⟩ := h ⟨before, after, he, hca, hu⟩
    obtain rfl := latest_unique (he.symm.trans he') hca hca'
    exact hs' hs
  · rintro h ⟨before, after, he, hca, hu⟩
    exact ⟨before, after, he, hca, hu, fun hs => hu (h before after he hca hs)⟩

def connectedRun : List Act :=
  [.report (.newState 0 1)] ++ Act.utilsTimes 8 ++ [.report (.newState 3 1)] ++ Act.utilsTimes 6

theorem rnbConnected_iff_connectedRun :
    ∃ n, (machine .plain .undefined).run connectedRun = some n ∧ n.isRnbConnected = true ∧
      ((n.isRnbConnected = true →
          BusUp ((machine .plain .undefined).observe (busState .plain) (boot .undefined)
            connectedRun)) ↔
        StopsFollowLosses ((machine .plain .undefined).observe (busState .plain)
          (boot .undefined) connectedRun)) := by
  obtain ⟨n, hr, hn⟩ := (Option.any_eq_true (fun n : Node UserRole =>
    decide (n.thread = .fifoGet ∧ n.isRnbConnected = true))
    ((machine .plain .undefined).run connectedRun)).mp (by decide +kernel)
  obtain ⟨ht, hc⟩ := of_decide_eq_true hn
  exact ⟨n, hr, hc, rnbConnected_iff .plain .undefined hr (by simp [ht])⟩

def stoppedRun : List Act := connectedRun ++ [.report (.newState 0 1)] ++ Act.utilsTimes 4

theorem rnbConnected_stopped :
    ¬ ∀ (as : List Act) (n : Node UserRole), (machine .plain .undefined).run as = some n →
      (∀ slot line, n.thread ≠ .process slot line) → n.isRnbConnected = true →
      BusUp ((machine .plain .undefined).observe (busState .plain) (boot .undefined) as) := by
  intro h
  obtain ⟨n, hr, hn⟩ := (Option.any_eq_true (fun n : Node UserRole =>
    decide (n.thread = .fifoGet ∧ n.isRnbConnected = true))
    ((machine .plain .undefined).run stoppedRun)).mp (by decide +kernel)
  obtain ⟨ht, hc⟩ := of_decide_eq_true hn
  obtain ⟨before, after, he, -, -, hs⟩ := h stoppedRun n hr (by simp [ht]) hc
  have hobs : (machine .plain .undefined).observe (busState .plain) (boot .undefined) stoppedRun
      = [.stopped, .connected] ++ [.stopped] := by decide
  rw [hobs] at he
  rcases List.eq_nil_or_concat after with rfl | ⟨after, st, rfl⟩
  · have := (List.append_inj' he rfl).2
    cases this
  · rw [List.concat_eq_append, ← List.cons_append, ← List.append_assoc] at he
    obtain rfl : BusState.stopped = st := by simpa using (List.append_inj' he rfl).2
    exact hs (by simp)

end Node

end RedNodeBus.Utils

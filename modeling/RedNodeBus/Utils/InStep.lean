import RedNodeBus.Utils.Paced

/-!
# OpenThread in step with the bus

What `rnb_utils.c` is to see to: OpenThread runs exactly while the bus is connected, and the
last call of `rnb_utils_start` or `rnb_utils_stop` wins.  Races break each of the three
(`otStarted_unsynchronized`, `connected_not_otStarted` and `last_start_lost` are runs).  Where
one thing comes at a time, all three hold (`paced_inStep`), so the races are all that breaks
them.

By `paced_sequential` only the source read from top to bottom is left to look at.
`submits_spec` says how `rnb_connected` goes with the item an event submits, and each of the
three is then an invariant of the requests.
-/

namespace RedNodeBus.Utils

/-! ## What a request changes -/

theorem otInitWorkHandler_otStarted (error : Int) (s : OtState) :
    (otInitWorkHandler error s).otStarted = s.otStarted := by
  rw [otInitWorkHandler]
  split
  · rfl
  · dsimp only
    split <;> simp

theorem otStarted_of_otDeinitWorkHandler {threadError ip6Error : Int} {s : OtState}
    (h : (otDeinitWorkHandler threadError ip6Error s).otStarted = true) : s.otStarted = true := by
  rw [otDeinitWorkHandler] at h
  split at h
  · exact h
  · by_cases ht : threadError = 0
    · simp [ht, apply_ite OtState.otStarted] at h
    · simpa [ht, apply_ite OtState.otStarted] using h

theorem otStartWorkHandler_rnbStarted (c : Bool) (ret : Int) (s : OtState) :
    (otStartWorkHandler c ret s).rnbStarted = s.rnbStarted := by
  rw [otStartWorkHandler]
  split
  · dsimp only
    split <;> simp
  · rfl

theorem otStopWorkHandler_rnbStarted (error : Int) (s : OtState) :
    (otStopWorkHandler error s).rnbStarted = s.rnbStarted := by
  rw [otStopWorkHandler]
  split <;> simp

section Sequential

variable {α : Type} {img : Image α} {r : Returns} {v : View α} {σ : Stimulus}

/-- What an item says of the flag `rnb_connected`. -/
def OtWork.FlagAfter (before after : Bool) : Option OtWork → Prop
  | some .otStartWork => after = true
  | some .otStopWork => after = false
  | some .otInitWork | some .otDeinitWork | none => after = before

/-- Up to the work queue, the flags of the handlers stay, and `rnb_connected` changes with the
item. -/
theorem submits_spec (img : Image α) (r : Returns) (v : View α) (σ : Stimulus) :
    (σ.submits img r v).1.ot = v.ot ∧
      OtWork.FlagAfter v.rnbConnected (σ.submits img r v).1.rnbConnected
        (σ.submits img r v).2 := by
  cases σ with
  | report rep =>
    have hot := congrArg View.ot (Node.processRnbUtilsEvent_ot img r rep.evt rep.memory v)
    refine ⟨hot, ?_⟩
    simp only [Stimulus.submits, View.processRnbUtilsEvent]
    cases rep.evt with
    | newState =>
      cases (img.state rep.memory).state with
      | stopped =>
        dsimp only
        rw [View.rnbUtilsStart]
        split_ifs <;> rfl
      | connected | unsynchronized | synchronized | other _ => rfl
    | userPayload | other _ => rfl
  | initialized => exact ⟨rfl, rfl⟩
  | start =>
    refine ⟨rfl, ?_⟩
    rw [Stimulus.submits, View.rnbUtilsStart]
    split <;> rfl
  | stop =>
    refine ⟨rfl, ?_⟩
    rw [Stimulus.submits, View.rnbUtilsStop]
    split <;> rfl

/-- Only `rnb_utils_stop` submits `ot_deinit_work`. -/
theorem eq_stop_of_submits (h : (σ.submits img r v).2 = some .otDeinitWork) : σ = .stop := by
  cases σ with
  | report rep =>
    simp only [Stimulus.submits, View.processRnbUtilsEvent] at h
    cases hevt : rep.evt with
    | newState =>
      cases hst : (img.state rep.memory).state with
      | stopped =>
        simp only [hevt, hst, View.rnbUtilsStart] at h
        split_ifs at h
        cases h
      | connected | unsynchronized | synchronized | other _ =>
        simp only [hevt, hst] at h
        cases h
    | userPayload | other _ =>
      simp only [hevt] at h
      cases h
  | initialized => cases h
  | start =>
    rw [Stimulus.submits, View.rnbUtilsStart] at h
    split at h <;> cases h
  | stop => rfl

theorem connected_sequential (h : v.ot.otStarted = true → v.rnbConnected = true)
    (hot : (σ.sequential img r v).ot.otStarted = true) :
    (σ.sequential img r v).rnbConnected = true := by
  obtain ⟨hflags, hflag⟩ := submits_spec img r v σ
  rw [Stimulus.sequential] at hot ⊢
  generalize σ.submits img r v = g at hflags hflag hot ⊢
  obtain ⟨w, item⟩ := g
  have hflags : w.ot = v.ot := hflags
  cases item with
  | none => exact hflag.trans (h (hflags ▸ hot))
  | some item =>
    cases item with
    | otStartWork => exact hflag
    | otStopWork =>
      simp only [View.serve, workHandler, otStopWorkHandler] at hot
      split at hot
      · cases hot
      · exact absurd hot ‹_›
    | otInitWork =>
      have ho := (otInitWorkHandler_otStarted r.otIp6SetEnabled w.ot).symm.trans hot
      exact Eq.trans hflag (h (hflags ▸ ho))
    | otDeinitWork =>
      have ho : w.ot.otStarted = true := otStarted_of_otDeinitWorkHandler hot
      exact Eq.trans hflag (h (hflags ▸ ho))

/-- On a connected bus OpenThread runs, where nothing stops it and it starts when asked. -/
theorem otStarted_sequential (hstop : σ ≠ .stop) (hret : r.openthreadStart = 0)
    (h : v.rnbConnected = true → v.ot.otStarted = true)
    (hc : (σ.sequential img r v).rnbConnected = true) :
    (σ.sequential img r v).ot.otStarted = true := by
  obtain ⟨hflags, hflag⟩ := submits_spec img r v σ
  have hdeinit : (σ.submits img r v).2 ≠ some .otDeinitWork := fun hd =>
    hstop (eq_stop_of_submits hd)
  rw [Stimulus.sequential] at hc ⊢
  generalize σ.submits img r v = g at hflags hflag hc hdeinit ⊢
  obtain ⟨w, item⟩ := g
  have hflags : w.ot = v.ot := hflags
  cases item with
  | none => exact hflags ▸ h (hflag.symm.trans hc)
  | some item =>
    cases item with
    | otStartWork =>
      have hw : w.rnbConnected = true := hflag
      simp only [View.serve, workHandler, otStartWorkHandler, hw, hret]
      cases ho : w.ot.otStarted <;> simp [ho]
    | otStopWork => cases hflag.symm.trans hc
    | otInitWork =>
      have ho : w.ot.otStarted = true := hflags ▸ h (hflag.symm.trans hc)
      exact (otInitWorkHandler_otStarted r.otIp6SetEnabled w.ot).trans ho
    | otDeinitWork => exact absurd rfl hdeinit

def OtWork.command : OtWork → Option Bool
  | .otInitWork => some true
  | .otDeinitWork => some false
  | .otStartWork | .otStopWork => none

theorem rnbStarted_sequential (img : Image α) (v : View α) (σ : Stimulus)
    (hret : r.otIp6SetEnabled = 0) :
    (σ.sequential img r v).ot.rnbStarted =
      ((σ.submits img r v).2.bind OtWork.command).getD v.ot.rnbStarted := by
  obtain ⟨hflags, -⟩ := submits_spec img r v σ
  rw [Stimulus.sequential]
  generalize σ.submits img r v = g at hflags ⊢
  obtain ⟨w, item⟩ := g
  have hrnb : w.ot.rnbStarted = v.ot.rnbStarted := congrArg OtState.rnbStarted hflags
  cases item with
  | none => exact hrnb
  | some item =>
    cases item with
    | otInitWork =>
      simp only [View.serve, workHandler, otInitWorkHandler, hret, Option.bind_some,
        OtWork.command]
      split_ifs with hs
      · exact hs
      · rfl
    | otDeinitWork =>
      simp only [View.serve, workHandler, otDeinitWorkHandler, hret, Option.bind_some,
        OtWork.command]
      split_ifs with hs
      · simpa using hs
      · rfl
      · rfl
    | otStartWork =>
      exact (otStartWorkHandler_rnbStarted w.rnbConnected r.openthreadStart w.ot).trans hrnb
    | otStopWork =>
      exact (otStopWorkHandler_rnbStarted r.otThreadSetEnabled w.ot).trans hrnb

/-- The last command of the requests that was heard. -/
def lastCommand (img : Image α) : View α → List Request → Option Bool
  | _, [] => none
  | v, q :: qs =>
    (lastCommand img (q.stimulus.sequential img q.returns v) qs).or
      ((q.stimulus.submits img q.returns v).2.bind OtWork.command)

theorem connected_sequentially {qs : List Request}
    (h : v.ot.otStarted = true → v.rnbConnected = true) :
    (Node.sequentially img v qs).ot.otStarted = true →
      (Node.sequentially img v qs).rnbConnected = true := by
  induction qs generalizing v with
  | nil => exact h
  | cons q qs ih => exact ih (connected_sequential h)

theorem otStarted_sequentially {qs : List Request}
    (hqs : ∀ q ∈ qs, q.stimulus ≠ .stop ∧ q.returns.openthreadStart = 0)
    (h : v.rnbConnected = true → v.ot.otStarted = true) :
    (Node.sequentially img v qs).rnbConnected = true →
      (Node.sequentially img v qs).ot.otStarted = true := by
  induction qs generalizing v with
  | nil => exact h
  | cons q qs ih =>
    obtain ⟨hstop, hret⟩ := hqs q List.mem_cons_self
    exact ih (fun q hq => hqs q (List.mem_cons_of_mem _ hq)) (otStarted_sequential hstop hret h)

theorem rnbStarted_sequentially {qs : List Request}
    (hqs : ∀ q ∈ qs, q.returns.otIp6SetEnabled = 0) :
    (Node.sequentially img v qs).ot.rnbStarted =
      (lastCommand img v qs).getD v.ot.rnbStarted := by
  induction qs generalizing v with
  | nil => rfl
  | cons q qs ih =>
    have hstep := rnbStarted_sequential img v q.stimulus
      (hqs q List.mem_cons_self)
    have hrest := @ih (q.stimulus.sequential img q.returns v)
      (fun q hq => hqs q (List.mem_cons_of_mem _ hq))
    refine hrest.trans ?_
    rw [hstep, lastCommand]
    cases lastCommand img (q.stimulus.sequential img q.returns v) qs <;> rfl

/-- What holds of the node after the requests. -/
structure InStep (img : Image α) (app : α) (qs : List Request) (n : Node α) : Prop where
  /-- OpenThread runs on a connected bus only, -/
  connected : n.ot.otStarted = true → n.rnbConnected = true
  /-- and on every connected bus, where it starts when asked and `rnb_utils_stop` is not called. -/
  otStarted : (∀ q ∈ qs, q.stimulus ≠ .stop ∧ q.returns.openthreadStart = 0) →
    n.rnbConnected = true → n.ot.otStarted = true
  /-- The last command wins, where the interface does as it is told. -/
  rnbStarted : (∀ q ∈ qs, q.returns.otIp6SetEnabled = 0) →
    n.ot.rnbStarted = (lastCommand img (Node.boot app).view qs).getD false

/-- **One thing at a time, OpenThread follows the bus and the commands.** -/
theorem paced_inStep (img : Image α) (app : α) {qs : List Request}
    (hproper : ∀ q ∈ qs, q.stimulus.Proper img) (h : Node.Paced img app (Node.boot app) qs) :
    ∃ n, (Node.machine img app).run (qs.flatMap Request.acts) = some n ∧
      InStep img app qs n := by
  obtain ⟨n, hr, -, hview⟩ := Node.view_paced hproper h (Node.atRest_boot app)
  have hconn := congrArg View.rnbConnected hview
  have hot := congrArg View.ot hview
  refine ⟨n, hr, ?_, ?_, ?_⟩
  · intro hstarted
    refine hconn.trans (connected_sequentially nofun ?_)
    exact (congrArg OtState.otStarted hot).symm.trans hstarted
  · intro hqs hc
    refine (congrArg OtState.otStarted hot).trans (otStarted_sequentially hqs nofun ?_)
    exact hconn.symm.trans hc
  · intro hqs
    exact (congrArg OtState.rnbStarted hot).trans (rnbStarted_sequentially hqs)

theorem paced_inStep_pacedRequests :
    ∃ n, (Node.machine .plain .undefined).run (Node.pacedRequests.flatMap Request.acts) = some n ∧
      InStep .plain .undefined Node.pacedRequests n :=
  paced_inStep .plain .undefined Node.proper_pacedRequests (by decide +kernel)

end Sequential

end RedNodeBus.Utils

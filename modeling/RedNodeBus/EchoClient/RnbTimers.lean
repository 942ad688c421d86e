import RedNodeBus.EchoClient.RnbPayload

/-!
# The timers of the RNB payload echo client

Every send starts the reply timeout, whatever the driver returns, and `stop_rnb` does not
stop it.  So from the first send on `recv` is live whenever the thread is not itself
between cancelling it and sending again (`TimerInv.armed`), and a thread that comes
back to `start_rnb_proto` after an error sets a live item up anew
(`reinitIdle_iff`).  `transmit` is never scheduled.  What the kernel does from then on is
left open: `TimerInv` is kept by the steps that set up idle items only (`StartIdle`).
-/

namespace RedNodeBus.EchoClient

/-- The positions from the first statement of `start_rnb` to the first send. -/
def RnbThreadAt.Starting : RnbThreadAt → Prop
  | .initRecv | .initTransmit | .resetReceived | .startSend _ => True
  | _ => False

/-- The positions at which a send has started the reply timeout. -/
def RnbThreadAt.Armed : RnbThreadAt → Prop
  | .test _ | .semTake | .receivedZero | .receivedNegative | .compareLength | .compareBytes _
  | .count | .cancelReply => True
  | _ => False

theorem RnbThreadAt.Armed.not_starting {pc : RnbThreadAt} (h : pc.Armed) : ¬ pc.Starting := by
  intro hs
  cases pc with
  | initRecv | initTransmit | resetReceived | startSend _ | processSend _ => exact h
  | _ => exact hs

/-- The positions with an error on its way to the outer loop. -/
def RnbThreadAt.Failing : RnbThreadAt → Prop
  | .startSend (.reschedule ret) | .processSend (.reschedule ret) => ret < 0
  | .test ret => ret ≠ 0
  | _ => False

namespace RnbClient

variable {cfg : RnbConfig} {c c' : RnbClient}

/-- If the step sets a delayable item up, neither item is scheduled, queued or running. -/
def ReinitIdle (c : RnbClient) : Act → Prop
  | .client _ => c.thread = .initRecv ∨ c.thread = .initTransmit →
      ¬ c.works.Live .recv ∧ ¬ c.works.Live .transmit
  | _ => True

instance (c : RnbClient) : (a : Act) → Decidable (c.ReinitIdle a)
  | .client _ => inferInstanceAs (Decidable (_ ∨ _ → _ ∧ _))
  | .deliver _ | .expire _ | .take | .work _ => isTrue trivial

/-- `start_rnb_proto` is called, or the client thread meets an error: the driver returns
one for a send of its own, or the payload it examines is empty. -/
inductive Mark
  | startRnbProto
  | failed
  deriving DecidableEq, Repr

def mark (c : RnbClient) : Act → Option Mark
  | .client o =>
    match c.thread with
    | .initRecv => some .startRnbProto
    | .startSend (.send _) | .processSend (.send _) => if o.ret < 0 then some .failed else none
    | .receivedZero => if c.received = 0 then some .failed else none
    | _ => none
  | _ => none

/-- After the marks so far the items are not live at a call of `start_rnb_proto`. -/
def Due (marks : List Mark) (m : Mark) : Prop := m = .startRnbProto → .failed ∉ marks

/-! ## The invariant -/

/-- The items, by the position of the thread and the errors so far. -/
structure TimerInv (marks : List Mark) (c : RnbClient) : Prop where
  sound : c.works.Sound
  transmit : ¬ c.works.Live .transmit
  fresh : .failed ∉ marks → c.thread.Starting → ¬ c.works.Live .recv
  armed : c.thread.Armed → c.works.Live .recv
  again : .failed ∈ marks → c.thread = .initRecv → c.works.Live .recv
  failing : c.thread.Failing → .failed ∈ marks
  received : 0 ≤ c.received

theorem timerInv_boot : TimerInv [] boot :=
  ⟨Delayables.sound_idle, Delayables.not_live_idle _, fun _ _ => Delayables.not_live_idle _,
    False.elim, nofun, False.elim, Int.le_refl 0⟩

/-- **What a statement of `send_rnb_data` does** to the items: the last one starts the
reply timeout. -/
inductive SendMove (o : Outcome) (pc : RnbSendAt) (c : RnbClient) :
    (RnbSendAt ⊕ Int) × RnbClient → Prop
  | goOn {pc' : RnbSendAt} {c' : RnbClient} (works : c'.works = c.works)
      (received : c'.received = c.received) (thread : c'.thread = c.thread)
      (sent : ∀ ret, pc' = .reschedule ret → (∃ length, pc = .send length) ∧ ret = o.ret) :
      SendMove o pc c (.inl pc', c')
  | done {ret : Int} (at_reschedule : pc = .reschedule ret) :
      SendMove o pc c
        (.inr (if ret < 0 then -eio else 0), { c with works := c.works.reschedule .recv })

theorem send_move (cfg : RnbConfig) (o : Outcome) (pc : RnbSendAt) (c : RnbClient) :
    SendMove o pc c (c.sendRnbData cfg o pc) := by
  cases pc with
  | rand | copy | length => exact .goOn rfl rfl rfl nofun
  | test =>
    refine .goOn rfl rfl rfl ?_
    intro ret h
    split at h <;> cases h
  | send length =>
    refine .goOn rfl rfl rfl ?_
    intro ret h
    cases h
    exact ⟨⟨length, rfl⟩, rfl⟩
  | reschedule ret => exact .done rfl

theorem sendRet_neg {ret : Int} : (if ret < 0 then -eio else 0) < 0 ↔ ret < 0 := by
  split <;> simp_all [eio]

variable {marks : List Mark}

theorem TimerInv.mark (hI : TimerInv marks c) (a : Act) :
    TimerInv (marks ++ (c.mark a).toList) c := by
  obtain ⟨h₁, h₂, h₃, h₄, h₅, h₆, h₇⟩ := hI
  have hmem : .failed ∈ marks → .failed ∈ marks ++ (c.mark a).toList :=
    fun h => List.mem_append_left _ h
  refine ⟨h₁, h₂, fun hn => h₃ fun h => hn (hmem h), h₄, fun hm ht => h₅ ?_ ht,
    fun hf => hmem (h₆ hf), h₇⟩
  refine (List.mem_append.mp hm).resolve_right ?_
  intro h
  cases a with
  | client o => simp [RnbClient.mark, ht] at h
  | deliver _ | expire _ | take | work _ => cases h

/-- A statement that leaves the items alone and does not come back to the top. -/
theorem TimerInv.goOn (hI : TimerInv marks c) (hw : c'.works = c.works) (hr : 0 ≤ c'.received)
    (hs : c'.thread.Starting → c.thread.Starting) (ha : c'.thread.Armed → c.thread.Armed)
    (hn : c'.thread ≠ .initRecv) (hf : c'.thread.Failing → .failed ∈ marks) :
    TimerInv marks c' :=
  ⟨hw ▸ hI.sound, hw ▸ hI.transmit, fun h h' => hw ▸ hI.fresh h (hs h'),
    fun h => hw ▸ hI.armed (ha h), fun _ h => absurd h hn, hf, hr⟩

/-- A statement between two sends: the reply timeout goes on. -/
theorem TimerInv.stayArmed (hI : TimerInv marks c) (ha : c.thread.Armed) (ha' : c'.thread.Armed)
    (hw : c'.works = c.works) (hr : c'.received = c.received)
    (hf : c'.thread.Failing → .failed ∈ marks) : TimerInv marks c' := by
  have hn : c'.thread ≠ .initRecv := by
    intro h
    rw [h] at ha'
    exact ha'
  have hs : ¬ c'.thread.Starting := RnbThreadAt.Armed.not_starting ha'
  exact hI.goOn hw (hr ▸ hI.received) (fun h => absurd h hs) (fun _ => ha) hn hf

theorem TimerInv.init {K : Delayables.Reinit RnbWork} {works : Delayables RnbWork}
    {pc : RnbThreadAt} (hI : TimerInv marks c) {w : RnbWork} (hidle : ¬ c.works.Live w)
    (hsets : c.works.init K w = some works) (hs : c.thread.Starting)
    (hpc : pc = .initTransmit ∨ pc = .resetReceived) :
    TimerInv marks ({ c with works := works }.goto pc) := by
  have hl : ∀ v, works.Live v → c.works.Live v := fun _ => (Delayables.live_init hidle hsets).mp
  exact
    { sound := Delayables.sound_init hI.sound hidle hsets
      transmit := fun h => hI.transmit (hl _ h)
      fresh := fun hn _ h => hI.fresh hn hs (hl _ h)
      armed := by rcases hpc with rfl | rfl <;> exact False.elim
      again := by rcases hpc with rfl | rfl <;> simp [goto]
      failing := by rcases hpc with rfl | rfl <;> exact False.elim
      received := hI.received }

/-- A send has been made: the reply timeout runs. -/
theorem TimerInv.sent {ret : Int} (hI : TimerInv marks c)
    (hf : ret < 0 → .failed ∈ marks) :
    TimerInv marks ({ c with works := c.works.reschedule .recv }.afterProcess ret) := by
  refine ⟨Delayables.sound_reschedule hI.sound, ?_, fun _ h => h.elim, ?_, nofun, ?_,
    hI.received⟩
  · intro h
    rcases Delayables.live_reschedule.mp h with h | h
    · cases h
    · exact hI.transmit h
  · intro _
    exact Delayables.live_reschedule.mpr (Or.inl rfl)
  · intro h
    by_contra hn
    have : ¬ ret < 0 := fun h' => hn (hf h')
    simp [afterProcess, goto, RnbThreadAt.Failing, this] at h

/-- A statement of the thread's own sends, in `start_rnb` or in `process_rnb_proto`. -/
theorem TimerInv.send (cfg : RnbConfig) {o : Outcome} {pc : RnbSendAt}
    {k : RnbSendAt → RnbThreadAt} (hI : TimerInv marks c)
    (hk : k = .startSend ∨ k = .processSend) (ht : c.thread = k pc)
    (hfail : c.mark (.client o) = some .failed → .failed ∈ marks) :
    match c.sendRnbData cfg o pc with
    | (.inl pc', c') => TimerInv marks (c'.goto (k pc'))
    | (.inr ret, c') => TimerInv marks (c'.afterProcess ret) := by
  have hm := send_move cfg o pc c
  cases hr : c.sendRnbData cfg o pc with
  | mk next d =>
    rw [hr] at hm
    cases hm with
    | @goOn pc' _ hw hrec _ hsent =>
      have hfailing : (k pc').Failing → .failed ∈ marks := by
        intro hf
        cases pc' with
        | reschedule ret =>
          obtain ⟨⟨length, rfl⟩, rfl⟩ := hsent ret rfl
          have hneg : o.ret < 0 := by rcases hk with rfl | rfl <;> exact hf
          rcases hk with rfl | rfl <;> exact hfail (by simp [RnbClient.mark, ht, hneg])
        | _ => rcases hk with rfl | rfl <;> exact hf.elim
      rcases hk with rfl | rfl
      · exact hI.goOn hw (hrec ▸ hI.received) (fun _ => ht ▸ trivial) False.elim nofun hfailing
      · exact hI.goOn hw (hrec ▸ hI.received) False.elim False.elim nofun hfailing
    | @done ret hat =>
      refine hI.sent fun hneg => hI.failing ?_
      rw [ht, hat]
      rcases hk with rfl | rfl <;> exact sendRet_neg.mp hneg

/-- The first of the two calls of `k_work_init_delayable` finds the items idle. -/
def StartIdle (c : RnbClient) : Act → Prop
  | .client _ => c.thread = .initRecv → ¬ c.works.Live .recv ∧ ¬ c.works.Live .transmit
  | _ => True

theorem timerInv_client {o : Outcome} (hI : TimerInv marks c) (ha : c.StartIdle (.client o))
    (hfail : c.mark (.client o) = some .failed → .failed ∈ marks)
    (h : c.startClientRnb cfg o = some c') : TimerInv marks c' := by
  cases client_step h with
  | initRecv ht sets => exact hI.init (ha ht).1 sets (ht ▸ trivial) (Or.inl rfl)
  | initTransmit ht sets => exact hI.init hI.transmit sets (ht ▸ trivial) (Or.inr rfl)
  | resetReceived ht =>
    exact hI.goOn rfl (Int.le_refl 0) (fun _ => ht ▸ trivial) False.elim nofun False.elim
  | startSend ht sends | started ht sends =>
    have hsend := hI.send cfg (Or.inl rfl) ht hfail
    rw [sends] at hsend
    exact hsend
  | again ht hret =>
    have hlive := hI.armed (ht ▸ trivial)
    have hf : .failed ∈ marks := hI.failing (by rw [ht]; exact hret)
    exact ⟨hI.sound, hI.transmit, fun hn => absurd hf hn, False.elim, fun _ _ => hlive,
      False.elim, hI.received⟩
  | goesOn ht | semTake ht | nonempty ht | nonneg ht | sameLength ht | sameBytes ht | count ht =>
    exact hI.stayArmed (ht ▸ trivial) trivial rfl rfl False.elim
  | empty ht hzero =>
    exact hI.stayArmed (ht ▸ trivial) trivial rfl rfl fun _ => hfail (by simp [mark, ht, hzero])
  | negative _ hneg => exact absurd hI.received (Int.not_le.mpr hneg)
  | otherLength ht | otherBytes ht =>
    exact hI.stayArmed (ht ▸ trivial) trivial rfl rfl fun hf => absurd rfl hf
  | cancelReply ht =>
    exact ⟨Delayables.sound_cancel hI.sound,
      fun hl => hI.transmit (Delayables.live_cancel.mp hl).1, fun _ h => h.elim, False.elim, nofun,
      False.elim, hI.received⟩
  | processSend ht sends | processed ht sends =>
    have hsend := hI.send cfg (Or.inr rfl) ht hfail
    rw [sends] at hsend
    exact hsend

/-- The handler that ends has just started the reply timeout; it was `recv`'s. -/
theorem live_handler_done {w : RnbWork} (hI : TimerInv marks c) (hrun : c.works.running = some w)
    (v : RnbWork) : (c.works.reschedule .recv).finish.Live v ↔ c.works.Live v := by
  have hw : w = .recv := by
    cases w with
    | recv => rfl
    | transmit => exact absurd (Or.inr (Or.inr hrun)) hI.transmit
  subst hw
  rw [Delayables.live_finish]
  cases v with
  | recv =>
    exact iff_of_true (Or.inl Delayables.scheduled_reschedule) (Or.inr (Or.inr hrun))
  | transmit => simp [Delayables.Live, Delayables.reschedule, hrun]

/-- **What the other parties do**: the thread stays where it is, and the items are as live
as they were. -/
structure OtherMove (c c' : RnbClient) : Prop where
  thread : c'.thread = c.thread
  sound : c'.works.Sound
  live : ∀ w, c'.works.Live w ↔ c.works.Live w
  received : 0 ≤ c'.received

theorem other_move {a : Act} (hI : TimerInv marks c) (ha : ∀ o, a ≠ .client o)
    (h : step cfg c a = some c') : OtherMove c c' := by
  cases a with
  | client o => exact absurd rfl (ha o)
  | deliver userPayload =>
    simp only [step] at h
    split at h
    · obtain rfl := Option.some.inj h
      exact ⟨rfl, hI.sound, fun _ => Iff.rfl, Int.natCast_nonneg _⟩
    · cases h
  | expire w =>
    obtain ⟨works, hw, rfl⟩ := Option.map_eq_some_iff.mp h
    exact ⟨rfl, Delayables.sound_expire hI.sound hw,
      fun _ => Delayables.live_expire hI.sound hw, hI.received⟩
  | take =>
    obtain ⟨works, hw, rfl⟩ := Option.map_eq_some_iff.mp h
    exact ⟨rfl, Delayables.sound_take hI.sound hw, fun _ => Delayables.live_take hw, hI.received⟩
  | work o =>
    have hm := send_move cfg o c.handler c
    obtain ⟨⟨w, hrun⟩, hmove⟩ := handler_move h
    cases hmove with
    | goesOn sends after =>
      rw [sends] at hm
      subst after
      cases hm with
      | goOn hw hr ht => exact ⟨ht, hw ▸ hI.sound, fun v => by rw [hw], hr ▸ hI.received⟩
    | ends sends after =>
      rw [sends] at hm
      subst after
      cases hm with
      | done hat =>
        exact ⟨rfl, Delayables.sound_finish (Delayables.sound_reschedule hI.sound),
          live_handler_done hI hrun, hI.received⟩

theorem TimerInv.other (hI : TimerInv marks c) (hm : OtherMove c c') : TimerInv marks c' := by
  obtain ⟨ht, hs, hl, hr⟩ := hm
  refine ⟨hs, fun h => hI.transmit ((hl _).mp h), ?_, ?_, ?_, ?_, hr⟩
  · intro hn hst h
    rw [ht] at hst
    exact hI.fresh hn hst ((hl _).mp h)
  · intro ha
    rw [ht] at ha
    exact (hl _).mpr (hI.armed ha)
  · intro hm hst
    rw [ht] at hst
    exact (hl _).mpr (hI.again hm hst)
  · intro hf
    rw [ht] at hf
    exact hI.failing hf

theorem timerInv_step {a : Act} (hI : TimerInv marks c) (ha : c.StartIdle a)
    (h : step cfg c a = some c') : TimerInv (marks ++ (c.mark a).toList) c' := by
  have hI' := hI.mark a
  cases a with
  | client o => exact timerInv_client hI' ha (fun hm => by simp [hm]) h
  | deliver _ | expire _ | take | work _ => exact hI'.other (other_move hI (by simp) h)

/-! ## The two calls of `k_work_init_delayable` -/

theorem initTransmit_of_step {o : Outcome} (h : c.startClientRnb cfg o = some c')
    (ht' : c'.thread = .initTransmit) :
    c.thread = .initRecv ∧ c.works.init cfg.reinit .recv = some c'.works := by
  cases client_step h with
  | initRecv ht sets => exact ⟨ht, sets⟩
  | _ => cases ht'

/-- Nothing revives an idle item between the two calls. -/
def BetweenCalls (c : RnbClient) : Prop :=
  (∃ marks, TimerInv marks c) ∧ (c.thread = .initTransmit → ¬ c.works.Live .recv)

theorem betweenCalls_step {a : Act} (hI : BetweenCalls c) (ha : c.StartIdle a)
    (h : step cfg c a = some c') : BetweenCalls c' := by
  obtain ⟨⟨marks, hI⟩, hbetween⟩ := hI
  refine ⟨⟨_, timerInv_step hI ha h⟩, ?_⟩
  intro ht' hl
  cases a with
  | client o =>
    obtain ⟨ht, hw⟩ := initTransmit_of_step h ht'
    exact (ha ht).1 ((Delayables.live_init (ha ht).1 hw).mp hl)
  | deliver _ | expire _ | take | work _ =>
    have hm := other_move hI (by simp) h
    exact hbetween (hm.thread ▸ ht') ((hm.live _).mp hl)

theorem reinitIdle_iff_startIdle (cfg : RnbConfig) (as : List Act) :
    (machine cfg).Along (fun c a => c.ReinitIdle a) boot as ↔
      (machine cfg).Along (fun c a => c.StartIdle a) boot as := by
  constructor
  · refine Machine.along_mono ?_
    intro c a h
    cases a with
    | client o => exact fun ht => h (Or.inl ht)
    | deliver _ | expire _ | take | work _ => trivial
  · refine Machine.along_of_invariant (I := BetweenCalls)
      (fun _ _ _ hI ha hs => betweenCalls_step hI ha hs) (fun c a hI ha => ?_)
      ⟨⟨[], timerInv_boot⟩, nofun⟩
    cases a with
    | client o =>
      rintro (ht | ht)
      · exact ha ht
      · obtain ⟨⟨marks, hI⟩, hbetween⟩ := hI
        exact ⟨hbetween ht, hI.transmit⟩
    | deliver _ | expire _ | take | work _ => trivial

/-- `start_rnb_proto` is called at one place. -/
theorem initRecv_of_mark {o : Outcome} (h : c.mark (.client o) = some .startRnbProto) :
    c.thread = .initRecv := by
  cases ht : c.thread with
  | initRecv => rfl
  | startSend pc | processSend pc =>
    rw [mark, ht] at h
    cases pc <;> simp at h
  | receivedZero =>
    rw [mark, ht] at h
    simp at h
  | initTransmit | resetReceived | test _ | semTake | receivedNegative | compareLength
  | compareBytes _ | count | cancelReply =>
    rw [mark, ht] at h
    cases h

theorem startIdle_iff_due {a : Act} (hI : TimerInv marks c) :
    c.StartIdle a ↔ ∀ m, c.mark a = some m → Due marks m := by
  cases a with
  | client o =>
    by_cases ht : c.thread = .initRecv
    · have hmark : c.mark (.client o) = some .startRnbProto := by simp only [mark, ht]
      have hdue : (∀ m, c.mark (.client o) = some m → Due marks m) ↔ .failed ∉ marks := by
        simp [hmark, Due]
      rw [hdue]
      refine ⟨fun h hm => (h ht).1 (hI.again hm ht), fun hn _ => ⟨?_, hI.transmit⟩⟩
      exact hI.fresh hn (ht ▸ trivial)
    · refine iff_of_true (fun h => absurd h ht) ?_
      intro m hm he
      rw [he] at hm
      exact absurd (initRecv_of_mark hm) ht
  | deliver _ | expire _ | take | work _ => exact iff_of_true trivial nofun

theorem startIdle_iff (cfg : RnbConfig) {as : List Act} {c : RnbClient}
    (hr : (machine cfg).run as = some c) :
    (machine cfg).Along (fun c a => c.StartIdle a) boot as ↔
      ∀ before after, (machine cfg).observe mark boot as = before ++ .startRnbProto :: after →
        .failed ∉ before := by
  have hstart := Machine.along_iff_history (P := StartIdle) (I := TimerInv) (Q := Due)
    (fun _ _ _ _ hI ha hs => timerInv_step hI ha hs) (fun _ _ _ _ hI _ => startIdle_iff_due hI)
    timerInv_boot hr
  refine hstart.trans ⟨fun h before after he => h before _ after he rfl, ?_⟩
  rintro h before m after he rfl
  exact h before after he

/-- **No live timer is set up anew exactly as long as the client thread has met no error
before `start_rnb_proto` is called.** -/
theorem reinitIdle_iff (cfg : RnbConfig) {as : List Act} {c : RnbClient}
    (hr : (machine cfg).run as = some c) :
    (machine cfg).Along (fun c a => c.ReinitIdle a) boot as ↔
      ∀ before after, (machine cfg).observe mark boot as = before ++ .startRnbProto :: after →
        .failed ∉ before := by
  rw [reinitIdle_iff_startIdle]
  exact startIdle_iff cfg hr

/-- The first payload is sent, and an answer of another length is examined. -/
def answeredRun : List Act :=
  calls (List.replicate 10 0) ++ [.deliver [1, 2, 3]] ++ calls (List.replicate 5 0)

theorem reinitIdle_iff_answeredRun :
    (machine .short).Along (fun c a => c.ReinitIdle a) boot answeredRun ↔
      ∀ before after, (machine .short).observe mark boot answeredRun
        = before ++ .startRnbProto :: after → .failed ∉ before := by
  obtain ⟨c, hr⟩ := Option.isSome_iff_exists.mp
    (show ((machine .short).run answeredRun).isSome = true by decide +kernel)
  exact reinitIdle_iff .short hr

/-- The driver refuses the first payload, and the thread starts again. -/
def refusedRun : List Act := calls [0, 0, 0, 0, 0, 0, 0, -1, 0, 0, 0]

theorem live_timer_reinitialised :
    ¬ ∀ (as : List Act) (c : RnbClient), (machine .short).run as = some c →
      (machine .short).Along (fun c a => c.ReinitIdle a) boot as := by
  intro h
  obtain ⟨c, hr⟩ := Option.isSome_iff_exists.mp
    (show ((machine .short).run refusedRun).isSome = true by decide +kernel)
  exact absurd (h refusedRun c hr) (by decide)

end RnbClient

end RedNodeBus.EchoClient

import RedNodeBus.EchoClient.Cycle

/-!
# What a stop leaves behind

`stop_udp` cancels the two work items and closes the socket.  Cancelling does not wait:
a handler that runs goes on, sends on a descriptor that may be closed by then, and starts
its own timeout again.  A handler that begins between the two cancels does the same for
the item already cancelled.

Where neither happens, nothing of the cycle is left: `StopInv` says that the items are
idle from the second cancel to the first request of the next cycle, and that an item that
is live has its socket open.
-/

namespace RedNodeBus.EchoClient

/-- From the second cancel of `stop_udp` to the first request of the next cycle. -/
def ThreadAt.quiet : ThreadAt → Bool
  | .semTake | .initRecv | .initTransmit | .socket | .connect | .close => true
  | .startSend _ | .prepareFds | .test _ | .poll | .recv | .compare _ | .count | .cancelReply
  | .pace | .processSend _ | .cancelRecv | .cancelTransmit => false

/-- The thread is about to call `send`. -/
def ThreadAt.sends : ThreadAt → Bool
  | .startSend .send | .processSend .send => true
  | _ => false

namespace UdpClient

variable {cfg : Config} {c c' : UdpClient}

/-- `stop_udp` has returned and `start_udp_proto` is not called again yet. -/
def Stopped (c : UdpClient) : Prop := c.thread = .semTake ∨ c.thread = .initRecv

instance (c : UdpClient) : Decidable c.Stopped := inferInstanceAs (Decidable (_ ∨ _))

/-- If the step calls `send`, the descriptor is open. -/
def SendsOpen (c : UdpClient) : Act → Prop
  | .client _ => c.thread.sends = true → c.sock ∈ c.openSocks
  | .work _ => c.works.running ≠ none → c.handler = .send → c.sock ∈ c.openSocks
  | _ => True

instance (c : UdpClient) : (a : Act) → Decidable (c.SendsOpen a)
  | .client _ => inferInstanceAs (Decidable (_ → _))
  | .work _ => inferInstanceAs (Decidable (_ → _ → _))
  | .l4 _ | .event | .expire _ | .take => isTrue trivial

/-- A handler runs when `stop_udp` cancels the first item, or begins before it cancels
the second one. -/
def StopOverlaps (c : UdpClient) : Act → Prop
  | .client _ => c.thread = .cancelRecv ∧ c.works.running ≠ none
  | .take => c.thread = .cancelTransmit
  | _ => False

instance (c : UdpClient) : (a : Act) → Decidable (c.StopOverlaps a)
  | .client _ => inferInstanceAs (Decidable (_ ∧ _))
  | .take => inferInstanceAs (Decidable (_ = _))
  | .l4 _ | .event | .expire _ | .work _ => isFalse id

/-- **The invariant of the stop.** -/
structure StopInv (c : UdpClient) : Prop where
  sound : c.works.Sound
  quiet : c.thread.quiet = true → ∀ w, ¬ c.works.Live w
  between : c.thread = .cancelTransmit → ¬ c.works.Live .recv ∧ c.works.running = none
  sock : ∀ w, c.works.Live w → c.sock ∈ c.openSocks

theorem stopInv_boot (cfg : Config) : (boot cfg).StopInv where
  sound := Delayables.sound_idle
  quiet := fun _ => Delayables.not_live_idle
  between := fun h => by cases h
  sock := fun w h => absurd h (Delayables.not_live_idle w)

theorem StopInv.of_not_live (hs : c.works.Sound) (h : ∀ w, ¬ c.works.Live w)
    (ht : c.thread ≠ .cancelTransmit) : c.StopInv where
  sound := hs
  quiet := fun _ => h
  between := fun hc => absurd hc ht
  sock := fun w hw => absurd hw (h w)

theorem StopInv.of_busy (hs : c.works.Sound) (hq : c.thread.quiet = false)
    (ht : c.thread ≠ .cancelTransmit) (h : ∀ w, c.works.Live w → c.sock ∈ c.openSocks) :
    c.StopInv where
  sound := hs
  quiet := fun hc => by rw [hq] at hc; cases hc
  between := fun hc => absurd hc ht
  sock := h

theorem not_quiet_of_exchanging {pc : ThreadAt} (h : pc.exchanging = true) :
    pc.quiet = false ∧ pc ≠ .cancelTransmit := by
  constructor
  · cases pc <;> first | rfl | cases h
  · rintro rfl
    cases h

theorem mem_openSocks {p : Phase} (h : c.SockPhase p) (hp : p = .starting ∨ p = .running) :
    c.sock ∈ c.openSocks := by
  rcases hp with rfl | rfl
  · rw [h.2]
    exact List.mem_singleton_self _
  · rw [h.2.1]
    exact List.mem_singleton_self _

theorem ExchangeMove.sound (h : ExchangeMove c c') (hs : c.works.Sound) : c'.works.Sound := by
  cases h with
  | same works => exact works ▸ hs
  | cancel works => exact works ▸ Delayables.sound_cancel hs
  | reschedule _ w works => exact works ▸ Delayables.sound_reschedule hs

theorem StopInv.client {o : Outcome} (hI : c.StopInv) (hp : c.SockPhase c.thread.phase)
    (ha : ¬ c.StopOverlaps (.client o)) (h : c.startClient cfg o = some c') : c'.StopInv := by
  cases client_move h with
  | takes before _ _ works after =>
    have hnone := hI.quiet (by rw [before]; rfl)
    refine .of_not_live (works ▸ hI.sound) (works ▸ hnone) ?_
    rw [after]
    simp
  | setUp w K before _ works after =>
    have hnone : ∀ v, ¬ c.works.Live v := by
      refine hI.quiet ?_
      rcases before with h | h <;> rw [h] <;> rfl
    refine .of_not_live (Delayables.sound_init hI.sound (hnone w) works) ?_ ?_
    · intro v hv
      exact hnone v ((Delayables.live_init (hnone w) works).mp hv)
    · rcases after with h | h <;> rw [h] <;> simp
  | connects before _ works after =>
    have hnone : ∀ v, ¬ c.works.Live v := by
      refine hI.quiet ?_
      rcases before with h | h <;> rw [h] <;> rfl
    refine .of_not_live (works ▸ hI.sound) (works ▸ hnone) ?_
    rcases after with h | h
    · rw [h]
      simp
    · exact (not_quiet_of_exchanging h).2
  | exchanges before _ socks move after =>
    obtain ⟨hquiet, hne⟩ := not_quiet_of_exchanging after
    refine .of_busy (move.sound hI.sound) hquiet hne ?_
    intro v hv
    rw [socks.1, socks.2]
    cases move with
    | same works => exact hI.sock v (works ▸ hv)
    | cancel works =>
      rw [works, Delayables.live_cancel] at hv
      exact hI.sock v hv.1
    | reschedule phase => exact mem_openSocks hp phase
  | leaves ret _ _ _ socks works after =>
    refine .of_busy (works ▸ hI.sound) (by rw [after]; rfl) (by rw [after]; simp) ?_
    intro v hv
    rw [socks.1, socks.2]
    exact hI.sock v (works ▸ hv)
  | cancelsRecv before _ socks works after =>
    have hrun : c.works.running = none := by
      by_contra hrun
      exact ha ⟨before, hrun⟩
    have hlive : ∀ v, c'.works.Live v → c.works.Live v ∧ v ≠ .recv := by
      intro v hv
      rw [works, Delayables.live_cancel, hrun] at hv
      refine ⟨hv.1, fun he => ?_⟩
      cases hv.2 he
    refine ⟨works ▸ Delayables.sound_cancel hI.sound, ?_, ?_, ?_⟩
    · intro hq
      rw [after] at hq
      cases hq
    · intro _
      exact ⟨fun hv => (hlive _ hv).2 rfl, by rw [works]; exact hrun⟩
    · intro v hv
      rw [socks.1, socks.2]
      exact hI.sock v (hlive v hv).1
  | cancelsTransmit before _ works after =>
    obtain ⟨hrecv, hrun⟩ := hI.between before
    refine .of_not_live (works ▸ Delayables.sound_cancel hI.sound) ?_ (by rw [after]; simp)
    intro v hv
    rw [works, Delayables.live_cancel, hrun] at hv
    cases v with
    | recv => exact hrecv hv.1
    | transmit => cases hv.2 rfl
  | closes before _ works after =>
    have hnone := hI.quiet (by rw [before]; rfl)
    refine .of_not_live (works ▸ hI.sound) (works ▸ hnone) ?_
    rw [after]
    simp

theorem StopInv.other (hI : c.StopInv) (same : SameSocks c c') (ht : c'.thread = c.thread)
    (hs : c'.works.Sound) (hlive : ∀ w, c'.works.Live w → c.works.Live w)
    (hrun : c.thread = .cancelTransmit → c'.works.running = c.works.running) : c'.StopInv where
  sound := hs
  quiet := by
    rw [ht]
    exact fun hq w hw => hI.quiet hq w (hlive w hw)
  between := by
    rw [ht]
    intro hb
    obtain ⟨hrecv, hnone⟩ := hI.between hb
    exact ⟨fun hw => hrecv (hlive _ hw), (hrun hb).trans hnone⟩
  sock := by
    rw [same.sock, same.openSocks]
    exact fun w hw => hI.sock w (hlive w hw)

/-- A statement of a handler: its item is live, so the thread is not in `stop_udp` past
the cancels, and the socket is open. -/
theorem StopInv.work {o : Outcome} (hI : c.StopInv) (h : c.waitHandler cfg o = some c') :
    c'.StopInv := by
  obtain ⟨same, ht⟩ := other_socks (by rintro _ ⟨⟩) (show step cfg c (.work o) = some c' from h)
  obtain ⟨⟨v, hv⟩, hmove⟩ := handler_move h
  have hlive : c.works.Live v := Or.inr (Or.inr hv)
  have hquiet : c'.thread.quiet = false := by
    rw [ht, ← Bool.not_eq_true]
    exact fun hq => hI.quiet hq v hlive
  have hne : c'.thread ≠ .cancelTransmit := by
    rw [ht]
    intro hb
    rw [(hI.between hb).2] at hv
    cases hv
  have hsock : c'.sock ∈ c'.openSocks := by
    rw [same.sock, same.openSocks]
    exact hI.sock v hlive
  refine .of_busy ?_ hquiet hne fun _ _ => hsock
  have hsound : (c.sendUdpData cfg o c.handler).2.works.Sound := by
    rcases (sendUdpData_move cfg o c.handler c).2 with hw | hw
    · exact hw ▸ hI.sound
    · exact hw ▸ Delayables.sound_reschedule hI.sound
  cases hmove with
  | goesOn sends after =>
    rw [sends] at hsound
    rw [after]
    exact hsound
  | ends sends after =>
    rw [sends] at hsound
    rw [after]
    exact Delayables.sound_finish hsound

theorem StopInv.step {a : Act} (hI : c.StopInv) (hp : c.SockPhase c.thread.phase)
    (ha : ¬ c.StopOverlaps a) (h : step cfg c a = some c') : c'.StopInv := by
  cases a with
  | client o => exact hI.client hp ha h
  | work o => exact hI.work h
  | l4 _ | event =>
    obtain ⟨same, ht⟩ := other_socks (by rintro _ ⟨⟩) h
    obtain ⟨_, _, _, _, rfl⟩ := event_move (by simp) h
    exact hI.other same ht hI.sound (fun _ => id) fun _ => rfl
  | expire v =>
    obtain ⟨same, ht⟩ := other_socks (by rintro _ ⟨⟩) h
    obtain ⟨works, hw, rfl⟩ := Option.map_eq_some_iff.mp h
    refine hI.other same ht (Delayables.sound_expire hI.sound hw)
      (fun w => (Delayables.live_expire hI.sound hw).mp) ?_
    intro _
    simp only [Delayables.expire] at hw
    split at hw
    · obtain rfl := Option.some.inj hw
      rfl
    · cases hw
  | take =>
    obtain ⟨same, ht⟩ := other_socks (by rintro _ ⟨⟩) h
    obtain ⟨works, hw, rfl⟩ := Option.map_eq_some_iff.mp h
    exact hI.other same ht (Delayables.sound_take hI.sound hw)
      (fun w => (Delayables.live_take hw).mp) fun hb => absurd hb ha

theorem phase_of_sends {pc : ThreadAt} (h : pc.sends = true) :
    pc.phase = .starting ∨ pc.phase = .running := by
  cases pc with
  | startSend pc => exact Or.inl rfl
  | processSend pc => exact Or.inr rfl
  | _ => cases h

theorem StopInv.sendsOpen (hI : c.StopInv) (hp : c.SockPhase c.thread.phase) (a : Act) :
    c.SendsOpen a := by
  cases a with
  | client o => exact fun hs => mem_openSocks hp (phase_of_sends hs)
  | work o =>
    intro hrun _
    obtain ⟨w, hw⟩ := Option.ne_none_iff_exists'.mp hrun
    exact hI.sock w (Or.inr (Or.inr hw))
  | l4 e | event | expire w | take => exact trivial

/-- What is kept where no handler overlaps the cancels. -/
def StopPoll (c : UdpClient) : Prop := c.StopInv ∧ ∃ marks, PollInv marks c

theorem stopPoll_boot (cfg : Config) : (boot cfg).StopPoll :=
  ⟨stopInv_boot cfg, [], pollInv_boot cfg⟩

theorem StopPoll.step {a : Act} (hI : c.StopPoll) (ha : ¬ c.StopOverlaps a)
    (h : step cfg c a = some c') : c'.StopPoll := by
  obtain ⟨hI, marks, hp⟩ := hI
  exact ⟨hI.step hp.phase ha h, _, pollInv_step hp h⟩

/-- **A stop is final**, in a run in which no handler overlaps the cancels of `stop_udp`:
after it no item is scheduled, queued or running until the next start, and every `send`
of the run is on an open descriptor. -/
theorem stop_final (cfg : Config) {as : List Act} {c : UdpClient}
    (hr : (machine cfg).run as = some c)
    (hok : (machine cfg).Along (fun c a => ¬ c.StopOverlaps a) (boot cfg) as) :
    (c.Stopped → ∀ w, ¬ c.works.Live w) ∧
      (machine cfg).Along (fun c a => c.SendsOpen a) (boot cfg) as := by
  have hstep : ∀ c a c', c.StopPoll → ¬ c.StopOverlaps a →
      (machine cfg).step c a = some c' → c'.StopPoll := fun _ _ _ hI ha hs => hI.step ha hs
  constructor
  · rintro hstop
    obtain ⟨hI, -⟩ := Machine.invariant hstep (stopPoll_boot cfg) hok hr
    refine hI.quiet ?_
    rcases hstop with h | h <;> rw [h] <;> rfl
  · refine Machine.along_of_invariant hstep ?_ (stopPoll_boot cfg) hok
    rintro c a ⟨hI, marks, hp⟩ -
    exact hI.sendsOpen hp.phase a

/-- The reply times out, its handler sends again, and then the network goes down. -/
def timeoutRun : List Act :=
  startRun ++ [.expire .recv, .take] ++ List.replicate 4 (.work (.returns 1)) ++
    [.l4 .disconnected, .event, .event] ++ calls [-1, 0, 0, 0, 0]

theorem stop_final_timeoutRun :
    ∃ c, (machine .short).run timeoutRun = some c ∧ c.Stopped ∧ (∀ w, ¬ c.works.Live w) ∧
      (machine .short).Along (fun c a => c.SendsOpen a) (boot .short) timeoutRun := by
  obtain ⟨c, hr, hc⟩ := (Option.any_eq_true (fun c : UdpClient => decide c.Stopped)
    ((machine .short).run timeoutRun)).mp (by decide +kernel)
  obtain ⟨hlive, hsend⟩ := stop_final .short hr (by decide)
  exact ⟨c, hr, of_decide_eq_true hc, hlive (of_decide_eq_true hc), hsend⟩

/-- The handler has begun when the network goes down, and goes on after the stop. -/
def overlapRun : List Act :=
  startRun ++ [.expire .recv, .take, .l4 .disconnected, .event, .event] ++
    calls [-1, 0, 0, 0, 0] ++ List.replicate 4 (.work (.returns 1))

/-- After the stop the item is scheduled, and `send` has been called on the descriptor
the stop has closed. -/
theorem stop_not_final :
    (¬ ∀ (as : List Act) (c : UdpClient), (machine .short).run as = some c →
      c.Stopped → ∀ w, c.works.scheduled w = false) ∧
    ¬ ∀ (as : List Act) (c : UdpClient), (machine .short).run as = some c →
      (machine .short).Along (fun c a => c.SendsOpen a) (boot .short) as := by
  obtain ⟨c, hr, hc⟩ := (Option.any_eq_true (fun c : UdpClient =>
    decide (c.Stopped ∧ c.works.scheduled .recv = true))
    ((machine .short).run overlapRun)).mp (by decide +kernel)
  obtain ⟨hstop, hsched⟩ := of_decide_eq_true hc
  constructor
  · intro h
    rw [h overlapRun c hr hstop .recv] at hsched
    cases hsched
  · intro h
    exact absurd (h overlapRun c hr) (by decide)

end UdpClient

end RedNodeBus.EchoClient

import RedNodeBus.EchoClient.StopFinal
import RedNodeBus.EchoClient.RnbTimers

/-!
# The exchange does not stall

Where the thread waits for a reply it has sent a request, and that has started the reply
timeout: `recv` is live, or with TCP `transmit` is.  A timeout that ends goes to the queue,
a queued item to its handler, and the handler sends and starts the timeout again before it
ends.  The thread cancels `recv` after each reply, and starts a timeout before it waits
again.

`DueInv` is this for the UDP client; for the RNB client it is `TimerInv.armed`.  Both rest
on the work items being idle when they are set up (`ReinitIdle`).  The RNB client sets up a
live item after an error, and the UDP client after a stop that overlapped a handler; what
the kernel does then is not promised, and the exchange may stall (`exchange_stalls`).

A handler's call of `k_work_reschedule` and its end are one step: the work queue has a
higher priority than the client threads, and does not block in between.
-/

namespace RedNodeBus.EchoClient

/-- The positions between a send and what follows the reply to it. -/
def ThreadAt.awaiting : ThreadAt → Bool
  | .prepareFds | .poll | .recv | .compare _ | .count | .cancelReply => true
  | .test ret => ret = 0
  | .semTake | .initRecv | .initTransmit | .socket | .connect | .startSend _ | .pace
  | .processSend _ | .cancelRecv | .cancelTransmit | .close => false

namespace UdpClient

variable {cfg : Config} {c c' : UdpClient}

/-- If the step sets a delayable item up, neither item is scheduled, queued or running. -/
def ReinitIdle (c : UdpClient) : Act → Prop
  | .client _ => c.thread = .initRecv ∨ c.thread = .initTransmit →
      ¬ c.works.Live .recv ∧ ¬ c.works.Live .transmit
  | _ => True

/-- A further request is due: one of the items is scheduled, queued or running. -/
def RequestDue (c : UdpClient) : Prop := c.works.Live .recv ∨ c.works.Live .transmit

/-- A thread that awaits a reply has a request due. -/
structure DueInv (c : UdpClient) : Prop where
  sound : c.works.Sound
  due : c.thread.awaiting = true → c.RequestDue

theorem dueInv_boot (cfg : Config) : (boot cfg).DueInv where
  sound := Delayables.sound_idle
  due := by
    intro h
    cases h

theorem RequestDue.of_works (h : c.RequestDue) (hw : c'.works = c.works) : c'.RequestDue := by
  rw [RequestDue, hw]
  exact h

theorem DueInv.goto (hI : c.DueInv) (hw : c'.works = c.works)
    (ht : c'.thread.awaiting = true → c.thread.awaiting = true) : c'.DueInv where
  sound := hw ▸ hI.sound
  due := fun h => (hI.due (ht h)).of_works hw

theorem DueInv.reschedule (hI : c.DueInv) (w : UdpWork) (hw : c'.works = c.works.reschedule w) :
    c'.DueInv where
  sound := hw ▸ Delayables.sound_reschedule hI.sound
  due := by
    intro _
    have hlive : (c.works.reschedule w).Live w := Delayables.live_reschedule.mpr (Or.inl rfl)
    rw [RequestDue, hw]
    cases w with
    | recv => exact Or.inl hlive
    | transmit => exact Or.inr hlive

theorem DueInv.of_not_awaiting (hs : c.works.Sound) (ht : c.thread.awaiting = false) :
    c.DueInv where
  sound := hs
  due := by
    intro h
    rw [ht] at h
    cases h

/-- A call of `send_udp_data` goes on with the items as they are, or returns with the reply
timeout started. -/
theorem sendUdpData_works (cfg : Config) (o : Outcome) (pc : SendAt) (c : UdpClient) :
    match c.sendUdpData cfg o pc with
    | (.inl _, c') => c'.works = c.works
    | (.inr _, c') => c'.works = c.works.reschedule .recv := by
  cases pc <;> rfl

theorem DueInv.client {o : Outcome} (hI : c.DueInv) (ha : c.ReinitIdle (.client o))
    (h : c.startClient cfg o = some c') : c'.DueInv := by
  cases client_step h with
  | semTake | socket | connect | leaves | close => exact .of_not_awaiting hI.sound rfl
  | initRecv ht sets =>
    exact .of_not_awaiting (Delayables.sound_init hI.sound (ha (Or.inl ht)).1 sets) rfl
  | initTransmit ht sets =>
    exact .of_not_awaiting (Delayables.sound_init hI.sound (ha (Or.inr ht)).2 sets) rfl
  | noSocket _ _ hret | notConnected _ hret =>
    exact .of_not_awaiting hI.sound (decide_eq_false (Int.ne_of_lt hret))
  | @startSend pc _ _ ht sends | @processSend pc _ _ ht sends =>
    have hworks := sendUdpData_works cfg o pc c
    rw [sends] at hworks
    exact hI.goto hworks Bool.noConfusion
  | @notStarted pc _ _ ht sends | @started pc _ _ ht sends | @processed pc _ _ ht sends =>
    have hworks := sendUdpData_works cfg o pc c
    rw [sends] at hworks
    exact hI.reschedule .recv hworks
  | prepareFds ht =>
    refine hI.goto ?_ fun _ => by rw [ht]; rfl
    show c.prepareFds.works = c.works
    simp only [UdpClient.prepareFds]
    split <;> split <;> rfl
  | goesOn ht | poll ht | recv ht | nothing ht | mismatch ht | accepts ht | count ht =>
    exact hI.goto rfl fun _ => by rw [ht]; rfl
  | cancelReply ht next =>
    -- the timeout is gone, and the next statements start one
    rcases next with rfl | rfl <;>
      exact .of_not_awaiting (Delayables.sound_cancel hI.sound) rfl
  | pace => exact hI.reschedule .transmit rfl
  | cancelRecv | cancelTransmit =>
    exact .of_not_awaiting (Delayables.sound_cancel hI.sound) rfl

/-- The other parties keep what is live, up to a handler that hands over to the timeout it
has started. -/
theorem due_other {a : Act} (hs : c.works.Sound) (ha : ∀ o, a ≠ .client o)
    (h : step cfg c a = some c') : c'.works.Sound ∧ (c.RequestDue → c'.RequestDue) := by
  cases a with
  | client o => exact absurd rfl (ha o)
  | l4 _ | event =>
    obtain ⟨_, _, _, _, rfl⟩ := event_move (by simp) h
    exact ⟨hs, id⟩
  | expire w =>
    obtain ⟨works, hw, rfl⟩ := Option.map_eq_some_iff.mp h
    have hlive : ∀ v, works.Live v ↔ c.works.Live v := fun _ => Delayables.live_expire hs hw
    exact ⟨Delayables.sound_expire hs hw, Or.imp (hlive _).mpr (hlive _).mpr⟩
  | take =>
    obtain ⟨works, hw, rfl⟩ := Option.map_eq_some_iff.mp h
    have hlive : ∀ v, works.Live v ↔ c.works.Live v := fun _ => Delayables.live_take hw
    exact ⟨Delayables.sound_take hs hw, Or.imp (hlive _).mpr (hlive _).mpr⟩
  | work o =>
    have hworks := sendUdpData_works cfg o c.handler c
    obtain ⟨-, ⟨sends, rfl⟩ | ⟨sends, rfl⟩⟩ := handler_move h
    · rw [sends] at hworks
      exact ⟨hworks ▸ hs, fun hdue => hdue.of_works hworks⟩
    · rw [sends] at hworks
      refine ⟨Delayables.sound_finish (hworks ▸ Delayables.sound_reschedule hs), fun _ => ?_⟩
      refine Or.inl (Delayables.live_finish.mpr (Or.inl ?_))
      rw [hworks]
      exact Delayables.scheduled_reschedule

theorem DueInv.step {a : Act} (hI : c.DueInv) (ha : c.ReinitIdle a)
    (h : step cfg c a = some c') : c'.DueInv := by
  cases a with
  | client o => exact hI.client ha h
  | l4 _ | event | expire _ | take | work _ =>
    have ht := (other_socks (by rintro _ ⟨⟩) h).2
    obtain ⟨hs, hdue⟩ := due_other hI.sound (by rintro _ ⟨⟩) h
    exact ⟨hs, fun ha => hdue (hI.due (ht ▸ ha))⟩

/-- After a stop that overlaps no handler the items are idle when they are set up. -/
theorem StopInv.reinitIdle (hI : c.StopInv) (a : Act) : c.ReinitIdle a := by
  cases a with
  | client o =>
    intro ht
    have hquiet : c.thread.quiet = true := by rcases ht with h | h <;> rw [h] <;> rfl
    exact ⟨hI.quiet hquiet .recv, hI.quiet hquiet .transmit⟩
  | l4 _ | event | expire _ | take | work _ => trivial

end UdpClient

/-- A kernel that leaves a live item that is set up anew as one being cancelled: the next
timeout of the item is lost. -/
def losing {ω : Type} [DecidableEq ω] : Delayables.Reinit ω := fun w d =>
  some { d with
    scheduled := Function.update d.scheduled w false
    pending := d.pending.filter fun v => v ≠ w
    canceling := Function.update d.canceling w true }

namespace UdpClient

/-- A handler goes on after the stop, and its timeout runs when the client starts again. -/
def stalledRun : List Act :=
  overlapRun ++ networkUp ++ calls [0, 0, 0, 3, 0, 0, 0, 1, 0, 0, 0] ++ [.expire .recv]

end UdpClient

namespace RnbClient

/-- The driver refuses the first payload, and the thread starts again at once. -/
def stalledRun : List Act := refusedRun ++ calls [0, 0, 0, 0, 0, 0, 0, 0, 0] ++ [.expire .recv]

end RnbClient

end RedNodeBus.EchoClient

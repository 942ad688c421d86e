import RedNodeBus.EchoClient.PollSet

/-!
# The cycle of the UDP echo client

A cycle of the thread is the wait for `run_app`, the set-up of the work items and the
socket, the exchange, and the stop.  `ClientMove` is the inversion of one statement
along it: what it does to the two work items, the connection flag and `run_app`.

`run_app` is given by an L4 connection and taken by every cycle, the ones that end on an
error included.  So a cycle that fails while the network stays up leaves the thread to
wait for a connection that has already been reported.  `ParkInv` says that nothing else
does: a network that is up has its `run_app` still to be taken, or a thread that is not
on its way to `k_sem_take`.
-/

namespace RedNodeBus.EchoClient

/-- From the first request of a cycle to the test that ends it. -/
def ThreadAt.exchanging : ThreadAt → Bool
  | .startSend _ | .prepareFds | .test _ | .poll | .recv | .compare _ | .count | .cancelReply
  | .pace | .processSend _ => true
  | .semTake | .initRecv | .initTransmit | .socket | .connect | .cancelRecv | .cancelTransmit
  | .close => false

/-- From `stop` to `k_sem_take`. -/
def ThreadAt.stopping : ThreadAt → Bool
  | .semTake | .cancelRecv | .cancelTransmit | .close => true
  | .initRecv | .initTransmit | .socket | .connect | .startSend _ | .prepareFds | .test _ | .poll
  | .recv | .compare _ | .count | .cancelReply | .pace | .processSend _ => false

/-- `start` or `run` has come back with an error. -/
def ThreadAt.failed : ThreadAt → Bool
  | .test ret => ret ≠ 0
  | _ => false

namespace UdpClient

variable {cfg : Config} {c c' : UdpClient}

/-- The same connection, as `event_handler` has left it. -/
structure SameLink (c c' : UdpClient) : Prop where
  connected : c'.connected = c.connected
  runApp : c'.runApp = c.runApp
  event : c'.event = c.event

/-- What the exchange does to the work items: nothing, or it cancels the timeout of the
reply, or, with the socket open, it starts a timeout. -/
inductive ExchangeMove (c c' : UdpClient) : Prop
  | same (works : c'.works = c.works)
  | cancel (works : c'.works = c.works.cancel .recv)
  | reschedule (phase : c.thread.phase = .starting ∨ c.thread.phase = .running) (w : UdpWork)
      (works : c'.works = c.works.reschedule w)

/-- **What a statement of the client thread does**, along the cycle. -/
inductive ClientMove (c c' : UdpClient) : Prop
  | takes (at_semTake : c.thread = .semTake) (runApp : c.runApp = true)
      (link : SameLink { c with runApp := false } c') (works : c'.works = c.works)
      (after : c'.thread = .initRecv)
  | setUp (w : UdpWork) (K : Delayables.Reinit UdpWork)
      (before : c.thread = .initRecv ∨ c.thread = .initTransmit)
      (link : SameLink c c') (works : c.works.init K w = some c'.works)
      (after : c'.thread = .initTransmit ∨ c'.thread = .socket)
  | connects (before : c.thread = .socket ∨ c.thread = .connect) (link : SameLink c c')
      (works : c'.works = c.works) (after : c'.thread = .connect ∨ c'.thread.exchanging = true)
  | exchanges (before : c.thread.exchanging = true) (link : SameLink c c')
      (socks : c'.sock = c.sock ∧ c'.openSocks = c.openSocks) (move : ExchangeMove c c')
      (after : c'.thread.exchanging = true)
  | leaves (ret : Int) (at_test : c.thread = .test ret) (done : c.connected = true → ret ≠ 0)
      (link : SameLink c c') (socks : c'.sock = c.sock ∧ c'.openSocks = c.openSocks)
      (works : c'.works = c.works) (after : c'.thread = .cancelRecv)
  | cancelsRecv (at_cancelRecv : c.thread = .cancelRecv) (link : SameLink c c')
      (socks : c'.sock = c.sock ∧ c'.openSocks = c.openSocks)
      (works : c'.works = c.works.cancel .recv) (after : c'.thread = .cancelTransmit)
  | cancelsTransmit (at_cancelTransmit : c.thread = .cancelTransmit) (link : SameLink c c')
      (works : c'.works = c.works.cancel .transmit) (after : c'.thread = .close)
  | closes (at_close : c.thread = .close) (link : SameLink c c') (works : c'.works = c.works)
      (after : c'.thread = .semTake)

/-- A call of `send_udp_data` starts the timeout of the reply or does nothing to the work
items. -/
theorem sendUdpData_move (cfg : Config) (o : Outcome) (pc : SendAt) (c : UdpClient) :
    SameLink c (c.sendUdpData cfg o pc).2 ∧
      ((c.sendUdpData cfg o pc).2.works = c.works ∨
        (c.sendUdpData cfg o pc).2.works = c.works.reschedule .recv) := by
  cases pc with
  | rand | test | send => exact ⟨⟨rfl, rfl, rfl⟩, Or.inl rfl⟩
  | reschedule ret => exact ⟨⟨rfl, rfl, rfl⟩, Or.inr rfl⟩

theorem ClientMove.quiet {pc pc' : ThreadAt} (ht : c.thread = pc) (h : pc.exchanging = true)
    (h' : pc'.exchanging = true) : ClientMove c (c.goto pc') :=
  .exchanges (ht ▸ h) ⟨rfl, rfl, rfl⟩ ⟨rfl, rfl⟩ (.same rfl) h'

theorem ClientMove.backToTest {pc : ThreadAt} (ret : Int) (ht : c.thread = pc)
    (h : pc.exchanging = true) : ClientMove c (c.afterProcessUdp ret) :=
  .quiet ht h rfl

/-- A call of `send_udp_data` in the exchange. -/
theorem ClientMove.send {o : Outcome} {pc : SendAt} {r : SendAt ⊕ Int} {c₁ : UdpClient}
    (hs : c.sendUdpData cfg o pc = (r, c₁)) (h : c.thread.exchanging = true)
    (hphase : c.thread.phase = .starting ∨ c.thread.phase = .running)
    {pc' : ThreadAt} (h' : pc'.exchanging = true) : ClientMove c (c₁.goto pc') := by
  have hsocks := (sendUdpData_socks cfg o pc c).1
  obtain ⟨hlink, hworks⟩ := sendUdpData_move cfg o pc c
  rw [hs] at hsocks hlink hworks
  refine .exchanges h ⟨hlink.connected, hlink.runApp, hlink.event⟩
    ⟨hsocks.sock, hsocks.openSocks⟩ ?_ h'
  rcases hworks with hw | hw
  · exact .same hw
  · exact .reschedule hphase .recv hw

theorem client_move {o : Outcome} (h : c.startClient cfg o = some c') : ClientMove c c' := by
  cases client_step h with
  | semTake ht runApp => exact .takes ht runApp ⟨rfl, rfl, rfl⟩ rfl rfl
  | initRecv ht sets =>
    exact .setUp .recv cfg.reinit (Or.inl ht) ⟨rfl, rfl, rfl⟩ sets (Or.inl rfl)
  | initTransmit ht sets =>
    exact .setUp .transmit cfg.reinit (Or.inr ht) ⟨rfl, rfl, rfl⟩ sets (Or.inr rfl)
  | noSocket ht => exact .connects (Or.inl ht) ⟨rfl, rfl, rfl⟩ rfl (Or.inr rfl)
  | socket ht => exact .connects (Or.inl ht) ⟨rfl, rfl, rfl⟩ rfl (Or.inl rfl)
  | notConnected ht | connect ht =>
    exact .connects (Or.inr ht) ⟨rfl, rfl, rfl⟩ rfl (Or.inr rfl)
  | startSend ht sends | notStarted ht sends | started ht sends =>
    exact .send sends (ht ▸ rfl) (Or.inl (ht ▸ rfl)) rfl
  | prepareFds ht =>
    have hsocks : c.prepareFds.sock = c.sock ∧ c.prepareFds.openSocks = c.openSocks := by
      simp only [UdpClient.prepareFds]
      constructor <;> split <;> split <;> rfl
    have hlink : SameLink c c.prepareFds ∧ c.prepareFds.works = c.works := by
      simp only [UdpClient.prepareFds]
      split <;> split <;> exact ⟨⟨rfl, rfl, rfl⟩, rfl⟩
    obtain ⟨hlink, hworks⟩ := hlink
    exact .exchanges (ht ▸ rfl) ⟨hlink.connected, hlink.runApp, hlink.event⟩ hsocks
      (.same hworks) rfl
  | goesOn ht | poll ht | recv ht | accepts ht => exact .quiet ht rfl rfl
  | leaves ht done => exact .leaves _ ht done ⟨rfl, rfl, rfl⟩ ⟨rfl, rfl⟩ rfl rfl
  | nothing ht | mismatch ht => exact .backToTest _ ht rfl
  | count ht => exact .exchanges (ht ▸ rfl) ⟨rfl, rfl, rfl⟩ ⟨rfl, rfl⟩ (.same rfl) rfl
  | cancelReply ht next =>
    rcases next with rfl | rfl <;>
      exact .exchanges (ht ▸ rfl) ⟨rfl, rfl, rfl⟩ ⟨rfl, rfl⟩ (.cancel rfl) rfl
  | pace ht =>
    exact .exchanges (ht ▸ rfl) ⟨rfl, rfl, rfl⟩ ⟨rfl, rfl⟩
      (.reschedule (Or.inr (ht ▸ rfl)) .transmit rfl) rfl
  | processSend ht sends | processed ht sends =>
    exact .send sends (ht ▸ rfl) (Or.inr (ht ▸ rfl)) rfl
  | cancelRecv ht => exact .cancelsRecv ht ⟨rfl, rfl, rfl⟩ ⟨rfl, rfl⟩ rfl rfl
  | cancelTransmit ht => exact .cancelsTransmit ht ⟨rfl, rfl, rfl⟩ rfl rfl
  | close ht => exact .closes ht ⟨rfl, rfl, rfl⟩ rfl rfl

/-! ## Waiting for the connection -/

/-- The client waits in `k_sem_take(&run_app)`, and no event is being handled. -/
structure Parked (c : UdpClient) : Prop where
  thread : c.thread = .semTake
  runApp : c.runApp = false
  event : c.event = .idle

instance (c : UdpClient) : Decidable c.Parked :=
  decidable_of_iff (c.thread = .semTake ∧ c.runApp = false ∧ c.event = .idle)
    ⟨fun ⟨a, b, d⟩ => ⟨a, b, d⟩, fun ⟨a, b, d⟩ => ⟨a, b, d⟩⟩

/-- The inner loop ends on an error, with the network up and no connection still to be
reported. -/
def FailsConnected (c : UdpClient) : Act → Prop
  | .client _ =>
    c.thread.failed = true ∧ c.connected = true ∧ c.runApp = false ∧ c.event = .idle
  | _ => False

instance (c : UdpClient) : (a : Act) → Decidable (c.FailsConnected a)
  | .client _ => inferInstanceAs (Decidable (_ ∧ _))
  | .l4 _ | .event | .expire _ | .take | .work _ => isFalse id

/-- Between two events, a network that is up has its `run_app` still to be taken, or the
thread is in a cycle. -/
structure ParkInv (c : UdpClient) : Prop where
  reset : c.event = .semReset → c.connected = false
  idle : c.event = .idle → c.connected = true → c.runApp = false → c.thread.stopping = false

theorem parkInv_boot (cfg : Config) : (boot cfg).ParkInv where
  reset := by simp [boot]
  idle := by simp +contextual [boot]

theorem ParkInv.link (hI : c.ParkInv) (link : SameLink c c')
    (ht : c.thread.stopping = false → c'.thread.stopping = false) : c'.ParkInv where
  reset := by
    rw [link.event, link.connected]
    exact hI.reset
  idle := by
    rw [link.event, link.connected, link.runApp]
    exact fun he hc hr => ht (hI.idle he hc hr)

theorem stopping_of_exchanging {pc : ThreadAt} (h : pc.exchanging = true) :
    pc.stopping = false := by
  cases pc <;> first | rfl | cases h

theorem ParkInv.client {o : Outcome} (hI : c.ParkInv) (ha : ¬ c.FailsConnected (.client o))
    (h : c.startClient cfg o = some c') : c'.ParkInv := by
  cases client_move h with
  | takes _ _ link _ after =>
    refine ⟨?_, fun _ _ _ => by rw [after]; rfl⟩
    rw [link.event, link.connected]
    exact hI.reset
  | setUp _ _ _ link _ after =>
    refine hI.link link fun _ => ?_
    rcases after with h | h <;> rw [h] <;> rfl
  | connects _ link _ after =>
    refine hI.link link fun _ => ?_
    rcases after with h | h
    · rw [h]; rfl
    · exact stopping_of_exchanging h
  | exchanges _ link _ _ after => exact hI.link link fun _ => stopping_of_exchanging after
  | leaves ret at_test done link _ _ after =>
    refine ⟨?_, ?_⟩
    · rw [link.event, link.connected]
      exact hI.reset
    · rw [link.event, link.connected, link.runApp]
      intro he hc hr
      have hfail : c.thread.failed = true := by
        rw [at_test]
        exact decide_eq_true (done hc)
      exact absurd ⟨hfail, hc, hr, he⟩ ha
  | cancelsRecv before link | cancelsTransmit before link | closes before link =>
    refine hI.link link fun hs => ?_
    rw [before] at hs
    cases hs

/-- While an event is handled, up to its last statement, there is nothing to keep. -/
theorem ParkInv.handling (hr : c.event ≠ .semReset) (hi : c.event ≠ .idle) : c.ParkInv where
  reset := fun h => absurd h hr
  idle := fun h => absurd h hi

theorem ParkInv.step {a : Act} (hI : c.ParkInv) (ha : ¬ c.FailsConnected a)
    (h : step cfg c a = some c') : c'.ParkInv := by
  cases a with
  | client o => exact hI.client ha h
  | l4 e =>
    obtain ⟨-, h⟩ := Option.ite_none_right_eq_some.mp h
    cases e with
    | connected mtu =>
      obtain rfl := Option.some.inj h
      exact .handling (by simp) (by simp)
    | disconnected =>
      obtain rfl := Option.some.inj h
      exact .handling (by simp) (by simp)
  | event =>
    simp only [UdpClient.step, eventHandler] at h
    cases he : c.event with
    | idle =>
      rw [he] at h
      cases h
    | setConnected mtu | setMtu mtu =>
      rw [he] at h
      obtain rfl := Option.some.inj h
      exact .handling (by simp) (by simp)
    | semGive =>
      rw [he] at h
      obtain rfl := Option.some.inj h
      exact ⟨by simp, by simp⟩
    | clearConnected =>
      rw [he] at h
      obtain rfl := Option.some.inj h
      exact ⟨fun _ => rfl, by simp⟩
    | semReset =>
      rw [he] at h
      obtain rfl := Option.some.inj h
      exact ⟨by simp, by simp [hI.reset he]⟩
  | expire _ | take =>
    obtain ⟨works, -, rfl⟩ := Option.map_eq_some_iff.mp h
    exact hI.link ⟨rfl, rfl, rfl⟩ id
  | work o =>
    have ht : c'.thread = c.thread := (other_socks (by rintro _ ⟨⟩) h).2
    have hlink := (sendUdpData_move cfg o c.handler c).1
    obtain ⟨-, ⟨sends, rfl⟩ | ⟨sends, rfl⟩⟩ := handler_move h <;>
    · rw [sends] at hlink
      exact hI.link ⟨hlink.connected, hlink.runApp, hlink.event⟩ (ht ▸ id)

/-- **A client that waits for the connection has none**, in a run in which no cycle ends
on an error while the network is up and its connection is not to be reported again. -/
theorem not_connected_of_parked (cfg : Config) {as : List Act} {c : UdpClient}
    (hr : (machine cfg).run as = some c)
    (hok : (machine cfg).Along (fun c a => ¬ c.FailsConnected a) (boot cfg) as)
    (hp : c.Parked) : c.connected = false := by
  have hI : c.ParkInv := Machine.invariant (fun _ _ _ hI ha => hI.step ha) (parkInv_boot cfg) hok hr
  cases hc : c.connected with
  | false => rfl
  | true =>
    have hstop := hI.idle hp.event hc hp.runApp
    rw [hp.thread] at hstop
    cases hstop

/-- The network goes down while the client waits for a reply, and the cycle ends. -/
def disconnectRun : List Act :=
  startRun ++ [.l4 .disconnected, .event, .event] ++ calls [-1, 0, 0, 0, 0]

theorem not_connected_of_parked_disconnectRun :
    ∃ c, (machine .short).run disconnectRun = some c ∧ c.Parked ∧ c.connected = false := by
  obtain ⟨c, hr, hc⟩ := (Option.any_eq_true (fun c : UdpClient => decide c.Parked)
    ((machine .short).run disconnectRun)).mp (by decide +kernel)
  have hp := of_decide_eq_true hc
  exact ⟨c, hr, hp, not_connected_of_parked .short hr (by decide) hp⟩

/-- `recv` fails once. -/
def recvErrorRun : List Act := startRun ++ calls [-1, 0, 0, 0, 0]

theorem parked_connected :
    ¬ ∀ (as : List Act) (c : UdpClient), (machine .short).run as = some c → c.Parked →
      c.connected = false := by
  intro h
  obtain ⟨c, hr, hc⟩ := (Option.any_eq_true (fun c : UdpClient =>
    decide (c.Parked ∧ c.connected = true)) ((machine .short).run recvErrorRun)).mp
      (by decide +kernel)
  obtain ⟨hp, hconn⟩ := of_decide_eq_true hc
  rw [h recvErrorRun c hr hp] at hconn
  cases hconn

end UdpClient

end RedNodeBus.EchoClient

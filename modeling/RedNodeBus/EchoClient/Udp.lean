import RedNodeBus.Lib.Delayable
import RedNodeBus.Lib.Machine

/-!
# The UDP echo client

`echo-client.c` and `udp.c`.  The client thread waits for the connection, opens a
socket, sends a first request, and then waits in `poll`, compares what it receives and
sends the next request, until a call fails or the connection is gone; then it stops
and waits again.

* Two delayable work items are bound to the client: `recv` sends again when no reply
  came in time, `transmit` sends after a pause.  Their handlers run `send_udp_data`
  like the thread itself does.
* With the connection manager built in, `event_handler` is called for the two L4
  events; without it the thread declares itself connected once.

All of them interleave statement by statement.  What the calls return and the random
numbers are the `Outcome` of a statement; the text that is sent, what the build chooses,
and what the kernel makes of a work item that is set up while it is live are a parameter
(`Config`).
-/

namespace RedNodeBus.EchoClient

def eio : Int := 5

/-- `EAGAIN`, which is also `EWOULDBLOCK`. -/
def eagain : Nat := 11

def pollin : Nat := 1

def invalidSock : Int := -1

def mtuSize : UInt32 := 1280

def recvBufSize : Nat := 1280

/-- What a statement gets from outside: what its call returns, `errno` if that is an
error, a random number, and the bytes a successful `recv` writes. -/
structure Outcome where
  ret : Int
  errno : Nat
  rand : UInt32
  buf : List UInt8
  errno_pos : 0 < errno

/-- A call that returns `ret`. -/
def Outcome.returns (ret : Int) : Outcome := ⟨ret, 1, 1, [], by decide⟩

inductive UdpWork
  | recv
  | transmit
  deriving DecidableEq, Repr

/-- What the build chooses, the text, and the kernel. -/
structure Config where
  /-- `CONFIG_NET_CONNECTION_MANAGER` -/
  netConnectionManager : Bool
  /-- `CONFIG_NET_TCP` -/
  netTcp : Bool
  loremIpsum : List UInt8
  /-- `k_work_init_delayable` on an item that is not idle. -/
  reinit : Delayables.Reinit UdpWork

/-- `ipsum_len`, as the unsigned number it is converted to. -/
def Config.ipsumLen (cfg : Config) : UInt32 := UInt32.ofNat cfg.loremIpsum.length

/-! ## The state -/

/-- `struct pollfd` -/
structure PollFd where
  fd : Int
  events : Nat
  deriving DecidableEq, Repr

/-- Where `send_udp_data` stands. -/
inductive SendAt
  | rand
  | test
  | send
  | reschedule (ret : Int)
  deriving DecidableEq, Repr

/-- Where the client thread stands, from `k_sem_take` in `start_client` on.  `start`
and `run` come back to the test of the inner loop with what they return. -/
inductive ThreadAt
  | semTake
  | initRecv
  | initTransmit
  | socket
  | connect
  | startSend (pc : SendAt)
  | prepareFds
  | test (ret : Int)
  | poll
  | recv
  | compare (buf : List UInt8)
  | count
  | cancelReply
  | pace
  | processSend (pc : SendAt)
  | cancelRecv
  | cancelTransmit
  | close
  deriving DecidableEq, Repr

/-- Where `event_handler` stands. -/
inductive EventAt
  | idle
  | setConnected (mtu : UInt32)
  | setMtu (mtu : UInt32)
  | semGive
  | clearConnected
  | semReset
  deriving DecidableEq, Repr

/-- The L4 events, a connection with the interface's MTU. -/
inductive L4Event
  | connected (mtu : UInt32)
  | disconnected
  deriving DecidableEq, Repr

structure UdpClient where
  /-- `conf.ipv6.udp.sock` -/
  sock : Int
  /-- `conf.ipv6.tcp.sock` -/
  tcpSock : Int
  expecting : UInt32
  counter : UInt32
  mtu : UInt32
  /-- The memory from `fds[0]` on; the array has four entries. -/
  fds : Nat → PollFd
  nfds : Nat
  connected : Bool
  /-- `run_app`, of limit one. -/
  runApp : Bool
  /-- The descriptors the client has open. -/
  openSocks : List Int
  works : Delayables UdpWork
  /-- Where the handler that runs stands. -/
  handler : SendAt
  thread : ThreadAt
  event : EventAt

namespace UdpClient

/-- The thread has done `init_app` and what precedes `start_client`. -/
def boot (cfg : Config) : UdpClient where
  sock := invalidSock
  tcpSock := invalidSock
  expecting := 0
  counter := 0
  mtu := if cfg.netConnectionManager then 0 else mtuSize
  fds := fun _ => ⟨0, 0⟩
  nfds := 0
  connected := !cfg.netConnectionManager
  runApp := !cfg.netConnectionManager
  openSocks := []
  works := .idle
  handler := .rand
  thread := .semTake
  event := .idle

/-! ## The functions -/

/-- The next statement of `send_udp_data`: where it goes on, or what it returns. -/
def sendUdpData (cfg : Config) (o : Outcome) (pc : SendAt) (c : UdpClient) :
    (SendAt ⊕ Int) × UdpClient :=
  match pc with
  | .rand => (.inl .test, { c with expecting := o.rand % cfg.ipsumLen })
  | .test => (.inl (if c.expecting = 0 ∨ c.mtu < c.expecting then .rand else .send), c)
  | .send => (.inl (.reschedule o.ret), c)
  | .reschedule ret =>
    (.inr (if ret < 0 then -eio else 0), { c with works := c.works.reschedule .recv })

def compareUdpData (cfg : Config) (buf : List UInt8) (c : UdpClient) : Int :=
  if buf.length ≠ c.expecting.toNat then -eio
  else if buf ≠ cfg.loremIpsum.take buf.length then -eio
  else 0

/-- Append a descriptor at `fds[nfds]`. -/
def addFd (fd : Int) (c : UdpClient) : UdpClient :=
  { c with fds := Function.update c.fds c.nfds ⟨fd, pollin⟩, nfds := c.nfds + 1 }

def prepareFds (c : UdpClient) : UdpClient :=
  let c := if c.sock ≥ 0 then c.addFd c.sock else c
  if c.tcpSock ≥ 0 then c.addFd c.tcpSock else c

/-- The indices `prepare_fds` writes at. -/
def prepareFdsWrites (c : UdpClient) : List Nat :=
  List.range' c.nfds (c.prepareFds.nfds - c.nfds)

def goto (pc : ThreadAt) (c : UdpClient) : UdpClient := { c with thread := pc }

/-- `start_udp` goes on if `start_udp_proto` returned no error, and so does `start`. -/
def afterStartUdpProto (ret : Int) (c : UdpClient) : UdpClient :=
  if ret < 0 then c.goto (.test ret) else c.goto (.startSend .rand)

def afterStartUdp (ret : Int) (c : UdpClient) : UdpClient :=
  if ret < 0 then c.goto (.test ret) else c.goto .prepareFds

/-- `run` returns a negative result of `process_udp`, and else `0`. -/
def afterProcessUdp (ret : Int) (c : UdpClient) : UdpClient :=
  c.goto (.test (if ret < 0 then ret else 0))

def startClient (cfg : Config) (o : Outcome) (c : UdpClient) : Option UdpClient :=
  match c.thread with
  | .semTake => if c.runApp then some ({ c with runApp := false }.goto .initRecv) else none
  | .initRecv =>
    (c.works.init cfg.reinit .recv).map fun works => { c with works := works }.goto .initTransmit
  | .initTransmit =>
    (c.works.init cfg.reinit .transmit).map fun works => { c with works := works }.goto .socket
  | .socket =>
    if o.ret < 0 then some ({ c with sock := o.ret }.afterStartUdpProto (-o.errno))
    else some ({ c with sock := o.ret, openSocks := o.ret :: c.openSocks }.goto .connect)
  | .connect => some (c.afterStartUdpProto (if o.ret < 0 then -o.errno else o.ret))
  | .startSend pc =>
    match c.sendUdpData cfg o pc with
    | (.inl pc', c') => some (c'.goto (.startSend pc'))
    | (.inr ret, c') => some (c'.afterStartUdp ret)
  | .prepareFds => some (c.prepareFds.goto (.test 0))
  | .test ret => some (if c.connected ∧ ret = 0 then c.goto .poll else c.goto .cancelRecv)
  | .poll => some (c.goto .recv)
  | .recv =>
    if o.ret < 0 then some (c.afterProcessUdp (if o.errno = eagain then 0 else -o.errno))
    else if o.buf.length = 0 then some (c.afterProcessUdp (-eio))
    else some (c.goto (.compare (o.buf.take recvBufSize)))
  | .compare buf =>
    if c.compareUdpData cfg buf ≠ 0 then some (c.afterProcessUdp 0) else some (c.goto .count)
  | .count => some ({ c with counter := c.counter + 1 }.goto .cancelReply)
  | .cancelReply =>
    some ({ c with works := c.works.cancel .recv }.goto
      (if cfg.netTcp then .pace else .processSend .rand))
  | .pace => some ({ c with works := c.works.reschedule .transmit }.afterProcessUdp 0)
  | .processSend pc =>
    match c.sendUdpData cfg o pc with
    | (.inl pc', c') => some (c'.goto (.processSend pc'))
    | (.inr ret, c') => some (c'.afterProcessUdp ret)
  | .cancelRecv => some ({ c with works := c.works.cancel .recv }.goto .cancelTransmit)
  | .cancelTransmit => some ({ c with works := c.works.cancel .transmit }.goto .close)
  | .close =>
    -- `sock` keeps its value
    some ({ c with openSocks := if c.sock ≥ 0 then c.openSocks.erase c.sock else c.openSocks }.goto
      .semTake)

/-- The next statement of `wait_reply` or `wait_transmit`; both send. -/
def waitHandler (cfg : Config) (o : Outcome) (c : UdpClient) : Option UdpClient :=
  match c.works.running with
  | some _ =>
    match c.sendUdpData cfg o c.handler with
    | (.inl pc, c') => some { c' with handler := pc }
    | (.inr _, c') => some { c' with works := c'.works.finish, handler := .rand }
  | none => none

/-- The next statement of `event_handler`. -/
def eventHandler (c : UdpClient) : Option UdpClient :=
  match c.event with
  | .idle => none
  | .setConnected mtu => some { c with connected := true, event := .setMtu mtu }
  | .setMtu mtu => some { c with mtu := mtu, event := .semGive }
  | .semGive => some { c with runApp := true, event := .idle }
  | .clearConnected => some { c with connected := false, event := .semReset }
  | .semReset => some { c with runApp := false, event := .idle }

/-! ## The machine -/

/-- One step: a statement of the client thread, an L4 event, a statement of its
handler, a timeout, the work queue beginning the next item, or a statement of the
handler it runs. -/
inductive Act
  | client (o : Outcome)
  | l4 (e : L4Event)
  | event
  | expire (w : UdpWork)
  | take
  | work (o : Outcome)

def step (cfg : Config) (c : UdpClient) : Act → Option UdpClient
  | .client o => c.startClient cfg o
  | .l4 e =>
    if cfg.netConnectionManager ∧ c.event = .idle then
      match e with
      | .connected mtu => some { c with event := .setConnected mtu }
      | .disconnected => some { c with event := .clearConnected }
    else none
  | .event => c.eventHandler
  | .expire w => (c.works.expire w).map fun works => { c with works := works }
  | .take => c.works.take.map fun works => { c with works := works, handler := .rand }
  | .work o => c.waitHandler cfg o

/-- The client from `start_client` on. -/
def machine (cfg : Config) : Machine UdpClient Act where
  init := boot cfg
  step := step cfg

/-! ## What a step does -/

variable {cfg : Config} {c c' : UdpClient}

/-- **The statements of the client thread**, one by one: where the thread stands, what
decides, and the client after it. -/
inductive ClientStep (cfg : Config) (o : Outcome) (c : UdpClient) : UdpClient → Prop
  | semTake (ht : c.thread = .semTake) (runApp : c.runApp = true) :
      ClientStep cfg o c ({ c with runApp := false }.goto .initRecv)
  | initRecv {works : Delayables UdpWork} (ht : c.thread = .initRecv)
      (sets : c.works.init cfg.reinit .recv = some works) :
      ClientStep cfg o c ({ c with works := works }.goto .initTransmit)
  | initTransmit {works : Delayables UdpWork} (ht : c.thread = .initTransmit)
      (sets : c.works.init cfg.reinit .transmit = some works) :
      ClientStep cfg o c ({ c with works := works }.goto .socket)
  | noSocket {ret : Int} (ht : c.thread = .socket) (failed : o.ret < 0) (hret : ret < 0) :
      ClientStep cfg o c ({ c with sock := o.ret }.goto (.test ret))
  | socket (ht : c.thread = .socket) (opened : 0 ≤ o.ret) :
      ClientStep cfg o c
        ({ c with sock := o.ret, openSocks := o.ret :: c.openSocks }.goto .connect)
  | notConnected {ret : Int} (ht : c.thread = .connect) (hret : ret < 0) :
      ClientStep cfg o c (c.goto (.test ret))
  | connect (ht : c.thread = .connect) : ClientStep cfg o c (c.goto (.startSend .rand))
  | startSend {pc pc' : SendAt} {c₁ : UdpClient} (ht : c.thread = .startSend pc)
      (sends : c.sendUdpData cfg o pc = (.inl pc', c₁)) :
      ClientStep cfg o c (c₁.goto (.startSend pc'))
  | notStarted {pc : SendAt} {ret : Int} {c₁ : UdpClient} (ht : c.thread = .startSend pc)
      (sends : c.sendUdpData cfg o pc = (.inr ret, c₁)) (hret : ret < 0) :
      ClientStep cfg o c (c₁.goto (.test ret))
  | started {pc : SendAt} {ret : Int} {c₁ : UdpClient} (ht : c.thread = .startSend pc)
      (sends : c.sendUdpData cfg o pc = (.inr ret, c₁)) (hret : 0 ≤ ret) :
      ClientStep cfg o c (c₁.goto .prepareFds)
  | prepareFds (ht : c.thread = .prepareFds) : ClientStep cfg o c (c.prepareFds.goto (.test 0))
  | goesOn (ht : c.thread = .test 0) (connected : c.connected = true) :
      ClientStep cfg o c (c.goto .poll)
  | leaves {ret : Int} (ht : c.thread = .test ret) (done : c.connected = true → ret ≠ 0) :
      ClientStep cfg o c (c.goto .cancelRecv)
  | poll (ht : c.thread = .poll) : ClientStep cfg o c (c.goto .recv)
  | nothing {ret : Int} (ht : c.thread = .recv) (empty : o.ret < 0 ∨ o.buf.length = 0) :
      ClientStep cfg o c (c.afterProcessUdp ret)
  | recv (ht : c.thread = .recv) (hret : 0 ≤ o.ret) :
      ClientStep cfg o c (c.goto (.compare (o.buf.take recvBufSize)))
  | mismatch {buf : List UInt8} (ht : c.thread = .compare buf)
      (differs : c.compareUdpData cfg buf ≠ 0) : ClientStep cfg o c (c.afterProcessUdp 0)
  | accepts {buf : List UInt8} (ht : c.thread = .compare buf)
      (same : c.compareUdpData cfg buf = 0) : ClientStep cfg o c (c.goto .count)
  | count (ht : c.thread = .count) :
      ClientStep cfg o c ({ c with counter := c.counter + 1 }.goto .cancelReply)
  | cancelReply {pc : ThreadAt} (ht : c.thread = .cancelReply)
      (next : pc = .pace ∨ pc = .processSend .rand) :
      ClientStep cfg o c ({ c with works := c.works.cancel .recv }.goto pc)
  | pace (ht : c.thread = .pace) :
      ClientStep cfg o c ({ c with works := c.works.reschedule .transmit }.afterProcessUdp 0)
  | processSend {pc pc' : SendAt} {c₁ : UdpClient} (ht : c.thread = .processSend pc)
      (sends : c.sendUdpData cfg o pc = (.inl pc', c₁)) :
      ClientStep cfg o c (c₁.goto (.processSend pc'))
  | processed {pc : SendAt} {ret : Int} {c₁ : UdpClient} (ht : c.thread = .processSend pc)
      (sends : c.sendUdpData cfg o pc = (.inr ret, c₁)) :
      ClientStep cfg o c (c₁.afterProcessUdp ret)
  | cancelRecv (ht : c.thread = .cancelRecv) :
      ClientStep cfg o c ({ c with works := c.works.cancel .recv }.goto .cancelTransmit)
  | cancelTransmit (ht : c.thread = .cancelTransmit) :
      ClientStep cfg o c ({ c with works := c.works.cancel .transmit }.goto .close)
  | close (ht : c.thread = .close) :
      ClientStep cfg o c
        ({ c with
            openSocks := if c.sock ≥ 0 then c.openSocks.erase c.sock else c.openSocks }.goto
          .semTake)

theorem step_of_socket {o : Outcome} (ht : c.thread = .socket)
    (h : c.startClient cfg o = some c') : ClientStep cfg o c c' := by
  simp only [startClient, ht] at h
  split at h <;> obtain rfl := Option.some.inj h
  · rename_i hfailed
    have herr : -(o.errno : Int) < 0 := by
      have hpos := o.errno_pos
      omega
    rw [afterStartUdpProto, if_pos herr]
    exact .noSocket ht hfailed herr
  · rename_i hopened
    exact .socket ht (Int.not_lt.mp hopened)

theorem step_of_connect {o : Outcome} (ht : c.thread = .connect)
    (h : c.startClient cfg o = some c') : ClientStep cfg o c c' := by
  simp only [startClient, ht] at h
  obtain rfl := Option.some.inj h
  generalize (if o.ret < 0 then -(o.errno : Int) else o.ret) = ret
  rw [afterStartUdpProto]
  split
  · rename_i hret
    exact .notConnected ht hret
  · exact .connect ht

theorem step_of_startSend {o : Outcome} {pc : SendAt} (ht : c.thread = .startSend pc)
    (h : c.startClient cfg o = some c') : ClientStep cfg o c c' := by
  simp only [startClient, ht] at h
  split at h <;> obtain rfl := Option.some.inj h
  · rename_i hs
    exact .startSend ht hs
  · rename_i hs
    rw [afterStartUdp]
    split
    · rename_i hret
      exact .notStarted ht hs hret
    · rename_i hret
      exact .started ht hs (Int.not_lt.mp hret)

theorem step_of_test {o : Outcome} {ret : Int} (ht : c.thread = .test ret)
    (h : c.startClient cfg o = some c') : ClientStep cfg o c c' := by
  simp only [startClient, ht] at h
  obtain rfl := Option.some.inj h
  split
  · rename_i hrun
    obtain ⟨hc, rfl⟩ := hrun
    exact .goesOn ht hc
  · rename_i hrun
    exact .leaves ht fun hc hret => hrun ⟨hc, hret⟩

theorem step_of_recv {o : Outcome} (ht : c.thread = .recv)
    (h : c.startClient cfg o = some c') : ClientStep cfg o c c' := by
  simp only [startClient, ht] at h
  split at h
  · rename_i hret
    exact Option.some.inj h ▸ .nothing ht (Or.inl hret)
  · rename_i hret
    split at h
    · rename_i hbuf
      exact Option.some.inj h ▸ .nothing ht (Or.inr hbuf)
    · exact Option.some.inj h ▸ .recv ht (Int.not_lt.mp hret)

theorem step_of_compare {o : Outcome} {buf : List UInt8} (ht : c.thread = .compare buf)
    (h : c.startClient cfg o = some c') : ClientStep cfg o c c' := by
  simp only [startClient, ht] at h
  split at h
  · rename_i hdiffers
    exact Option.some.inj h ▸ .mismatch ht hdiffers
  · rename_i hsame
    exact Option.some.inj h ▸ .accepts ht (Classical.not_not.mp hsame)

theorem step_of_processSend {o : Outcome} {pc : SendAt} (ht : c.thread = .processSend pc)
    (h : c.startClient cfg o = some c') : ClientStep cfg o c c' := by
  simp only [startClient, ht] at h
  split at h
  · rename_i hs
    exact Option.some.inj h ▸ .processSend ht hs
  · rename_i hs
    exact Option.some.inj h ▸ .processed ht hs

theorem client_step {o : Outcome} (h : c.startClient cfg o = some c') :
    ClientStep cfg o c c' := by
  cases ht : c.thread with
  | semTake =>
    simp only [startClient, ht] at h
    obtain ⟨hrun, h⟩ := Option.ite_none_right_eq_some.mp h
    exact Option.some.inj h ▸ .semTake ht hrun
  | initRecv =>
    simp only [startClient, ht] at h
    obtain ⟨works, hsets, rfl⟩ := Option.map_eq_some_iff.mp h
    exact .initRecv ht hsets
  | initTransmit =>
    simp only [startClient, ht] at h
    obtain ⟨works, hsets, rfl⟩ := Option.map_eq_some_iff.mp h
    exact .initTransmit ht hsets
  | socket => exact step_of_socket ht h
  | connect => exact step_of_connect ht h
  | startSend pc => exact step_of_startSend ht h
  | prepareFds =>
    simp only [startClient, ht] at h
    exact Option.some.inj h ▸ .prepareFds ht
  | test ret => exact step_of_test ht h
  | poll =>
    simp only [startClient, ht] at h
    exact Option.some.inj h ▸ .poll ht
  | recv => exact step_of_recv ht h
  | compare buf => exact step_of_compare ht h
  | count =>
    simp only [startClient, ht] at h
    exact Option.some.inj h ▸ .count ht
  | cancelReply =>
    simp only [startClient, ht] at h
    refine Option.some.inj h ▸ .cancelReply ht ?_
    exact ite_eq_or_eq _ _ _
  | pace =>
    simp only [startClient, ht] at h
    exact Option.some.inj h ▸ .pace ht
  | processSend pc => exact step_of_processSend ht h
  | cancelRecv =>
    simp only [startClient, ht] at h
    exact Option.some.inj h ▸ .cancelRecv ht
  | cancelTransmit =>
    simp only [startClient, ht] at h
    exact Option.some.inj h ▸ .cancelTransmit ht
  | close =>
    simp only [startClient, ht] at h
    exact Option.some.inj h ▸ .close ht

theorem event_move {a : Act} (ha : (∃ e, a = .l4 e) ∨ a = .event)
    (h : step cfg c a = some c') :
    ∃ connected mtu runApp event, c' =
      { c with connected := connected, mtu := mtu, runApp := runApp, event := event } := by
  rcases ha with ⟨e, rfl⟩ | rfl
  · obtain ⟨-, h⟩ := Option.ite_none_right_eq_some.mp h
    cases e <;> exact ⟨_, _, _, _, (Option.some.inj h).symm⟩
  · simp only [step, eventHandler] at h
    split at h
    · cases h
    all_goals exact ⟨_, _, _, _, (Option.some.inj h).symm⟩

/-- **What a statement of a handler does**: its send goes on, or returns and the handler
ends. -/
inductive HandlerMove (cfg : Config) (o : Outcome) (c c' : UdpClient) : Prop
  | goesOn {pc : SendAt} {c₁ : UdpClient} (sends : c.sendUdpData cfg o c.handler = (.inl pc, c₁))
      (after : c' = { c₁ with handler := pc })
  | ends {ret : Int} {c₁ : UdpClient} (sends : c.sendUdpData cfg o c.handler = (.inr ret, c₁))
      (after : c' = { c₁ with works := c₁.works.finish, handler := .rand })

theorem handler_move {o : Outcome} (h : c.waitHandler cfg o = some c') :
    (∃ w, c.works.running = some w) ∧ HandlerMove cfg o c c' := by
  rw [waitHandler] at h
  split at h
  · rename_i w hw
    refine ⟨⟨w, hw⟩, ?_⟩
    split at h
    · rename_i hs
      exact .goesOn hs (Option.some.inj h).symm
    · rename_i hs
      exact .ends hs (Option.some.inj h).symm
  · cases h

/-! ## Short runs -/

def networkUp : List Act := [.l4 (.connected 1280), .event, .event, .event]

/-- Statements of the thread, with what their calls return. -/
def calls (rets : List Int) : List Act := rets.map fun ret => .client (.returns ret)

end UdpClient

/-- A text of two bytes, with the connection manager and without TCP, and a kernel that
takes no notice when a live item is set up anew. -/
def Config.short : Config := ⟨true, false, [76, 111], fun _ => some⟩

end RedNodeBus.EchoClient

import RedNodeBus.EchoClient.Udp

/-!
# The RNB payload echo client

`rnb-user-payload.c` with the loop of `start_client_rnb` around it.  The thread sets
its two delayable items up, sends a first payload, waits in `wait_rnb_data` for a
payload to be delivered, compares it and sends the next one; when a send fails or an
empty payload is examined it starts again from the top.

Payloads come from the utils thread, which copies one into `recv_buf`, stores its
length and gives the semaphore.  As in the UDP client the handlers of the two items run
`send_rnb_data`, and everything interleaves statement by statement.

What the driver's header says of the payload's size is not in the repository and is
part of the parameter (`RnbConfig`), as is what the kernel makes of a work item that is set
up while it is live.
-/

namespace RedNodeBus.EchoClient

inductive RnbWork
  | recv
  | transmit
  deriving DecidableEq, Repr

structure RnbConfig where
  /-- `REDNODEBUS_USER_PAYLOAD_MAX_LENGTH` -/
  mtu : UInt32
  loremIpsum : List UInt8
  /-- `k_work_init_delayable` on an item that is not idle. -/
  reinit : Delayables.Reinit RnbWork

/-- Where `send_rnb_data` stands. -/
inductive RnbSendAt
  | rand
  | test
  | copy
  | length
  | send (length : UInt16)
  | reschedule (ret : Int)
  deriving DecidableEq, Repr

/-- Where the client thread stands, from `start_client_rnb` on. -/
inductive RnbThreadAt
  | initRecv
  | initTransmit
  | resetReceived
  | startSend (pc : RnbSendAt)
  | test (ret : Int)
  | semTake
  | receivedZero
  | receivedNegative
  | compareLength
  | compareBytes (received : Nat)
  | count
  | cancelReply
  | processSend (pc : RnbSendAt)
  deriving DecidableEq, Repr

structure RnbClient where
  expecting : UInt32
  counter : UInt32
  /-- `rnb_user_payload_params.user_payload` -/
  userPayload : List UInt8
  recvBuf : List UInt8
  received : Int
  /-- `wait_rnb_data`, of limit one. -/
  waitRnbData : Bool
  works : Delayables RnbWork
  /-- Where the handler that runs stands. -/
  handler : RnbSendAt
  thread : RnbThreadAt

namespace RnbClient

def boot : RnbClient where
  expecting := 0
  counter := 0
  userPayload := []
  recvBuf := []
  received := 0
  waitRnbData := false
  works := .idle
  handler := .rand
  thread := .initRecv

/-! ## The functions -/

/-- `memcpy` of all of `src`. -/
def overwrite (dst src : List UInt8) : List UInt8 := src ++ dst.drop src.length

/-- The next statement of `send_rnb_data`: where it goes on, or what it returns. -/
def sendRnbData (cfg : RnbConfig) (o : Outcome) (pc : RnbSendAt) (c : RnbClient) :
    (RnbSendAt ⊕ Int) × RnbClient :=
  match pc with
  | .rand => (.inl .test, { c with expecting := o.rand % (cfg.mtu + 1) })
  | .test => (.inl (if c.expecting = 0 then .rand else .copy), c)
  | .copy =>
    (.inl .length,
      { c with userPayload := overwrite c.userPayload (cfg.loremIpsum.take c.expecting.toNat) })
  | .length => (.inl (.send c.expecting.toUInt16), c)
  | .send _ => (.inl (.reschedule o.ret), c)
  | .reschedule ret =>
    (.inr (if ret < 0 then -eio else 0), { c with works := c.works.reschedule .recv })

def goto (pc : RnbThreadAt) (c : RnbClient) : RnbClient := { c with thread := pc }

/-- `run_rnb` returns a negative result of `process_rnb_user_payload`, and else `0`. -/
def afterProcess (ret : Int) (c : RnbClient) : RnbClient :=
  c.goto (.test (if ret < 0 then ret else 0))

def startClientRnb (cfg : RnbConfig) (o : Outcome) (c : RnbClient) : Option RnbClient :=
  match c.thread with
  | .initRecv =>
    (c.works.init cfg.reinit .recv).map fun works => { c with works := works }.goto .initTransmit
  | .initTransmit =>
    (c.works.init cfg.reinit .transmit).map fun works =>
      { c with works := works }.goto .resetReceived
  | .resetReceived => some ({ c with received := 0 }.goto (.startSend .rand))
  | .startSend pc =>
    match c.sendRnbData cfg o pc with
    | (.inl pc', c') => some (c'.goto (.startSend pc'))
    | (.inr ret, c') => some (c'.goto (.test (if ret < 0 then ret else 0)))
  | .test ret =>
    -- `stop_rnb` in between does nothing
    some (if ret = 0 then c.goto .semTake else c.goto .initRecv)
  | .semTake =>
    if c.waitRnbData then some ({ c with waitRnbData := false }.goto .receivedZero) else none
  | .receivedZero =>
    if c.received = 0 then some (c.afterProcess (-eio)) else some (c.goto .receivedNegative)
  | .receivedNegative =>
    if c.received < 0 then some (c.afterProcess (if o.errno = eagain then 0 else -o.errno))
    else some (c.goto .compareLength)
  | .compareLength =>
    if c.received.toNat ≠ c.expecting.toNat then some (c.afterProcess 0)
    else some (c.goto (.compareBytes c.received.toNat))
  | .compareBytes received =>
    if c.recvBuf.take received ≠ cfg.loremIpsum.take received then some (c.afterProcess 0)
    else some (c.goto .count)
  | .count => some ({ c with counter := c.counter + 1 }.goto .cancelReply)
  | .cancelReply => some ({ c with works := c.works.cancel .recv }.goto (.processSend .rand))
  | .processSend pc =>
    match c.sendRnbData cfg o pc with
    | (.inl pc', c') => some (c'.goto (.processSend pc'))
    | (.inr ret, c') => some (c'.afterProcess ret)

/-- The next statement of `wait_reply` or `wait_transmit`; both send. -/
def waitHandler (cfg : RnbConfig) (o : Outcome) (c : RnbClient) : Option RnbClient :=
  match c.works.running with
  | some _ =>
    match c.sendRnbData cfg o c.handler with
    | (.inl pc, c') => some { c' with handler := pc }
    | (.inr _, c') => some { c' with works := c'.works.finish, handler := .rand }
  | none => none

def rnbUtilsHandleUserPayload (userPayload : List UInt8) (c : RnbClient) : RnbClient :=
  { c with
    recvBuf := overwrite c.recvBuf userPayload
    received := userPayload.length
    waitRnbData := true }

/-! ## The machine -/

/-- One step: a statement of the client thread, the delivery of a payload, a timeout,
the work queue beginning the next item, or a statement of the handler it runs. -/
inductive Act
  | client (o : Outcome)
  | deliver (userPayload : List UInt8)
  | expire (w : RnbWork)
  | take
  | work (o : Outcome)

def step (cfg : RnbConfig) (c : RnbClient) : Act → Option RnbClient
  | .client o => c.startClientRnb cfg o
  | .deliver userPayload =>
    -- the length is a byte
    if userPayload.length < 256 then some (c.rnbUtilsHandleUserPayload userPayload) else none
  | .expire w => (c.works.expire w).map fun works => { c with works := works }
  | .take => c.works.take.map fun works => { c with works := works, handler := .rand }
  | .work o => c.waitHandler cfg o

/-- The client from before `start_client_rnb` on. -/
def machine (cfg : RnbConfig) : Machine RnbClient Act where
  init := boot
  step := step cfg

/-! ## What a step does -/

variable {cfg : RnbConfig} {c c' : RnbClient}

/-- **The statements of the client thread**, one by one: where the thread stands, what
decides, and the client after it. -/
inductive ClientStep (cfg : RnbConfig) (o : Outcome) (c : RnbClient) : RnbClient → Prop
  | initRecv {works : Delayables RnbWork} (ht : c.thread = .initRecv)
      (sets : c.works.init cfg.reinit .recv = some works) :
      ClientStep cfg o c ({ c with works := works }.goto .initTransmit)
  | initTransmit {works : Delayables RnbWork} (ht : c.thread = .initTransmit)
      (sets : c.works.init cfg.reinit .transmit = some works) :
      ClientStep cfg o c ({ c with works := works }.goto .resetReceived)
  | resetReceived (ht : c.thread = .resetReceived) :
      ClientStep cfg o c ({ c with received := 0 }.goto (.startSend .rand))
  | startSend {pc pc' : RnbSendAt} {c₁ : RnbClient} (ht : c.thread = .startSend pc)
      (sends : c.sendRnbData cfg o pc = (.inl pc', c₁)) :
      ClientStep cfg o c (c₁.goto (.startSend pc'))
  | started {pc : RnbSendAt} {ret : Int} {c₁ : RnbClient} (ht : c.thread = .startSend pc)
      (sends : c.sendRnbData cfg o pc = (.inr ret, c₁)) :
      ClientStep cfg o c (c₁.goto (.test (if ret < 0 then ret else 0)))
  | goesOn (ht : c.thread = .test 0) : ClientStep cfg o c (c.goto .semTake)
  | again {ret : Int} (ht : c.thread = .test ret) (hret : ret ≠ 0) :
      ClientStep cfg o c (c.goto .initRecv)
  | semTake (ht : c.thread = .semTake) (up : c.waitRnbData = true) :
      ClientStep cfg o c ({ c with waitRnbData := false }.goto .receivedZero)
  | empty (ht : c.thread = .receivedZero) (hzero : c.received = 0) :
      ClientStep cfg o c (c.afterProcess (-eio))
  | nonempty (ht : c.thread = .receivedZero) (hzero : c.received ≠ 0) :
      ClientStep cfg o c (c.goto .receivedNegative)
  | negative {ret : Int} (ht : c.thread = .receivedNegative) (hneg : c.received < 0) :
      ClientStep cfg o c (c.afterProcess ret)
  | nonneg (ht : c.thread = .receivedNegative) (hneg : 0 ≤ c.received) :
      ClientStep cfg o c (c.goto .compareLength)
  | otherLength (ht : c.thread = .compareLength)
      (differs : c.received.toNat ≠ c.expecting.toNat) : ClientStep cfg o c (c.afterProcess 0)
  | sameLength (ht : c.thread = .compareLength) (same : c.received.toNat = c.expecting.toNat) :
      ClientStep cfg o c (c.goto (.compareBytes c.received.toNat))
  | otherBytes {received : Nat} (ht : c.thread = .compareBytes received)
      (differs : c.recvBuf.take received ≠ cfg.loremIpsum.take received) :
      ClientStep cfg o c (c.afterProcess 0)
  | sameBytes {received : Nat} (ht : c.thread = .compareBytes received)
      (same : c.recvBuf.take received = cfg.loremIpsum.take received) :
      ClientStep cfg o c (c.goto .count)
  | count (ht : c.thread = .count) :
      ClientStep cfg o c ({ c with counter := c.counter + 1 }.goto .cancelReply)
  | cancelReply (ht : c.thread = .cancelReply) :
      ClientStep cfg o c ({ c with works := c.works.cancel .recv }.goto (.processSend .rand))
  | processSend {pc pc' : RnbSendAt} {c₁ : RnbClient} (ht : c.thread = .processSend pc)
      (sends : c.sendRnbData cfg o pc = (.inl pc', c₁)) :
      ClientStep cfg o c (c₁.goto (.processSend pc'))
  | processed {pc : RnbSendAt} {ret : Int} {c₁ : RnbClient} (ht : c.thread = .processSend pc)
      (sends : c.sendRnbData cfg o pc = (.inr ret, c₁)) :
      ClientStep cfg o c (c₁.afterProcess ret)

theorem client_step {o : Outcome} (h : c.startClientRnb cfg o = some c') :
    ClientStep cfg o c c' := by
  cases ht : c.thread with
  | initRecv =>
    simp only [startClientRnb, ht] at h
    obtain ⟨works, hsets, rfl⟩ := Option.map_eq_some_iff.mp h
    exact .initRecv ht hsets
  | initTransmit =>
    simp only [startClientRnb, ht] at h
    obtain ⟨works, hsets, rfl⟩ := Option.map_eq_some_iff.mp h
    exact .initTransmit ht hsets
  | resetReceived =>
    simp only [startClientRnb, ht] at h
    exact Option.some.inj h ▸ .resetReceived ht
  | startSend pc =>
    simp only [startClientRnb, ht] at h
    split at h
    · rename_i hs
      exact Option.some.inj h ▸ .startSend ht hs
    · rename_i hs
      exact Option.some.inj h ▸ .started ht hs
  | test ret =>
    simp only [startClientRnb, ht] at h
    obtain rfl := Option.some.inj h
    split
    · rename_i hret
      subst hret
      exact .goesOn ht
    · rename_i hret
      exact .again ht hret
  | semTake =>
    simp only [startClientRnb, ht] at h
    obtain ⟨hw, h⟩ := Option.ite_none_right_eq_some.mp h
    exact Option.some.inj h ▸ .semTake ht hw
  | receivedZero =>
    simp only [startClientRnb, ht] at h
    split at h
    · rename_i hzero
      exact Option.some.inj h ▸ .empty ht hzero
    · rename_i hzero
      exact Option.some.inj h ▸ .nonempty ht hzero
  | receivedNegative =>
    simp only [startClientRnb, ht] at h
    split at h
    · rename_i hneg
      exact Option.some.inj h ▸ .negative ht hneg
    · rename_i hneg
      exact Option.some.inj h ▸ .nonneg ht (Int.not_lt.mp hneg)
  | compareLength =>
    simp only [startClientRnb, ht] at h
    split at h
    · rename_i hdiffers
      exact Option.some.inj h ▸ .otherLength ht hdiffers
    · rename_i hsame
      exact Option.some.inj h ▸ .sameLength ht (Classical.not_not.mp hsame)
  | compareBytes received =>
    simp only [startClientRnb, ht] at h
    split at h
    · rename_i hdiffers
      exact Option.some.inj h ▸ .otherBytes ht hdiffers
    · rename_i hsame
      exact Option.some.inj h ▸ .sameBytes ht (Classical.not_not.mp hsame)
  | count =>
    simp only [startClientRnb, ht] at h
    exact Option.some.inj h ▸ .count ht
  | cancelReply =>
    simp only [startClientRnb, ht] at h
    exact Option.some.inj h ▸ .cancelReply ht
  | processSend pc =>
    simp only [startClientRnb, ht] at h
    split at h
    · rename_i hs
      exact Option.some.inj h ▸ .processSend ht hs
    · rename_i hs
      exact Option.some.inj h ▸ .processed ht hs

/-- **What a statement of a handler does**: its send goes on, or returns and the handler
ends. -/
inductive HandlerMove (cfg : RnbConfig) (o : Outcome) (c c' : RnbClient) : Prop
  | goesOn {pc : RnbSendAt} {c₁ : RnbClient}
      (sends : c.sendRnbData cfg o c.handler = (.inl pc, c₁))
      (after : c' = { c₁ with handler := pc })
  | ends {ret : Int} {c₁ : RnbClient} (sends : c.sendRnbData cfg o c.handler = (.inr ret, c₁))
      (after : c' = { c₁ with works := c₁.works.finish, handler := .rand })

theorem handler_move {o : Outcome} (h : c.waitHandler cfg o = some c') :
    (∃ w, c.works.running = some w) ∧ HandlerMove cfg o c c' := by
  rw [waitHandler] at h
  split at h
  · rename_i w hw
    refine ⟨⟨w, hw⟩, ?_⟩
    split at h
    · rename_i hs
      exact .goesOn hs (Option.some.inj h).symm
    · rename_i hs
      exact .ends hs (Option.some.inj h).symm
  · cases h

/-! ## Short runs -/

/-- Statements of the thread, with what their calls return. -/
def calls (rets : List Int) : List Act := rets.map fun ret => .client (.returns ret)

end RnbClient

/-- Payloads of up to one hundred bytes, a text of two, and a kernel that takes no notice
when a live item is set up anew. -/
def RnbConfig.short : RnbConfig := ⟨100, [76, 111], fun _ => some⟩

end RedNodeBus.EchoClient

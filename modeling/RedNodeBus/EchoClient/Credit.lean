import RedNodeBus.EchoClient.PollSet
import RedNodeBus.Lib.Echoes

/-!
# The UDP client on an echoing channel

`send_udp_data` draws a length and puts it in `expecting`, and `compare_udp_data` takes an
echo of that length for the reply.  So the length is the key by which the client tells the
echoes apart: `echoes` is the client as one of an echoing channel (`Echoes.Client`).

`EchoStep` is what a statement of the thread is to the exchange.  An echo is at hand from
`recv` to the comparison, and accepted from there until it is counted.
-/

namespace RedNodeBus.EchoClient

open Echoes (Event)

/-! ## The UDP client -/

/-- An echo is at hand: it is compared or counted. -/
def ThreadAt.atEcho : ThreadAt → Bool
  | .compare _ | .count => true
  | .semTake | .initRecv | .initTransmit | .socket | .connect | .startSend _ | .prepareFds
  | .test _ | .poll | .recv | .cancelReply | .pace | .processSend _ | .cancelRecv
  | .cancelTransmit | .close => false

namespace UdpClient

variable {cfg : Config} {c c' : UdpClient}

/-- What a statement of `send_udp_data` is to the exchange. -/
def sendEvent (cfg : Config) (o : Outcome) (pc : SendAt) (c : UdpClient) :
    Option (Event (List UInt8) ℕ) :=
  match pc with
  | .rand => some (.drawn (o.rand % cfg.ipsumLen).toNat)
  | .send => if 0 ≤ o.ret then some (.sent (cfg.loremIpsum.take c.expecting.toNat)) else none
  | .test | .reschedule _ => none

def echoEvent (cfg : Config) (c : UdpClient) : Act → Option (Event (List UInt8) ℕ)
  | .client o =>
    match c.thread with
    | .startSend pc | .processSend pc => c.sendEvent cfg o pc
    | .compare buf => some (.compared (c.compareUdpData cfg buf = 0))
    | .count => some .counted
    | _ => none
  | .work o => c.sendEvent cfg o c.handler
  | .l4 _ | .event | .expire _ | .take => none

/-- `recv` returns an echo. -/
def receives (c : UdpClient) : Act → Bool
  | .client o => c.thread = .recv ∧ 0 ≤ o.ret
  | _ => false

/-- `recv` returns this echo. -/
def delivery (p : List UInt8) : Act := .client { Outcome.returns p.length with buf := p }

/-- The length expected, and the count. -/
def account (c : UdpClient) : ℕ × UInt32 := (c.expecting.toNat, c.counter)

def held (c : UdpClient) : Option ℕ :=
  match c.thread with
  | .compare buf => some buf.length
  | _ => none

theorem held_congr (h : c'.thread = c.thread) : c'.held = c.held := by
  rw [held, held, h]

theorem sendUdpData_account (cfg : Config) (o : Outcome) (pc : SendAt) (c : UdpClient) :
    (c.sendUdpData cfg o pc).2.account =
      Event.account c.account (c.sendEvent cfg o pc) := by
  cases pc with
  | rand | test | reschedule ret => rfl
  | send =>
    rw [sendEvent]
    split <;> rfl

theorem compareUdpData_length {buf : List UInt8} (h : c.compareUdpData cfg buf = 0) :
    buf.length = c.expecting.toNat := by
  by_contra hne
  rw [compareUdpData, if_pos hne] at h
  cases h

/-- **What a statement of the client thread is to the exchange.** -/
structure EchoStep (cfg : Config) (o : Outcome) (c c' : UdpClient) : Prop where
  account : c'.account =
    Event.account c.account (c.echoEvent cfg (.client o))
  held : c'.held = none ∨
    c.receives (.client o) = true ∧ c'.held = some (o.buf.take recvBufSize).length
  count : c'.thread = .count → c.echoEvent cfg (.client o) = some (.compared true)

theorem EchoStep.goto {o : Outcome} {pc : ThreadAt} (hpc : pc.atEcho = false)
    (he : c'.account = Event.account c.account (c.echoEvent cfg (.client o))) :
    EchoStep cfg o c (c'.goto pc) where
  account := he
  held := by
    refine Or.inl ?_
    show (c'.goto pc).held = none
    cases pc with
    | compare buf => cases hpc
    | _ => rfl
  count := by
    intro h
    obtain rfl : pc = .count := h
    cases hpc

theorem echo_step {o : Outcome} (h : c.startClient cfg o = some c') : EchoStep cfg o c c' := by
  have hnone (hev : c.echoEvent cfg (.client o) = none) : c.account =
      Event.account c.account (c.echoEvent cfg (.client o)) := by
    rw [hev]
    rfl
  cases client_step h with
  | semTake ht | initRecv ht | initTransmit ht | noSocket ht | socket ht | notConnected ht
  | connect ht | goesOn ht | leaves ht | poll ht | nothing ht | pace ht | cancelRecv ht
  | cancelTransmit ht | close ht => exact .goto rfl (hnone (by rw [echoEvent, ht]))
  | @startSend pc _ _ ht sends | @notStarted pc _ _ ht sends | @started pc _ _ ht sends
  | @processSend pc _ _ ht sends | @processed pc _ _ ht sends =>
    have haccount := sendUdpData_account cfg o pc c
    have hev : c.echoEvent cfg (.client o) = c.sendEvent cfg o pc := by rw [echoEvent, ht]
    rw [sends, ← hev] at haccount
    exact .goto rfl haccount
  | prepareFds ht =>
    have haccount : c.prepareFds.account = c.account := by
      simp only [UdpClient.prepareFds]
      split <;> split <;> rfl
    refine .goto rfl ?_
    rw [haccount]
    exact hnone (by rw [echoEvent, ht])
  | recv ht hret =>
    refine ⟨hnone (by rw [echoEvent, ht]), Or.inr ⟨decide_eq_true ⟨ht, hret⟩, rfl⟩, ?_⟩
    intro hcount
    cases hcount
  | mismatch ht | count ht =>
    refine .goto rfl ?_
    rw [echoEvent, ht]
    rfl
  | @accepts buf ht same =>
    have hev : c.echoEvent cfg (.client o) = some (.compared true) := by
      simp only [echoEvent, ht, same, decide_true]
    exact ⟨by rw [hev]; rfl, Or.inl rfl, fun _ => hev⟩
  | cancelReply ht next =>
    rcases next with rfl | rfl <;> exact .goto rfl (hnone (by rw [echoEvent, ht]))

/-- A statement of another party sends as the handler does, and leaves the thread. -/
theorem other_echo {a : Act} (ha : ∀ o, a ≠ .client o) (h : step cfg c a = some c') :
    c'.account = Event.account c.account (c.echoEvent cfg a) ∧
      c'.thread = c.thread := by
  refine ⟨?_, (other_socks ha h).2⟩
  cases a with
  | client o => exact absurd rfl (ha o)
  | l4 _ | event =>
    obtain ⟨_, _, _, _, rfl⟩ := event_move (by simp) h
    rfl
  | expire _ | take =>
    obtain ⟨works, -, rfl⟩ := Option.map_eq_some_iff.mp h
    rfl
  | work o =>
    have haccount := sendUdpData_account cfg o c.handler c
    obtain ⟨-, ⟨sends, rfl⟩ | ⟨sends, rfl⟩⟩ := handler_move h <;>
    · rw [sends] at haccount
      exact haccount

theorem sendEvent_sends {o : Outcome} {pc : SendAt} {e : Event (List UInt8) ℕ}
    (h : c.sendEvent cfg o pc = some e) : (∃ k, e = .drawn k) ∨ ∃ p, e = .sent p := by
  cases pc with
  | rand =>
    obtain rfl := Option.some.inj h
    exact Or.inl ⟨_, rfl⟩
  | send =>
    obtain ⟨-, h⟩ := Option.ite_none_right_eq_some.mp h
    obtain rfl := Option.some.inj h
    exact Or.inr ⟨_, rfl⟩
  | test | reschedule ret => cases h

/-- **What comes of an echo is decided at two statements of the thread.** -/
theorem echoEvent_cases {a : Act} {e : Event (List UInt8) ℕ}
    (h : c.echoEvent cfg a = some e) :
    ((∃ k, e = .drawn k) ∨ ∃ p, e = .sent p) ∨
      (∃ buf, c.thread = .compare buf ∧ e = .compared (c.compareUdpData cfg buf = 0)) ∨
      (∃ o, a = .client o) ∧ c.thread = .count ∧ e = .counted := by
  cases a with
  | client o =>
    simp only [echoEvent] at h
    split at h
    · exact Or.inl (sendEvent_sends h)
    · exact Or.inl (sendEvent_sends h)
    · rename_i buf ht
      obtain rfl := Option.some.inj h
      exact Or.inr (Or.inl ⟨buf, ht, rfl⟩)
    · rename_i ht
      obtain rfl := Option.some.inj h
      exact Or.inr (Or.inr ⟨⟨o, rfl⟩, ht, rfl⟩)
    · cases h
  | work o => exact Or.inl (sendEvent_sends h)
  | l4 _ | event | expire _ | take => cases h

theorem echoEvent_receives {a : Act} (h : c.receives a = true) : c.echoEvent cfg a = none := by
  cases a with
  | client o =>
    obtain ⟨ht, -⟩ := of_decide_eq_true h
    rw [echoEvent, ht]
  | l4 _ | event | expire _ | take | work _ => cases h

theorem account_step {a : Act} (h : step cfg c a = some c') :
    c'.account = Event.account c.account (c.echoEvent cfg a) := by
  cases a with
  | client o => exact (echo_step h).account
  | l4 _ | event | expire _ | take | work _ => exact (other_echo (by rintro _ ⟨⟩) h).1

theorem held_step {a : Act} (h : step cfg c a = some c') (hr : c.receives a = false) :
    c'.held = none ∨ c'.held = c.held := by
  cases a with
  | client o =>
    refine Or.inl ((echo_step h).held.resolve_right ?_)
    rintro ⟨hrecv, -⟩
    exact absurd hrecv (Bool.eq_false_iff.mp hr)
  | l4 _ | event | expire _ | take | work _ =>
    exact Or.inr (held_congr (other_echo (by rintro _ ⟨⟩) h).2)

theorem accepted_step {a : Act} (h : step cfg c a = some c') (ht : c'.thread = .count) :
    c.thread = .count ∨ c.echoEvent cfg a = some (.compared true) := by
  cases a with
  | client o => exact Or.inr ((echo_step h).count ht)
  | l4 _ | event | expire _ | take | work _ =>
    exact Or.inl ((other_echo (by rintro _ ⟨⟩) h).2.symm.trans ht)

theorem compared_held {a : Act} {ok : Bool} (h : c.echoEvent cfg a = some (.compared ok)) :
    c.thread ≠ .count ∧ ∃ k, c.held = some k ∧ (ok = true → k = c.expecting.toNat) := by
  rcases echoEvent_cases h with (⟨k, he⟩ | ⟨p, he⟩) | ⟨buf, ht, he⟩ | ⟨-, -, he⟩
  · cases he
  · cases he
  · refine ⟨?_, buf.length, by rw [held, ht], ?_⟩
    · intro hcount
      cases ht.symm.trans hcount
    · rintro rfl
      injection he with hsame
      exact compareUdpData_length (of_decide_eq_true hsame.symm)
  · cases he

theorem counted_step {a : Act} (h : step cfg c a = some c')
    (hev : c.echoEvent cfg a = some .counted) : c.thread = .count ∧ c'.thread ≠ .count := by
  rcases echoEvent_cases hev with (⟨k, he⟩ | ⟨p, he⟩) | ⟨buf, -, he⟩ | ⟨⟨o, rfl⟩, ht, -⟩
  · cases he
  · cases he
  · cases he
  · refine ⟨ht, ?_⟩
    simp only [step, startClient, ht] at h
    obtain rfl := Option.some.inj h
    intro hcount
    cases hcount

def echoes (cfg : Config) : Echoes.Client UdpClient Act (List UInt8) ℕ where
  machine := machine cfg
  key p := (p.take recvBufSize).length
  event := echoEvent cfg
  receives := receives
  delivery := delivery
  account := account
  held := held
  accepted c := c.thread = .count
  held_init := rfl
  accepted_init := rfl
  event_receives := echoEvent_receives
  account_init := rfl
  account_step := account_step
  held_step := held_step
  held_delivery h _ := (echo_step h).held.imp_right And.right
  accepted_step h hacc :=
    (accepted_step h (of_decide_eq_true hacc)).imp_left decide_eq_true
  compared h := (compared_held h).imp_left decide_eq_false
  counted h hev := (counted_step h hev).imp decide_eq_true decide_eq_false

end UdpClient

end RedNodeBus.EchoClient

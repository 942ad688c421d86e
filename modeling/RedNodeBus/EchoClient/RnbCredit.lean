import RedNodeBus.EchoClient.Credit
import RedNodeBus.EchoClient.Mailbox

/-!
# Credit for an echo

Neither client numbers its requests.  An echo of the length in `expecting` is taken for the
reply, whichever request it answers.  A request sent after a timeout has a length of its own,
and the late echo of the one before is a mismatch, unless the two lengths happen to agree.

For the RNB client an echo is at hand from its delivery to the comparison, which may be long
after: it waits in the mailbox (`held`).  With `RnbClient.echoes` both clients are clients
of an echoing channel.  `echoes_credited` says of both that, over every channel that delays,
reorders and drops, only the echo of the last request is credited as long as lengths tell the
outstanding echoes apart.  `echo_miscredited` is a run of each in which they do not.
-/

namespace RedNodeBus.EchoClient

open Echoes (Event)

/-- An echo has the length expected and is not counted yet. -/
def RnbThreadAt.accepted : RnbThreadAt → Bool
  | .compareBytes _ | .count => true
  | .initRecv | .initTransmit | .resetReceived | .startSend _ | .test _ | .semTake
  | .receivedZero | .receivedNegative | .compareLength | .cancelReply | .processSend _ => false

namespace RnbClient

variable {cfg : RnbConfig} {c c' : RnbClient}

/-! ## What the client does with echoes -/

/-- The bytes the driver is given; what was never written is zero. -/
def transmitted (length : UInt16) (c : RnbClient) : List UInt8 :=
  (c.userPayload ++ List.replicate length.toNat 0).take length.toNat

/-- What a statement of `send_rnb_data` is to the exchange. -/
def sendEvent (cfg : RnbConfig) (o : Outcome) (pc : RnbSendAt) (c : RnbClient) :
    Option (Event (List UInt8) ℕ) :=
  match pc with
  | .rand => some (.drawn (o.rand % (cfg.mtu + 1)).toNat)
  | .send length => if o.ret = 0 then some (.sent (c.transmitted length)) else none
  | .test | .copy | .length | .reschedule _ => none

def echoEvent (cfg : RnbConfig) (c : RnbClient) : Act → Option (Event (List UInt8) ℕ)
  | .client o =>
    match c.thread with
    | .startSend pc | .processSend pc => c.sendEvent cfg o pc
    | .compareLength => some (.compared (c.received.toNat = c.expecting.toNat))
    | .count => some .counted
    | _ => none
  | .work o => c.sendEvent cfg o c.handler
  | .deliver _ | .expire _ | .take => none

def receives : Act → Bool
  | .deliver _ => true
  | _ => false

/-- The length expected, and the count. -/
def account (c : RnbClient) : ℕ × UInt32 := (c.expecting.toNat, c.counter)

/-- The length that is going to be compared; a length of `0` in the mailbox is not. -/
def held (c : RnbClient) : Option ℕ :=
  match c.thread with
  | .receivedNegative | .compareLength => some c.received.toNat
  | .receivedZero => if c.received = 0 then none else some c.received.toNat
  | _ => if c.waitRnbData = true ∧ c.received ≠ 0 then some c.received.toNat else none

theorem held_congr (hbox : SameBox c c') (ht : c'.thread = c.thread) : c'.held = c.held := by
  rw [held, held, ht, hbox.received, hbox.waitRnbData]

theorem held_of_waiting (hw : c.waitRnbData = true) (hr : c.received ≠ 0) :
    c.held = some c.received.toNat := by
  rw [held]
  split
  · rfl
  · rfl
  · rw [if_neg hr]
  · rw [if_pos ⟨hw, hr⟩]

theorem held_goto {c₁ : RnbClient} {pc : RnbThreadAt} (hbox : SameBox c c₁)
    (hpc : pc.examining = false ∨ pc.accepted = true) :
    (c₁.goto pc).held = none ∨ (c₁.goto pc).held = c.held := by
  have hheld : (c₁.goto pc).held =
      if c.waitRnbData = true ∧ c.received ≠ 0 then some c.received.toNat else none := by
    rw [← hbox.received, ← hbox.waitRnbData]
    cases pc with
    | receivedZero | receivedNegative | compareLength => rcases hpc with hpc | hpc <;> cases hpc
    | _ => rfl
  rw [hheld]
  split
  · rename_i h
    exact Or.inr (held_of_waiting h.1 h.2).symm
  · exact Or.inl rfl

theorem sendRnbData_account (cfg : RnbConfig) (o : Outcome) (pc : RnbSendAt) (c : RnbClient) :
    (c.sendRnbData cfg o pc).2.account =
      Event.account c.account (c.sendEvent cfg o pc) := by
  cases pc with
  | rand | test | copy | length | reschedule ret => rfl
  | send length =>
    rw [sendEvent]
    split <;> rfl

/-- **What a statement of the client thread is to the exchange.** -/
structure EchoStep (cfg : RnbConfig) (o : Outcome) (c c' : RnbClient) : Prop where
  account : c'.account =
    Event.account c.account (c.echoEvent cfg (.client o))
  held : c'.held = none ∨ c'.held = c.held
  accepted : c'.thread.accepted = true →
    c.thread.accepted = true ∨ c.echoEvent cfg (.client o) = some (.compared true)

theorem EchoStep.outside {o : Outcome} {c₁ : RnbClient} {pc : RnbThreadAt}
    (hpc : pc.examining = false) (hacc : pc.accepted = false) (hbox : SameBox c c₁)
    (he : c₁.account = Event.account c.account (c.echoEvent cfg (.client o))) :
    EchoStep cfg o c (c₁.goto pc) where
  account := he
  held := held_goto hbox (Or.inl hpc)
  accepted := by
    intro h
    cases hacc.symm.trans h

theorem echo_step {o : Outcome} (h : c.startClientRnb cfg o = some c') : EchoStep cfg o c c' := by
  have hnone (hev : c.echoEvent cfg (.client o) = none) : c.account =
      Event.account c.account (c.echoEvent cfg (.client o)) := by
    rw [hev]
    rfl
  cases client_step h with
  | initRecv ht | initTransmit ht | goesOn ht | again ht | cancelReply ht | empty ht
  | negative ht | otherBytes ht =>
    exact .outside rfl rfl ⟨rfl, rfl, rfl⟩ (hnone (by rw [echoEvent, ht]))
  | resetReceived ht =>
    refine ⟨hnone (by rw [echoEvent, ht]), Or.inl ?_, Bool.noConfusion⟩
    exact if_neg fun hw => hw.2 rfl
  | @startSend pc _ _ ht sends | @started pc _ _ ht sends | @processSend pc _ _ ht sends
  | @processed pc _ _ ht sends =>
    have haccount := sendRnbData_account cfg o pc c
    have hbox := (sendRnbData_box cfg o pc c).1
    have hev : c.echoEvent cfg (.client o) = c.sendEvent cfg o pc := by rw [echoEvent, ht]
    rw [sends, ← hev] at haccount
    rw [sends] at hbox
    exact .outside rfl rfl hbox haccount
  | semTake ht up =>
    -- the client takes the mailbox over
    refine ⟨hnone (by rw [echoEvent, ht]), ?_, Bool.noConfusion⟩
    by_cases hr : c.received = 0
    · exact Or.inl (if_pos hr)
    · exact Or.inr ((if_neg hr).trans (held_of_waiting up hr).symm)
  | nonempty ht hzero =>
    refine ⟨hnone (by rw [echoEvent, ht]), Or.inr ?_, Bool.noConfusion⟩
    rw [held, held, ht]
    exact (if_neg hzero).symm
  | nonneg ht =>
    refine ⟨hnone (by rw [echoEvent, ht]), Or.inr ?_, Bool.noConfusion⟩
    rw [held, held, ht]
    rfl
  | otherLength ht | count ht =>
    refine .outside rfl rfl ⟨rfl, rfl, rfl⟩ ?_
    rw [echoEvent, ht]
    rfl
  | sameLength ht same =>
    have hev : c.echoEvent cfg (.client o) = some (.compared true) := by
      simp only [echoEvent, ht, same, decide_true]
    exact ⟨by rw [hev]; rfl, held_goto ⟨rfl, rfl, rfl⟩ (Or.inr rfl), fun _ => Or.inr hev⟩
  | sameBytes ht =>
    exact ⟨hnone (by rw [echoEvent, ht]), held_goto ⟨rfl, rfl, rfl⟩ (Or.inr rfl),
      fun _ => Or.inl (ht ▸ rfl)⟩

theorem other_account {a : Act} (ha : ∀ o, a ≠ .client o) (h : step cfg c a = some c') :
    c'.account = Event.account c.account (c.echoEvent cfg a) := by
  cases a with
  | client o => exact absurd rfl (ha o)
  | deliver p =>
    obtain ⟨-, h⟩ := Option.ite_none_right_eq_some.mp h
    obtain rfl := Option.some.inj h
    rfl
  | expire _ | take =>
    obtain ⟨works, -, rfl⟩ := Option.map_eq_some_iff.mp h
    rfl
  | work o =>
    have haccount := sendRnbData_account cfg o c.handler c
    obtain ⟨-, ⟨sends, rfl⟩ | ⟨sends, rfl⟩⟩ := handler_move h <;>
    · rw [sends] at haccount
      exact haccount

theorem sendEvent_sends {o : Outcome} {pc : RnbSendAt} {e : Event (List UInt8) ℕ}
    (h : c.sendEvent cfg o pc = some e) : (∃ k, e = .drawn k) ∨ ∃ p, e = .sent p := by
  cases pc with
  | rand =>
    obtain rfl := Option.some.inj h
    exact Or.inl ⟨_, rfl⟩
  | send length =>
    obtain ⟨-, h⟩ := Option.ite_none_right_eq_some.mp h
    obtain rfl := Option.some.inj h
    exact Or.inr ⟨_, rfl⟩
  | test | copy | length | reschedule ret => cases h

/-- **What comes of an echo is decided at two statements of the thread.** -/
theorem echoEvent_cases {a : Act} {e : Event (List UInt8) ℕ}
    (h : c.echoEvent cfg a = some e) :
    ((∃ k, e = .drawn k) ∨ ∃ p, e = .sent p) ∨
      (c.thread = .compareLength ∧ e = .compared (c.received.toNat = c.expecting.toNat)) ∨
      (∃ o, a = .client o) ∧ c.thread = .count ∧ e = .counted := by
  cases a with
  | client o =>
    simp only [echoEvent] at h
    split at h
    · exact Or.inl (sendEvent_sends h)
    · exact Or.inl (sendEvent_sends h)
    · rename_i ht
      obtain rfl := Option.some.inj h
      exact Or.inr (Or.inl ⟨ht, rfl⟩)
    · rename_i ht
      obtain rfl := Option.some.inj h
      exact Or.inr (Or.inr ⟨⟨o, rfl⟩, ht, rfl⟩)
    · cases h
  | work o => exact Or.inl (sendEvent_sends h)
  | deliver _ | expire _ | take => cases h

/-! ## The client on an echoing channel -/

theorem echoEvent_receives {a : Act} (h : receives a = true) : c.echoEvent cfg a = none := by
  cases a with
  | deliver p => rfl
  | client _ | expire _ | take | work _ => cases h

theorem account_step {a : Act} (h : step cfg c a = some c') :
    c'.account = Event.account c.account (c.echoEvent cfg a) := by
  cases a with
  | client o => exact (echo_step h).account
  | deliver _ | expire _ | take | work _ => exact other_account (by rintro _ ⟨⟩) h

theorem held_step {a : Act} (h : step cfg c a = some c') (hr : receives a = false) :
    c'.held = none ∨ c'.held = c.held := by
  cases a with
  | client o => exact (echo_step h).held
  | deliver p => cases hr
  | expire _ | take | work _ =>
    obtain ⟨hbox, ht, -⟩ := other_box (by rintro _ ⟨⟩) (by rintro _ ⟨⟩) h
    exact Or.inr (held_congr hbox ht)

theorem held_deliver (cfg : RnbConfig) {p : List UInt8} (h : step cfg c (.deliver p) = some c') :
    c'.held = none ∨ c'.held = some p.length := by
  obtain ⟨-, h⟩ := Option.ite_none_right_eq_some.mp h
  obtain rfl := Option.some.inj h
  rw [held]
  split
  · exact Or.inr rfl
  · exact Or.inr rfl
  · exact (ite_eq_or_eq _ _ _).imp_right fun h => h
  · exact (ite_eq_or_eq _ _ _).symm.imp_right fun h => h

theorem accepted_step {a : Act} (h : step cfg c a = some c')
    (hacc : c'.thread.accepted = true) :
    c.thread.accepted = true ∨ c.echoEvent cfg a = some (.compared true) := by
  cases a with
  | client o => exact (echo_step h).accepted hacc
  | deliver p =>
    obtain ⟨-, h⟩ := Option.ite_none_right_eq_some.mp h
    obtain rfl := Option.some.inj h
    exact Or.inl hacc
  | expire _ | take | work _ =>
    obtain ⟨-, ht, -⟩ := other_box (by rintro _ ⟨⟩) (by rintro _ ⟨⟩) h
    exact Or.inl (ht ▸ hacc)

theorem compared_held {a : Act} {ok : Bool} (h : c.echoEvent cfg a = some (.compared ok)) :
    c.thread.accepted = false ∧
      ∃ k, c.held = some k ∧ (ok = true → k = c.expecting.toNat) := by
  rcases echoEvent_cases h with (⟨k, he⟩ | ⟨p, he⟩) | ⟨ht, he⟩ | ⟨-, -, he⟩
  · cases he
  · cases he
  · refine ⟨by rw [ht]; rfl, c.received.toNat, by rw [held, ht], ?_⟩
    rintro rfl
    injection he with hsame
    exact of_decide_eq_true hsame.symm
  · cases he

theorem counted_step {a : Act} (h : step cfg c a = some c')
    (hev : c.echoEvent cfg a = some .counted) :
    c.thread.accepted = true ∧ c'.thread.accepted = false := by
  rcases echoEvent_cases hev with (⟨k, he⟩ | ⟨p, he⟩) | ⟨-, he⟩ | ⟨⟨o, rfl⟩, ht, -⟩
  · cases he
  · cases he
  · cases he
  · refine ⟨by rw [ht]; rfl, ?_⟩
    simp only [step, startClientRnb, ht] at h
    obtain rfl := Option.some.inj h
    rfl

def echoes (cfg : RnbConfig) : Echoes.Client RnbClient Act (List UInt8) ℕ where
  machine := machine cfg
  key p := p.length
  event := echoEvent cfg
  receives _ := receives
  delivery := .deliver
  account := account
  held := held
  accepted c := c.thread.accepted
  held_init := rfl
  accepted_init := rfl
  event_receives := echoEvent_receives
  account_init := rfl
  account_step := account_step
  held_step := held_step
  held_delivery h _ := held_deliver cfg h
  accepted_step := accepted_step
  compared := compared_held
  counted := counted_step

end RnbClient

/-! ## Credit -/

def Outcome.draws (rand : UInt32) : Outcome := { Outcome.returns 0 with rand := rand }

/-- A text of three bytes, with the connection manager and without TCP. -/
def Config.lorem : Config := ⟨true, false, [76, 111, 114], fun _ => some⟩

/-- **Echoes are credited to the right request.**  In a run of either client in which lengths
tell the outstanding echoes apart, an echo is counted only if it was that of the last request
when it was compared, and every other is rejected; and `counter` counts just these. -/
theorem echoes_credited :
    (∀ (cfg : Config) (as : List (Echoes.Act UdpClient.Act))
        (s : UdpClient × Echoes.Channel (List UInt8)),
      let net := (UdpClient.echoes cfg).network
      net.run as = some s → net.Along (UdpClient.echoes cfg).Distinct net.init as →
        (UdpClient.echoes cfg).Credits as ∧
          s.1.counter = UInt32.ofNat (((UdpClient.echoes cfg).seen as).count .counted)) ∧
    ∀ (cfg : RnbConfig) (as : List (Echoes.Act RnbClient.Act))
        (s : RnbClient × Echoes.Channel (List UInt8)),
      let net := (RnbClient.echoes cfg).network
      net.run as = some s → net.Along (RnbClient.echoes cfg).Distinct net.init as →
        (RnbClient.echoes cfg).Credits as ∧
          s.1.counter = UInt32.ofNat (((RnbClient.echoes cfg).seen as).count .counted) := by
  constructor
  · intro cfg as s net hr hd
    exact ⟨(UdpClient.echoes cfg).credited hr hd, (UdpClient.echoes cfg).count_eq hr⟩
  · intro cfg as s net hr hd
    exact ⟨(RnbClient.echoes cfg).credited hr hd, (RnbClient.echoes cfg).count_eq hr⟩

namespace UdpClient

/-- The reply times out, and the handler draws `rand` and sends again. -/
def timeout (rand : UInt32) : List Act :=
  [.expire .recv, .take, .work (.draws rand)] ++ List.replicate 3 (.work (.returns 1))

/-- The first request has length `1`, and its echo comes in after the second one is sent. -/
def resentRun (rand : UInt32) : List (Echoes.Act Act) :=
  (startRun ++ timeout rand).map .act ++ [.arrive 0]

/-- The late echo is rejected, and the echo of the second request is counted. -/
def lateRun : List (Echoes.Act Act) :=
  resentRun 2 ++ (calls [0, 0, 0]).map .act ++ [.arrive 1] ++ (calls [0, 0]).map .act

end UdpClient

namespace RnbClient

/-- As in `UdpClient.timeout`. -/
def timeout (rand : UInt32) : List Act :=
  [.expire .recv, .take, .work (.draws rand)] ++ List.replicate 5 (.work (.returns 0))

def resentRun (rand : UInt32) : List (Echoes.Act Act) :=
  (calls (List.replicate 10 0) ++ timeout rand).map .act ++ [.arrive 0]

def lateRun : List (Echoes.Act Act) :=
  resentRun 2 ++ (calls (List.replicate 5 0)).map .act ++ [.arrive 1] ++
    (calls (List.replicate 6 0)).map .act

end RnbClient

/-- The late echo of another length is rejected, and the echo of the last request counted. -/
theorem echoes_credited_lateRun :
    (∃ s, (UdpClient.echoes .lorem).network.run UdpClient.lateRun = some s ∧
      (UdpClient.echoes .lorem).seen UdpClient.lateRun =
        [.sent, .sent, .compared (some 0) false, .compared (some 1) true, .counted] ∧
      (UdpClient.echoes .lorem).Credits UdpClient.lateRun ∧ s.1.counter = 1) ∧
    ∃ s, (RnbClient.echoes .short).network.run RnbClient.lateRun = some s ∧
      (RnbClient.echoes .short).seen RnbClient.lateRun =
        [.sent, .sent, .compared (some 0) false, .compared (some 1) true, .counted] ∧
      (RnbClient.echoes .short).Credits RnbClient.lateRun ∧ s.1.counter = 1 := by
  constructor
  · obtain ⟨s, hr⟩ := Option.isSome_iff_exists.mp
      (show ((UdpClient.echoes .lorem).network.run UdpClient.lateRun).isSome = true by
        decide +kernel)
    have hseen : (UdpClient.echoes .lorem).seen UdpClient.lateRun =
        [.sent, .sent, .compared (some 0) false, .compared (some 1) true, .counted] := by
      decide +kernel
    obtain ⟨hcredits, hcount⟩ := echoes_credited.1 .lorem _ s hr (by decide +kernel)
    exact ⟨s, hr, hseen, hcredits, hcount.trans (by rw [hseen]; rfl)⟩
  · obtain ⟨s, hr⟩ := Option.isSome_iff_exists.mp
      (show ((RnbClient.echoes .short).network.run RnbClient.lateRun).isSome = true by
        decide +kernel)
    have hseen : (RnbClient.echoes .short).seen RnbClient.lateRun =
        [.sent, .sent, .compared (some 0) false, .compared (some 1) true, .counted] := by
      decide +kernel
    obtain ⟨hcredits, hcount⟩ := echoes_credited.2 .short _ s hr (by decide +kernel)
    exact ⟨s, hr, hseen, hcredits, hcount.trans (by rw [hseen]; rfl)⟩

/-- The second request has the length of the first, and the late echo of the first one is
counted. -/
theorem echo_miscredited :
    (¬ ∀ (cfg : Config) (as : List (Echoes.Act UdpClient.Act))
        (s : UdpClient × Echoes.Channel (List UInt8)), cfg.netTcp = false →
      (UdpClient.echoes cfg).network.run as = some s → (UdpClient.echoes cfg).Credits as) ∧
    ¬ ∀ (cfg : RnbConfig) (as : List (Echoes.Act RnbClient.Act))
        (s : RnbClient × Echoes.Channel (List UInt8)),
      (RnbClient.echoes cfg).network.run as = some s → (RnbClient.echoes cfg).Credits as := by
  constructor
  · intro h
    let run := UdpClient.resentRun 1 ++ (UdpClient.calls [0, 0]).map .act
    obtain ⟨s, hr⟩ := Option.isSome_iff_exists.mp
      (show ((UdpClient.echoes .lorem).network.run run).isSome = true by decide +kernel)
    have hseen : (UdpClient.echoes .lorem).seen run =
        [.sent, .sent] ++ .compared (some 0) true :: [.counted] := by
      decide +kernel
    obtain ⟨i, hi, hlate⟩ := h .lorem run s rfl hr _ _ _ hseen
    obtain rfl := Option.some.inj hi
    exact absurd (hlate (by decide)) (by decide)
  · intro h
    let run := RnbClient.resentRun 1 ++ (RnbClient.calls (List.replicate 6 0)).map .act
    obtain ⟨s, hr⟩ := Option.isSome_iff_exists.mp
      (show ((RnbClient.echoes .short).network.run run).isSome = true by decide +kernel)
    have hseen : (RnbClient.echoes .short).seen run =
        [.sent, .sent] ++ .compared (some 0) true :: [.counted] := by
      decide +kernel
    obtain ⟨i, hi, hlate⟩ := h .short run s hr _ _ _ hseen
    obtain rfl := Option.some.inj hi
    exact absurd (hlate (by decide)) (by decide)

end RedNodeBus.EchoClient

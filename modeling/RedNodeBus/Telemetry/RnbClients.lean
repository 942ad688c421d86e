import RedNodeBus.Telemetry.Accelerometer
import RedNodeBus.Telemetry.SocketTest

/-!
# The RNB clients

With `USE_REDNODEBUS_USER_PAYLOAD`, and socket_test with `USE_REDNODEBUS_USER_PAYLOAD_ONLY`
too, the samples hand their packets to the driver and not to a socket.  They copy a packet to
`user_payload` first, and `send_rnb_data` refuses one that is longer than the driver takes.

Act by act they do what the UDP clients do, with other results (`Sender.Mirrors`).  So every
run of an RNB client has the packets of a run of the UDP client (`Mirrors.packets_eq`), and
what is known of these holds of them.
-/

namespace RedNodeBus.Telemetry

open Bytes RedNodeBus.Utils

/-- The same on a node, with other acts. -/
def NodeAct.map {α β : Type} (f : α → β) : NodeAct α → NodeAct β
  | .boot sessionRand => .boot sessionRand
  | .act a => .act (f a)

/-- `S` does what `S'` does, act by act, and sends the same. -/
structure Sender.Mirrors (S S' : Sender) where
  act : S.Act → S'.Act
  R : S.State → S'.State → Prop
  initApp : ∀ euid sessionRand, R (S.initApp euid sessionRand) (S'.initApp euid sessionRand)
  step : ∀ {s t} a, R s t → Option.Rel R (S.step s a) (S'.step t (act a))
  sent : ∀ {s t} a, R s t → S.sent s a = S'.sent t (act a)

theorem Sender.Mirrors.packets_eq {S S' : Sender} (M : S.Mirrors S') (euid : Euid)
    (run : List (NodeAct S.Act)) :
    S.packets euid run = S'.packets euid (run.map (.map M.act)) := by
  rw [Sender.packets, Sender.packets, Sender.marks, Sender.marks]
  congr 1
  refine Machine.observe_map (R := Option.Rel M.R) ?_ ?_ .none run
  · intro s t a h
    cases a with
    | boot sessionRand => exact .some (.some (M.initApp euid sessionRand))
    | act a =>
      cases h with
      | none => exact .none
      | some h =>
        have hrel := M.step a h
        simp only [Sender.node, NodeAct.map]
        generalize S.step _ a = s' at hrel
        generalize S'.step _ (M.act a) = t' at hrel
        cases hrel with
        | none => exact .none
        | some h' => exact .some (.some h')
  · intro s t a h
    cases a with
    | boot sessionRand => rfl
    | act a =>
      cases h with
      | none => rfl
      | some h =>
        simp only [Sender.mark, NodeAct.map]
        rw [M.sent a h]

namespace SocketTest

/-- The payload of a step that the driver does not refuse. -/
def sentRnb (mtu : ℕ) (s : SocketTest) : Act → Option (List UInt8)
  | .start _ => none
  | .pass ret => if sendRnbData mtu ret < 0 then none else some s.rnbPacket

def rnbSender (mtu : ℕ) : Sender where
  State := SocketTest
  Act := Act
  initApp := initAppRnb mtu
  step := startClientRnb mtu
  sent := sentRnb mtu

/-- What the UDP client does where the RNB client does this. -/
def udpAct (mtu : ℕ) : Act → Act
  | .start _ => .start 0
  | .pass ret => .pass (sendRnbData mtu ret)

/-- The two clients, apart from `user_payload`. -/
structure Alike (s t : SocketTest) : Prop where
  loremIpsum : s.loremIpsum = t.loremIpsum
  packetsSent : s.packetsSent = t.packetsSent
  started : s.started = t.started
  stamped : ∃ euid sessionRand, Stamped euid sessionRand s.loremIpsum

/-- A result that `send_rnb_data` returns is negative where `send` would fail with it. -/
theorem sendUdpData_neg (ret : Int) : sendUdpData ret < 0 ↔ ret < 0 := by
  by_cases hret : ret < 0
  · rw [sendUdpData, if_pos hret]
    exact ⟨fun _ => hret, fun _ => by decide⟩
  · rw [sendUdpData, if_neg hret]
    exact ⟨fun h => absurd h (by decide), fun h => absurd h hret⟩

theorem Alike.pass {s t : SocketTest} (mtu : ℕ) (ret : Int) (h : Alike s t) :
    Alike (s.putCounter.putUserPayload.count (sendRnbData mtu ret))
      (t.putCounter.count (sendUdpData (sendRnbData mtu ret))) := by
  obtain ⟨euid, sessionRand, hstamped⟩ := h.stamped
  refine ⟨?_, ?_, h.started, euid, sessionRand, hstamped.putCounter⟩
  · show writeAt _ (le32 s.packetsSent) s.loremIpsum = writeAt _ (le32 t.packetsSent) t.loremIpsum
    rw [h.loremIpsum, h.packetsSent]
  · show (if sendRnbData mtu ret < 0 then s.packetsSent else s.packetsSent + 1) =
      if sendUdpData (sendRnbData mtu ret) < 0 then t.packetsSent else t.packetsSent + 1
    rw [h.packetsSent]
    simp only [sendUdpData_neg]

theorem Alike.packet {s t : SocketTest} (h : Alike s t) : s.rnbPacket = t.udpPacket := by
  obtain ⟨euid, sessionRand, hstamped⟩ := h.stamped
  rw [hstamped.rnbPacket]
  show (writeAt _ (le32 s.packetsSent) s.loremIpsum).take _ =
    (writeAt _ (le32 t.packetsSent) t.loremIpsum).take _
  rw [h.loremIpsum, h.packetsSent]

def rnbMirrors (mtu : ℕ) : (rnbSender mtu).Mirrors sender where
  act := udpAct mtu
  R := Alike
  initApp euid sessionRand :=
    ⟨rfl, rfl, rfl, euid, sessionRand, stamped_stampedBuffer euid sessionRand⟩
  step := by
    intro s t a h
    cases a with
    | start ret =>
      simp only [rnbSender, sender, startClientRnb, udpAct, startClient, h.started]
      split
      · exact .none
      · exact .some ⟨h.loremIpsum, h.packetsSent, rfl, h.stamped⟩
    | pass ret =>
      simp only [rnbSender, sender, startClientRnb, udpAct, startClient, h.started]
      split
      · exact .some (h.pass mtu ret)
      · exact .none
  sent := by
    intro s t a h
    cases a with
    | start ret => rfl
    | pass ret =>
      simp only [rnbSender, sender, sentRnb, udpAct, sentUdp, h.packet]

end SocketTest

/-- The data of accelerometer with the RNB client. -/
structure AccelerometerRnb where
  app : Accelerometer
  /-- `rnb_user_payload_params.user_payload` -/
  userPayload : List UInt8

namespace AccelerometerRnb

def packetLen : ℕ := 40

def initApp (mtu : ℕ) (euid : Euid) (sessionRand : UInt32) : AccelerometerRnb where
  app := .initApp euid sessionRand
  userPayload := List.replicate mtu 0

/-- `send_rnb_data`, when the driver returns `ret`. -/
def sendRnbData (mtu : ℕ) (ret : Int) : Int :=
  let ret := if packetLen = 0 ∨ mtu < packetLen then -22 else ret
  if ret < 0 then -5 else 0

/-- `fetch_and_display`; what the driver returns is in the place of what `send` does. -/
def fetchAndDisplay (mtu : ℕ) (o : Fetch) (s : AccelerometerRnb) : AccelerometerRnb :=
  let app := { s.app with count := s.app.count + 1 }
  if Accelerometer.rc o < 0 then { s with app := app }
  else
    let app := app.putReading o
    let userPayload := writeAt 0 app.packet s.userPayload
    if sendRnbData mtu o.send = 0 then
      ⟨{ app with packetsSent := app.packetsSent + 1 }, userPayload⟩
    else ⟨app, userPayload⟩

/-- As for the UDP client; `start_rnb_user_payload` returns `0`. -/
inductive Act
  | startClient (rnbRole : UserRole) (found ready : Bool) (triggerSet : Int)
  | trigger (o : Fetch)

def step (mtu : ℕ) (s : AccelerometerRnb) : Act → Option AccelerometerRnb
  | .startClient rnbRole found ready triggerSet =>
    if s.app.started then none
    else some { s with app := { s.app with
      started := true
      triggered := rnbRole = .tag ∧ found ∧ ready ∧ triggerSet = 0 } }
  | .trigger o => if s.app.triggered then some (s.fetchAndDisplay mtu o) else none

/-- The payload of a step that the driver does not refuse. -/
def sentRnb (mtu : ℕ) (s : AccelerometerRnb) : Act → Option (List UInt8)
  | .startClient .. => none
  | .trigger o =>
    if Accelerometer.rc o < 0 ∨ sendRnbData mtu o.send < 0 then none
    else some ((writeAt 0 (s.app.putReading o).packet s.userPayload).take packetLen)

def rnbSender (mtu : ℕ) : Sender where
  State := AccelerometerRnb
  Act := Act
  initApp := initApp mtu
  step := step mtu
  sent := sentRnb mtu

/-- What the UDP client does where the RNB client does this. -/
def udpAct (mtu : ℕ) : Act → Accelerometer.Act
  | .startClient rnbRole found ready triggerSet => .startClient rnbRole 0 found ready triggerSet
  | .trigger o => .trigger { o with send := sendRnbData mtu o.send }

/-- The result of `send_rnb_data` passes through `send_udp_data` as it is. -/
theorem sendUdpData_sendRnbData (mtu : ℕ) (ret : Int) :
    sendUdpData (sendRnbData mtu ret) = sendRnbData mtu ret := by
  have hrc : sendRnbData mtu ret = -5 ∨ sendRnbData mtu ret = 0 := ite_eq_or_eq _ _ _
  rcases hrc with hrc | hrc
  · rw [hrc]
    rfl
  · rw [hrc]
    rfl

theorem app_fetchAndDisplay (mtu : ℕ) (o : Fetch) (s : AccelerometerRnb) :
    (s.fetchAndDisplay mtu o).app =
      s.app.fetchAndDisplay { o with send := sendRnbData mtu o.send } := by
  rw [fetchAndDisplay, Accelerometer.fetchAndDisplay]
  have hrc : Accelerometer.rc { o with send := sendRnbData mtu o.send } = Accelerometer.rc o := rfl
  rw [hrc, sendUdpData_sendRnbData]
  split
  · rfl
  · split <;> rfl

/-- `user_payload` holds the packet. -/
theorem take_writeAt (app : Accelerometer) (userPayload : List UInt8) :
    (writeAt 0 app.packet userPayload).take packetLen = app.packet := by
  have hlen : app.packet.length = packetLen := by
    rw [Accelerometer.packet, length_words, Vector.length_toList]
    rfl
  have hself : slice 0 app.packet.length (writeAt 0 app.packet userPayload) = app.packet :=
    slice_writeAt_self (Nat.zero_le _)
  rw [hlen] at hself
  exact hself

def rnbMirrors (mtu : ℕ) : (rnbSender mtu).Mirrors Accelerometer.sender where
  act := udpAct mtu
  R s t := s.app = t
  initApp euid sessionRand := rfl
  step := by
    intro s t a h
    obtain rfl := h
    cases a with
    | startClient rnbRole found ready triggerSet =>
      simp only [rnbSender, Accelerometer.sender, step, udpAct, Accelerometer.step]
      split
      · exact .none
      · simp only [true_and]
        exact .some rfl
    | trigger o =>
      simp only [rnbSender, Accelerometer.sender, step, udpAct, Accelerometer.step]
      split
      · exact .some (app_fetchAndDisplay mtu o s)
      · exact .none
  sent := by
    intro s t a h
    obtain rfl := h
    cases a with
    | startClient rnbRole found ready triggerSet => rfl
    | trigger o =>
      simp only [rnbSender, Accelerometer.sender, sentRnb, udpAct, Accelerometer.sentUdp,
        take_writeAt]
      rfl

end AccelerometerRnb

end RedNodeBus.Telemetry

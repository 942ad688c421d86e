import RedNodeBus.EchoClient.RnbCredit
import RedNodeBus.Lib.EchoStar

/-!
# The echo server

`echo_server.py` returns every datagram to where it came from.  It takes at most
`bufferSize` bytes of one, and the text of the clients is shorter.

`UdpPath` is the server with the network around it, which may lose a datagram, keep it for
any time and let others pass it, on the way there and back.  It holds each datagram in one
place, so it is a carrier of letters (`Echoes.Carrier`), and any number of UDP clients with
the server is a star: for each client the rest of the system is a channel that echoes
(`echo_server_channel`).
-/

namespace RedNodeBus.EchoClient

open Echoes (Letter Fate pick pick_perm)

/-- `bufferSize` of the script. -/
def bufferSize : ℕ := 2048

/-- Where the loop of the script stands: at `recvfrom`, or at `sendto` with a datagram and
the address it came from.  An exception of `sendto` ends the script. -/
inductive ServerAt (ι : Type)
  | recvfrom
  | sendto (d : Letter ι (List UInt8))
  | ended

def ServerAt.held {ι : Type} : ServerAt ι → List (Letter ι (List UInt8))
  | .sendto d => [d]
  | .recvfrom | .ended => []

/-- The datagrams on their way to the server, the server, and those on their way back. -/
structure UdpPath (ι : Type) where
  requests : List (Letter ι (List UInt8))
  server : ServerAt ι
  echoes : List (Letter ι (List UInt8))

namespace UdpPath

variable {ι : Type}

def idle : UdpPath ι := ⟨[], .recvfrom, []⟩

/-- The server takes a datagram, it sends one back or fails to, the network loses one, or
hands one to its client. -/
inductive Act
  | recvfrom (k : ℕ)
  | sendto (sent : Bool)
  | loseRequest (k : ℕ)
  | loseEcho (k : ℕ)
  | arrive (k : ℕ)

def step (s : UdpPath ι) : Act → Option (Fate (Letter ι (List UInt8)) × UdpPath ι)
  | .recvfrom k =>
    match s.server with
    | .recvfrom =>
      (pick s.requests k).map fun (d, rest) =>
        (.kept, { s with
          requests := rest
          server := .sendto { d with payload := d.payload.take bufferSize } })
    | .sendto _ | .ended => none
  | .sendto sent =>
    match s.server with
    | .sendto d =>
      if sent then some (.kept, { s with server := .recvfrom, echoes := d :: s.echoes })
      else some (.lost d, { s with server := .ended })
    | .recvfrom | .ended => none
  | .loseRequest k =>
    (pick s.requests k).map fun (d, rest) => (.lost d, { s with requests := rest })
  | .loseEcho k => (pick s.echoes k).map fun (d, rest) => (.lost d, { s with echoes := rest })
  | .arrive k => (pick s.echoes k).map fun (d, rest) => (.delivered d, { s with echoes := rest })

def letters (s : UdpPath ι) : List (Letter ι (List UInt8)) :=
  s.requests ++ s.server.held ++ s.echoes

/-- No datagram is longer than the server takes. -/
def Short (s : UdpPath ι) : Prop := ∀ d ∈ s.letters, d.payload.length ≤ bufferSize

variable {s s' : UdpPath ι} {d : Letter ι (List UInt8)} {fate : Fate (Letter ι (List UInt8))}

theorem letters_step {b : Act} (hs : s.Short) (h : s.step b = some (fate, s')) :
    s.letters.Perm (fate.gone ++ s'.letters) := by
  cases b with
  | recvfrom k =>
    cases hserver : s.server with
    | recvfrom =>
      simp only [step, hserver] at h
      obtain ⟨⟨d, rest⟩, hpick, heq⟩ := Option.map_eq_some_iff.mp h
      obtain ⟨rfl, rfl⟩ := Prod.mk.inj heq
      have hperm := pick_perm hpick
      have hd : d.payload.length ≤ bufferSize :=
        hs d (List.mem_append_left _
          (List.mem_append_left _ (hperm.symm.subset List.mem_cons_self)))
      have hsame :
          ({ d with payload := d.payload.take bufferSize } : Letter ι (List UInt8)) = d := by
        rw [List.take_of_length_le hd]
      simp only [letters, hserver, hsame, ServerAt.held, Fate.gone, List.append_nil,
        List.nil_append, List.append_assoc, List.singleton_append]
      exact (hperm.append_right s.echoes).trans List.perm_middle.symm
    | sendto d | ended =>
      simp only [step, hserver] at h
      cases h
  | sendto sent =>
    cases hserver : s.server with
    | sendto d =>
      simp only [step, hserver] at h
      cases sent with
      | true =>
        obtain ⟨rfl, rfl⟩ := Prod.mk.inj (Option.some.inj h)
        simp only [letters, hserver, ServerAt.held, Fate.gone, List.append_nil, List.nil_append,
          List.append_assoc, List.singleton_append]
        exact List.Perm.refl _
      | false =>
        obtain ⟨rfl, rfl⟩ := Prod.mk.inj (Option.some.inj h)
        simp only [letters, hserver, ServerAt.held, Fate.gone, List.append_nil, List.append_assoc,
          List.singleton_append]
        exact List.perm_middle
    | recvfrom | ended =>
      simp only [step, hserver] at h
      cases h
  | loseRequest k =>
    obtain ⟨⟨d, rest⟩, hpick, heq⟩ := Option.map_eq_some_iff.mp h
    obtain ⟨rfl, rfl⟩ := Prod.mk.inj heq
    simp only [letters, Fate.gone, List.append_assoc]
    exact (pick_perm hpick).append_right _
  | loseEcho k | arrive k =>
    obtain ⟨⟨d, rest⟩, hpick, heq⟩ := Option.map_eq_some_iff.mp h
    obtain ⟨rfl, rfl⟩ := Prod.mk.inj heq
    simp only [letters, Fate.gone]
    exact ((pick_perm hpick).append_left _).trans List.perm_middle

def carrier (ι : Type) : Echoes.Carrier ι (List UInt8) where
  State := UdpPath ι
  Act := Act
  init := idle
  post d s := { s with requests := d :: s.requests }
  step := step
  letters := letters
  Fits p := p.length ≤ bufferSize
  Inv := Short
  letters_init := rfl
  inv_init := nofun
  letters_post d := List.Perm.refl _
  inv_post := by
    intro s d hs hd e he
    rcases List.mem_cons.mp he with rfl | he
    · exact hd
    · exact hs e he
  letters_step := letters_step
  inv_step := by
    intro s b fate s' hs h d hd
    exact hs d ((letters_step hs h).symm.subset (List.mem_append_right _ hd))

end UdpPath

namespace UdpClient

variable {cfg : Config} {c : UdpClient}

theorem echoEvent_sent {a : Act} {p : List UInt8}
    (h : c.echoEvent cfg a = some (.sent p)) : ∃ n, p = cfg.loremIpsum.take n := by
  have hsend {o : Outcome} {pc : SendAt} (h : c.sendEvent cfg o pc = some (.sent p)) :
      ∃ n, p = cfg.loremIpsum.take n := by
    cases pc with
    | rand | test | reschedule ret => cases h
    | send =>
      obtain ⟨-, h⟩ := Option.ite_none_right_eq_some.mp h
      cases h
      exact ⟨_, rfl⟩
  cases a with
  | client o =>
    simp only [echoEvent] at h
    split at h
    · exact hsend h
    · exact hsend h
    · cases h
    · cases h
    · cases h
  | work o => exact hsend h
  | l4 _ | event | expire _ | take => cases h

/-- The text fits the server's buffer, so every request does. -/
theorem fits_bufferSize (hcfg : cfg.loremIpsum.length ≤ bufferSize) {a : Act} {p : List UInt8}
    (h : c.echoEvent cfg a = some (.sent p)) : p.length ≤ bufferSize := by
  obtain ⟨n, rfl⟩ := echoEvent_sent h
  exact Nat.le_trans (List.length_take_le' _ _) hcfg

def mails (hcfg : cfg.loremIpsum.length ≤ bufferSize) (ι : Type) :
    (echoes cfg).Mails (UdpPath.carrier ι) where
  Keeps _ := True
  init := trivial
  step _ _ := trivial
  fits _ h := fits_bufferSize hcfg h

/-- UDP clients, the network and `echo_server.py`. -/
def echoStar (cfg : Config) (ι : Type) [DecidableEq ι] :
    Machine (Echoes.Star UdpClient ι (UdpPath ι)) (Echoes.StarAct ι Act UdpPath.Act) :=
  (echoes cfg).star (UdpPath.carrier ι)

/-- **The server and the network are an echoing channel for every client.**  Its exchange is
a run of the client on the channel: an echo that comes in is that of a request of its own, no
request is answered twice, and what is outstanding is what is under way.  So, as on the
channel, a client whose lengths tell the outstanding echoes apart counts those of its last
requests and no others. -/
theorem echo_server_channel (cfg : Config) (hcfg : cfg.loremIpsum.length ≤ bufferSize)
    {ι : Type} [DecidableEq ι] {as : List (Echoes.StarAct ι Act UdpPath.Act)}
    {s : Echoes.Star UdpClient ι (UdpPath ι)} (hr : (echoStar cfg ι).run as = some s) (i : ι) :
    let net := (echoes cfg).network
    let exchange := (echoes cfg).exchange (UdpPath.carrier ι) i as
    (∃ ch, net.run exchange = some (s.clients i, ch) ∧ ch.sent.length = s.posted i ∧
      ch.inFlight.Perm (Echoes.numbers i s.carrier.letters)) ∧
    ((echoes cfg).arrived exchange).Nodup ∧
    (∀ j ∈ (echoes cfg).arrived exchange, j < s.posted i) ∧
    (net.Along (echoes cfg).Distinct net.init exchange →
      (echoes cfg).Credits exchange ∧
        (s.clients i).counter = UInt32.ofNat (((echoes cfg).seen exchange).count .counted)) := by
  intro net exchange
  obtain ⟨ch, hrun, hposted, hflight⟩ :=
    Echoes.Client.exchange_run (mails hcfg ι) i hr
  obtain ⟨honce, hsent⟩ := (echoes cfg).arrived_nodup hrun
  refine ⟨⟨ch, hrun, hposted, hflight⟩, honce, ?_, ?_⟩
  · intro j hj
    rw [← hposted]
    exact hsent j hj
  · intro hd
    exact ⟨(echoes cfg).credited hrun hd, (echoes cfg).count_eq hrun⟩

/-- The steps of one client. -/
def stepsOf (i : Bool) (as : List Act) : List (Echoes.StarAct Bool Act UdpPath.Act) :=
  as.map (.client i)

/-- Two clients send, the server answers the second one first, and both count their echo. -/
def crossedRun : List (Echoes.StarAct Bool Act UdpPath.Act) :=
  stepsOf true startRun ++ stepsOf false startRun ++
    [.carrier (.recvfrom 0), .carrier (.sendto true), .carrier (.recvfrom 0),
      .carrier (.sendto true)] ++
    [.carrier (.arrive 1)] ++ stepsOf false (calls [0, 0]) ++
    [.carrier (.arrive 0)] ++ stepsOf true (calls [0, 0])

theorem echo_server_channel_crossedRun :
    ∃ s, (echoStar .lorem Bool).run crossedRun = some s ∧
      ∀ i, (s.clients i).counter = 1 ∧
        (echoes .lorem).Credits ((echoes .lorem).exchange (UdpPath.carrier Bool) i crossedRun) := by
  obtain ⟨s, hr⟩ := Option.isSome_iff_exists.mp
    (show ((echoStar .lorem Bool).run crossedRun).isSome = true by decide +kernel)
  refine ⟨s, hr, fun i => ?_⟩
  obtain ⟨-, -, -, hcredit⟩ := echo_server_channel .lorem (by decide) hr i
  have hdistinct : (echoes .lorem).network.Along (echoes .lorem).Distinct
      (echoes .lorem).network.init
      ((echoes .lorem).exchange (UdpPath.carrier Bool) i crossedRun) := by
    cases i <;> decide +kernel
  obtain ⟨hcredits, hcount⟩ := hcredit hdistinct
  have hseen : (echoes .lorem).seen
      ((echoes .lorem).exchange (UdpPath.carrier Bool) i crossedRun) =
        [.sent, .compared (some 0) true, .counted] := by
    cases i <;> decide +kernel
  exact ⟨hcount.trans (by rw [hseen]; rfl), hcredits⟩

end UdpClient

end RedNodeBus.EchoClient

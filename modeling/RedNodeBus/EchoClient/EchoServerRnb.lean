import RedNodeBus.EchoClient.EchoServer
import RedNodeBus.EchoClient.NodeLink
import RedNodeBus.Mqtt.Message

/-!
# The echo server of the RNB clients

`echo_server_rnb.py` has the user payloads from an MQTT broker, where the gateway publishes
them as events, and sends each back as a command.  The command is the event under another
name (`onMessage`), so the gateway finds in it the node and the bytes it wrote there itself.
What it writes is not in the repository: it is a parameter (`Gateway`), of which nothing is
asked but that.

`RnbPath` is the whole way of a payload: over the air to the gateway, as an event to the
script, as a command back, over the air to the node, and there through the event pool of
`rnb_utils.c`, in which state events and user payloads compete for four slots.  It loses a
payload anywhere, and in particular where the pool is full, but it neither copies nor alters
one; so it is a carrier, and for every client an echoing channel (`echo_server_rnb_channel`).
-/

namespace RedNodeBus.EchoClient

open Echoes (Letter Fate pick pick_perm)
open Mqtt Utils

/-- `on_message`, of what `json.loads` makes of the payload: the command it publishes, if it
does.  `none` is an exception. -/
def onMessage (msg : Option Message) : Option (Option Message) :=
  msg.bind fun msg => (isUserData msg).bind fun userData =>
    if userData then
      let msg := Function.update msg "name" (some (.str "send_user_data"))
      let msg := Function.update msg "flip" (some (.str "off"))
      (msg "data").bind fun data => data.len.bind fun _ => (msg "uid").map fun _ => some msg
    else some none

/-- The gateway: the event it publishes for a payload of a node, and the node and the
payload a command is for.  In a command it understands what it writes in an event. -/
structure Gateway (ι : Type) where
  event : ι → List UInt8 → Message
  command : Message → Option (ι × List UInt8)
  event_name : ∀ i p, event i p "name" = some (.str "user_data")
  event_data : ∀ i p, ∃ data n, event i p "data" = some data ∧ data.len = some n
  event_uid : ∀ i p, ∃ uid, event i p "uid" = some uid
  command_eq : ∀ {i p msg}, msg "name" = some (.str "send_user_data") →
    msg "uid" = event i p "uid" → msg "data" = event i p "data" → command msg = some (i, p)

/-- The event comes back as a command for the same node, with the same bytes. -/
theorem Gateway.command_onMessage {ι : Type} (G : Gateway ι) (i : ι) (p : List UInt8) :
    ∃ msg, onMessage (some (G.event i p)) = some (some msg) ∧ G.command msg = some (i, p) := by
  obtain ⟨data, n, hdata, hlen⟩ := G.event_data i p
  obtain ⟨uid, huid⟩ := G.event_uid i p
  have hname : isUserData (G.event i p) = some true := by
    simp only [isUserData, G.event_name, decide_true]
  generalize hmsg : Function.update (Function.update (G.event i p) "name"
    (some (.str "send_user_data"))) "flip" (some (.str "off")) = msg
  have hother (key : String) (hflip : key ≠ "flip") (hkey : key ≠ "name") :
      msg key = G.event i p key := by
    rw [← hmsg, Function.update_of_ne hflip, Function.update_of_ne hkey]
  have hdata' := hother "data" (by decide) (by decide)
  have huid' := hother "uid" (by decide) (by decide)
  refine ⟨msg, ?_, G.command_eq ?_ huid' hdata'⟩
  · simp only [onMessage, Option.bind_some, hname, if_true, hmsg, hdata', hdata, hlen, huid', huid,
      Option.map_some]
  · rw [← hmsg, Function.update_of_ne (by decide), Function.update_self]

/-- The way of the payloads of `n` nodes, leg by leg. -/
structure RnbPath (n : ℕ) where
  up : List (Letter (Fin n) (List UInt8))
  events : List (Message × Letter (Fin n) (List UInt8))
  /-- The script has not ended with an exception. -/
  running : Bool
  commands : List (Message × Letter (Fin n) (List UInt8))
  down : List (Letter (Fin n) (List UInt8))
  links : Fin n → NodeLink (Fin n)

namespace RnbPath

variable {n : ℕ}

def idle : RnbPath n := ⟨[], [], true, [], [], fun _ => .boot⟩

/-- Where a payload can be lost on its way. -/
inductive Leg
  | up
  | event
  | command
  | down

/-- The gateway publishes a payload, `on_message` handles the event, or another event than a
user payload, the gateway sends the payload of a command, the driver of the node reports it,
a node makes a step, or a payload is lost. -/
inductive Act (n : ℕ)
  | publish (k : ℕ)
  | onMessage (k : ℕ)
  | otherEvent (msg : Option Message)
  | sendUserData (k : ℕ)
  | arrive (k : ℕ)
  | node (i : Fin n) (a : Node.Act)
  | lose (leg : Leg) (k : ℕ)

/-- The link of node `i` after a step of it. -/
def setLink (i : Fin n) (s : RnbPath n) :
    Fate (Letter (Fin n) (List UInt8)) × NodeLink (Fin n) →
      Fate (Letter (Fin n) (List UInt8)) × RnbPath n :=
  fun (fate, link) => (fate, { s with links := Function.update s.links i link })

def step (G : Gateway (Fin n)) (img : Image Unit) (s : RnbPath n) :
    Act n → Option (Fate (Letter (Fin n) (List UInt8)) × RnbPath n)
  | .publish k =>
    (pick s.up k).map fun (d, rest) =>
      (.kept, { s with up := rest, events := (G.event d.client d.payload, d) :: s.events })
  | .onMessage k =>
    if s.running then
      (pick s.events k).map fun ((msg, d), rest) =>
        match EchoClient.onMessage (some msg) with
        | some (some msg) => (.kept, { s with events := rest, commands := (msg, d) :: s.commands })
        | some none => (.lost d, { s with events := rest })
        | none => (.lost d, { s with events := rest, running := false })
    else none
  | .otherEvent msg =>
    if s.running then
      match msg.bind isUserData with
      | some true => none
      | some false => some (.kept, s)
      | none => some (.kept, { s with running := false })
    else none
  | .sendUserData k =>
    (pick s.commands k).map fun ((msg, d), rest) =>
      match G.command msg with
      | some (i, p) =>
        (.kept, { s with commands := rest, down := { d with client := i, payload := p } :: s.down })
      | none => (.lost d, { s with commands := rest })
  | .arrive k =>
    (pick s.down k).bind fun (d, rest) =>
      ((s.links d.client).report d).map (setLink d.client { s with down := rest })
  | .node i a => ((s.links i).step img a).map (setLink i s)
  | .lose .up k => (pick s.up k).map fun (d, rest) => (.lost d, { s with up := rest })
  | .lose .event k => (pick s.events k).map fun (e, rest) => (.lost e.2, { s with events := rest })
  | .lose .command k =>
    (pick s.commands k).map fun (e, rest) => (.lost e.2, { s with commands := rest })
  | .lose .down k => (pick s.down k).map fun (d, rest) => (.lost d, { s with down := rest })

def waiting (links : Fin n → NodeLink (Fin n)) : List (Letter (Fin n) (List UInt8)) :=
  (List.finRange n).flatMap fun i => (links i).letters

def letters (s : RnbPath n) : List (Letter (Fin n) (List UInt8)) :=
  s.up ++ s.events.map (·.2) ++ s.commands.map (·.2) ++ s.down ++ waiting s.links

/-- Every payload can be copied, the messages say what their payload is, and the notes of
the nodes are right. -/
structure Faithful (G : Gateway (Fin n)) (s : RnbPath n) : Prop where
  short : ∀ d ∈ s.letters, d.payload.length ≤ 254
  events : ∀ e ∈ s.events, e.1 = G.event e.2.client e.2.payload
  commands : ∀ e ∈ s.commands, G.command e.1 = some (e.2.client, e.2.payload)
  aligned : ∀ i, (s.links i).Aligned

theorem waiting_update {links : Fin n → NodeLink (Fin n)} {i : Fin n} {link : NodeLink (Fin n)}
    {gone come : List (Letter (Fin n) (List UInt8))}
    (h : (come ++ (links i).letters).Perm (gone ++ link.letters)) :
    (come ++ waiting links).Perm (gone ++ waiting (Function.update links i link)) := by
  have hsplit := List.perm_cons_erase (List.mem_finRange i)
  have hrest : ((List.finRange n).erase i).flatMap
        (fun j => (Function.update links i link j).letters) =
      ((List.finRange n).erase i).flatMap fun j => (links j).letters := by
    refine List.flatMap_congr fun j hj => ?_
    have hne : j ≠ i := ((List.nodup_finRange n).mem_erase_iff.mp hj).1
    rw [Function.update_of_ne hne]
  have hold : (waiting links).Perm ((links i).letters ++
      ((List.finRange n).erase i).flatMap fun j => (links j).letters) :=
    hsplit.flatMap_right fun j => (links j).letters
  have hnew : (waiting (Function.update links i link)).Perm (link.letters ++
      ((List.finRange n).erase i).flatMap fun j => (links j).letters) := by
    have hperm := hsplit.flatMap_right fun j => (Function.update links i link j).letters
    rw [List.flatMap_cons, hrest, Function.update_self] at hperm
    exact hperm
  refine (hold.append_left come).trans (List.Perm.trans ?_ (hnew.append_left gone).symm)
  rw [← List.append_assoc, ← List.append_assoc]
  exact h.append_right _

variable {G : Gateway (Fin n)} {img : Image Unit} {s s' : RnbPath n}
  {fate : Fate (Letter (Fin n) (List UInt8))}

/-- One link changes, and so does the path. -/
theorem perm_setLink {i : Fin n} {link : NodeLink (Fin n)}
    (come : List (Letter (Fin n) (List UInt8)))
    (h : (come ++ (s.links i).letters).Perm (fate.gone ++ link.letters)) :
    (come ++ s.letters).Perm (fate.gone ++ (setLink i s (fate, link)).2.letters) := by
  have hwait := waiting_update h
  refine List.perm_iff_count.mpr fun d => ?_
  have hcount := hwait.count_eq d
  simp only [letters, setLink, List.count_append] at hcount ⊢
  omega

theorem rest_subset {δ : Type} {l rest : List δ} {k : ℕ} {d : δ} (h : pick l k = some (d, rest)) :
    rest ⊆ l :=
  fun _ he => (pick_perm h).symm.subset (List.mem_cons_of_mem _ he)

theorem mem_of_pick {δ : Type} {l rest : List δ} {k : ℕ} {d : δ}
    (h : pick l k = some (d, rest)) : d ∈ l :=
  (pick_perm h).symm.subset List.mem_cons_self

/-- A letter is short because it was there before. -/
theorem Faithful.keep (hs : s.Faithful G) (hperm : s.letters.Perm (fate.gone ++ s'.letters))
    (hevents : ∀ e ∈ s'.events, e.1 = G.event e.2.client e.2.payload)
    (hcommands : ∀ e ∈ s'.commands, G.command e.1 = some (e.2.client, e.2.payload))
    (haligned : ∀ i, (s'.links i).Aligned) :
    s.letters.Perm (fate.gone ++ s'.letters) ∧ s'.Faithful G :=
  ⟨hperm, fun d hd => hs.short d (hperm.symm.subset (List.mem_append_right _ hd)), hevents,
    hcommands, haligned⟩

theorem Faithful.publish {k : ℕ} (hs : s.Faithful G)
    (h : s.step G img (.publish k) = some (fate, s')) :
    s.letters.Perm (fate.gone ++ s'.letters) ∧ s'.Faithful G := by
  obtain ⟨⟨d, rest⟩, hpick, heq⟩ := Option.map_eq_some_iff.mp h
  obtain ⟨rfl, rfl⟩ := Prod.mk.inj heq
  refine hs.keep ?_ ?_ hs.commands hs.aligned
  · refine List.perm_iff_count.mpr fun e => ?_
    have hcount := (pick_perm hpick).count_eq e
    simp only [letters, Fate.gone, List.map_cons, List.count_append, List.count_cons,
      List.count_nil] at hcount ⊢
    omega
  · intro e he
    rcases List.mem_cons.mp he with rfl | he
    · rfl
    · exact hs.events e he

theorem Faithful.onMessage {k : ℕ} (hs : s.Faithful G)
    (h : s.step G img (.onMessage k) = some (fate, s')) :
    s.letters.Perm (fate.gone ++ s'.letters) ∧ s'.Faithful G := by
  obtain ⟨-, h⟩ := Option.ite_none_right_eq_some.mp h
  obtain ⟨⟨⟨msg, d⟩, rest⟩, hpick, heq⟩ := Option.map_eq_some_iff.mp h
  obtain ⟨command, hmessage, hcommand⟩ := G.command_onMessage d.client d.payload
  have hmsg : msg = G.event d.client d.payload := hs.events _ (mem_of_pick hpick)
  simp only [hmsg, hmessage] at heq
  obtain ⟨rfl, rfl⟩ := Prod.mk.inj heq
  refine hs.keep ?_ (fun e he => hs.events e (rest_subset hpick he)) ?_ hs.aligned
  · refine List.perm_iff_count.mpr fun e => ?_
    have hcount := ((pick_perm hpick).map (·.2)).count_eq e
    simp only [letters, Fate.gone, List.map_cons, List.count_append, List.count_cons,
      List.count_nil] at hcount ⊢
    omega
  · intro e he
    rcases List.mem_cons.mp he with rfl | he
    · exact hcommand
    · exact hs.commands e he

theorem Faithful.otherEvent {msg : Option Message} (hs : s.Faithful G)
    (h : s.step G img (.otherEvent msg) = some (fate, s')) :
    s.letters.Perm (fate.gone ++ s'.letters) ∧ s'.Faithful G := by
  obtain ⟨-, h⟩ := Option.ite_none_right_eq_some.mp h
  split at h
  · cases h
  · obtain ⟨rfl, rfl⟩ := Prod.mk.inj (Option.some.inj h)
    exact hs.keep (List.Perm.refl _) hs.events hs.commands hs.aligned
  · obtain ⟨rfl, rfl⟩ := Prod.mk.inj (Option.some.inj h)
    exact hs.keep (List.Perm.refl _) hs.events hs.commands hs.aligned

theorem Faithful.sendUserData {k : ℕ} (hs : s.Faithful G)
    (h : s.step G img (.sendUserData k) = some (fate, s')) :
    s.letters.Perm (fate.gone ++ s'.letters) ∧ s'.Faithful G := by
  obtain ⟨⟨⟨msg, d⟩, rest⟩, hpick, heq⟩ := Option.map_eq_some_iff.mp h
  have hcommand : G.command msg = some (d.client, d.payload) :=
    hs.commands _ (mem_of_pick hpick)
  simp only [hcommand] at heq
  obtain ⟨rfl, rfl⟩ := Prod.mk.inj heq
  refine hs.keep ?_ hs.events (fun e he => hs.commands e (rest_subset hpick he)) hs.aligned
  show s.letters.Perm ([] ++ letters { s with commands := rest, down := d :: s.down })
  refine List.perm_iff_count.mpr fun e => ?_
  have hcount := ((pick_perm hpick).map (·.2)).count_eq e
  simp only [letters, List.map_cons, List.count_append, List.count_cons,
    List.count_nil] at hcount ⊢
  omega

theorem Faithful.aligned_update {i : Fin n} {link : NodeLink (Fin n)} (hs : s.Faithful G)
    (hlink : link.Aligned) (j : Fin n) : (Function.update s.links i link j).Aligned := by
  by_cases hj : j = i
  · rw [hj, Function.update_self]
    exact hlink
  · rw [Function.update_of_ne hj]
    exact hs.aligned j

theorem Faithful.arrive {k : ℕ} (hs : s.Faithful G)
    (h : s.step G img (.arrive k) = some (fate, s')) :
    s.letters.Perm (fate.gone ++ s'.letters) ∧ s'.Faithful G := by
  obtain ⟨⟨d, rest⟩, hpick, h⟩ := Option.bind_eq_some_iff.mp h
  obtain ⟨⟨fate', link⟩, hreport, heq⟩ := Option.map_eq_some_iff.mp h
  obtain ⟨rfl, rfl⟩ := Prod.mk.inj heq
  have hfits : d.payload.length ≤ 254 := by
    refine hs.short d ?_
    have hmem : d ∈ s.down := mem_of_pick hpick
    simp only [letters, List.mem_append]
    exact Or.inl (Or.inr hmem)
  obtain ⟨hperm, haligned⟩ := (hs.aligned d.client).report hfits hreport
  refine hs.keep ?_ hs.events hs.commands (hs.aligned_update haligned)
  have hset := perm_setLink (s := { s with down := rest }) [d] hperm
  refine List.Perm.trans ?_ hset
  refine List.perm_iff_count.mpr fun e => ?_
  have hcount := (pick_perm hpick).count_eq e
  simp only [letters, List.count_append, List.count_cons, List.count_nil] at hcount ⊢
  omega

theorem Faithful.node {i : Fin n} {a : Node.Act} (hs : s.Faithful G)
    (h : s.step G img (.node i a) = some (fate, s')) :
    s.letters.Perm (fate.gone ++ s'.letters) ∧ s'.Faithful G := by
  obtain ⟨⟨fate', link⟩, hstep, heq⟩ := Option.map_eq_some_iff.mp h
  obtain ⟨rfl, rfl⟩ := Prod.mk.inj heq
  obtain ⟨hletters, haligned⟩ := (hs.aligned i).step hstep
  exact hs.keep (perm_setLink [] (by rw [hletters, List.nil_append])) hs.events hs.commands
    (hs.aligned_update haligned)

theorem Faithful.lose {leg : Leg} {k : ℕ} (hs : s.Faithful G)
    (h : s.step G img (.lose leg k) = some (fate, s')) :
    s.letters.Perm (fate.gone ++ s'.letters) ∧ s'.Faithful G := by
  cases leg with
  | up | down =>
    obtain ⟨⟨d, rest⟩, hpick, heq⟩ := Option.map_eq_some_iff.mp h
    obtain ⟨rfl, rfl⟩ := Prod.mk.inj heq
    refine hs.keep ?_ hs.events hs.commands hs.aligned
    refine List.perm_iff_count.mpr fun e => ?_
    have hcount := (pick_perm hpick).count_eq e
    simp only [letters, Fate.gone, List.count_append, List.count_cons, List.count_nil]
      at hcount ⊢
    omega
  | event =>
    obtain ⟨⟨d, rest⟩, hpick, heq⟩ := Option.map_eq_some_iff.mp h
    obtain ⟨rfl, rfl⟩ := Prod.mk.inj heq
    refine hs.keep ?_ (fun e he => hs.events e (rest_subset hpick he)) hs.commands hs.aligned
    refine List.perm_iff_count.mpr fun e => ?_
    have hcount := ((pick_perm hpick).map (·.2)).count_eq e
    simp only [letters, Fate.gone, List.map_cons, List.count_append, List.count_cons,
      List.count_nil] at hcount ⊢
    omega
  | command =>
    obtain ⟨⟨d, rest⟩, hpick, heq⟩ := Option.map_eq_some_iff.mp h
    obtain ⟨rfl, rfl⟩ := Prod.mk.inj heq
    refine hs.keep ?_ hs.events (fun e he => hs.commands e (rest_subset hpick he)) hs.aligned
    refine List.perm_iff_count.mpr fun e => ?_
    have hcount := ((pick_perm hpick).map (·.2)).count_eq e
    simp only [letters, Fate.gone, List.map_cons, List.count_append, List.count_cons,
      List.count_nil] at hcount ⊢
    omega

/-- **A step copies and alters no letter**, and the messages and notes stay right. -/
theorem Faithful.step {b : Act n} (hs : s.Faithful G) (h : s.step G img b = some (fate, s')) :
    s.letters.Perm (fate.gone ++ s'.letters) ∧ s'.Faithful G := by
  cases b with
  | publish k => exact hs.publish h
  | onMessage k => exact hs.onMessage h
  | otherEvent msg => exact hs.otherEvent h
  | sendUserData k => exact hs.sendUserData h
  | arrive k => exact hs.arrive h
  | node i a => exact hs.node h
  | lose leg k => exact hs.lose h

def carrier (G : Gateway (Fin n)) (img : Image Unit) :
    Echoes.Carrier (Fin n) (List UInt8) where
  State := RnbPath n
  Act := Act n
  init := idle
  post d s := { s with up := d :: s.up }
  step := step G img
  letters := letters
  Fits p := p.length ≤ 254
  Inv := Faithful G
  letters_init := by
    show waiting (fun _ => .boot) = []
    exact List.flatMap_eq_nil_iff.mpr fun _ _ => rfl
  inv_init := by
    refine ⟨?_, nofun, nofun, fun _ => NodeLink.aligned_boot⟩
    intro d hd
    obtain ⟨i, -, hi⟩ := List.mem_flatMap.mp (show d ∈ waiting (fun _ => .boot) from hd)
    cases hi
  letters_post d := List.Perm.refl _
  inv_post := by
    intro s d hs hd
    refine ⟨?_, hs.events, hs.commands, hs.aligned⟩
    intro e he
    rcases List.mem_cons.mp he with rfl | he
    · exact hd
    · exact hs.short e he
  letters_step hs h := (hs.step h).1
  inv_step hs h := (hs.step h).2

end RnbPath

/-- The length handed over in the statement a send stands at. -/
def RnbSendAt.handed : RnbSendAt → ℕ
  | .send l => l.toNat
  | .rand | .test | .copy | .length | .reschedule _ => 0

/-- The same for the thread. -/
def RnbThreadAt.handed : RnbThreadAt → ℕ
  | .startSend pc | .processSend pc => pc.handed
  | _ => 0

namespace RnbClient

variable {cfg : RnbConfig} {c c' : RnbClient} {m : ℕ}

/-- No request is longer than `m`. -/
structure Within (m : ℕ) (c : RnbClient) : Prop where
  expecting : c.expecting.toNat ≤ m
  thread : c.thread.handed ≤ m
  handler : c.handler.handed ≤ m

/-- What is drawn is at most the length the driver takes, and it is what is handed over. -/
theorem sendRnbData_handed (hmtu : cfg.mtu.toNat < 65535) {o : Outcome} {pc : RnbSendAt}
    {r : RnbSendAt ⊕ Int} {c₁ : RnbClient} (h : c.expecting.toNat ≤ cfg.mtu.toNat)
    (sends : c.sendRnbData cfg o pc = (r, c₁)) :
    c₁.expecting.toNat ≤ cfg.mtu.toNat ∧ c₁.thread = c.thread ∧ c₁.handler = c.handler ∧
      ∀ pc', r = .inl pc' → pc'.handed ≤ cfg.mtu.toNat := by
  cases pc with
  | rand =>
    obtain ⟨rfl, rfl⟩ := Prod.mk.inj sends
    refine ⟨?_, rfl, rfl, ?_⟩
    · show (o.rand % (cfg.mtu + 1)).toNat ≤ _
      have hsucc : (cfg.mtu + 1).toNat = cfg.mtu.toNat + 1 := by
        rw [UInt32.toNat_add, UInt32.toNat_one]
        omega
      rw [UInt32.toNat_mod, hsucc]
      exact Nat.lt_succ_iff.mp (Nat.mod_lt _ (Nat.succ_pos _))
    · intro pc' hpc
      cases hpc
      exact Nat.zero_le _
  | test =>
    obtain ⟨rfl, rfl⟩ := Prod.mk.inj sends
    refine ⟨h, rfl, rfl, ?_⟩
    intro pc' hpc
    obtain rfl := Sum.inl.inj hpc
    split <;> exact Nat.zero_le _
  | copy | send length =>
    obtain ⟨rfl, rfl⟩ := Prod.mk.inj sends
    refine ⟨h, rfl, rfl, ?_⟩
    intro pc' hpc
    obtain rfl := Sum.inl.inj hpc
    exact Nat.zero_le _
  | length =>
    obtain ⟨rfl, rfl⟩ := Prod.mk.inj sends
    refine ⟨h, rfl, rfl, ?_⟩
    intro pc' hpc
    obtain rfl := Sum.inl.inj hpc
    show c.expecting.toUInt16.toNat ≤ _
    rw [UInt32.toNat_toUInt16]
    exact Nat.le_trans (Nat.mod_le _ _) h
  | reschedule ret =>
    obtain ⟨rfl, rfl⟩ := Prod.mk.inj sends
    exact ⟨h, rfl, rfl, fun _ hpc => by cases hpc⟩

theorem Within.step (hmtu : cfg.mtu.toNat < 65535) {a : Act} (h : c.Within cfg.mtu.toNat)
    (hs : step cfg c a = some c') : c'.Within cfg.mtu.toNat := by
  cases a with
  | client o =>
    cases client_step hs with
    | initRecv ht | initTransmit ht | resetReceived ht | goesOn ht | again ht | semTake ht
    | empty ht | nonempty ht | negative ht | nonneg ht | otherLength ht | sameLength ht
    | otherBytes ht | sameBytes ht | count ht | cancelReply ht =>
      exact ⟨h.expecting, Nat.zero_le _, h.handler⟩
    | startSend ht sends | processSend ht sends =>
      obtain ⟨hexp, -, hhandler, hpc⟩ := sendRnbData_handed hmtu h.expecting sends
      exact ⟨hexp, hpc _ rfl, le_of_eq_of_le (congrArg _ hhandler) h.handler⟩
    | started ht sends | processed ht sends =>
      obtain ⟨hexp, -, hhandler, -⟩ := sendRnbData_handed hmtu h.expecting sends
      exact ⟨hexp, Nat.zero_le _, le_of_eq_of_le (congrArg _ hhandler) h.handler⟩
  | deliver p =>
    obtain ⟨-, hs⟩ := Option.ite_none_right_eq_some.mp hs
    obtain rfl := Option.some.inj hs
    exact ⟨h.expecting, h.thread, h.handler⟩
  | expire w =>
    obtain ⟨works, -, rfl⟩ := Option.map_eq_some_iff.mp hs
    exact ⟨h.expecting, h.thread, h.handler⟩
  | take =>
    obtain ⟨works, -, rfl⟩ := Option.map_eq_some_iff.mp hs
    exact ⟨h.expecting, h.thread, Nat.zero_le _⟩
  | work o =>
    obtain ⟨-, ⟨sends, rfl⟩ | ⟨sends, rfl⟩⟩ := handler_move hs
    · obtain ⟨hexp, hthread, -, hpc⟩ := sendRnbData_handed hmtu h.expecting sends
      exact ⟨hexp, le_of_eq_of_le (congrArg _ hthread) h.thread, hpc _ rfl⟩
    · obtain ⟨hexp, hthread, -, -⟩ := sendRnbData_handed hmtu h.expecting sends
      exact ⟨hexp, le_of_eq_of_le (congrArg _ hthread) h.thread, Nat.zero_le _⟩

theorem length_transmitted_le (length : UInt16) (c : RnbClient) :
    (c.transmitted length).length ≤ length.toNat := by
  rw [transmitted]
  exact List.length_take_le _ _

theorem Within.sent {a : Act} {p : List UInt8} (h : c.Within m)
    (he : c.echoEvent cfg a = some (.sent p)) : p.length ≤ m := by
  have hsend {o : Outcome} {pc : RnbSendAt} (hpc : pc.handed ≤ m)
      (he : c.sendEvent cfg o pc = some (.sent p)) : p.length ≤ m := by
    cases pc with
    | send length =>
      obtain ⟨-, he⟩ := Option.ite_none_right_eq_some.mp he
      cases he
      exact Nat.le_trans (length_transmitted_le length c) hpc
    | rand | test | copy | length | reschedule ret => cases he
  cases a with
  | client o =>
    have hthread := h.thread
    simp only [echoEvent] at he
    split at he
    · rename_i pc ht
      rw [ht] at hthread
      exact hsend hthread he
    · rename_i pc ht
      rw [ht] at hthread
      exact hsend hthread he
    · cases he
    · cases he
    · cases he
  | work o => exact hsend h.handler he
  | deliver _ | expire _ | take => cases he

/-- The requests are carried, as the driver takes none that the event pool cannot copy. -/
def mails (hmtu : cfg.mtu.toNat ≤ 254) {n : ℕ} (G : Gateway (Fin n)) (img : Image Unit) :
    (echoes cfg).Mails (RnbPath.carrier G img) where
  Keeps := Within cfg.mtu.toNat
  init := ⟨Nat.zero_le _, Nat.zero_le _, Nat.zero_le _⟩
  step h hs := h.step (by omega) hs
  fits h he := Nat.le_trans (h.sent he) hmtu

/-- RNB clients, their nodes, the gateway and `echo_server_rnb.py`. -/
def echoStar (cfg : RnbConfig) {n : ℕ} (G : Gateway (Fin n)) (img : Image Unit) :
    Machine (Echoes.Star RnbClient (Fin n) (RnbPath n))
      (Echoes.StarAct (Fin n) Act (RnbPath.Act n)) :=
  (echoes cfg).star (RnbPath.carrier G img)

/-- **The gateway, the script and the event pool are an echoing channel for every client.**
State events and payloads compete for the slots of a node, the script may end, and payloads
may be lost or pass each other anywhere; still a payload that is handed to a client is a
request of its own, none is handed over twice, and what is outstanding is what is under way.
So a client whose lengths tell the outstanding echoes apart counts those of its last requests
and no others. -/
theorem echo_server_rnb_channel (cfg : RnbConfig) (hmtu : cfg.mtu.toNat ≤ 254) {n : ℕ}
    (G : Gateway (Fin n)) (img : Image Unit)
    {as : List (Echoes.StarAct (Fin n) Act (RnbPath.Act n))}
    {s : Echoes.Star RnbClient (Fin n) (RnbPath n)} (hr : (echoStar cfg G img).run as = some s)
    (i : Fin n) :
    let net := (echoes cfg).network
    let exchange := (echoes cfg).exchange (RnbPath.carrier G img) i as
    (∃ ch, net.run exchange = some (s.clients i, ch) ∧ ch.sent.length = s.posted i ∧
      ch.inFlight.Perm (Echoes.numbers i s.carrier.letters)) ∧
    ((echoes cfg).arrived exchange).Nodup ∧
    (∀ j ∈ (echoes cfg).arrived exchange, j < s.posted i) ∧
    (net.Along (echoes cfg).Distinct net.init exchange →
      (echoes cfg).Credits exchange ∧
        (s.clients i).counter = UInt32.ofNat (((echoes cfg).seen exchange).count .counted)) := by
  intro net exchange
  obtain ⟨ch, hrun, hposted, hflight⟩ := Echoes.Client.exchange_run (mails hmtu G img) i hr
  obtain ⟨honce, hsent⟩ := (echoes cfg).arrived_nodup hrun
  refine ⟨⟨ch, hrun, hposted, hflight⟩, honce, ?_, ?_⟩
  · intro j hj
    rw [← hposted]
    exact hsent j hj
  · intro hd
    exact ⟨(echoes cfg).credited hrun hd, (echoes cfg).count_eq hrun⟩

/-! ## A run of two nodes -/

def nodeA : Fin 2 := ⟨0, Nat.two_pos⟩

def nodeB : Fin 2 := ⟨1, Nat.one_lt_two⟩

def uid (i : Fin 2) : Json := .str (if i = nodeA then "000000000001" else "000000000002")

def nodeOf : Json → Option (Fin 2)
  | .str s =>
    if s = "000000000001" then some nodeA else if s = "000000000002" then some nodeB else none
  | _ => none

theorem nodeOf_uid : ∀ i, nodeOf (uid i) = some i := by decide

/-- A gateway for two nodes, which writes the bytes as hexadecimal text. -/
def hexGateway : Gateway (Fin 2) where
  event i p := userDataEvent (uid i) p
  command msg := (msg "uid").bind fun i => (nodeOf i).bind fun i => (dataBytes msg).map (i, ·)
  event_name _ _ := rfl
  event_data _ p := ⟨_, _, rfl, rfl⟩
  event_uid i _ := ⟨_, rfl⟩
  command_eq := by
    intro i p msg _ huid hdata
    rw [huid, dataBytes_of_data hdata]
    show (nodeOf (uid i)).bind _ = _
    rw [nodeOf_uid]
    rfl

/-- Hooks that do nothing, and parameters that say nothing. -/
def deafImage : Image Unit := ⟨fun _ => ⟨.connected, .undefined⟩, fun _ _ => (), fun _ _ _ => ()⟩

/-- The steps of one client. -/
def stepsOf (i : Fin 2) (as : List Act) : List (Echoes.StarAct (Fin 2) Act (RnbPath.Act 2)) :=
  as.map (.client i)

/-- Two clients send, and the script returns the payload of the second one first, which the
gateway loses.  The other one waits in the pool behind a state event, and is counted. -/
def busyRun : List (Echoes.StarAct (Fin 2) Act (RnbPath.Act 2)) :=
  stepsOf nodeA (calls (List.replicate 10 0)) ++ stepsOf nodeB (calls (List.replicate 10 0)) ++
    [.carrier (.publish 0), .carrier (.publish 0), .carrier (.onMessage 1),
      .carrier (.onMessage 0), .carrier (.sendUserData 0), .carrier (.lose .command 0),
      .carrier (.node nodeA (.report (.newState 3 1))), .carrier (.arrive 0)] ++
    List.replicate 10 (.carrier (.node nodeA (.utils 0))) ++
    stepsOf nodeA (calls (List.replicate 6 0))

theorem echo_server_rnb_channel_busyRun :
    ∃ s, (echoStar .short hexGateway deafImage).run busyRun = some s ∧
      (s.clients nodeA).counter = 1 ∧ (s.clients nodeB).counter = 0 ∧
      ∀ i, (echoes .short).Credits
        ((echoes .short).exchange (RnbPath.carrier hexGateway deafImage) i busyRun) := by
  let exchange := fun i => (echoes .short).exchange (RnbPath.carrier hexGateway deafImage) i busyRun
  obtain ⟨s, hr⟩ := Option.isSome_iff_exists.mp
    (show ((echoStar .short hexGateway deafImage).run busyRun).isSome = true by decide +kernel)
  have hdistinct : ∀ i, (echoes .short).network.Along (echoes .short).Distinct
      (echoes .short).network.init (exchange i) := by decide +kernel
  have hcredit (i : Fin 2) : (echoes .short).Credits (exchange i) ∧
      (s.clients i).counter =
        UInt32.ofNat (((echoes .short).seen (exchange i)).count .counted) := by
    obtain ⟨-, -, -, hcredit⟩ :=
      echo_server_rnb_channel .short (by decide) hexGateway deafImage hr i
    exact hcredit (hdistinct i)
  have hcounted : (echoes .short).seen (exchange nodeA) =
      [.sent, .compared (some 0) true, .counted] := by decide +kernel
  have hlost : (echoes .short).seen (exchange nodeB) = [.sent] := by decide +kernel
  refine ⟨s, hr, ?_, ?_, fun i => (hcredit i).1⟩
  · exact (hcredit nodeA).2.trans (by rw [hcounted]; rfl)
  · exact (hcredit nodeB).2.trans (by rw [hlost]; rfl)

end RnbClient

end RedNodeBus.EchoClient

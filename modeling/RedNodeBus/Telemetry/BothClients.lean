import RedNodeBus.Telemetry.SocketTest

/-!
# Both clients of socket_test on one text

With `USE_REDNODEBUS_USER_PAYLOAD` and without `USE_REDNODEBUS_USER_PAYLOAD_ONLY` the sample
runs both clients, each in a thread with a counter of its own.  They share `lorem_ipsum`:
each prints the EUID over it, draws a session value and then copies it behind, and copies
its counter behind that before it sends.

Here the two interleave statement by statement.  What a text says is told by a `Text`: which
of the stamps are on it, the session value copied last, the counter copied last and whose it
is; and whether the EUID was printed after that value was copied, since a text of twelve
digits ends with its zero in the value (`Text.torn`).  `Shows` is the relation between a
buffer and its `Text`.  So a packet carries the counter of its client exactly if the other
client did not copy its own in between, or has the same (`both_clients`).
-/

namespace RedNodeBus.Telemetry.BothClients

open Bytes Hex

inductive Client
  | udp
  | rnb
  deriving DecidableEq

/-- Where a thread stands; the UDP client has no `copy`. -/
inductive ThreadAt
  | sprintf
  | sessionRand
  | putSessionRand
  | start
  | putCounter
  | copy
  | send
  deriving DecidableEq

structure State where
  loremIpsum : List UInt8
  /-- `conf_rnb.rnb.rnb_user_payload.rnb_user_payload_params.user_payload` -/
  userPayload : List UInt8
  thread : Client → ThreadAt
  sessionRand : Client → UInt32
  packetsSent : Client → UInt32

/-- A thread makes a step; a call of it returns `ret` or draws `rand`. -/
structure Act where
  client : Client
  ret : Int
  rand : UInt32

def boot (mtu : ℕ) : State where
  loremIpsum := Telemetry.loremIpsum
  userPayload := List.replicate mtu 0
  thread _ := .sprintf
  sessionRand _ := 0
  packetsSent _ := 0

namespace State

def goto (c : Client) (pc : ThreadAt) (s : State) : State :=
  { s with thread := Function.update s.thread c pc }

/-- `sprintf` of `init_app` and `init_app_rnb`. -/
def printEuid (euid : Euid) (s : State) : State :=
  { s with loremIpsum := writeAt 0 (asciiBytes (uidText euid) ++ [0]) s.loremIpsum }

def drawSessionRand (c : Client) (rand : UInt32) (s : State) : State :=
  { s with sessionRand := Function.update s.sessionRand c rand }

def putSessionRand (c : Client) (s : State) : State :=
  { s with loremIpsum := writeAt uidChars (le32 (s.sessionRand c)) s.loremIpsum }

def putCounter (c : Client) (s : State) : State :=
  { s with loremIpsum :=
      writeAt (uidChars + sessionRandChars) (le32 (s.packetsSent c)) s.loremIpsum }

/-- `memcpy` to `user_payload`. -/
def copyText (s : State) : State :=
  { s with userPayload := writeAt 0 (s.loremIpsum.take transmitting) s.userPayload }

def count (c : Client) (rc : Int) (s : State) : State :=
  { s with packetsSent :=
      if rc < 0 then s.packetsSent else Function.update s.packetsSent c (s.packetsSent c + 1) }

def packet (s : State) : Client → List UInt8
  | .udp => s.loremIpsum.take transmitting
  | .rnb => s.userPayload.take transmitting

end State

/-- `send_udp_data` or `send_rnb_data`. -/
def send (mtu : ℕ) (ret : Int) : Client → Int
  | .udp => sendUdpData ret
  | .rnb => SocketTest.sendRnbData mtu ret

def step (mtu : ℕ) (euid : Euid) (s : State) (a : Act) : State :=
  match s.thread a.client with
  | .sprintf => (s.printEuid euid).goto a.client .sessionRand
  | .sessionRand => (s.drawSessionRand a.client a.rand).goto a.client .putSessionRand
  | .putSessionRand => (s.putSessionRand a.client).goto a.client .start
  | .start =>
    -- `start_rnb_user_payload` returns `0`; `start_udp` is called again where it does not
    match a.client with
    | .udp => if a.ret = 0 then s.goto .udp .putCounter else s
    | .rnb => s.goto .rnb .putCounter
  | .putCounter =>
    match a.client with
    | .udp => (s.putCounter .udp).goto .udp .send
    | .rnb => (s.putCounter .rnb).goto .rnb .copy
  | .copy => s.copyText.goto a.client .send
  | .send => (s.count a.client (send mtu a.ret a.client)).goto a.client .putCounter

def machine (mtu : ℕ) (euid : Euid) : Machine State Act where
  init := boot mtu
  step s a := some (step mtu euid s a)

/-! ## What a text says -/

/-- What is seen of a step: the EUID printed, a session value or a counter copied, the text
copied, or the `number`-th packet of a client transmitted. -/
inductive Mark
  | printed
  | session (sessionRand : UInt32)
  | put (c : Client) (ctr : UInt32)
  | copied
  | sent (c : Client) (number : UInt32) (packet : List UInt8)
  deriving DecidableEq

def mark (mtu : ℕ) (s : State) (a : Act) : Option Mark :=
  match s.thread a.client with
  | .sprintf => some .printed
  | .sessionRand | .start => none
  | .putSessionRand => some (.session (s.sessionRand a.client))
  | .putCounter => some (.put a.client (s.packetsSent a.client))
  | .copy => some .copied
  | .send =>
    if send mtu a.ret a.client < 0 then none
    else some (.sent a.client (s.packetsSent a.client) (s.packet a.client))

/-- What the stamps on a text are. -/
structure Text where
  printed : Bool
  sessionRand : Option UInt32
  /-- The EUID was printed after the value was copied. -/
  torn : Bool
  ctr : Option (Client × UInt32)

/-- The text, and what was copied to `user_payload`. -/
structure Texts where
  text : Text
  copy : Text

def Texts.next (t : Texts) : Mark → Texts
  | .printed => { t with text := { t.text with printed := true, torn := true } }
  | .session v => { t with text := { t.text with sessionRand := some v, torn := false } }
  | .put c ctr => { t with text := { t.text with ctr := some (c, ctr) } }
  | .copied => { t with copy := t.text }
  | .sent .. => t

def Text.plain : Text := ⟨false, none, false, none⟩

def textsOf (marks : List Mark) : Texts := marks.foldl Texts.next ⟨.plain, .plain⟩

def Texts.of (t : Texts) : Client → Text
  | .udp => t.text
  | .rnb => t.copy

def sentBy (c : Client) (marks : List Mark) : ℕ :=
  marks.countP fun
    | .sent d _ _ => c = d
    | _ => false

/-- The session value as it stands behind the field. -/
def sessionField (euid : Euid) (torn : Bool) (sessionRand : UInt32) : List UInt8 :=
  if torn = true ∧ (uidText euid).length = uidChars then 0 :: (le32 sessionRand).tail
  else le32 sessionRand

/-- The buffer has the stamps that the text says. -/
structure Shows (euid : Euid) (t : Text) (buffer : List UInt8) : Prop where
  length : udpTransmissionBytes ≤ buffer.length
  uid : slice 0 uidChars buffer = asciiBytes (if t.printed then uidField euid else oldField)
  sessionRand : ∀ v, t.sessionRand = some v →
    slice uidChars sessionRandChars buffer = sessionField euid t.torn v
  ctr : ∀ d k, t.ctr = some (d, k) → slice (uidChars + sessionRandChars) 4 buffer = le32 k

variable {euid : Euid} {t : Text} {buffer : List UInt8}

theorem shows_loremIpsum (euid : Euid) : Shows euid .plain loremIpsum where
  length := by
    rw [length_loremIpsum]
    decide
  uid := slice_loremIpsum
  sessionRand := by
    intro v h
    cases h
  ctr := by
    intro d k h
    cases h

theorem Shows.take (h : Shows euid t buffer) : Shows euid t (buffer.take transmitting) where
  length := by
    have htransmitting : transmitting = udpTransmissionBytes := by decide
    rw [htransmitting, List.length_take_of_le h.length]
  uid := (slice_take (by decide)).trans h.uid
  sessionRand v hv := (slice_take (by decide)).trans (h.sessionRand v hv)
  ctr d k hk := (slice_take (by decide)).trans (h.ctr d k hk)

/-- The field is printed again over itself, or over what was there before. -/
theorem print_uid (euid : Euid) {old : List Char} (hold : old = uidField euid ∨ old = oldField)
    (h : slice 0 uidChars buffer = asciiBytes old) :
    slice 0 uidChars (writeAt 0 (asciiBytes (uidText euid) ++ [0]) buffer) =
      asciiBytes (uidField euid) := by
  have hfield : ∀ l : List Char,
      (asciiBytes (uidText euid) ++ [(0 : UInt8)] ++
          (asciiBytes l).drop (asciiBytes (uidText euid) ++ [(0 : UInt8)]).length).take uidChars =
        asciiBytes ((uidText euid ++ [Char.ofNat 0] ++
          l.drop ((uidText euid).length + 1)).take uidChars) := by
    intro l
    simp [asciiBytes, List.map_take, List.map_drop]
  rw [slice_writeAt_zero, h, hfield]
  rcases hold with rfl | rfl
  · -- what is left of the field is behind the zero
    congr 1
    have hdrop : (uidField euid).drop ((uidText euid).length + 1) =
        (oldField.drop ((uidText euid).length + 1)).take
          (uidChars - ((uidText euid).length + 1)) := by
      rw [uidField, List.drop_take, List.append_assoc, ← List.append_assoc (uidText euid),
        List.drop_left' (by simp)]
    rw [hdrop, uidField, List.take_append, @List.take_append _ (uidText euid ++ [Char.ofNat 0]),
      List.take_take]
    simp
  · rfl

/-- What `sprintf` writes ends in the field, or with the zero right behind it. -/
theorem length_print (euid : Euid) :
    (asciiBytes (uidText euid) ++ [(0 : UInt8)]).length = (uidText euid).length + 1 := by
  rw [List.length_append, length_asciiBytes, List.length_singleton]

theorem Shows.print (h : Shows euid t buffer) :
    Shows euid { t with printed := true, torn := true }
      (writeAt 0 (asciiBytes (uidText euid) ++ [0]) buffer) := by
  have htext := length_uidText euid
  have hprint := length_print euid
  have hlen : 40 ≤ buffer.length := h.length
  rw [uidChars] at htext
  refine ⟨?_, ?_, ?_, ?_⟩
  · rw [length_writeAt (by omega)]
    exact h.length
  · refine print_uid euid ?_ h.uid
    cases t.printed with
    | true => exact Or.inl rfl
    | false => exact Or.inr rfl
  · intro v hv
    have hold := h.sessionRand v hv
    by_cases hfull : (uidText euid).length = uidChars
    · have hascii : uidChars = 0 + (asciiBytes (uidText euid)).length := by
        rw [length_asciiBytes, hfull, Nat.zero_add]
      have hlast : slice (0 + (asciiBytes (uidText euid)).length) sessionRandChars
            (writeAt 0 (asciiBytes (uidText euid) ++ [0]) buffer) =
          0 :: (slice (0 + (asciiBytes (uidText euid)).length) sessionRandChars buffer).tail :=
        slice_writeAt_last (by rw [length_asciiBytes]; omega) (by decide)
      rw [← hascii, hold] at hlast
      rw [hlast, sessionField, sessionField, if_pos (And.intro rfl hfull)]
      split <;> rfl
    · rw [slice_writeAt_of_ge (by omega) (by rw [uidChars] at hfull ⊢; omega), hold, sessionField,
        sessionField, if_neg (fun hand => hfull hand.2), if_neg (fun hand => hfull hand.2)]
  · intro d k hk
    rw [slice_writeAt_of_ge (by omega) (by rw [uidChars, sessionRandChars]; omega)]
    exact h.ctr d k hk

theorem Shows.session (h : Shows euid t buffer) (v : UInt32) :
    Shows euid { t with sessionRand := some v, torn := false }
      (writeAt uidChars (le32 v) buffer) := by
  have hlen : 40 ≤ buffer.length := h.length
  have hle : uidChars + (le32 v).length ≤ buffer.length := by
    rw [uidChars, length_le32]
    omega
  refine ⟨?_, ?_, ?_, ?_⟩
  · rw [length_writeAt hle]
    exact h.length
  · rw [slice_writeAt_of_le (by omega) (by rfl)]
    exact h.uid
  · intro v' hv'
    cases hv'
    have hself : slice uidChars (le32 v).length (writeAt uidChars (le32 v) buffer) = le32 v :=
      slice_writeAt_self (by omega)
    rw [sessionField, if_neg (fun hand => by cases hand.1)]
    exact hself
  · intro d k hk
    rw [slice_writeAt_of_ge hle (by rw [length_le32]; decide)]
    exact h.ctr d k hk

theorem Shows.put (h : Shows euid t buffer) (c : Client) (k : UInt32) :
    Shows euid { t with ctr := some (c, k) }
      (writeAt (uidChars + sessionRandChars) (le32 k) buffer) := by
  have hlen : 40 ≤ buffer.length := h.length
  have hle : uidChars + sessionRandChars + (le32 k).length ≤ buffer.length := by
    rw [uidChars, sessionRandChars, length_le32]
    omega
  refine ⟨?_, ?_, ?_, ?_⟩
  · rw [length_writeAt hle]
    exact h.length
  · rw [slice_writeAt_of_le (by omega) (by decide)]
    exact h.uid
  · intro v hv
    rw [slice_writeAt_of_le (by omega) (by rfl)]
    exact h.sessionRand v hv
  · intro d k' hk'
    cases hk'
    have hself : slice (uidChars + sessionRandChars) (le32 k).length
        (writeAt (uidChars + sessionRandChars) (le32 k) buffer) = le32 k :=
      slice_writeAt_self (by omega)
    exact hself

/-! ## The threads -/

/-- The EUID and a session value are on the text. -/
structure Stamped (t : Text) : Prop where
  printed : t.printed = true
  sessionRand : ∃ v, t.sessionRand = some v

/-- The text can be sent, and if the counter on it is that of client `c`, as its packet
`n`. -/
structure Ready (c : Client) (n : UInt32) (t : Text) : Prop extends Stamped t where
  ctr : ∃ d k, t.ctr = some (d, k) ∧ (d = c → k = n)

/-- What is so where a thread stands. -/
def Stands (c : Client) (n : UInt32) (t : Texts) : ThreadAt → Prop
  | .sprintf => True
  | .sessionRand | .putSessionRand => t.text.printed = true
  | .start | .putCounter => Stamped t.text
  | .copy => c = .rnb ∧ Ready c n t.text
  | .send => Stamped t.text ∧ Ready c n (t.of c)

/-- The buffer shows the text, `user_payload` its copy, and the counters count. -/
structure Inv (euid : Euid) (marks : List Mark) (s : State) : Prop where
  text : Shows euid (textsOf marks).text s.loremIpsum
  copy : s.thread .rnb = .send → Shows euid (textsOf marks).copy (s.packet .rnb)
  stands : ∀ c, Stands c (s.packetsSent c) (textsOf marks) (s.thread c)
  number : ∀ c, s.packetsSent c = UInt32.ofNat (sentBy c marks)

variable {mtu : ℕ} {marks : List Mark} {m : Mark} {s : State} {c : Client} {n : UInt32}

theorem textsOf_concat (marks : List Mark) (m : Mark) :
    textsOf (marks ++ [m]) = (textsOf marks).next m := by
  rw [textsOf, List.foldl_append]
  rfl

theorem sentBy_concat (c : Client) (marks : List Mark) (m : Mark) :
    sentBy c (marks ++ [m]) = sentBy c marks + sentBy c [m] := List.countP_append

theorem Stamped.next {t : Texts} (h : Stamped t.text) (m : Mark) : Stamped (t.next m).text := by
  cases m with
  | printed => exact ⟨rfl, h.sessionRand⟩
  | session v => exact ⟨h.printed, v, rfl⟩
  | put d k | copied | sent d k packet => exact ⟨h.printed, h.sessionRand⟩

theorem Ready.next {t : Texts} (h : Ready c n t.text) (hput : ∀ k, m ≠ .put c k) :
    Ready c n (t.next m).text := by
  refine ⟨h.toStamped.next m, ?_⟩
  cases m with
  | put d k =>
    refine ⟨d, k, rfl, ?_⟩
    intro hd
    exact absurd (congrArg (Mark.put · k) hd) (hput k)
  | printed | session v | copied | sent d k packet => exact h.ctr

theorem Stands.next {t : Texts} {pc : ThreadAt} (h : Stands c n t pc) (hput : ∀ k, m ≠ .put c k)
    (hcopy : m = .copied → c = .udp) : Stands c n (t.next m) pc := by
  cases pc with
  | sprintf => trivial
  | sessionRand | putSessionRand =>
    show (t.next m).text.printed = true
    cases m with
    | printed => rfl
    | session v | put d k | copied | sent d k packet => exact h
  | start | putCounter => exact Stamped.next h m
  | copy => exact ⟨h.1, h.2.next hput⟩
  | send =>
    refine ⟨h.1.next m, ?_⟩
    cases c with
    | udp => exact Ready.next h.2 hput
    | rnb =>
      cases m with
      | copied => cases hcopy rfl
      | printed | session v | put d k | sent d k packet => exact h.2

/-- A thread makes a step that is seen as `m`, and stands at `pc` after it. -/
theorem Inv.step_of {s' : State} {p : ThreadAt} (hI : Inv euid marks s)
    (hthread : s'.thread = Function.update s.thread c p)
    (htext : Shows euid ((textsOf marks).next m).text s'.loremIpsum)
    (hpacket : (c = .rnb → p = .send → Shows euid ((textsOf marks).next m).copy (s'.packet .rnb)) ∧
      (c = .udp → s'.packet .rnb = s.packet .rnb))
    (hstands : Stands c (s'.packetsSent c) ((textsOf marks).next m) p)
    (hothers : ∀ d, d ≠ c → s'.packetsSent d = s.packetsSent d ∧ (∀ k, m ≠ .put d k) ∧
      (m = .copied → d = .udp) ∧ sentBy d [m] = 0)
    (hnumber : s'.packetsSent c = UInt32.ofNat (sentBy c marks + sentBy c [m])) :
    Inv euid (marks ++ [m]) s' := by
  refine ⟨?_, ?_, ?_, ?_⟩
  · rw [textsOf_concat]
    exact htext
  · intro hsend
    rw [textsOf_concat]
    cases c with
    | rnb =>
      rw [hthread, Function.update_self] at hsend
      exact hpacket.1 rfl hsend
    | udp =>
      obtain ⟨-, -, hcopied, -⟩ := hothers .rnb (by decide)
      rw [hthread, Function.update_of_ne (by decide)] at hsend
      rw [hpacket.2 rfl]
      cases m with
      | copied => cases hcopied rfl
      | printed | session v | put d k | sent d k packet => exact hI.copy hsend
  · intro d
    rw [textsOf_concat, hthread]
    by_cases hd : d = c
    · rw [hd, Function.update_self]
      exact hstands
    · obtain ⟨hsame, hput, hcopied, -⟩ := hothers d hd
      rw [Function.update_of_ne hd, hsame]
      exact (hI.stands d).next hput hcopied
  · intro d
    rw [sentBy_concat]
    by_cases hd : d = c
    · rw [hd]
      exact hnumber
    · obtain ⟨hsame, -, -, hnone⟩ := hothers d hd
      rw [hsame, hnone, Nat.add_zero]
      exact hI.number d

theorem Inv.goto {p : ThreadAt} (hI : Inv euid marks s)
    (hcopy : c = .rnb → p = .send → s.thread .rnb = .send)
    (hstands : Stands c (s.packetsSent c) (textsOf marks) p) : Inv euid marks (s.goto c p) := by
  refine ⟨hI.text, ?_, ?_, hI.number⟩
  · intro hsend
    apply hI.copy
    by_cases hc : Client.rnb = c
    · subst hc
      have hpc : Function.update s.thread .rnb p .rnb = .send := hsend
      rw [Function.update_self] at hpc
      exact hcopy rfl hpc
    · have hpc : Function.update s.thread c p .rnb = .send := hsend
      rwa [Function.update_of_ne hc] at hpc
  · intro d
    by_cases hd : d = c
    · subst hd
      show Stands d (s.packetsSent d) (textsOf marks) (Function.update s.thread d p d)
      rw [Function.update_self]
      exact hstands
    · show Stands d (s.packetsSent d) (textsOf marks) (Function.update s.thread c p d)
      rw [Function.update_of_ne hd]
      exact hI.stands d

theorem sentBy_of_quiet (c : Client) {m : Mark} (h : ∀ d k packet, m ≠ .sent d k packet) :
    sentBy c [m] = 0 := by
  cases m with
  | sent d k packet => exact absurd rfl (h d k packet)
  | printed | session v | put d k | copied => rfl

theorem sentBy_sent (c d : Client) (k : UInt32) (packet : List UInt8) :
    sentBy c [.sent d k packet] = if c = d then 1 else 0 := by
  cases c <;> cases d <;> rfl

/-- A mark that is neither a counter nor a packet is none of another client's. -/
theorem others_of_quiet {s' : State} (hsame : s'.packetsSent = s.packetsSent)
    (hput : ∀ d k, m ≠ .put d k) (hsent : ∀ d k packet, m ≠ .sent d k packet)
    (hcopy : m = .copied → c = .rnb) :
    ∀ d, d ≠ c → s'.packetsSent d = s.packetsSent d ∧ (∀ k, m ≠ .put d k) ∧
      (m = .copied → d = .udp) ∧ sentBy d [m] = 0 := by
  intro d hd
  refine ⟨congrFun hsame d, hput d, ?_, sentBy_of_quiet d hsent⟩
  intro hm
  cases d with
  | udp => rfl
  | rnb => exact absurd (hcopy hm).symm hd

theorem Inv.of_start {c : Client} {ret : Int} {rand : UInt32} (hI : Inv euid marks s)
    (ht : s.thread c = .start) :
    Inv euid (marks ++ (mark mtu s ⟨c, ret, rand⟩).toList) (step mtu euid s ⟨c, ret, rand⟩) := by
  have hstands := hI.stands c
  rw [ht] at hstands
  simp only [mark, BothClients.step, ht, Option.toList_none, List.append_nil]
  cases c with
  | udp =>
    show Inv euid marks (if ret = 0 then s.goto .udp .putCounter else s)
    split
    · exact hI.goto Client.noConfusion hstands
    · exact hI
  | rnb => exact hI.goto (fun _ => ThreadAt.noConfusion) hstands

theorem Inv.of_putCounter {c : Client} {ret : Int} {rand : UInt32} (hI : Inv euid marks s)
    (ht : s.thread c = .putCounter) :
    Inv euid (marks ++ (mark mtu s ⟨c, ret, rand⟩).toList) (step mtu euid s ⟨c, ret, rand⟩) := by
  have hstands := hI.stands c
  rw [ht] at hstands
  simp only [mark, BothClients.step, ht]
  have hready : Ready c (s.packetsSent c)
      ((textsOf marks).next (.put c (s.packetsSent c))).text :=
    ⟨Stamped.next hstands _, c, s.packetsSent c, rfl, fun _ => rfl⟩
  have hothers : ∀ d, d ≠ c → s.packetsSent d = s.packetsSent d ∧
      (∀ k, Mark.put c (s.packetsSent c) ≠ .put d k) ∧
      (Mark.put c (s.packetsSent c) = .copied → d = .udp) ∧
      sentBy d [.put c (s.packetsSent c)] = 0 := by
    intro d hd
    refine ⟨rfl, ?_, Mark.noConfusion, rfl⟩
    intro k h
    cases h
    exact hd rfl
  cases c with
  | udp =>
    exact hI.step_of (c := .udp) (p := .send) rfl (hI.text.put .udp _)
      ⟨Client.noConfusion, fun _ => rfl⟩ ⟨hready.toStamped, hready⟩ hothers (hI.number .udp)
  | rnb =>
    exact hI.step_of (c := .rnb) (p := .copy) rfl (hI.text.put .rnb _)
      ⟨fun _ => ThreadAt.noConfusion, Client.noConfusion⟩ ⟨rfl, hready⟩ hothers (hI.number .rnb)

theorem Inv.of_copy {c : Client} {ret : Int} {rand : UInt32} (hI : Inv euid marks s)
    (ht : s.thread c = .copy) :
    Inv euid (marks ++ (mark mtu s ⟨c, ret, rand⟩).toList) (step mtu euid s ⟨c, ret, rand⟩) := by
  have hstands := hI.stands c
  rw [ht] at hstands
  obtain ⟨rfl, hready⟩ := hstands
  simp only [mark, BothClients.step, ht]
  have hpacket : s.copyText.packet .rnb = s.loremIpsum.take transmitting := by
    have hself : slice 0 (s.loremIpsum.take transmitting).length
        (writeAt 0 (s.loremIpsum.take transmitting) s.userPayload) =
          s.loremIpsum.take transmitting := slice_writeAt_self (Nat.zero_le _)
    have hlen : (s.loremIpsum.take transmitting).length = transmitting :=
      List.length_take_of_le hI.text.length
    rw [hlen] at hself
    exact hself
  have hcopy : Shows euid (textsOf marks).text (s.copyText.packet .rnb) := by
    rw [hpacket]
    exact hI.text.take
  exact hI.step_of (c := .rnb) (p := .send) rfl hI.text
    ⟨fun _ _ => hcopy, Client.noConfusion⟩ ⟨hready.toStamped, hready⟩
    (others_of_quiet rfl (fun _ _ => Mark.noConfusion) (fun _ _ _ => Mark.noConfusion)
      fun _ => rfl) (hI.number .rnb)

theorem Inv.of_send {c : Client} {ret : Int} {rand : UInt32} (hI : Inv euid marks s)
    (ht : s.thread c = .send) :
    Inv euid (marks ++ (mark mtu s ⟨c, ret, rand⟩).toList) (step mtu euid s ⟨c, ret, rand⟩) := by
  have hstands := hI.stands c
  rw [ht] at hstands
  simp only [mark, BothClients.step, ht]
  by_cases hrc : send mtu ret c < 0
  · have hsame : s.count c (send mtu ret c) = s := by
      rw [State.count, if_pos hrc]
    rw [hsame, if_pos hrc, Option.toList_none, List.append_nil]
    exact hI.goto (fun _ => ThreadAt.noConfusion) hstands.1
  · have hcount : (s.count c (send mtu ret c)).packetsSent =
        Function.update s.packetsSent c (s.packetsSent c + 1) := if_neg hrc
    rw [if_neg hrc]
    refine hI.step_of (c := c) (p := .putCounter) rfl hI.text
      ⟨fun _ => ThreadAt.noConfusion, fun _ => rfl⟩ hstands.1 ?_ ?_
    · intro d hd
      refine ⟨?_, fun _ => Mark.noConfusion, Mark.noConfusion, ?_⟩
      · show (s.count c (send mtu ret c)).packetsSent d = _
        rw [hcount, Function.update_of_ne hd]
      · rw [sentBy_sent, if_neg hd]
    · show (s.count c (send mtu ret c)).packetsSent c = _
      rw [hcount, Function.update_self, sentBy_sent, if_pos rfl, UInt32.ofNat_add, hI.number c]
      rfl

theorem Inv.step {a : Act} (hI : Inv euid marks s) :
    Inv euid (marks ++ (mark mtu s a).toList) (step mtu euid s a) := by
  obtain ⟨c, ret, rand⟩ := a
  have hstands := hI.stands c
  cases ht : s.thread c with
  | sprintf =>
    simp only [mark, BothClients.step, ht]
    exact hI.step_of (c := c) (p := .sessionRand) rfl hI.text.print
      ⟨fun _ => ThreadAt.noConfusion, fun _ => rfl⟩ rfl
      (others_of_quiet rfl (fun _ _ => Mark.noConfusion) (fun _ _ _ => Mark.noConfusion)
        Mark.noConfusion) (hI.number c)
  | sessionRand =>
    rw [ht] at hstands
    simp only [mark, BothClients.step, ht, Option.toList_none, List.append_nil]
    have hdrawn : Inv euid marks (s.drawSessionRand c rand) :=
      ⟨hI.text, hI.copy, hI.stands, hI.number⟩
    exact hdrawn.goto (fun _ => ThreadAt.noConfusion) hstands
  | putSessionRand =>
    rw [ht] at hstands
    simp only [mark, BothClients.step, ht]
    exact hI.step_of (c := c) (p := .start) rfl (hI.text.session (s.sessionRand c))
      ⟨fun _ => ThreadAt.noConfusion, fun _ => rfl⟩ ⟨hstands, s.sessionRand c, rfl⟩
      (others_of_quiet rfl (fun _ _ => Mark.noConfusion) (fun _ _ _ => Mark.noConfusion)
        Mark.noConfusion) (hI.number c)
  | start => exact hI.of_start ht
  | putCounter => exact hI.of_putCounter ht
  | copy => exact hI.of_copy ht
  | send => exact hI.of_send ht

/-! ## The packets -/

/-- A packet of the sample, with what may be left of the session value. -/
structure SharedPacket (euid : Euid) (torn : Bool) (sessionRand ctr : UInt32)
    (packet : List UInt8) : Prop where
  length : packet.length = udpTransmissionBytes
  uid : slice 0 uidChars packet = asciiBytes (uidField euid)
  sessionRand : slice uidChars sessionRandChars packet = sessionField euid torn sessionRand
  ctr : slice (uidChars + sessionRandChars) 4 packet = le32 ctr

theorem SharedPacket.numbered_iff {v k number : UInt32} {packet : List UInt8}
    (h : SharedPacket euid false v k packet) :
    SocketTestPacket euid v number packet ↔ k = number := by
  constructor
  · intro hpacket
    have hctr : ofLe (le32 k) = ofLe (le32 number) := by rw [← h.ctr, hpacket.ctr]
    rw [ofLe_le32, ofLe_le32] at hctr
    exact UInt32.toNat_inj.mp hctr
  · rintro rfl
    refine ⟨h.length, h.uid, h.sessionRand.trans ?_, h.ctr⟩
    exact if_neg fun hand => by cases hand.1

theorem Inv.packet (hI : Inv euid marks s) (ht : s.thread c = .send) :
    Ready c (s.packetsSent c) ((textsOf marks).of c) ∧
      Shows euid ((textsOf marks).of c) (s.packet c) ∧
        (s.packet c).length = udpTransmissionBytes := by
  have hstands := hI.stands c
  rw [ht] at hstands
  have hshows : Shows euid ((textsOf marks).of c) (s.packet c) := by
    cases c with
    | udp => exact hI.text.take
    | rnb => exact hI.copy ht
  refine ⟨hstands.2, hshows, ?_⟩
  have hle : (s.packet c).length ≤ transmitting := by
    cases c <;> exact List.length_take_le _ _
  exact Nat.le_antisymm hle hshows.length

def marksOf (mtu : ℕ) (euid : Euid) (as : List Act) : List Mark :=
  (machine mtu euid).observe (mark mtu) (boot mtu) as

theorem run_total (mtu : ℕ) (euid : Euid) (s : State) (as : List Act) :
    ∃ t, (machine mtu euid).runFrom s as = some t := by
  induction as generalizing s with
  | nil => exact ⟨s, rfl⟩
  | cons a as ih => exact ih (step mtu euid s a)

/-- The packet has the session value copied last, by either client, and the counter copied
last, by either client, on the text it was taken from; if the value is whole, it is the
`number`-th packet of its client exactly if that is the counter. -/
def SaysLast (euid : Euid) (before : List Mark) (c : Client) (number : UInt32)
    (packet : List UInt8) : Prop :=
  let t := (textsOf before).of c
  number = UInt32.ofNat (sentBy c before) ∧
  ∃ sessionRand d ctr, t.sessionRand = some sessionRand ∧ t.ctr = some (d, ctr) ∧
    SharedPacket euid t.torn sessionRand ctr packet ∧ (d = c → ctr = number) ∧
    (t.torn = false → (SocketTestPacket euid sessionRand number packet ↔ ctr = number))

theorem Inv.saysLast (hI : Inv euid marks s) (ht : s.thread c = .send) :
    SaysLast euid marks c (s.packetsSent c) (s.packet c) := by
  obtain ⟨hready, hshows, hlen⟩ := hI.packet ht
  obtain ⟨v, hv⟩ := hready.sessionRand
  obtain ⟨d, k, hctr, hown⟩ := hready.ctr
  have huid := hshows.uid
  rw [hready.printed] at huid
  have hpacket : SharedPacket euid ((textsOf marks).of c).torn v k (s.packet c) :=
    ⟨hlen, huid, hshows.sessionRand v hv, hshows.ctr d k hctr⟩
  refine ⟨hI.number c, v, d, k, hv, hctr, hpacket, hown, ?_⟩
  intro htorn
  rw [htorn] at hpacket
  exact hpacket.numbered_iff

/-- A packet is seen at `send`. -/
theorem mark_sent {a : Act} {number : UInt32} {packet : List UInt8}
    (h : mark mtu s a = some (.sent c number packet)) :
    s.thread c = .send ∧ s.packetsSent c = number ∧ s.packet c = packet := by
  rw [mark] at h
  cases ht : s.thread a.client with
  | send =>
    simp only [ht] at h
    obtain ⟨-, h⟩ := Option.ite_none_left_eq_some.mp h
    obtain ⟨rfl, hnumber, hpacket⟩ := Mark.sent.inj (Option.some.inj h)
    exact ⟨ht, hnumber, hpacket⟩
  | sprintf | sessionRand | putSessionRand | start | putCounter | copy =>
    simp only [ht] at h
    cases h

/-- **Every packet says what was copied last**, however the two clients interleave.  So it
has the number of its own client's packet exactly if that is the counter copied last, and a
value that the EUID was printed over has its lowest byte cleared, if the EUID fills the
field. -/
theorem both_clients (mtu : ℕ) (euid : Euid) (as : List Act) :
    ∀ before c number packet after,
      marksOf mtu euid as = before ++ .sent c number packet :: after →
        SaysLast euid before c number packet := by
  obtain ⟨s, hr⟩ := run_total mtu euid (boot mtu) as
  have hinit : Inv euid [] (boot mtu) := by
    refine ⟨shows_loremIpsum euid, ?_, fun _ => trivial, fun _ => rfl⟩
    intro h
    cases h
  have heach := Machine.history_each (f := mark mtu) (P := fun _ _ => True) (I := Inv euid)
    (Q := fun before o => ∀ c number packet, o = .sent c number packet →
      SaysLast euid before c number packet)
    (fun marks s a s' hI _ hs => by
      obtain rfl := Option.some.inj hs
      exact hI.step)
    (fun marks s a s' hI _ _ o ho c number packet hsent => by
      subst hsent
      obtain ⟨ht, rfl, rfl⟩ := mark_sent ho
      exact hI.saysLast ht)
    hinit (Machine.along_trivial (fun _ _ => trivial) _ _) hr
  intro before c number packet after hsplit
  exact heach before _ after hsplit c number packet rfl

/-- The UDP client copies its session value, drawn first, last, and sends its second packet
after the RNB client copied its counter. -/
def crossedRun : List Act :=
  let udp : Act := ⟨.udp, 0, 7⟩
  let rnb : Act := ⟨.rnb, 0, 9⟩
  [udp, udp, rnb, rnb, rnb, udp, udp, rnb, udp, udp, udp, rnb, udp]

def crossedEuid : Euid := rnbUtilsGetEuid 0xFFFFF4CE0ABC1234

/-- The packet has the session value of the UDP client and the counter of the RNB client. -/
def crossedPacket : List UInt8 :=
  asciiBytes "F4CEABC1234".toList ++ [0] ++ le32 7 ++ le32 0 ++ slice 20 20 loremIpsum

theorem both_clients_crossedRun :
    ∃ before, marksOf 100 crossedEuid crossedRun = before ++ [.sent .udp 1 crossedPacket] ∧
      SharedPacket crossedEuid false 7 0 crossedPacket ∧
      ¬ SocketTestPacket crossedEuid 7 1 crossedPacket := by
  have hsplit : marksOf 100 crossedEuid crossedRun =
      (marksOf 100 crossedEuid crossedRun).dropLast ++ [.sent .udp 1 crossedPacket] := by
    decide +kernel
  obtain ⟨-, v, d, k, hv, hctr, hpacket, -, hiff⟩ :=
    both_clients 100 crossedEuid crossedRun _ _ _ _ _ hsplit
  have htext : ((textsOf (marksOf 100 crossedEuid crossedRun).dropLast).of .udp).torn = false ∧
      ((textsOf (marksOf 100 crossedEuid crossedRun).dropLast).of .udp).sessionRand = some 7 ∧
      ((textsOf (marksOf 100 crossedEuid crossedRun).dropLast).of .udp).ctr = some (.rnb, 0) := by
    decide +kernel
  obtain ⟨htorn, hsession, hput⟩ := htext
  obtain rfl := Option.some.inj (hv.symm.trans hsession)
  obtain ⟨rfl, rfl⟩ := Prod.mk.inj (Option.some.inj (hctr.symm.trans hput))
  rw [htorn] at hpacket
  refine ⟨_, hsplit, hpacket, ?_⟩
  rw [hiff htorn]
  decide

end RedNodeBus.Telemetry.BothClients

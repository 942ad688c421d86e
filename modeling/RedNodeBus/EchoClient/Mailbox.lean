import RedNodeBus.EchoClient.RnbPayload

/-!
# The payload mailbox

`recv_buf`, `received` and the semaphore `wait_rnb_data` are a mailbox of one payload:
`rnb_utils_handle_user_payload` fills it, `k_sem_take` lets the client in, and
`process_rnb_proto` reads it, in four statements.  `start_rnb_proto` empties it, but only
the half it knows: `received` is reset and the semaphore is not.  A payload delivered
before leaves the semaphore up, and the client examines a payload of length `0` that
nobody sent.

The other way to go wrong is a delivery while the client reads.  Where neither happens
(`Collides`), every look at the mailbox shows a payload that was delivered and that no
earlier call of `process_rnb_proto` has looked at (`examined_fresh`).  `BoxInv` is the
invariant: a semaphore that is up stands for a payload nobody has looked at, and the
client that is let in has that payload to itself.
-/

namespace RedNodeBus.EchoClient

/-- In `process_rnb_proto`, up to the last look at the mailbox. -/
def RnbThreadAt.examining : RnbThreadAt → Bool
  | .receivedZero | .receivedNegative | .compareLength | .compareBytes _ => true
  | .initRecv | .initTransmit | .resetReceived | .startSend _ | .test _ | .semTake | .count
  | .cancelReply | .processSend _ => false

namespace RnbClient

variable {cfg : RnbConfig} {c c' : RnbClient}

/-! ## What is seen of the mailbox -/

/-- A payload is delivered, the client is let in, or `process_rnb_proto` looks at the
mailbox: at a length and at the buffer. -/
inductive BoxMark
  | delivered (userPayload : List UInt8)
  | taken
  | examined (received : Int) (recvBuf : List UInt8)
  deriving DecidableEq, Repr

def boxMark (c : RnbClient) : Act → Option BoxMark
  | .deliver userPayload => some (.delivered userPayload)
  | .client _ =>
    match c.thread with
    | .semTake => some .taken
    | .receivedZero | .receivedNegative | .compareLength => some (.examined c.received c.recvBuf)
    | .compareBytes received => some (.examined received c.recvBuf)
    | _ => none
  | .expire _ | .take | .work _ => none

/-- The mailbox holds this payload. -/
def Shows (userPayload : List UInt8) (received : Int) (recvBuf : List UInt8) : Prop :=
  received = userPayload.length ∧ recvBuf.take userPayload.length = userPayload

/-- None of these is a look at the mailbox. -/
def Unread (marks : List BoxMark) : Prop := ∀ received recvBuf, .examined received recvBuf ∉ marks

/-- After these marks a look at the mailbox shows a payload that was delivered, and that
no call of `process_rnb_proto` before the current one has looked at. -/
def Fresh (marks : List BoxMark) (received : Int) (recvBuf : List UInt8) : Prop :=
  ∃ before userPayload between current,
    marks = before ++ .delivered userPayload :: (between ++ .taken :: current) ∧
      Shows userPayload received recvBuf ∧ Unread between ∧ .taken ∉ current

/-- A payload waits in the mailbox, and nobody has looked at it. -/
def Waiting (marks : List BoxMark) (c : RnbClient) : Prop :=
  ∃ before userPayload after, marks = before ++ .delivered userPayload :: after ∧
    Shows userPayload c.received c.recvBuf ∧ Unread after

/-- `start_rnb_proto` resets `received`, or `process_rnb_proto` begins to read, with a
payload delivered that has not been taken; or a payload is delivered while the client
reads. -/
def Collides (c : RnbClient) : Act → Prop
  | .client _ => (c.thread = .resetReceived ∨ c.thread = .receivedZero) ∧ c.waitRnbData = true
  | .deliver _ => c.thread.examining = true ∧ c.thread ≠ .receivedZero
  | _ => False

instance (c : RnbClient) : (a : Act) → Decidable (c.Collides a)
  | .client _ | .deliver _ => inferInstanceAs (Decidable (_ ∧ _))
  | .expire _ | .take | .work _ => isFalse id

/-! ## What a step does to the mailbox -/

structure SameBox (c c' : RnbClient) : Prop where
  recvBuf : c'.recvBuf = c.recvBuf
  received : c'.received = c.received
  waitRnbData : c'.waitRnbData = c.waitRnbData

/-- **What a statement of the client thread does to the mailbox.** -/
inductive BoxMove (c c' : RnbClient) : Prop
  | takes (at_semTake : c.thread = .semTake) (waitRnbData : c.waitRnbData = true)
      (box : SameBox { c with waitRnbData := false } c') (after : c'.thread = .receivedZero)
  | resets (at_resetReceived : c.thread = .resetReceived)
      (box : SameBox { c with received := 0 } c')
      (after : c'.thread.examining = false)
  | examines (before : c.thread.examining = true) (box : SameBox c c')
      (after : c'.thread.examining = true → c'.thread ≠ .receivedZero)
      (length : ∀ received, c'.thread = .compareBytes received → received = c.received.toNat)
  | stays (before : c.thread.examining = false) (not_semTake : c.thread ≠ .semTake)
      (box : SameBox c c') (after : c'.thread.examining = false)

theorem sendRnbData_box (cfg : RnbConfig) (o : Outcome) (pc : RnbSendAt) (c : RnbClient) :
    SameBox c (c.sendRnbData cfg o pc).2 ∧ (c.sendRnbData cfg o pc).2.thread = c.thread := by
  cases pc <;> exact ⟨⟨rfl, rfl, rfl⟩, rfl⟩

/-- A statement outside `process_rnb_proto` that goes on outside it. -/
theorem BoxMove.outside {pc pc' : RnbThreadAt} {c₁ : RnbClient} (ht : c.thread = pc)
    (hpc : pc.examining = false) (hne : pc ≠ .semTake) (box : SameBox c c₁)
    (hpc' : pc'.examining = false) : BoxMove c (c₁.goto pc') :=
  .stays (ht ▸ hpc) (ht ▸ hne) ⟨box.recvBuf, box.received, box.waitRnbData⟩ hpc'

/-- A look at the mailbox after which `process_rnb_proto` looks no more. -/
theorem BoxMove.lastLook {pc pc' : RnbThreadAt} (ht : c.thread = pc) (hpc : pc.examining = true)
    (hpc' : pc'.examining = false) : BoxMove c (c.goto pc') := by
  refine .examines (ht ▸ hpc) ⟨rfl, rfl, rfl⟩ ?_ ?_
  · intro h
    exact absurd (hpc'.symm.trans h) (by decide)
  · rintro received rfl
    cases hpc'

theorem box_move {o : Outcome} (h : c.startClientRnb cfg o = some c') : BoxMove c c' := by
  cases client_step h with
  | initRecv ht | initTransmit ht | goesOn ht | count ht | cancelReply ht =>
    exact .outside ht rfl (by decide) ⟨rfl, rfl, rfl⟩ rfl
  | resetReceived ht => exact .resets ht ⟨rfl, rfl, rfl⟩ rfl
  | @startSend pc _ _ ht sends | @started pc _ _ ht sends | @processSend pc _ _ ht sends
  | @processed pc _ _ ht sends =>
    have hbox := (sendRnbData_box cfg o pc c).1
    rw [sends] at hbox
    exact .outside ht rfl RnbThreadAt.noConfusion hbox rfl
  | again ht => exact .outside ht rfl RnbThreadAt.noConfusion ⟨rfl, rfl, rfl⟩ rfl
  | semTake ht up => exact .takes ht up ⟨rfl, rfl, rfl⟩ rfl
  | empty ht | negative ht | otherLength ht | otherBytes ht | sameBytes ht =>
    exact .lastLook ht rfl rfl
  | nonempty ht | nonneg ht | sameLength ht =>
    exact .examines (ht ▸ rfl) ⟨rfl, rfl, rfl⟩ (fun _ => by simp [goto]) (by simp [goto])

theorem other_box {a : Act} (hc : ∀ o, a ≠ .client o) (hd : ∀ p, a ≠ .deliver p)
    (h : step cfg c a = some c') : SameBox c c' ∧ c'.thread = c.thread ∧ c.boxMark a = none := by
  cases a with
  | client o => exact absurd rfl (hc o)
  | deliver p => exact absurd rfl (hd p)
  | expire _ | take =>
    obtain ⟨works, -, rfl⟩ := Option.map_eq_some_iff.mp h
    exact ⟨⟨rfl, rfl, rfl⟩, rfl, rfl⟩
  | work o =>
    obtain ⟨hbox, ht⟩ := sendRnbData_box cfg o c.handler c
    obtain ⟨-, ⟨sends, rfl⟩ | ⟨sends, rfl⟩⟩ := handler_move h <;>
    · rw [sends] at hbox ht
      exact ⟨⟨hbox.recvBuf, hbox.received, hbox.waitRnbData⟩, ht, rfl⟩

/-! ## The invariant -/

structure BoxInv (marks : List BoxMark) (c : RnbClient) : Prop where
  waiting : c.waitRnbData = true → Waiting marks c
  reading : c.thread.examining = true → (c.thread = .receivedZero → c.waitRnbData = false) →
    Fresh marks c.received c.recvBuf
  alone : c.thread.examining = true → c.thread ≠ .receivedZero → c.waitRnbData = false
  length : ∀ received, c.thread = .compareBytes received → (received : Int) = c.received

theorem boxInv_boot : BoxInv [] boot where
  waiting := fun h => by cases h
  reading := fun h => by cases h
  alone := fun h => by cases h
  length := fun _ h => by cases h

variable {marks : List BoxMark}

theorem boxMark_examining (o : Outcome) (hI : BoxInv marks c) (h : c.thread.examining = true) :
    c.boxMark (.client o) = some (.examined c.received c.recvBuf) := by
  rw [boxMark]
  cases ht : c.thread with
  | receivedZero | receivedNegative | compareLength => rfl
  | compareBytes received => rw [← hI.length received ht]
  | _ =>
    rw [ht] at h
    cases h

theorem boxMark_outside (o : Outcome) (h : c.thread.examining = false) (hne : c.thread ≠ .semTake) :
    c.boxMark (.client o) = none := by
  rw [boxMark]
  cases ht : c.thread with
  | receivedZero | receivedNegative | compareLength | compareBytes received =>
    rw [ht] at h
    cases h
  | semTake => exact absurd ht hne
  | _ => rfl

/-- The client outside `process_rnb_proto`. -/
theorem BoxInv.of_outside (ht : c.thread.examining = false)
    (hw : c.waitRnbData = true → Waiting marks c) : BoxInv marks c where
  waiting := hw
  reading := fun h => absurd (ht.symm.trans h) (by decide)
  alone := fun h => absurd (ht.symm.trans h) (by decide)
  length := by
    intro received h
    rw [h] at ht
    cases ht

theorem Waiting.sameBox (h : Waiting marks c) (box : SameBox c c') : Waiting marks c' := by
  rw [Waiting, box.recvBuf, box.received]
  exact h

theorem Waiting.fresh (h : Waiting marks c) : Fresh (marks ++ [.taken]) c.received c.recvBuf := by
  obtain ⟨before, p, after, rfl, hshows, hunread⟩ := h
  exact ⟨before, p, after, [], by simp, hshows, hunread, by simp⟩

theorem Fresh.again {received r : Int} {recvBuf b : List UInt8}
    (h : Fresh marks received recvBuf) : Fresh (marks ++ [.examined r b]) received recvBuf := by
  obtain ⟨before, p, between, current, rfl, hshows, hunread, htaken⟩ := h
  refine ⟨before, p, between, current ++ [.examined r b], by simp, hshows, hunread, ?_⟩
  simpa using htaken

theorem Fresh.empty {recvBuf : List UInt8} (h : Fresh marks 0 recvBuf) : .delivered [] ∈ marks := by
  obtain ⟨before, p, between, current, rfl, ⟨hlen, -⟩, -⟩ := h
  obtain rfl : p = [] := List.eq_nil_of_length_eq_zero (Int.ofNat_eq_zero.mp hlen.symm)
  simp

/-- A payload is delivered while the client does not read, or has not begun to. -/
theorem boxInv_deliver {p : List UInt8}
    (hc : c.thread.examining = true → c.thread = .receivedZero) :
    BoxInv (marks ++ [.delivered p]) (c.rnbUtilsHandleUserPayload p) where
  waiting := by
    intro _
    have hcopy : (overwrite c.recvBuf p).take p.length = p := by simp [overwrite]
    exact ⟨marks, p, [], rfl, ⟨rfl, hcopy⟩, by simp [Unread]⟩
  reading := by
    intro hx hw
    cases hw (hc hx)
  alone := fun hx hne => absurd (hc hx) hne
  length := by
    intro received ht
    have hx : c.thread.examining = true := by
      show (c.rnbUtilsHandleUserPayload p).thread.examining = true
      rw [ht]
      rfl
    cases (hc hx).symm.trans ht

theorem BoxInv.client {o : Outcome} (hI : BoxInv marks c) (ha : ¬ c.Collides (.client o))
    (h : c.startClientRnb cfg o = some c') :
    BoxInv (marks ++ (c.boxMark (.client o)).toList) c' := by
  cases box_move h with
  | takes before hw box after =>
    have hfresh := (hI.waiting hw).fresh
    have hmark : c.boxMark (.client o) = some .taken := by rw [boxMark, before]
    rw [hmark, Option.toList_some]
    refine ⟨?_, ?_, fun _ hne => absurd after hne, ?_⟩
    · rw [box.waitRnbData]
      intro hw'
      cases hw'
    · intro _ _
      rw [box.recvBuf, box.received]
      exact hfresh
    · intro received hc
      rw [after] at hc
      cases hc
  | resets before box after =>
    rw [boxMark_outside o (before ▸ rfl) (by simp [before]), Option.toList_none, List.append_nil]
    refine .of_outside after ?_
    rw [box.waitRnbData]
    exact fun hw => absurd ⟨Or.inl before, hw⟩ ha
  | examines before box after length =>
    have hdown : c.waitRnbData = false := by
      by_cases hz : c.thread = .receivedZero
      · rw [← Bool.not_eq_true]
        exact fun hw => ha ⟨Or.inr hz, hw⟩
      · exact hI.alone before hz
    have hfresh := hI.reading before fun _ => hdown
    rw [boxMark_examining o hI before, Option.toList_some]
    refine ⟨?_, ?_, fun _ _ => box.waitRnbData.trans hdown, ?_⟩
    · rw [box.waitRnbData, hdown]
      intro hw
      cases hw
    · intro _ _
      rw [box.recvBuf, box.received]
      exact hfresh.again
    · intro received hc
      obtain ⟨_, p, _, _, _, hshows, _⟩ := hfresh
      rw [length received hc, box.received, hshows.1]
      rfl
  | stays before hne box after =>
    rw [boxMark_outside o before hne, Option.toList_none, List.append_nil]
    refine .of_outside after ?_
    rw [box.waitRnbData]
    exact fun hw => (hI.waiting hw).sameBox box

theorem boxInv_step {a : Act} (hI : BoxInv marks c) (ha : ¬ c.Collides a)
    (h : step cfg c a = some c') : BoxInv (marks ++ (c.boxMark a).toList) c' := by
  have hother : SameBox c c' ∧ c'.thread = c.thread ∧ c.boxMark a = none →
      BoxInv (marks ++ (c.boxMark a).toList) c' := by
    rintro ⟨box, ht, hm⟩
    rw [hm, Option.toList_none, List.append_nil]
    refine ⟨?_, ?_, ?_, ?_⟩
    · rw [box.waitRnbData]
      exact fun hw => (hI.waiting hw).sameBox box
    · rw [ht, box.waitRnbData, box.received, box.recvBuf]
      exact hI.reading
    · rw [ht, box.waitRnbData]
      exact hI.alone
    · rw [ht, box.received]
      exact hI.length
  cases a with
  | client o => exact hI.client ha h
  | deliver p =>
    simp only [step] at h
    split at h
    · obtain rfl := Option.some.inj h
      refine boxInv_deliver fun hx => ?_
      by_contra hne
      exact ha ⟨hx, hne⟩
    · cases h
  | expire w => exact hother (other_box (by rintro _ ⟨⟩) (by rintro _ ⟨⟩) h)
  | take => exact hother (other_box (by rintro _ ⟨⟩) (by rintro _ ⟨⟩) h)
  | work o => exact hother (other_box (by rintro _ ⟨⟩) (by rintro _ ⟨⟩) h)

theorem BoxInv.fresh {a : Act} {received : Int} {recvBuf : List UInt8} (hI : BoxInv marks c)
    (ha : ¬ c.Collides a) (hm : c.boxMark a = some (.examined received recvBuf)) :
    Fresh marks received recvBuf := by
  cases a with
  | client o =>
    have hx : c.thread.examining = true := by
      cases ht : c.thread with
      | receivedZero | receivedNegative | compareLength | compareBytes received => rfl
      | _ =>
        rw [boxMark, ht] at hm
        cases hm
    rw [boxMark_examining o hI hx] at hm
    obtain ⟨rfl, rfl⟩ := BoxMark.examined.inj (Option.some.inj hm)
    refine hI.reading hx fun hz => ?_
    rw [← Bool.not_eq_true]
    exact fun hw => ha ⟨Or.inr hz, hw⟩
  | deliver p | expire w | take | work o => cases hm

/-- **Each payload is examined at most once, and none that was not delivered**, in a run
in which no delivery collides with the reset or with the reads.  So a length of `0` is
one of an empty payload. -/
theorem examined_fresh (cfg : RnbConfig) {as : List Act} {c : RnbClient}
    (hr : (machine cfg).run as = some c)
    (hok : (machine cfg).Along (fun c a => ¬ c.Collides a) boot as) :
    ∀ before received recvBuf after,
      (machine cfg).observe boxMark boot as = before ++ .examined received recvBuf :: after →
        Fresh before received recvBuf ∧ (received = 0 → .delivered [] ∈ before) := by
  intro before received recvBuf after he
  have heach := Machine.history_each (f := boxMark) (I := BoxInv)
    (Q := fun marks m => ∀ received recvBuf, m = .examined received recvBuf →
      Fresh marks received recvBuf)
    (fun _ _ _ _ hI ha hs => boxInv_step hI ha hs)
    (fun _ _ _ _ hI ha _ o ho _ _ hm => hI.fresh ha (ho.trans (congrArg some hm)))
    boxInv_boot hok hr
  have hfresh : Fresh before received recvBuf := heach before _ after he received recvBuf rfl
  refine ⟨hfresh, ?_⟩
  rintro rfl
  exact hfresh.empty

/-- A cycle up to the first request, and its answer. -/
def examinedRun : List Act :=
  calls (List.replicate 10 0) ++ [.deliver [76]] ++ calls (List.replicate 5 0)

theorem examined_fresh_examinedRun :
    ∃ c, (machine .short).run examinedRun = some c ∧
      (machine .short).observe boxMark boot examinedRun
        = [.delivered [76], .taken] ++ .examined 1 [76] ::
          [.examined 1 [76], .examined 1 [76], .examined 1 [76]] ∧
      Fresh [.delivered [76], .taken] 1 [76] := by
  obtain ⟨c, hr⟩ := Option.isSome_iff_exists.mp
    (show ((machine .short).run examinedRun).isSome = true by decide +kernel)
  have hobs : (machine .short).observe boxMark boot examinedRun
      = [.delivered [76], .taken] ++ .examined 1 [76] ::
        [.examined 1 [76], .examined 1 [76], .examined 1 [76]] := by decide
  exact ⟨c, hr, hobs, (examined_fresh .short hr (by decide) _ _ _ _ hobs).1⟩

/-- A payload is delivered before the client starts. -/
def phantomRun : List Act := [.deliver [76]] ++ calls (List.replicate 12 0)

/-- A length of `0` is examined, and the only payload delivered has one byte. -/
theorem phantom_examined :
    ¬ ∀ (as : List Act) (c : RnbClient), (machine .short).run as = some c →
      ∀ before received recvBuf after,
        (machine .short).observe boxMark boot as = before ++ .examined received recvBuf :: after →
          received = 0 → .delivered [] ∈ before := by
  intro h
  obtain ⟨c, hr⟩ := Option.isSome_iff_exists.mp
    (show ((machine .short).run phantomRun).isSome = true by decide +kernel)
  have hobs : (machine .short).observe boxMark boot phantomRun
      = [.delivered [76], .taken] ++ .examined 0 [76] :: [] := by decide
  exact absurd (h phantomRun c hr _ _ _ _ hobs rfl) (by decide)

end RnbClient

end RedNodeBus.EchoClient

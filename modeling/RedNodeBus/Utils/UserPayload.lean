import RedNodeBus.Utils.Node

/-!
# The payload of an event

A user payload goes through three copies of its length: the driver's length byte,
`event_size` in `handle_rnb_user_event`, and the length byte of the slot, which is what
`process_rnb_utils_event` hands on.  `event_size` counts the length byte as well and is
a `uint8_t`, so for a payload of `255` bytes it is `0` and nothing is copied: the slot
shows the event it held before.

`delivery` follows one event through an idle node, whatever its slot held.  What comes
out is what the slot shows after the copy, and that is the payload exactly if its length
is not `255` (`payload_delivered_iff`).
-/

namespace RedNodeBus.Utils

namespace Node

variable {α : Type} {img : Image α} {n : Node α}

/-- What `rnb_utils_handle_user_payload` is handed: a length and that many bytes. -/
def handed (n : Node α) : Act → Option (UInt8 × List UInt8)
  | .utils _ =>
    match n.thread with
    | .process slot .handleUserPayload =>
      let event := n.pool.slots slot
      some (event.eventParamsLength, event.userPayload.take event.eventParamsLength.toNat)
    | _ => none
  | _ => none

/-- No event waits or is being processed, and a slot is free. -/
structure Idle (n : Node α) : Prop where
  thread : n.thread = .fifoGet
  fifo : n.pool.fifo = []
  free : n.pool.firstFree RnbUtilsEvent.inUse ≠ none

instance (n : Node α) : Decidable n.Idle :=
  decidable_of_iff (n.thread = .fifoGet ∧ n.pool.fifo = [] ∧
      n.pool.firstFree RnbUtilsEvent.inUse ≠ none)
    ⟨fun ⟨a, b, c⟩ => ⟨a, b, c⟩, fun ⟨a, b, c⟩ => ⟨a, b, c⟩⟩

/-- `handle_rnb_user_event`, then `process_rnb_utils_event` with `rnb_utils_user_payload`. -/
def payloadActs (r : Report) : List Act := .report r :: Act.utilsTimes 4

/-- The payload of `r` is handed on as it was reported, and `sntp_sem` is given exactly
if it is the trigger. -/
def Delivers (img : Image α) (n : Node α) (r : Report) : Prop :=
  (machine img n.app).observe handed n (payloadActs r) = [(r.eventParamsLength, r.eventParams)] ∧
    ((machine img n.app).runFrom n (payloadActs r)).map sntpSem
      = some (n.sntpSem || decide (r.eventParams = sntpUpdateTrigger))

instance (img : Image α) (n : Node α) (r : Report) : Decidable (n.Delivers img r) :=
  inferInstanceAs (Decidable (_ ∧ _))

/-- **An event through an idle node.**  What the slot shows once the parameters are
copied into it is what comes out. -/
theorem delivery (img : Image α) {r : Report} (hevt : r.evt = .userPayload) (hn : n.Idle) :
    ∃ slot, n.pool.firstFree RnbUtilsEvent.inUse = some slot ∧
      let event := (n.pool.slots slot).fill r
      (machine img n.app).observe handed n (payloadActs r)
          = [(event.eventParamsLength, event.userPayload.take event.eventParamsLength.toNat)] ∧
        ((machine img n.app).runFrom n (payloadActs r)).map sntpSem
          = some (n.sntpSem || isSntpUpdateTrigger event.eventParamsLength event.userPayload) := by
  obtain ⟨slot, hslot⟩ := Option.ne_none_iff_exists'.mp hn.free
  refine ⟨slot, hslot, ?_⟩
  have hput : handleRnbUserEvent r n.pool
      = { n.pool.set slot ((n.pool.slots slot).fill r) with fifo := [slot] } := by
    have hbusy : n.pool.firstFree eventOps.busy = some slot := hslot
    have hfree := SlotPool.put_of_free (e := r) hbusy
    rwa [hn.fifo, List.nil_append] at hfree
  have hfill : ((n.pool.slots slot).fill r).rnbUserEvent = .userPayload := hevt
  simp [payloadActs, Act.utilsTimes, List.replicate, machine, Machine.observe, Machine.runFrom,
    step, rnbUtilsProcessThread, processRnbUtilsEvent, branch, handed, hput, hn.thread, hfill]

/-! ## The copy -/

theorem fits_iff {r : Report} : r.Fits ↔ r.eventParamsLength ≠ 255 := by
  have hlt := r.eventParamsLength.toNat_lt
  rw [Report.Fits, ne_eq, ← UInt8.toNat_inj]
  simp only [UInt8.reduceToNat]
  omega

/-- Whatever the slot held, it shows the length and the bytes of an event that fits. -/
theorem fill_payload {r : Report} (e : RnbUtilsEvent) (h : r.Fits) :
    (e.fill r).eventParamsLength = r.eventParamsLength ∧
      (e.fill r).userPayload = r.eventParams ++ e.rnbUserEventParams.drop r.memory.length := by
  have hm : (e.fill r).rnbUserEventParams
      = r.memory ++ e.rnbUserEventParams.drop r.memory.length := by
    rw [RnbUtilsEvent.fill, memcpy, Report.eventSize_toNat h, List.take_length]
  rw [RnbUtilsEvent.eventParamsLength, RnbUtilsEvent.userPayload, hm]
  exact ⟨rfl, rfl⟩

/-- Of a payload of `255` bytes nothing is copied. -/
theorem fill_overlong {r : Report} (e : RnbUtilsEvent) (h : r.eventParamsLength = 255) :
    (e.fill r).rnbUserEventParams = e.rnbUserEventParams := by
  have hsize : r.eventSize.toNat = 0 := by rw [Report.eventSize, h]; rfl
  rw [RnbUtilsEvent.fill, memcpy, hsize, List.take_zero, List.drop_zero, List.nil_append]

/-- The test of `rnb_utils_user_payload` is that the payload is the trigger. -/
theorem isSntpUpdateTrigger_eq {length : UInt8} {params : List UInt8} (rest : List UInt8)
    (hl : params.length = length.toNat) :
    isSntpUpdateTrigger length (params ++ rest) = decide (params = sntpUpdateTrigger) := by
  rw [Bool.eq_iff_iff, isSntpUpdateTrigger, Bool.and_eq_true, beq_iff_eq, beq_iff_eq,
    decide_eq_true_iff]
  constructor
  · rintro ⟨rfl, ht⟩
    have hl5 : params.length = 5 := hl
    rwa [List.take_append_of_le_length hl5.ge, List.take_of_length_le hl5.le] at ht
  · rintro rfl
    exact ⟨UInt8.toNat_inj.mp hl.symm, rfl⟩

/-- An event that fits is delivered whatever the slot held. -/
theorem delivers_of_fits (img : Image α) {r : Report} (hevt : r.evt = .userPayload)
    (h : r.Fits) (hn : n.Idle) : n.Delivers img r := by
  obtain ⟨slot, -, hobs, hsem⟩ := delivery img hevt hn
  obtain ⟨hlen, hpay⟩ := fill_payload (n.pool.slots slot) h
  rw [hlen, hpay] at hobs hsem
  constructor
  · rw [hobs, ← r.length_eq, List.take_left]
  · rw [hsem, isSntpUpdateTrigger_eq _ r.length_eq]

theorem idle_boot (app : α) : (boot app).Idle := by
  have hfree : EventPool.empty.firstFree RnbUtilsEvent.inUse ≠ none := by decide
  exact ⟨rfl, rfl, hfree⟩

/-- The slots of a node that has just booted are empty, and a payload of `255` bytes
leaves them so. -/
theorem not_delivers_boot (img : Image α) (app : α) {r : Report} (hevt : r.evt = .userPayload)
    (h : r.eventParamsLength = 255) : ¬ (boot app).Delivers img r := by
  rintro ⟨hobs', -⟩
  obtain ⟨slot, -, hobs, -⟩ := delivery img hevt (idle_boot app)
  have hlen : (((boot app).pool.slots slot).fill r).eventParamsLength = 0 := by
    rw [RnbUtilsEvent.eventParamsLength, fill_overlong _ h]
    rfl
  have hpair := List.cons.inj (hobs'.symm.trans hobs)
  rw [hlen, h] at hpair
  exact absurd (Prod.mk.inj hpair.1).1 (by decide)

/-- **A payload is delivered whatever its slot held before exactly if its length is not
`255`.** -/
theorem payload_delivered_iff (img : Image α) (app : α) {r : Report}
    (hevt : r.evt = .userPayload) :
    (∀ n : Node α, n.Idle → n.Delivers img r) ↔ r.eventParamsLength ≠ 255 := by
  constructor
  · intro h hlen
    exact not_delivers_boot img app hevt hlen (h _ (idle_boot app))
  · intro h n hn
    exact delivers_of_fits img hevt (fits_iff.mpr h) hn

/-- A payload of `Image.plain`. -/
def clockReport : Report := ⟨0, .userPayload, 5, sntpUpdateTrigger, rfl⟩

theorem payload_delivered_iff_clock :
    (∀ n : Node UserRole, n.Idle → n.Delivers .plain clockReport) ↔ (5 : UInt8) ≠ 255 :=
  payload_delivered_iff .plain .undefined rfl

def overlongReport : Report := ⟨0, .userPayload, 255, List.replicate 255 0,
  List.length_replicate⟩

/-- The trigger is delivered, then `255` other bytes: the trigger is delivered again. -/
theorem payload_replayed :
    ¬ ∀ (as : List Act) (n : Node UserRole) (r : Report),
      (machine .plain .undefined).run as = some n → n.Idle → r.evt = .userPayload →
      n.Delivers .plain r := by
  intro h
  obtain ⟨n, hr, hn⟩ := (Option.any_eq_true (fun n : Node UserRole =>
    decide (n.Idle ∧ ¬ n.Delivers .plain overlongReport))
    ((machine .plain .undefined).run (payloadActs clockReport ++ Act.utilsTimes 1))).mp
    (by decide)
  obtain ⟨hidle, hnot⟩ := of_decide_eq_true hn
  exact hnot (h _ n overlongReport hr hidle rfl)

end Node

end RedNodeBus.Utils

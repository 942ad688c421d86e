import RedNodeBus.Lib.EchoStar
import RedNodeBus.Utils.Awaiting

/-!
# A payload on its way through the node

Between the driver and `rnb_utils_handle_user_payload` a payload waits in a slot of the
event pool, among the state events and whatever else is reported.  `NodeLink` is a node with
a note, for each event that is not done with, of the letter it brings, if it brings one.

What the notes say is in the slots (`Aligned`).  So the node hands over each payload as it
was reported, once and in order, and loses one only where it arrives and all four slots are
in use (`Aligned.report`, `Aligned.step`).
-/

namespace RedNodeBus

namespace Utils

def Report.userPayload (p : List UInt8) (h : p.length < 256) : Report where
  dev := 0
  evt := .userPayload
  eventParamsLength := UInt8.ofNat p.length
  eventParams := p
  length_eq := (UInt8.toNat_ofNat_of_lt' h).symm

end Utils

namespace EchoClient

open Echoes (Letter Fate)
open Utils

/-- A node, and which of the events that wait there bring a letter. -/
structure NodeLink (ι : Type) where
  node : Node Unit
  tags : List (Option (Letter ι (List UInt8)))

namespace NodeLink

variable {ι : Type}

def boot : NodeLink ι := ⟨.boot (), []⟩

def letters (s : NodeLink ι) : List (Letter ι (List UInt8)) := s.tags.filterMap id

/-- `handle_rnb_user_event` is called, with an event that brings this letter or none. -/
def put (r : Report) (tag : Option (Letter ι (List UInt8))) (s : NodeLink ι) : NodeLink ι where
  node := { s.node with pool := handleRnbUserEvent r s.node.pool }
  tags := s.tags ++ if s.node.pool.firstFree RnbUtilsEvent.inUse = none then [] else [tag]

/-- The driver reports a letter; with no slot free it is lost. -/
def report (d : Letter ι (List UInt8)) (s : NodeLink ι) :
    Option (Fate (Letter ι (List UInt8)) × NodeLink ι) :=
  if h : d.payload.length < 256 then
    some (if s.node.pool.firstFree RnbUtilsEvent.inUse = none then .lost d else .kept,
      s.put (.userPayload d.payload h) (some d))
  else none

/-- What becomes of a letter when `process_rnb_utils_event` is done with its event: the
hook is handed the bytes in the slot. -/
def fate (n : Node Unit) (slot : Fin 4) (line : Line) :
    Option (Letter ι (List UInt8)) → Fate (Letter ι (List UInt8))
  | some d =>
    if line = .handleUserPayload then
      let event := n.pool.slots slot
      .delivered { d with payload := event.userPayload.take event.eventParamsLength.toNat }
    else .lost d
  | none => .kept

/-- A step of the node.  Payloads are reported as letters only. -/
def step (img : Image Unit) (s : NodeLink ι) (a : Node.Act) :
    Option (Fate (Letter ι (List UInt8)) × NodeLink ι) :=
  match a with
  | .report r => if r.evt = .userPayload then none else some (.kept, s.put r none)
  | .utils ret =>
    (Node.step img s.node (.utils ret)).map fun n =>
      match s.node.thread, n.thread, s.tags with
      | .process slot line, .clearInUse _, tag :: tags => (fate s.node slot line tag, ⟨n, tags⟩)
      | _, _, tags => (.kept, ⟨n, tags⟩)
  | a => (Node.step img s.node a).map fun n => (.kept, { s with node := n })

/-- What the note says of an event is so. -/
def Bears (args : EventArgs) : Option (Letter ι (List UInt8)) → Prop
  | some d => ∃ dev, args = ⟨dev, .userPayload, UInt8.ofNat d.payload.length :: d.payload⟩
  | none => args.evt ≠ .userPayload

/-- The notes say what is in the slots. -/
structure Aligned (s : NodeLink ι) : Prop where
  held : s.node.Held
  inBranch : s.node.InBranch
  bears : List.Forall₂ Bears (s.node.argsOf s.node.awaiting) s.tags

variable {img : Image Unit} {s s' : NodeLink ι} {d : Letter ι (List UInt8)}
  {fate : Fate (Letter ι (List UInt8))}

theorem aligned_boot : (boot : NodeLink ι).Aligned where
  held := Node.held_boot ()
  inBranch := by
    intro slot line h
    cases h
  bears := .nil

theorem Aligned.put {r : Report} {tag : Option (Letter ι (List UInt8))} (h : s.Aligned)
    (hr : ∀ e : RnbUtilsEvent, Bears (e.fill r).args tag) : (s.put r tag).Aligned where
  held := SlotPool.Held.put h.held r
  inBranch := by
    intro slot line ht hline
    have hslot : slot ∈ s.node.held :=
      Node.mem_held_of_awaiting (by
        rw [Node.awaiting, show s.node.thread = .process slot line from ht]
        exact List.mem_cons_self)
    have hsame : (s.put r tag).node.pool.slots slot = s.node.pool.slots slot :=
      SlotPool.Held.put_slots h.held hslot
    rw [hsame]
    exact h.inBranch slot line ht hline
  bears := by
    have hold : (s.put r tag).node.argsOf s.node.awaiting = s.node.argsOf s.node.awaiting :=
      Node.argsOf_report h.held rfl fun _ hs => Node.mem_held_of_awaiting hs
    cases hf : s.node.pool.firstFree RnbUtilsEvent.inUse with
    | none =>
      have hsame : (s.put r tag).node = s.node := by
        rw [NodeLink.put, handleRnbUserEvent, SlotPool.put_of_full hf]
      rw [hsame, NodeLink.put, hf, if_pos rfl, List.append_nil]
      exact h.bears
    | some slot =>
      have hpool : (s.put r tag).node.pool = { s.node.pool.set slot
          ((s.node.pool.slots slot).fill r) with fifo := s.node.pool.fifo ++ [slot] } :=
        SlotPool.put_of_free hf
      have hfifo : (s.put r tag).node.pool.fifo = s.node.pool.fifo ++ [slot] := by
        rw [hpool]
      have hawaiting : (s.put r tag).node.awaiting = s.node.awaiting ++ [slot] :=
        Node.awaiting_concat rfl hfifo
      have htags : (s.put r tag).tags = s.tags ++ [tag] := by
        rw [NodeLink.put, hf, if_neg (by simp)]
      rw [hawaiting, htags, Node.argsOf_append, hold]
      refine List.rel_append h.bears (.cons ?_ .nil)
      rw [hpool]
      show Bears ((s.node.pool.set slot ((s.node.pool.slots slot).fill r)).slots slot).args tag
      rw [SlotPool.set_slots_self]
      exact hr _

/-- **A letter that arrives waits, or is lost.** -/
theorem Aligned.report (h : s.Aligned) (hfits : d.payload.length ≤ 254)
    (hs : s.report d = some (fate, s')) :
    (d :: s.letters).Perm (fate.gone ++ s'.letters) ∧ s'.Aligned := by
  rw [NodeLink.report, dif_pos (by omega)] at hs
  obtain ⟨rfl, rfl⟩ := Prod.mk.inj (Option.some.inj hs)
  constructor
  · rw [letters, letters, NodeLink.put]
    cases hf : s.node.pool.firstFree RnbUtilsEvent.inUse with
    | none =>
      rw [if_pos rfl, if_pos rfl, List.append_nil]
      exact List.Perm.refl _
    | some slot =>
      rw [if_neg (by simp), if_neg (by simp), List.filterMap_append]
      exact (List.perm_append_singleton d (s.tags.filterMap id)).symm
  · refine h.put fun e => ⟨0, ?_⟩
    refine e.args_fill ?_
    show (UInt8.ofNat d.payload.length).toNat ≤ 254
    rw [UInt8.toNat_ofNat_of_lt' (Nat.lt_of_le_of_lt hfits (by decide))]
    exact hfits

theorem Aligned.other {n : Node Unit} (h : s.Aligned) (hpool : n.pool = s.node.pool)
    (ht : n.thread = s.node.thread) : ({ s with node := n } : NodeLink ι).Aligned where
  held := by
    show SlotPool.Held eventOps n.pool n.thread.hand
    rw [hpool, ht]
    exact h.held
  inBranch := by
    intro slot line hline hne
    show (n.pool.slots slot).rnbUserEvent = _ ↔ _
    rw [hpool]
    exact h.inBranch slot line (ht.symm.trans hline) hne
  bears := by
    have hsame : n.argsOf n.awaiting = s.node.argsOf s.node.awaiting := by
      rw [Node.argsOf, Node.argsOf, Node.awaiting, Node.awaiting, hpool, ht]
    show List.Forall₂ Bears (n.argsOf n.awaiting) s.tags
    rw [hsame]
    exact h.bears

/-- **A step of the utils thread keeps the letters, or hands one over as it came.** -/
theorem Aligned.utils {ret : Int} (h : s.Aligned) (hs : s.step img (.utils ret) = some (fate, s')) :
    s.letters = fate.gone ++ s'.letters ∧ s'.Aligned := by
  obtain ⟨n, hn, heq⟩ := Option.map_eq_some_iff.mp hs
  obtain ⟨hmove, hbranch⟩ := Node.await_move h.inBranch hn
  have hheld := Node.held_step h.held hn
  cases hmove with
  | waits hawaiting hgoes =>
    have hkept : (fate, s') = (.kept, ⟨n, s.tags⟩) := by
      rw [← heq]
      split
      · rename_i slot line slot' tag tags ht ht' htags
        exact absurd ht' (hgoes slot line ht slot')
      · rfl
    obtain ⟨rfl, rfl⟩ := Prod.mk.inj hkept
    refine ⟨rfl, hheld, hbranch, ?_⟩
    show List.Forall₂ Bears (n.argsOf n.awaiting) s.tags
    rw [hawaiting, Node.argsOf_awaiting h.held hn fun _ hs => hs]
    exact h.bears
  | @done slot line ht ht' hawaiting hkind =>
    have hbears := h.bears
    rw [hawaiting, Node.argsOf, List.map_cons] at hbears
    cases htags : s.tags with
    | nil =>
      rw [htags] at hbears
      cases hbears
    | cons tag tags =>
      rw [htags] at hbears
      obtain ⟨htag, hrest⟩ := List.forall₂_cons.mp hbears
      have hpop : (fate, s') = (NodeLink.fate s.node slot line tag, ⟨n, tags⟩) := by
        rw [← heq, ht, ht', htags]
      obtain ⟨rfl, rfl⟩ := Prod.mk.inj hpop
      constructor
      · rw [letters, letters, htags]
        cases tag with
        | none => rfl
        | some d =>
          obtain ⟨dev, hargs⟩ := htag
          have hevt : (s.node.pool.slots slot).rnbUserEvent = .userPayload :=
            congrArg EventArgs.evt hargs
          have hbytes := RnbUtilsEvent.handed_of_args hargs
          rw [NodeLink.fate, if_pos (hkind.mp hevt)]
          simp only [hbytes]
          rfl
      · refine ⟨hheld, hbranch, ?_⟩
        show List.Forall₂ Bears (n.argsOf n.awaiting) tags
        rw [Node.argsOf_awaiting h.held hn fun slot' hs => by
          rw [hawaiting]
          exact List.mem_cons_of_mem _ hs]
        exact hrest

/-- **A step of the node keeps the letters that wait, or hands one over as it came.** -/
theorem Aligned.step {a : Node.Act} (h : s.Aligned) (hs : s.step img a = some (fate, s')) :
    s.letters = fate.gone ++ s'.letters ∧ s'.Aligned := by
  cases a with
  | report r =>
    obtain ⟨hevt, hs⟩ := Option.ite_none_left_eq_some.mp hs
    obtain ⟨rfl, rfl⟩ := Prod.mk.inj (Option.some.inj hs)
    constructor
    · rw [letters, letters, NodeLink.put]
      split
      · rw [List.append_nil]
        rfl
      · rw [List.filterMap_append]
        exact (List.append_nil _).symm
    · exact h.put fun e => hevt
  | utils ret => exact h.utils hs
  | take =>
    obtain ⟨n, hn, heq⟩ := Option.map_eq_some_iff.mp hs
    obtain ⟨rfl, rfl⟩ := Prod.mk.inj heq
    obtain ⟨w, rest, -, -, rfl⟩ := Node.take_cases hn
    exact ⟨rfl, h.other rfl rfl⟩
  | work ret =>
    obtain ⟨n, hn, heq⟩ := Option.map_eq_some_iff.mp hs
    obtain ⟨rfl, rfl⟩ := Prod.mk.inj heq
    obtain ⟨pc, -, rfl⟩ := Node.work_cases hn
    exact ⟨rfl, h.other rfl rfl⟩
  | initialized =>
    obtain ⟨n, hn, heq⟩ := Option.map_eq_some_iff.mp hs
    obtain ⟨rfl, rfl⟩ := Prod.mk.inj heq
    obtain ⟨-, rfl⟩ := Node.initialized_cases hn
    exact ⟨rfl, h.other rfl rfl⟩
  | start =>
    have heq : (Fate.kept, ({ s with node := s.node.rnbUtilsStart } : NodeLink ι)) = (fate, s') :=
      Option.some.inj hs
    obtain ⟨rfl, rfl⟩ := Prod.mk.inj heq
    exact ⟨rfl, h.other (by rw [Node.rnbUtilsStart_eq]) (by rw [Node.rnbUtilsStart_eq])⟩
  | stop =>
    have heq : (Fate.kept, ({ s with node := s.node.rnbUtilsStop } : NodeLink ι)) = (fate, s') :=
      Option.some.inj hs
    obtain ⟨rfl, rfl⟩ := Prod.mk.inj heq
    exact ⟨rfl, h.other (by rw [Node.rnbUtilsStop_eq]) (by rw [Node.rnbUtilsStop_eq])⟩

end NodeLink

end EchoClient

end RedNodeBus

import RedNodeBus.Lib.BoundedQueue
import Mathlib.Data.Fintype.Card
import Mathlib.Data.List.FinRange

/-!
# A pool of slots and the FIFO of the filled ones

A fixed array of `n` slots, each with a busy mark, searched linearly for a free
one; a filled slot goes to the back of a FIFO of slot numbers, and the server
keeps the slot it works on until it clears the mark.  Slot numbers are reused, so
their order says nothing about the order of the elements.

`Held p hand` is the invariant: the slots in the server's hand and in the FIFO are
distinct and are exactly the busy ones.  With it the pool refines the bounded queue
of capacity `n` (`refines`): a search fails just when `n` elements are unfinished,
and `contents`, what the held slots show in FIFO order, is what the queue holds.
-/

universe u v w

/-- What is done to one slot, and what a filled slot shows.  `fits e` says that a
slot can take all of `e`; a slot filled with such an `e` shows `what e`. -/
structure SlotOps (α : Type u) (ε : Type v) (ο : Type w) where
  busy : α → Bool
  fill : ε → α → α
  clear : α → α
  view : α → ο
  what : ε → ο
  fits : ε → Prop
  busy_fill : ∀ e a, busy (fill e a) = true
  busy_clear : ∀ a, busy (clear a) = false
  view_fill : ∀ e a, fits e → view (fill e a) = what e

structure SlotPool (n : Nat) (α : Type u) where
  slots : Fin n → α
  fifo : List (Fin n)

namespace SlotPool

variable {n : Nat} {α : Type u} {ε : Type v} {ο : Type w}

def firstFree (busy : α → Bool) (p : SlotPool n α) : Option (Fin n) :=
  (List.finRange n).find? fun i => !busy (p.slots i)

def set (p : SlotPool n α) (i : Fin n) (a : α) : SlotPool n α :=
  { p with slots := Function.update p.slots i a }

/-- Fill the first free slot and queue it; nothing if there is none. -/
def put (ops : SlotOps α ε ο) (e : ε) (p : SlotPool n α) : SlotPool n α :=
  match p.firstFree ops.busy with
  | some i => { p.set i (ops.fill e (p.slots i)) with fifo := p.fifo ++ [i] }
  | none => p

def release (ops : SlotOps α ε ο) (i : Fin n) (p : SlotPool n α) : SlotPool n α :=
  p.set i (ops.clear (p.slots i))

/-- The slots in use: the one in hand and those in the FIFO. -/
def held (p : SlotPool n α) (hand : Option (Fin n)) : List (Fin n) := hand.toList ++ p.fifo

def contents (ops : SlotOps α ε ο) (p : SlotPool n α) (hand : Option (Fin n)) : List ο :=
  (p.held hand).map fun i => ops.view (p.slots i)

/-- The slots in use are distinct and are exactly the busy ones. -/
structure Held (ops : SlotOps α ε ο) (p : SlotPool n α) (hand : Option (Fin n)) : Prop where
  nodup : (p.held hand).Nodup
  busy_iff : ∀ i, ops.busy (p.slots i) = true ↔ i ∈ p.held hand

variable {ops : SlotOps α ε ο} {p : SlotPool n α} {hand : Option (Fin n)} {i : Fin n}

@[simp] theorem set_slots_self (a : α) : (p.set i a).slots i = a := Function.update_self ..

theorem set_slots_of_ne {j : Fin n} (a : α) (h : j ≠ i) : (p.set i a).slots j = p.slots j :=
  Function.update_of_ne h ..

@[simp] theorem set_fifo (a : α) : (p.set i a).fifo = p.fifo := rfl

theorem firstFree_some (h : p.firstFree ops.busy = some i) : ops.busy (p.slots i) = false := by
  simpa using List.find?_some h

/-! ### The search fails exactly when the pool is full -/

theorem Held.length_le (h : Held ops p hand) : (p.held hand).length ≤ n := by
  simpa using h.nodup.length_le_card

theorem Held.firstFree_eq_none (h : Held ops p hand) :
    p.firstFree ops.busy = none ↔ ¬ (p.held hand).length < n := by
  have hall : p.firstFree ops.busy = none ↔ ∀ i, i ∈ p.held hand := by
    simp [firstFree, ← h.busy_iff]
  rw [hall]
  constructor
  · intro hmem hlt
    have hsub : List.Subperm (List.finRange n) (p.held hand) :=
      (List.nodup_finRange n).subperm fun i _ => hmem i
    have := hsub.length_le
    rw [List.length_finRange] at this
    omega
  · intro hlen i
    by_contra hi
    have := (List.nodup_cons.mpr ⟨hi, h.nodup⟩).length_le_card
    simp only [List.length_cons, Fintype.card_fin] at this
    omega

/-! ### The three operations -/

/-- A slot that is not written shows what it showed. -/
theorem map_view_set {l : List (Fin n)} (hi : i ∉ l) (a : α) :
    l.map (fun j => ops.view ((p.set i a).slots j)) = l.map fun j => ops.view (p.slots j) :=
  List.map_congr_left fun j hj => by
    have hji : j ≠ i := by
      rintro rfl
      exact hi hj
    rw [set_slots_of_ne a hji]

theorem put_of_free {e : ε} (hf : p.firstFree ops.busy = some i) :
    p.put ops e = { p.set i (ops.fill e (p.slots i)) with fifo := p.fifo ++ [i] } := by
  rw [put, hf]

theorem put_of_full {e : ε} (hf : p.firstFree ops.busy = none) : p.put ops e = p := by
  rw [put, hf]

theorem Held.not_mem_of_free (h : Held ops p hand) (hf : p.firstFree ops.busy = some i) :
    i ∉ p.held hand := by
  rw [← h.busy_iff, firstFree_some hf]
  exact Bool.false_ne_true

theorem Held.put_slots (h : Held ops p hand) {e : ε} (hi : i ∈ p.held hand) :
    (p.put ops e).slots i = p.slots i := by
  cases hf : p.firstFree ops.busy with
  | none => rw [put_of_full hf]
  | some j =>
    rw [put_of_free hf]
    exact set_slots_of_ne _ fun he => h.not_mem_of_free hf (he ▸ hi)

theorem Held.put (h : Held ops p hand) (e : ε) : Held ops (p.put ops e) hand := by
  cases hf : p.firstFree ops.busy with
  | none => rwa [put_of_full hf]
  | some i =>
    have hi := h.not_mem_of_free hf
    have hheld : (p.put ops e).held hand = p.held hand ++ [i] := by
      rw [put_of_free hf]
      simp [held]
    constructor
    · rw [hheld]
      exact List.nodup_append_comm.mp (List.nodup_cons.mpr ⟨hi, h.nodup⟩)
    · intro j
      rw [hheld, put_of_free hf]
      by_cases hj : j = i
      · subst hj
        simp [ops.busy_fill]
      · simp [set_slots_of_ne _ hj, h.busy_iff, hj]

/-- The contents grow by what the slot that was filled shows now. -/
theorem Held.contents_put (h : Held ops p hand) {e : ε} (hf : p.firstFree ops.busy = some i) :
    (p.put ops e).contents ops hand
      = p.contents ops hand ++ [ops.view (ops.fill e (p.slots i))] := by
  have hi := h.not_mem_of_free hf
  have hheld : (p.put ops e).held hand = p.held hand ++ [i] := by
    rw [put_of_free hf]
    simp [held]
  rw [contents, hheld, List.map_append, contents, put_of_free hf]
  simp only [List.map_cons, List.map_nil, set_slots_self]
  rw [map_view_set hi]

theorem Held.release (h : Held ops p (some i)) : Held ops (p.release ops i) none := by
  obtain ⟨hi, hnd⟩ := List.nodup_cons.mp (show (i :: p.fifo).Nodup from h.nodup)
  refine ⟨hnd, ?_⟩
  intro j
  by_cases hj : j = i
  · subst hj
    simp [SlotPool.release, ops.busy_clear, held, hi]
  · have := h.busy_iff j
    simp only [held, Option.toList_some, List.singleton_append, List.mem_cons, hj, false_or] at this
    simpa [SlotPool.release, set_slots_of_ne _ hj, held] using this

theorem Held.contents_release (h : Held ops p (some i)) :
    p.contents ops (some i)
      = ops.view (p.slots i) :: (p.release ops i).contents ops none := by
  have hi := (List.nodup_cons.mp (show (i :: p.fifo).Nodup from h.nodup)).1
  simp only [contents, held, Option.toList_some, Option.toList_none, List.singleton_append,
    List.nil_append, List.map_cons]
  rw [SlotPool.release, set_fifo, map_view_set hi]

theorem Held.take {rest : List (Fin n)} (h : Held ops p none) (hf : p.fifo = i :: rest) :
    Held ops { p with fifo := rest } (some i) := by
  have hheld : p.held none = i :: rest := hf
  constructor
  · have := h.nodup
    rwa [hheld] at this
  · intro j
    rw [h.busy_iff, hheld]
    rfl

/-! ### The pool refines the bounded queue -/

/-- The pool with its server, driven by the acts of the queue. -/
def machine (ops : SlotOps α ε ο) (blank : Fin n → α) :
    Machine (SlotPool n α × Option (Fin n)) (BoundedQueue.Act ε) where
  init := (⟨blank, []⟩, none)
  step
    | (p, hand), .offer e => some (p.put ops e, hand)
    | (⟨slots, i :: rest⟩, none), .serve => some (⟨slots, rest⟩, some i)
    | (p, some i), .finish => some (p.release ops i, none)
    | _, _ => none

theorem machine_serve {blank : Fin n → α} {rest : List (Fin n)} (h : p.fifo = i :: rest) :
    (machine ops blank).step (p, none) .serve = some ({ p with fifo := rest }, some i) := by
  obtain ⟨slots, fifo⟩ := p
  obtain rfl : fifo = i :: rest := h
  rfl

/-- The elements an act offers all fit. -/
def OfferFits (ops : SlotOps α ε ο) (_ : SlotPool n α × Option (Fin n)) :
    BoundedQueue.Act ε → Prop
  | .offer e => ops.fits e
  | _ => True

/-- The pool `s` holds what the queue `q` holds. -/
structure Shows (ops : SlotOps α ε ο) (s : SlotPool n α × Option (Fin n))
    (q : BoundedQueue ο) : Prop where
  held : Held ops s.1 s.2
  serving : q.serving = s.2.map fun i => ops.view (s.1.slots i)
  contents : q.unfinished = s.1.contents ops s.2

theorem Shows.length_eq {s : SlotPool n α × Option (Fin n)} {q : BoundedQueue ο}
    (h : Shows ops s q) : q.unfinished.length = (s.1.held s.2).length := by
  rw [h.contents, SlotPool.contents, List.length_map]

/-- A pool finds no slot exactly when the queue it shows is full. -/
theorem Shows.firstFree_eq_none {s : SlotPool n α × Option (Fin n)} {q : BoundedQueue ο}
    (h : Shows ops s q) : s.1.firstFree ops.busy = none ↔ ¬ q.unfinished.length < n := by
  rw [h.held.firstFree_eq_none, h.length_eq]

theorem Shows.waiting {s : SlotPool n α × Option (Fin n)} {q : BoundedQueue ο}
    (h : Shows ops s q) : q.waiting = s.1.fifo.map fun i => ops.view (s.1.slots i) := by
  have hc := h.contents
  rw [BoundedQueue.unfinished, h.serving, SlotPool.contents, SlotPool.held, List.map_append] at hc
  refine List.append_cancel_left (hc.trans ?_)
  cases s.2 <;> rfl

/-- **The pool refines the queue**, as long as what is offered fits. -/
def refines (ops : SlotOps α ε ο) (blank : Fin n → α) (hb : ∀ i, ops.busy (blank i) = false) :
    Machine.Refines (machine ops blank) (BoundedQueue.machine n) (OfferFits ops)
      (fun _ a => some (a.map ops.what)) where
  R := Shows ops
  init := ⟨⟨List.nodup_nil, fun i => by simp [machine, hb, held]⟩, rfl, rfl⟩
  step := by
    rintro ⟨p, hand⟩ q a s' hR hok hs
    have hq := hR.waiting
    cases a with
    | offer e =>
      obtain rfl := Option.some.inj hs
      refine ⟨_, rfl, ?_⟩
      cases hf : p.firstFree ops.busy with
      | none =>
        rw [if_neg (hR.firstFree_eq_none.mp hf), put_of_full hf]
        exact hR
      | some i =>
        have hlt : q.unfinished.length < n := by
          by_contra hn
          rw [hR.firstFree_eq_none.mpr hn] at hf
          cases hf
        rw [if_pos hlt]
        refine ⟨hR.held.put e, ?_, ?_⟩
        · refine hR.serving.trans ?_
          cases hand with
          | none => rfl
          | some j => simp only [Option.map_some, hR.held.put_slots (i := j) (by simp [held])]
        · rw [hR.held.contents_put hf, ops.view_fill _ _ hok, ← hR.contents]
          simp [BoundedQueue.unfinished]
    | serve =>
      obtain ⟨slots, _ | ⟨i, rest⟩⟩ := p
      · cases hand <;> cases hs
      · cases hand with
        | some j => cases hs
        | none =>
          obtain rfl := Option.some.inj hs
          obtain ⟨serving, waiting⟩ := q
          obtain rfl : serving = none := hR.serving
          obtain rfl := hq
          refine ⟨_, rfl, hR.held.take rfl, rfl, rfl⟩
    | finish =>
      cases hand with
      | none => obtain ⟨slots, _ | ⟨i, rest⟩⟩ := p <;> cases hs
      | some i =>
        obtain rfl := Option.some.inj hs
        have hc := hR.contents.trans hR.held.contents_release
        obtain ⟨serving, waiting⟩ := q
        obtain rfl : serving = some (ops.view (p.slots i)) := hR.serving
        refine ⟨_, rfl, hR.held.release, rfl, ?_⟩
        exact (List.cons.inj hc).2

end SlotPool

import RedNodeBus.Lib.Machine

/-!
# Echoes told apart by a key

A client sends requests, and a network returns a copy of each, its echo, late or never.
Nothing in an echo says which request it answers: the client compares a key of it, such as
its length, with the key it expects, and counts the echo if the two agree.

`Channel` is the network's side: what was sent, the echoes on their way and the one that
came last.  `Client` is what a client does, step by step, as far as it concerns this: it
sets the key it expects (`drawn`), sends, compares, counts.  The two run together as
`network`.

An echo is outstanding while it is on its way or waits to be compared.  `credited` says
that every echo counted is that of the request sent last, provided that no key is drawn that an
outstanding echo of an earlier request has, and that nothing is sent while an outstanding
echo has the key expected (`Distinct`).  The invariant is `Told`: an outstanding echo with
the key expected is that of the last request.
-/

universe u v w x

namespace Echoes

/-! ## The channel -/

/-- The payloads sent, the numbers of the requests whose echoes are on their way, and of the
one whose echo came last. -/
structure Channel (π : Type w) where
  sent : List π
  inFlight : List ℕ
  slot : Option ℕ

namespace Channel

variable {π : Type w} {κ : Type x}

def empty : Channel π := ⟨[], [], none⟩

def send (p : π) (ch : Channel π) : Channel π :=
  { ch with sent := ch.sent ++ [p], inFlight := ch.sent.length :: ch.inFlight }

/-- The echo of request `j` comes in. -/
def arrive (j : ℕ) (ch : Channel π) : Channel π :=
  { ch with inFlight := ch.inFlight.erase j, slot := some j }

/-- The echo of request `j` is lost. -/
def drop (j : ℕ) (ch : Channel π) : Channel π := { ch with inFlight := ch.inFlight.erase j }

/-- The requests whose echoes are on their way or, if one waits, wait to be compared. -/
def outstanding (waiting : Bool) (ch : Channel π) : List ℕ :=
  ch.inFlight ++ if waiting then ch.slot.toList else []

/-- The key of request `j`. -/
def keyOf (key : π → κ) (ch : Channel π) (j : ℕ) : Option κ := (ch.sent[j]?).map key

/-- An outstanding echo with this key is that of the request sent last. -/
def Told (key : π → κ) (waiting : Bool) (k : κ) (ch : Channel π) : Prop :=
  ∀ j ∈ ch.outstanding waiting, ch.keyOf key j = some k → j + 1 = ch.sent.length

/-- No outstanding echo has this key. -/
def Unused (key : π → κ) (waiting : Bool) (k : κ) (ch : Channel π) : Prop :=
  ∀ j ∈ ch.outstanding waiting, ch.keyOf key j ≠ some k

variable {key : π → κ} {k : κ} {ch : Channel π} {waiting waiting' : Bool} {j : ℕ} {p : π}

instance [DecidableEq κ] : Decidable (ch.Told key waiting k) :=
  inferInstanceAs (Decidable (∀ j ∈ _, _ → _))

instance [DecidableEq κ] : Decidable (ch.Unused key waiting k) :=
  inferInstanceAs (Decidable (∀ j ∈ _, _))

theorem told_empty : (empty : Channel π).Told key false k := by
  intro j hj
  cases hj

theorem Told.of_waiting (h : ch.Told key waiting k)
    (hw : waiting' = true → waiting = true) : ch.Told key waiting' k := by
  intro j hj
  refine h j ?_
  rcases List.mem_append.mp hj with hj | hj
  · exact List.mem_append_left _ hj
  · cases waiting' with
    | false => cases hj
    | true =>
      rw [hw rfl]
      exact List.mem_append_right _ hj

theorem Told.drop (h : ch.Told key waiting k) : (ch.drop j).Told key waiting k := by
  intro i hi
  refine h i ?_
  rcases List.mem_append.mp hi with hi | hi
  · exact List.mem_append_left _ (List.mem_of_mem_erase hi)
  · exact List.mem_append_right _ hi

/-- An echo that comes in takes the place of the one before. -/
theorem Told.arrive (h : ch.Told key waiting k) (hj : j ∈ ch.inFlight) :
    (ch.arrive j).Told key waiting' k := by
  intro i hi
  refine h i (List.mem_append_left _ ?_)
  rcases List.mem_append.mp hi with hi | hi
  · exact List.mem_of_mem_erase hi
  · cases waiting' with
    | false => cases hi
    | true =>
      obtain rfl := List.mem_singleton.mp hi
      exact hj

theorem keyOf_send {i : ℕ} (hi : i < ch.sent.length) :
    (ch.send p).keyOf key i = ch.keyOf key i := by
  rw [keyOf, keyOf, send, List.getElem?_append_left hi]

theorem keyOf_send_of_some {i : ℕ} {k' : κ} (h : ch.keyOf key i = some k') :
    (ch.send p).keyOf key i = some k' := by
  obtain ⟨q, hq, -⟩ := Option.map_eq_some_iff.mp h
  rw [keyOf_send (List.getElem?_eq_some_iff.mp hq).1, h]

/-- A request goes out when no outstanding echo has the key. -/
theorem Told.send (h : ch.Unused key waiting k) : (ch.send p).Told key waiting k := by
  intro i hi hk
  have hlength : (ch.send p).sent.length = ch.sent.length + 1 := List.length_append
  have hlt : i < (ch.send p).sent.length := by
    obtain ⟨q, hq, -⟩ := Option.map_eq_some_iff.mp hk
    exact (List.getElem?_eq_some_iff.mp hq).1
  rcases Nat.lt_or_eq_of_le (Nat.le_of_lt_succ (hlength ▸ hlt)) with hi' | hi'
  · have hold : i ∈ ch.outstanding waiting := by
      rcases List.mem_append.mp hi with hi | hi
      · rcases List.mem_cons.mp hi with rfl | hi
        · exact absurd hi' (Nat.lt_irrefl _)
        · exact List.mem_append_left _ hi
      · exact List.mem_append_right _ hi
    rw [keyOf_send hi'] at hk
    exact absurd hk (h i hold)
  · rw [hlength, hi']

end Channel

/-! ## The client -/

/-- What a step of the client is to the exchange. -/
inductive Event (π : Type w) (κ : Type x)
  | drawn (k : κ)
  | sent (p : π)
  | compared (accepted : Bool)
  | counted

/-- The key expected and the count of the echoes credited, after a step. -/
def Event.account {π : Type w} {κ : Type x} (before : κ × UInt32) :
    Option (Event π κ) → κ × UInt32
  | some (.drawn k) => (k, before.2)
  | some .counted => (before.1, before.2 + 1)
  | some (.sent _) | some (.compared _) | none => before

/-- A client that compares the key of an echo with the key it expects. -/
structure Client (σ : Type u) (α : Type v) (π : Type w) (κ : Type x) where
  machine : Machine σ α
  key : π → κ
  event : σ → α → Option (Event π κ)
  /-- The step takes an echo in. -/
  receives : σ → α → Bool
  /-- The step that takes this echo in. -/
  delivery : π → α
  /-- The key expected, and the count of the echoes credited. -/
  account : σ → κ × UInt32
  /-- The key of an echo that waits to be compared. -/
  held : σ → Option κ
  /-- An echo has passed the comparison and is not counted yet. -/
  accepted : σ → Bool
  account_init : (account machine.init).2 = 0
  held_init : held machine.init = none
  accepted_init : accepted machine.init = false
  event_receives : ∀ {s a}, receives s a = true → event s a = none
  account_step : ∀ {s a s'}, machine.step s a = some s' →
    account s' = Event.account (account s) (event s a)
  held_step : ∀ {s a s'}, machine.step s a = some s' → receives s a = false →
    held s' = none ∨ held s' = held s
  held_delivery : ∀ {s p s'}, machine.step s (delivery p) = some s' →
    receives s (delivery p) = true → held s' = none ∨ held s' = some (key p)
  accepted_step : ∀ {s a s'}, machine.step s a = some s' → accepted s' = true →
    accepted s = true ∨ event s a = some (.compared true)
  compared : ∀ {s a ok}, event s a = some (.compared ok) →
    accepted s = false ∧ ∃ k, held s = some k ∧ (ok = true → k = (account s).1)
  counted : ∀ {s a s'}, machine.step s a = some s' → event s a = some .counted →
    accepted s = true ∧ accepted s' = false

/-- A step of the client, or of the channel: the echo of request `j` comes in or is lost. -/
inductive Act (α : Type v)
  | act (a : α)
  | arrive (j : ℕ)
  | drop (j : ℕ)

/-- What is seen of a run: a request goes out, the client compares the echo of a request, and
it counts one. -/
inductive Mark
  | sent
  | compared (j : Option ℕ) (accepted : Bool)
  | counted
  deriving DecidableEq, Repr

/-- A comparison of the echo of the request then sent last has passed, and since then the
client has only sent. -/
def Accepted (before : List Mark) : Prop :=
  ∃ pre i post, before = pre ++ .compared (some i) true :: post ∧
    i + 1 = pre.count .sent ∧ ∀ m ∈ post, m = .sent

/-- **What may be seen after what was seen before.**  The client compares echoes only, and
rejects every one but that of the request sent last; and it counts an echo once, after it
has accepted it. -/
def Credited (before : List Mark) : Mark → Prop
  | .sent => True
  | .compared j accepted =>
    ∃ i, j = some i ∧ (i + 1 ≠ before.count .sent → accepted = false)
  | .counted => Accepted before

theorem Accepted.sent {before : List Mark} (h : Accepted before) :
    Accepted (before ++ [.sent]) := by
  obtain ⟨pre, i, post, rfl, hi, hpost⟩ := h
  refine ⟨pre, i, post ++ [.sent], by simp, hi, ?_⟩
  intro m hm
  rcases List.mem_append.mp hm with hm | hm
  · exact hpost m hm
  · exact List.mem_singleton.mp hm

namespace Client

variable {σ : Type u} {α : Type v} {π : Type w} {κ : Type x} (C : Client σ α π κ)

def record (s : σ) (a : α) (ch : Channel π) : Channel π :=
  match C.event s a with
  | some (.sent p) => ch.send p
  | _ => ch

/-- The client takes in echoes of the channel only. -/
def step (s : σ × Channel π) : Act α → Option (σ × Channel π)
  | .act a =>
    if C.receives s.1 a then none
    else (C.machine.step s.1 a).map fun s' => (s', C.record s.1 a s.2)
  | .arrive j =>
    match s.2.sent[j]? with
    | some p =>
      if j ∈ s.2.inFlight ∧ C.receives s.1 (C.delivery p) = true then
        (C.machine.step s.1 (C.delivery p)).map fun s' => (s', s.2.arrive j)
      else none
    | none => none
  | .drop j => if j ∈ s.2.inFlight then some (s.1, s.2.drop j) else none

def network : Machine (σ × Channel π) (Act α) where
  init := (C.machine.init, .empty)
  step := C.step

def mark (s : σ × Channel π) : Act α → Option Mark
  | .act a =>
    match C.event s.1 a with
    | some (.sent _) => some .sent
    | some (.compared accepted) => some (.compared s.2.slot accepted)
    | some .counted => some .counted
    | some (.drawn _) | none => none
  | .arrive _ | .drop _ => none

def seen (as : List (Act α)) : List Mark := C.network.observe C.mark C.network.init as

/-- Everything seen of a run may be seen there. -/
def Credits (as : List (Act α)) : Prop :=
  ∀ before m after, C.seen as = before ++ m :: after → Credited before m

/-- Where a key is drawn, no outstanding echo of an earlier request has it; where a request
goes out, no outstanding echo has the key expected. -/
def Allows (s : σ × Channel π) : Option (Event π κ) → Prop
  | some (.drawn k) => s.2.Told C.key (C.held s.1).isSome k
  | some (.sent _) => s.2.Unused C.key (C.held s.1).isSome (C.account s.1).1
  | some (.compared _) | some .counted | none => True

def Distinct (s : σ × Channel π) : Act α → Prop
  | .act a => C.Allows s (C.event s.1 a)
  | .arrive _ | .drop _ => True

instance [DecidableEq κ] (s : σ × Channel π) :
    (e : Option (Event π κ)) → Decidable (C.Allows s e)
  | some (.drawn k) => inferInstanceAs (Decidable (s.2.Told C.key _ k))
  | some (.sent _) => inferInstanceAs (Decidable (s.2.Unused C.key _ _))
  | some (.compared _) | some .counted | none => isTrue trivial

instance [DecidableEq κ] (s : σ × Channel π) : (a : Act α) → Decidable (C.Distinct s a)
  | .act a => inferInstanceAs (Decidable (C.Allows s (C.event s.1 a)))
  | .arrive _ | .drop _ => isTrue trivial

/-- What was seen, and the state: the echo held is that of a request, an outstanding echo
with the key expected is that of the last one, and so was the echo accepted. -/
structure Inv (before : List Mark) (s : σ × Channel π) : Prop where
  sent : before.count .sent = s.2.sent.length
  slot : ∀ k, C.held s.1 = some k → ∃ j, s.2.slot = some j ∧ s.2.keyOf C.key j = some k
  told : s.2.Told C.key (C.held s.1).isSome (C.account s.1).1
  accepted : C.accepted s.1 = true → Accepted before

variable {C} {before : List Mark} {s s' : σ × Channel π}

theorem inv_init : C.Inv [] C.network.init where
  sent := rfl
  slot := by
    intro k hk
    cases C.held_init.symm.trans hk
  told := by
    show Channel.empty.Told C.key (C.held C.machine.init).isSome _
    rw [C.held_init]
    exact Channel.told_empty
  accepted := by
    intro h
    cases C.accepted_init.symm.trans h

/-- The echo held waits, so it is outstanding. -/
theorem Inv.held_outstanding (hI : C.Inv before s) {k : κ} (hk : C.held s.1 = some k) :
    ∃ j, s.2.slot = some j ∧ s.2.keyOf C.key j = some k ∧
      j ∈ s.2.outstanding (C.held s.1).isSome := by
  obtain ⟨j, hj, hkey⟩ := hI.slot k hk
  refine ⟨j, hj, hkey, List.mem_append_right _ ?_⟩
  rw [hk, hj]
  exact List.mem_singleton.mpr rfl

/-- An echo with the key expected is that of the last request. -/
theorem Inv.last_of_expecting (hI : C.Inv before s) {k : κ} (hk : C.held s.1 = some k)
    (he : k = (C.account s.1).1) :
    ∃ j, s.2.slot = some j ∧ j + 1 = before.count .sent := by
  obtain ⟨j, hj, hkey, hmem⟩ := hI.held_outstanding hk
  exact ⟨j, hj, hI.sent ▸ hI.told j hmem (he ▸ hkey)⟩

/-- A step of the client that takes nothing in: the echo held goes or stays. -/
theorem waiting_of_step {a : α} {s₁ : σ} (hs : C.machine.step s.1 a = some s₁)
    (hr : C.receives s.1 a = false) (hw : (C.held s₁).isSome = true) :
    (C.held s.1).isSome = true := by
  rcases C.held_step hs hr with hheld | hheld
  · rw [hheld] at hw
    cases hw
  · rwa [hheld] at hw

theorem Inv.slot_step {a : α} {s₁ : σ} {ch : Channel π} (hI : C.Inv before s)
    (hs : C.machine.step s.1 a = some s₁) (hr : C.receives s.1 a = false)
    (hslot : ch.slot = s.2.slot)
    (hkey : ∀ j k, s.2.keyOf C.key j = some k → ch.keyOf C.key j = some k) :
    ∀ k, C.held s₁ = some k → ∃ j, ch.slot = some j ∧ ch.keyOf C.key j = some k := by
  intro k hk
  rcases C.held_step hs hr with hheld | hheld
  · cases hheld.symm.trans hk
  · obtain ⟨j, hj, hjk⟩ := hI.slot k (hheld ▸ hk)
    exact ⟨j, hslot.trans hj, hkey j k hjk⟩

theorem Inv.accepted_of_ne {a : α} {s₁ : σ} (hI : C.Inv before s)
    (hs : C.machine.step s.1 a = some s₁) (he : C.event s.1 a ≠ some (.compared true))
    (hacc : C.accepted s₁ = true) : Accepted before := by
  rcases C.accepted_step hs hacc with h | h
  · exact hI.accepted h
  · exact absurd h he

/-- **A step of the client keeps the invariant.** -/
theorem Inv.act {a : α} {s₁ : σ} (hI : C.Inv before s) (hd : C.Allows s (C.event s.1 a))
    (hs : C.machine.step s.1 a = some s₁) (hr : C.receives s.1 a = false) :
    C.Inv (before ++ (C.mark s (.act a)).toList) (s₁, C.record s.1 a s.2) := by
  have hwait := waiting_of_step hs hr
  have haccount := C.account_step hs
  cases he : C.event s.1 a with
  | none =>
    rw [he] at haccount
    simp only [mark, record, he, Option.toList_none, List.append_nil]
    refine ⟨hI.sent, hI.slot_step hs hr rfl fun _ _ h => h, ?_, ?_⟩
    · rw [haccount]
      exact hI.told.of_waiting hwait
    · exact hI.accepted_of_ne hs (by simp [he])
  | some e =>
    rw [he] at haccount hd
    cases e with
    | drawn k =>
      simp only [mark, record, he, Option.toList_none, List.append_nil]
      refine ⟨hI.sent, hI.slot_step hs hr rfl fun _ _ h => h, ?_, ?_⟩
      · rw [haccount]
        exact Channel.Told.of_waiting hd hwait
      · exact hI.accepted_of_ne hs (by simp [he])
    | sent p =>
      simp only [mark, record, he, Option.toList_some]
      refine ⟨?_, hI.slot_step hs hr rfl fun _ _ => Channel.keyOf_send_of_some, ?_, ?_⟩
      · rw [List.count_append, hI.sent]
        show s.2.sent.length + 1 = (s.2.sent ++ [p]).length
        rw [List.length_append, List.length_singleton]
      · rw [haccount]
        exact (Channel.Told.send hd).of_waiting hwait
      · intro hacc
        exact (hI.accepted_of_ne hs (by simp [he]) hacc).sent
    | compared ok =>
      obtain ⟨hidle, k, hk, hok⟩ := C.compared he
      simp only [mark, record, he, Option.toList_some]
      refine ⟨?_, hI.slot_step hs hr rfl fun _ _ h => h, ?_, ?_⟩
      · rw [List.count_append, hI.sent]
        rfl
      · rw [haccount]
        exact hI.told.of_waiting hwait
      · intro hacc
        rcases C.accepted_step hs hacc with h | h
        · cases hidle.symm.trans h
        · obtain rfl : ok = true := by
            cases he.symm.trans h
            rfl
          obtain ⟨j, hj, hlast⟩ := hI.last_of_expecting hk (hok rfl)
          exact ⟨before, j, [], by rw [hj], hlast, nofun⟩
    | counted =>
      obtain ⟨-, hidle⟩ := C.counted hs he
      simp only [mark, record, he, Option.toList_some]
      refine ⟨?_, hI.slot_step hs hr rfl fun _ _ h => h, ?_, ?_⟩
      · rw [List.count_append, hI.sent]
        rfl
      · rw [haccount]
        exact hI.told.of_waiting hwait
      · intro hacc
        cases hidle.symm.trans hacc

/-- The echo of a request comes in, and is the one held. -/
theorem Inv.arrive {j : ℕ} {p : π} {s₁ : σ} (hI : C.Inv before s)
    (hp : s.2.sent[j]? = some p) (hj : j ∈ s.2.inFlight)
    (hr : C.receives s.1 (C.delivery p) = true)
    (hs : C.machine.step s.1 (C.delivery p) = some s₁) :
    C.Inv before (s₁, s.2.arrive j) where
  sent := hI.sent
  slot := by
    intro k hk
    have hjk : (s.2.arrive j).keyOf C.key j = some (C.key p) := by
      show (s.2.sent[j]?).map C.key = _
      rw [hp]
      rfl
    rcases C.held_delivery hs hr with hheld | hheld
    · cases hheld.symm.trans hk
    · obtain rfl := Option.some.inj (hheld.symm.trans hk)
      exact ⟨j, rfl, hjk⟩
  told := by
    have haccount := C.account_step hs
    rw [C.event_receives hr] at haccount
    show (s.2.arrive j).Told C.key _ (C.account s₁).1
    rw [haccount]
    exact hI.told.arrive hj
  accepted := hI.accepted_of_ne hs (by simp [C.event_receives hr])

theorem Inv.drop (hI : C.Inv before s) (j : ℕ) : C.Inv before (s.1, s.2.drop j) :=
  ⟨hI.sent, hI.slot, hI.told.drop, hI.accepted⟩

theorem Inv.step {a : Act α} (hI : C.Inv before s) (hd : C.Distinct s a)
    (hs : C.step s a = some s') : C.Inv (before ++ (C.mark s a).toList) s' := by
  cases a with
  | act a =>
    simp only [Client.step] at hs
    split at hs
    · cases hs
    · rename_i hr
      obtain ⟨s₁, hs₁, rfl⟩ := Option.map_eq_some_iff.mp hs
      exact hI.act hd hs₁ (Bool.eq_false_iff.mpr hr)
  | arrive j =>
    simp only [Client.step] at hs
    split at hs
    · rename_i p hp
      obtain ⟨⟨hj, hr⟩, hs⟩ := Option.ite_none_right_eq_some.mp hs
      obtain ⟨s₁, hs₁, rfl⟩ := Option.map_eq_some_iff.mp hs
      simpa only [mark, Option.toList_none, List.append_nil] using hI.arrive hp hj hr hs₁
    · cases hs
  | drop j =>
    obtain ⟨-, hs⟩ := Option.ite_none_right_eq_some.mp hs
    obtain rfl := Option.some.inj hs
    simpa only [mark, Option.toList_none, List.append_nil] using hI.drop j

theorem Inv.credited {a : Act α} {m : Mark} (hI : C.Inv before s)
    (hs : C.step s a = some s') (hm : C.mark s a = some m) : Credited before m := by
  cases a with
  | arrive j | drop j => cases hm
  | act a =>
    simp only [mark] at hm
    split at hm
    · cases hm
      exact trivial
    · rename_i ok he
      obtain rfl := Option.some.inj hm
      obtain ⟨-, k, hk, hok⟩ := C.compared he
      obtain ⟨j, hj, -⟩ := hI.slot k hk
      refine ⟨j, hj, ?_⟩
      intro hlate
      cases ok with
      | false => rfl
      | true =>
        obtain ⟨i, hi, hlast⟩ := hI.last_of_expecting hk (hok rfl)
        obtain rfl := Option.some.inj (hj.symm.trans hi)
        exact absurd hlast hlate
    · rename_i he
      obtain rfl := Option.some.inj hm
      simp only [Client.step] at hs
      split at hs
      · cases hs
      · obtain ⟨s₁, hs₁, -⟩ := Option.map_eq_some_iff.mp hs
        exact hI.accepted (C.counted hs₁ he).1
    · cases hm
    · cases hm

/-- **Echoes are credited to the right request**, where keys tell the outstanding ones
apart. -/
theorem credited {as : List (Act α)} (hr : C.network.run as = some s)
    (hd : C.network.Along C.Distinct C.network.init as) : C.Credits as :=
  Machine.history_each (I := C.Inv) (h := []) (fun _ _ _ _ hI hd hs => hI.step hd hs)
    (fun _ _ _ _ hI _ hs _ hm => hI.credited hs hm) inv_init hd hr

theorem count_step {a : Act α} (hI : (C.account s.1).2 = UInt32.ofNat (before.count .counted))
    (hs : C.step s a = some s') :
    (C.account s'.1).2 = UInt32.ofNat ((before ++ (C.mark s a).toList).count .counted) := by
  cases a with
  | act a =>
    simp only [Client.step] at hs
    split at hs
    · cases hs
    · obtain ⟨s₁, hs₁, rfl⟩ := Option.map_eq_some_iff.mp hs
      rw [List.count_append, UInt32.ofNat_add, ← hI, C.account_step hs₁, mark]
      split <;> rename_i he <;> rw [he]
      · exact (UInt32.add_zero _).symm
      · exact (UInt32.add_zero _).symm
      · rfl
      · exact (UInt32.add_zero _).symm
      · exact (UInt32.add_zero _).symm
  | arrive j =>
    simp only [Client.step] at hs
    split at hs
    · obtain ⟨⟨-, hr⟩, hs⟩ := Option.ite_none_right_eq_some.mp hs
      obtain ⟨s₁, hs₁, rfl⟩ := Option.map_eq_some_iff.mp hs
      rw [C.account_step hs₁, C.event_receives hr, mark, Option.toList_none, List.append_nil]
      exact hI
    · cases hs
  | drop j =>
    obtain ⟨-, hs⟩ := Option.ite_none_right_eq_some.mp hs
    obtain rfl := Option.some.inj hs
    rw [mark, Option.toList_none, List.append_nil]
    exact hI

/-- The counter is the number of echoes counted. -/
theorem count_eq {as : List (Act α)} (hr : C.network.run as = some s) :
    (C.account s.1).2 = UInt32.ofNat ((C.seen as).count .counted) := by
  refine Machine.history_invariant (P := fun _ _ => True) (h := [])
    (I := fun before s => (C.account s.1).2 = UInt32.ofNat (before.count Mark.counted))
    (fun _ _ _ _ hI _ hs => count_step hI hs) C.account_init
    (Machine.along_trivial (fun _ _ => trivial) _ _) hr

end Client

end Echoes

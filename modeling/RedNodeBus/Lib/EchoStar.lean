import Mathlib.Data.List.Perm.Basic
import Mathlib.Logic.Function.Basic
import RedNodeBus.Lib.Echoes

/-!
# Clients around an echo server

Many clients of one kind (`Client`) send to one server, which returns what it gets.  All
that lies between a client's send and the echo coming in, the server included, is a
`Carrier`: it holds letters, and in a step of its own it keeps what it holds, hands one
letter to its client, or loses one.  It neither copies nor alters a letter, and that is all
it promises; how long it takes, and in what order the letters come out, is left open.

A `Letter` bears the number of the request it is or answers.  The number is for the account
only: no client sees it, and no carrier need look at it.

`star` is the clients and the carrier.  For each client it is an echoing channel
(`refinesChannel`): the steps of the others, and the carrier's own, are no steps of the
exchange, except where a letter of this client comes in or is lost.  So what a `Client` is
proved to do on a channel it does in the star, whatever the others do (`exchange_run`).
-/

universe u v w x y

namespace Echoes

/-- A payload on its way: the client that sent it, which of its requests it is or answers,
and the payload. -/
structure Letter (ι : Type y) (π : Type w) where
  client : ι
  number : ℕ
  payload : π
  deriving DecidableEq

/-- What becomes of the letters in a step of a carrier. -/
inductive Fate (δ : Type u)
  | kept
  | delivered (d : δ)
  | lost (d : δ)

/-- The letter that is not held any more. -/
def Fate.gone {δ : Type u} : Fate δ → List δ
  | .kept => []
  | .delivered d | .lost d => [d]

/-- The numbers of the letters of client `i`. -/
def numbers {ι : Type y} {π : Type w} [DecidableEq ι] (i : ι) (letters : List (Letter ι π)) :
    List ℕ :=
  (letters.filter (·.client = i)).map (·.number)

/-- What lies between the sends of the clients and the echoes coming in.  `Fits` says which
payloads it carries unaltered. -/
structure Carrier (ι : Type y) (π : Type w) where
  State : Type u
  Act : Type u
  init : State
  /-- A client sends a letter. -/
  post : Letter ι π → State → State
  step : State → Act → Option (Fate (Letter ι π) × State)
  letters : State → List (Letter ι π)
  Fits : π → Prop
  Inv : State → Prop
  letters_init : letters init = []
  inv_init : Inv init
  letters_post : ∀ {s} d, (letters (post d s)).Perm (d :: letters s)
  inv_post : ∀ {s d}, Inv s → Fits d.payload → Inv (post d s)
  letters_step : ∀ {s b fate s'}, Inv s → step s b = some (fate, s') →
    (letters s).Perm (fate.gone ++ letters s')
  inv_step : ∀ {s b fate s'}, Inv s → step s b = some (fate, s') → Inv s'

/-- The letter at place `k`, and the rest. -/
def pick {δ : Type u} (l : List δ) (k : ℕ) : Option (δ × List δ) :=
  (l[k]?).map fun d => (d, l.eraseIdx k)

theorem pick_perm {δ : Type u} {l rest : List δ} {k : ℕ} {d : δ} (h : pick l k = some (d, rest)) :
    l.Perm (d :: rest) := by
  obtain ⟨d', hd, heq⟩ := Option.map_eq_some_iff.mp h
  obtain ⟨hk, rfl⟩ := List.getElem?_eq_some_iff.mp hd
  obtain ⟨rfl, rfl⟩ := Prod.mk.inj heq
  exact (List.getElem_cons_eraseIdx_perm hk).symm

/-- A step of a client, or one of the carrier. -/
inductive StarAct (ι : Type y) (α : Type v) (β : Type w)
  | client (i : ι) (a : α)
  | carrier (b : β)

/-- The clients, how many requests each has sent, and the carrier. -/
structure Star (σ : Type u) (ι : Type y) (τ : Type w) where
  clients : ι → σ
  posted : ι → ℕ
  carrier : τ

section Numbers

variable {ι : Type y} {π : Type w} [DecidableEq ι] {i : ι} {d : Letter ι π}
  {l l' : List (Letter ι π)}

theorem numbers_perm (h : l.Perm l') : (numbers i l).Perm (numbers i l') := (h.filter _).map _

theorem numbers_cons_self (h : d.client = i) : numbers i (d :: l) = d.number :: numbers i l := by
  rw [numbers, List.filter_cons_of_pos (by simpa using h)]
  rfl

theorem numbers_cons_of_ne (h : d.client ≠ i) : numbers i (d :: l) = numbers i l := by
  rw [numbers, List.filter_cons_of_neg (by simpa using h)]
  rfl

end Numbers

namespace Client

variable {σ : Type u} {α : Type v} {π : Type w} {κ : Type x} {ι : Type y} [DecidableEq ι]
  (C : Client σ α π κ) (K : Carrier ι π)

/-- What a step of client `i` hands to the carrier. -/
def hand (i : ι) (e : Option (Event π κ)) (s : Star σ ι K.State) : Star σ ι K.State :=
  match e with
  | some (.sent p) =>
    { s with
      posted := Function.update s.posted i (s.posted i + 1)
      carrier := K.post ⟨i, s.posted i, p⟩ s.carrier }
  | _ => s

/-- The carrier hands the letter to its client, which has to be ready for it. -/
def takeIn (d : Letter ι π) (s : Star σ ι K.State) : Option (Star σ ι K.State) :=
  if C.receives (s.clients d.client) (C.delivery d.payload) then
    (C.machine.step (s.clients d.client) (C.delivery d.payload)).map fun c =>
      { s with clients := Function.update s.clients d.client c }
  else none

/-- The clients take in what the carrier delivers, and nothing else. -/
def starStep (s : Star σ ι K.State) : StarAct ι α K.Act → Option (Star σ ι K.State)
  | .client i a =>
    if C.receives (s.clients i) a then none
    else
      (C.machine.step (s.clients i) a).map fun c =>
        { hand K i (C.event (s.clients i) a) s with clients := Function.update s.clients i c }
  | .carrier b =>
    match K.step s.carrier b with
    | some (.delivered d, k) => C.takeIn K d { s with carrier := k }
    | some (.kept, k) | some (.lost _, k) => some { s with carrier := k }
    | none => none

def star : Machine (Star σ ι K.State) (StarAct ι α K.Act) where
  init := ⟨fun _ => C.machine.init, fun _ => 0, K.init⟩
  step := C.starStep K

/-- What a step is to the exchange of client `i`. -/
def part (i : ι) (s : Star σ ι K.State) : StarAct ι α K.Act → Option (Act α)
  | .client j a => if j = i then some (.act a) else none
  | .carrier b =>
    match K.step s.carrier b with
    | some (.delivered d, _) => if d.client = i then some (.arrive d.number) else none
    | some (.lost d, _) => if d.client = i then some (.drop d.number) else none
    | some (.kept, _) | none => none

/-- The exchange of client `i` in a run of the star. -/
def exchange (i : ι) (as : List (StarAct ι α K.Act)) : List (Act α) :=
  (C.star K).observe (part K i) (C.star K).init as

theorem hand_of_quiet (i : ι) {e : Option (Event π κ)} (s : Star σ ι K.State)
    (h : ∀ p, e ≠ some (.sent p)) : hand K i e s = s := by
  cases e with
  | none => rfl
  | some e =>
    cases e with
    | sent p => exact absurd rfl (h p)
    | drawn k | compared ok | counted => rfl

theorem record_of_quiet {s : σ} {a : α} (ch : Channel π)
    (h : ∀ p, C.event s a ≠ some (.sent p)) : C.record s a ch = ch := by
  rw [record]
  split
  · rename_i p he
    exact absurd he (h p)
  · rfl

/-- What a client keeps, and why the payloads it sends are carried. -/
structure Mails where
  Keeps : σ → Prop
  init : Keeps C.machine.init
  step : ∀ {c a c'}, Keeps c → C.machine.step c a = some c' → Keeps c'
  fits : ∀ {c a p}, Keeps c → C.event c a = some (.sent p) → K.Fits p

variable {C K}

/-- The channel of client `i` holds the letters of the client that the carrier holds. -/
structure Follows (M : C.Mails K) (i : ι) (s : Star σ ι K.State) (t : σ × Channel π) : Prop where
  client : t.1 = s.clients i
  keeps : ∀ j, M.Keeps (s.clients j)
  posted : t.2.sent.length = s.posted i
  payload : ∀ d ∈ K.letters s.carrier, d.client = i → t.2.sent[d.number]? = some d.payload
  inFlight : t.2.inFlight.Perm (numbers i (K.letters s.carrier))
  inv : K.Inv s.carrier

variable {M : C.Mails K} {i : ι} {s s' : Star σ ι K.State} {t : σ × Channel π}

theorem follows_init : Follows M i (C.star K).init C.network.init where
  client := rfl
  keeps := fun _ => M.init
  posted := rfl
  payload := by
    intro d hd
    rw [star, K.letters_init] at hd
    cases hd
  inFlight := by
    show List.Perm [] (numbers i (K.letters K.init))
    rw [K.letters_init]
    exact List.Perm.refl _
  inv := K.inv_init

/-- One client makes a step, and the others stay. -/
theorem Follows.keeps_update {j : ι} {a : α} {c : σ} (h : Follows M i s t)
    (hc : C.machine.step (s.clients j) a = some c) (k : ι) :
    M.Keeps (Function.update s.clients j c k) := by
  by_cases hk : k = j
  · rw [hk, Function.update_self]
    exact M.step (h.keeps j) hc
  · rw [Function.update_of_ne hk]
    exact h.keeps k

/-- A letter of client `i` is posted. -/
theorem Follows.post {p : π} {a : α} {c : σ} (h : Follows M i s t)
    (hc : C.machine.step (s.clients i) a = some c) (hp : K.Fits p) :
    Follows M i { hand K i (some (.sent p) : Option (Event π κ)) s with
      clients := Function.update s.clients i c } (c, t.2.send p) where
  client := (Function.update_self i c s.clients).symm
  keeps := h.keeps_update hc
  posted := by
    show (t.2.sent ++ [p]).length = Function.update s.posted i (s.posted i + 1) i
    rw [Function.update_self, List.length_append, List.length_singleton, h.posted]
  payload := by
    intro d hd hi
    show (t.2.sent ++ [p])[d.number]? = some d.payload
    rcases List.mem_cons.mp ((K.letters_post _).subset hd) with rfl | hd
    · show (t.2.sent ++ [p])[s.posted i]? = some p
      rw [← h.posted, List.getElem?_concat_length]
    · have hold := h.payload d hd hi
      rw [List.getElem?_append_left (List.getElem?_eq_some_iff.mp hold).1, hold]
  inFlight := by
    have hletters := numbers_perm (i := i) (K.letters_post (s := s.carrier) ⟨i, s.posted i, p⟩)
    rw [numbers_cons_self (i := i) rfl] at hletters
    refine List.Perm.trans ?_ hletters.symm
    show (t.2.sent.length :: t.2.inFlight).Perm _
    rw [h.posted]
    exact h.inFlight.cons _
  inv := K.inv_post h.inv hp

theorem Follows.post_of_ne {j : ι} {p : π} {a : α} {c : σ} (h : Follows M i s t) (hj : j ≠ i)
    (hc : C.machine.step (s.clients j) a = some c) (hp : K.Fits p) :
    Follows M i { hand K j (some (.sent p) : Option (Event π κ)) s with
      clients := Function.update s.clients j c } t where
  client := by
    show t.1 = Function.update s.clients j c i
    rw [Function.update_of_ne hj.symm, h.client]
  keeps := h.keeps_update hc
  posted := by
    show t.2.sent.length = Function.update s.posted j (s.posted j + 1) i
    rw [Function.update_of_ne hj.symm, h.posted]
  payload := by
    intro d hd hi
    rcases List.mem_cons.mp ((K.letters_post _).subset hd) with rfl | hd
    · exact absurd hi hj
    · exact h.payload d hd hi
  inFlight := by
    have hletters := numbers_perm (i := i) (K.letters_post (s := s.carrier) ⟨j, s.posted j, p⟩)
    rw [numbers_cons_of_ne hj] at hletters
    exact h.inFlight.trans hletters.symm
  inv := K.inv_post h.inv hp

/-- The carrier's letters change, and those of client `i` with the channel's. -/
theorem Follows.carry {b : K.Act} {fate : Fate (Letter ι π)} {k : K.State} {clients : ι → σ}
    {c : σ} {ch : Channel π} (h : Follows M i s t) (hk : K.step s.carrier b = some (fate, k))
    (hc : c = clients i) (hkeeps : ∀ j, M.Keeps (clients j)) (hsent : ch.sent = t.2.sent)
    (hin : ∀ rest, t.2.inFlight.Perm (numbers i (fate.gone ++ rest)) →
      ch.inFlight.Perm (numbers i rest)) :
    Follows M i { s with clients := clients, carrier := k } (c, ch) where
  client := hc
  keeps := hkeeps
  posted := (congrArg List.length hsent).trans h.posted
  payload := by
    intro d hd hi
    show ch.sent[d.number]? = some d.payload
    rw [hsent]
    refine h.payload d ((K.letters_step h.inv hk).symm.subset ?_) hi
    exact List.mem_append_right _ hd
  inFlight := hin _ (h.inFlight.trans (numbers_perm (K.letters_step h.inv hk)))
  inv := K.inv_step h.inv hk

/-- A letter that leaves the carrier was on its way in the channel, and is no more. -/
theorem erase_perm {d : Letter ι π} {rest : List (Letter ι π)} {inFlight : List ℕ}
    (hd : d.client = i) (h : inFlight.Perm (numbers i ([d] ++ rest))) :
    d.number ∈ inFlight ∧ (inFlight.erase d.number).Perm (numbers i rest) := by
  rw [List.singleton_append, numbers_cons_self hd] at h
  refine ⟨h.symm.subset List.mem_cons_self, ?_⟩
  have herase := h.erase d.number
  rwa [List.erase_cons_head] at herase

/-- **A step of the star is one of the channel of client `i`, or none.** -/
theorem Follows.step {a : StarAct ι α K.Act} (h : Follows M i s t)
    (hs : C.starStep K s a = some s') :
    match part K i s a with
    | none => Follows M i s' t
    | some b => ∃ t', C.network.step t b = some t' ∧ Follows M i s' t' := by
  cases a with
  | client j a =>
    simp only [starStep] at hs
    split at hs
    · cases hs
    · rename_i hr
      obtain ⟨c, hc, rfl⟩ := Option.map_eq_some_iff.mp hs
      rw [part]
      by_cases hj : j = i
      · subst hj
        rw [if_pos rfl]
        refine ⟨(c, C.record t.1 a t.2), ?_, ?_⟩
        · show C.step t (.act a) = _
          rw [Client.step, h.client, if_neg hr, hc]
          rfl
        · by_cases he : ∃ p, C.event (s.clients j) a = some (.sent p)
          · obtain ⟨p, he⟩ := he
            rw [record, h.client, he]
            exact h.post hc (M.fits (h.keeps j) he)
          · have hquiet : ∀ p, C.event (s.clients j) a ≠ some (.sent p) := not_exists.mp he
            rw [hand_of_quiet K j s hquiet, record_of_quiet C t.2 (h.client ▸ hquiet)]
            exact ⟨(Function.update_self j c s.clients).symm, h.keeps_update hc, h.posted,
              h.payload, h.inFlight, h.inv⟩
      · rw [if_neg hj]
        by_cases he : ∃ p, C.event (s.clients j) a = some (.sent p)
        · obtain ⟨p, he⟩ := he
          rw [he]
          exact h.post_of_ne hj hc (M.fits (h.keeps j) he)
        · rw [hand_of_quiet K j s (not_exists.mp he)]
          exact ⟨h.client.trans (Function.update_of_ne (Ne.symm hj) c s.clients).symm,
            h.keeps_update hc, h.posted, h.payload, h.inFlight, h.inv⟩
  | carrier b =>
    simp only [starStep] at hs
    rw [part]
    split at hs
    · rename_i d k hk
      rw [takeIn] at hs
      obtain ⟨hr, hs⟩ := Option.ite_none_right_eq_some.mp hs
      obtain ⟨c, hc, rfl⟩ := Option.map_eq_some_iff.mp hs
      simp only [hk]
      by_cases hi : d.client = i
      · rw [if_pos hi]
        have hmem : d ∈ K.letters s.carrier :=
          (K.letters_step h.inv hk).symm.subset (List.mem_append_left _ (List.mem_singleton_self d))
        have hin := h.inFlight.trans (numbers_perm (K.letters_step h.inv hk))
        refine ⟨(c, t.2.arrive d.number), ?_, ?_⟩
        · show C.step t (.arrive d.number) = _
          have hready : d.number ∈ t.2.inFlight ∧ C.receives t.1 (C.delivery d.payload) = true := by
            rw [h.client, ← hi]
            exact ⟨(erase_perm hi hin).1, hr⟩
          rw [Client.step, h.payload d hmem hi]
          show (if _ then _ else none) = _
          rw [if_pos hready, h.client, ← hi]
          show Option.map _ (C.machine.step (s.clients d.client) _) = _
          rw [hc]
          rfl
        · refine h.carry hk ?_ (h.keeps_update hc) rfl ?_
          · rw [← hi]
            exact (Function.update_self d.client c s.clients).symm
          · intro rest hrest
            exact (erase_perm hi hrest).2
      · rw [if_neg hi]
        refine h.carry hk ?_ (h.keeps_update hc) rfl ?_
        · rw [h.client]
          exact (Function.update_of_ne (Ne.symm hi) c s.clients).symm
        · intro rest hrest
          rwa [Fate.gone, List.singleton_append, numbers_cons_of_ne hi] at hrest
    · rename_i k hk
      cases hs
      simp only [hk]
      exact h.carry hk h.client h.keeps rfl fun rest hrest => hrest
    · rename_i d k hk
      cases hs
      simp only [hk]
      have hin := h.inFlight.trans (numbers_perm (K.letters_step h.inv hk))
      by_cases hi : d.client = i
      · rw [if_pos hi]
        refine ⟨(t.1, t.2.drop d.number), ?_, ?_⟩
        · show C.step t (.drop d.number) = _
          rw [Client.step, if_pos (erase_perm hi hin).1]
        · exact h.carry hk h.client h.keeps rfl fun rest hrest => (erase_perm hi hrest).2
      · rw [if_neg hi]
        refine h.carry hk h.client h.keeps rfl fun rest hrest => ?_
        rwa [Fate.gone, List.singleton_append, numbers_cons_of_ne hi] at hrest
    · cases hs

/-- **For each of its clients the star is an echoing channel.** -/
def refinesChannel (M : C.Mails K) (i : ι) :
    Machine.Refines (C.star K) C.network (fun _ _ => True) (part K i) where
  R := Follows M i
  init := follows_init
  step := by
    intro s t a s' h _ hs
    have hstep := h.step hs
    cases hp : part K i s a with
    | none =>
      rw [hp] at hstep
      exact hstep
    | some b =>
      rw [hp] at hstep
      exact hstep

/-- The exchange of a client is a run on a channel, which ends with the client in its state
and with its letters on their way. -/
theorem exchange_run (M : C.Mails K) (i : ι) {as : List (StarAct ι α K.Act)}
    (hr : (C.star K).run as = some s) :
    ∃ ch, C.network.run (C.exchange K i as) = some (s.clients i, ch) ∧
      ch.sent.length = s.posted i ∧ ch.inFlight.Perm (numbers i (K.letters s.carrier)) := by
  obtain ⟨t, ht, hR⟩ :=
    (refinesChannel M i).run (Machine.along_trivial (fun _ _ => trivial) _ _) hr
  have hclient : t = (s.clients i, t.2) := by rw [← hR.client]
  rw [hclient] at ht
  exact ⟨t.2, ht, hR.posted, hR.inFlight⟩

/-! ## What comes in -/

/-- The request whose echo comes in. -/
def arrival : Act α → Option ℕ
  | .arrive j => some j
  | .act _ | .drop _ => none

def arrived (as : List (Act α)) : List ℕ :=
  C.network.observe (fun _ a => arrival a) C.network.init as

/-- What came in and what is on its way are distinct requests that were sent. -/
def Once (came : List ℕ) (t : σ × Channel π) : Prop :=
  (came ++ t.2.inFlight).Nodup ∧ ∀ j ∈ came ++ t.2.inFlight, j < t.2.sent.length

theorem Once.step {came : List ℕ} {t t' : σ × Channel π} {a : Act α} (h : Once came t)
    (hs : C.step t a = some t') : Once (came ++ (arrival a).toList) t' := by
  obtain ⟨hnodup, hlt⟩ := h
  cases a with
  | act a =>
    simp only [Client.step] at hs
    split at hs
    · cases hs
    · obtain ⟨c, -, rfl⟩ := Option.map_eq_some_iff.mp hs
      rw [arrival, Option.toList_none, List.append_nil]
      by_cases he : ∃ p, C.event t.1 a = some (.sent p)
      · obtain ⟨p, he⟩ := he
        have hrecord : C.record t.1 a t.2 = t.2.send p := by rw [record, he]
        rw [hrecord]
        have hperm : (came ++ t.2.sent.length :: t.2.inFlight).Perm
            (t.2.sent.length :: (came ++ t.2.inFlight)) := List.perm_middle
        constructor
        · refine hperm.symm.nodup (List.nodup_cons.mpr ⟨?_, hnodup⟩)
          intro hmem
          exact absurd (hlt _ hmem) (Nat.lt_irrefl _)
        · intro j hj
          show j < (t.2.sent ++ [p]).length
          rw [List.length_append, List.length_singleton]
          rcases List.mem_cons.mp (hperm.subset hj) with rfl | hj
          · exact Nat.lt_succ_self _
          · exact Nat.lt_succ_of_lt (hlt j hj)
      · rw [record_of_quiet C t.2 (not_exists.mp he)]
        exact ⟨hnodup, hlt⟩
  | arrive j =>
    simp only [Client.step] at hs
    split at hs
    · obtain ⟨⟨hj, -⟩, hs⟩ := Option.ite_none_right_eq_some.mp hs
      obtain ⟨c, -, rfl⟩ := Option.map_eq_some_iff.mp hs
      have hperm : (came ++ [j] ++ t.2.inFlight.erase j).Perm (came ++ t.2.inFlight) := by
        rw [List.append_assoc]
        exact (List.perm_cons_erase hj).symm.append_left came
      exact ⟨hperm.symm.nodup hnodup, fun k hk => hlt k (hperm.subset hk)⟩
    · cases hs
  | drop j =>
    obtain ⟨-, hs⟩ := Option.ite_none_right_eq_some.mp hs
    obtain rfl := Option.some.inj hs
    rw [arrival, Option.toList_none, List.append_nil]
    have hsub : (came ++ t.2.inFlight.erase j).Sublist (came ++ t.2.inFlight) :=
      (List.Sublist.refl came).append List.erase_sublist
    exact ⟨hnodup.sublist hsub, fun k hk => hlt k (hsub.subset hk)⟩

/-- The echo of a request comes in at most once. -/
theorem arrived_nodup {as : List (Act α)} {t : σ × Channel π} (hr : C.network.run as = some t) :
    (C.arrived as).Nodup ∧ ∀ j ∈ C.arrived as, j < t.2.sent.length := by
  have honce : Once (C.arrived as) t :=
    Machine.history_invariant (P := fun _ _ => True) (h := []) (I := Once)
      (fun _ _ _ _ h _ hs => h.step hs) ⟨List.nodup_nil, nofun⟩
      (Machine.along_trivial (fun _ _ => trivial) _ _) hr
  exact ⟨honce.1.sublist (List.sublist_append_left _ _),
    fun j hj => honce.2 j (List.mem_append_left _ hj)⟩

end Client

end Echoes

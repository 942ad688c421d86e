import RedNodeBus.Utils.UnixTime

/-!
# How far off the time is

The thread takes `sntp_reference_uptime` when `sntp_query` has returned, a while after the
server read its clock for the reply, and both the seconds of the reply and those counted since
are rounded down.  All of it makes the time of a reader late: it is never ahead, and behind by
less than two seconds and what lies between the server's reading and the reference
(`clock_accurate`).

`TimedNode` puts the node in real time.  `Sound` says when the run is one of a reader that does
not come in between two statements and of a thread that gets on within `L`.  The times of the
synchronisations are then `Timely`, and `OneSync` gives a reader one of them.
-/

namespace RedNodeBus.Utils.Sntp

/-- The node in real time. -/
structure TimedNode (α : Type) where
  sntp : SntpNode α
  /-- Milliseconds since the reset. -/
  uptime : ℕ
  /-- The uptime at which the server read its clock for the last reply. -/
  served : ℕ

/-- The seconds since the Epoch, at an uptime; the reset was `epoch` milliseconds after it. -/
def secondsAt (epoch uptime : ℕ) : UInt64 := UInt64.ofNat ((epoch + uptime) / 1000)

namespace TimedNode

variable {α : Type}

/-- Time passes, a statement of the node or of the SNTP thread, or a call of
`rnb_get_unix_time`.  Where the thread calls `sntp_query`, `served` is the uptime at which the
server has read its clock for the reply. -/
inductive Act
  | pass (ms : ℕ)
  | node (a : Node.Act)
  | sntp (rv : Int) (served : ℕ)
  | getUnixTime

def step (epoch : ℕ) (img : Image α) (t : TimedNode α) : Act → Option (TimedNode α)
  | .pass ms => some { t with uptime := t.uptime + ms }
  | .node a => (Sntp.step img t.sntp (.node a)).map fun s => { t with sntp := s }
  | .sntp rv served =>
    if served ≤ t.uptime then
      (rnbSntpProcessThread rv (secondsAt epoch served) (Int64.ofNat t.uptime) t.sntp).map
        fun s =>
          { t with sntp := s, served := if t.sntp.line = .sntpQuery then served else t.served }
    else none
  | .getUnixTime => some t

def machine (epoch : ℕ) (img : Image α) (app : α) : Machine (TimedNode α) Act where
  init := ⟨boot app, 0, 0⟩
  step := step epoch img

def mark (epoch : ℕ) (t : TimedNode α) : Act → Option Mark
  | .pass _ | .node _ => none
  | .sntp rv served =>
    Sntp.mark t.sntp (.sntp rv (secondsAt epoch served) (Int64.ofNat t.uptime))
  | .getUnixTime => Sntp.mark t.sntp (.getUnixTime (Int64.ofNat t.uptime))

def marks (epoch : ℕ) (img : Image α) (app : α) (as : List Act) : List Mark :=
  (machine epoch img app).observe (mark epoch) (machine epoch img app).init as

/-- A reader comes when the variables are a pair, and before the uptime overflows; the thread
takes the reference at most `L` milliseconds after the server has read its clock. -/
def Sound (epoch L : ℕ) (t : TimedNode α) : Act → Prop
  | .getUnixTime =>
    Whole t.sntp (.getUnixTime (Int64.ofNat t.uptime)) ∧ epoch + t.uptime < 2 ^ 63
  | .sntp _ _ => t.sntp.line = .setReference → t.uptime ≤ t.served + L
  | .pass _ | .node _ => True

instance (epoch L : ℕ) (t : TimedNode α) (a : Act) : Decidable (t.Sound epoch L a) :=
  match a with
  | .getUnixTime => inferInstanceAs (Decidable (_ ∧ _))
  | .sntp _ _ => inferInstanceAs (Decidable (_ → _))
  | .pass _ | .node _ => isTrue trivial

/-- What a reader gets at `now` is `-1` before the first synchronisation is completed.  After
it, it is not ahead of the time, and behind by less than two seconds more than `L`. -/
def Accurate (epoch L : ℕ) (before : List Mark) (now value : Int64) : Prop :=
  if .synchronized ∈ before then
    1000 * value.toInt ≤ epoch + now.toInt ∧
      epoch + now.toInt < 1000 * value.toInt + L + 2000
  else value = -1

instance (epoch L : ℕ) (before : List Mark) (now value : Int64) :
    Decidable (Accurate epoch L before now value) :=
  inferInstanceAs (Decidable (if .synchronized ∈ before then
    1000 * value.toInt ≤ epoch + now.toInt ∧
      epoch + now.toInt < 1000 * value.toInt + L + 2000 else value = -1))

/-! ## The synchronisations -/

/-- A statement of the thread is seen where it writes a variable or takes the semaphore. -/
theorem mark_sntp {s : SntpNode α} {rv : Int} {seconds : UInt64} {uptime : Int64} {m : Mark}
    (hm : Sntp.mark s (.sntp rv seconds uptime) = some m) :
    s.line = .sntpQuery ∧ m = .queried seconds ∨
      s.line = .setReference ∧ m = .referenced uptime ∨ m = .synchronized ∨ m = .consumed := by
  rw [Sntp.mark] at hm
  cases hl : s.line with
  | sntpQuery =>
    simp only [hl] at hm
    split at hm
    · cases hm
    · exact Or.inl ⟨rfl, (Option.some.inj hm).symm⟩
  | setReference =>
    rw [hl] at hm
    exact Or.inr (Or.inl ⟨rfl, (Option.some.inj hm).symm⟩)
  | setSynchronized =>
    rw [hl] at hm
    exact Or.inr (Or.inr (Or.inl (Option.some.inj hm).symm))
  | semTake =>
    rw [hl] at hm
    exact Or.inr (Or.inr (Or.inr (Option.some.inj hm).symm))
  | clearSynchronized | isConnected | sntpInit | sntpClose | ifSynchronized | sleep =>
    rw [hl] at hm
    cases hm

theorem sntp_setReference {img : Image α} {s s' : SntpNode α} {rv : Int} {seconds : UInt64}
    {uptime : Int64} (hs : Sntp.step img s (.sntp rv seconds uptime) = some s')
    (hl : s'.line = .setReference) :
    s.line = .sntpQuery ∧ Sntp.mark s (.sntp rv seconds uptime) = some (.queried seconds) := by
  have hmove := sntp_move hs
  generalize hm : Sntp.mark s (.sntp rv seconds uptime) = m at hmove ⊢
  cases hmove with
  | queried hq x eq =>
    rcases mark_sntp hm with ⟨-, heq⟩ | ⟨-, heq⟩ | heq | heq
    · exact ⟨hq, congrArg some heq⟩
    all_goals cases heq
  | connected _ _ eq | disconnected _ _ eq | waits _ _ eq | sleeps _ _ eq | consumed _ _ eq
  | failed _ _ eq =>
    subst eq
    cases hl
  | clear _ eq | opened _ eq | closed _ eq | slept _ eq | synchronized _ eq =>
    subst eq
    cases hl
  | referenced _ _ eq =>
    subst eq
    cases hl

theorem completed_iff (h : List Mark) : (Log.of h).completed = true ↔ .synchronized ∈ h := by
  induction h using List.reverseRecOn with
  | nil => simp [Log.of]
  | append_singleton h m ih =>
    rw [Log.of_concat, List.mem_append, ← ih]
    cases m with
    | referenced u =>
      rw [Log.add]
      split <;> simp
    | queried _ | synchronized | consumed | read _ _ => simp [Log.add]

/-- The times of a synchronisation, `L` milliseconds apart at most. -/
def TimelySync (epoch L uptime : ℕ) (p : UInt64 × Int64) : Prop :=
  ∃ served reference, p = (secondsAt epoch served, Int64.ofNat reference) ∧
    served ≤ reference ∧ reference ≤ served + L ∧ reference ≤ uptime

theorem TimelySync.mono {epoch L u u' : ℕ} {p : UInt64 × Int64} (hp : TimelySync epoch L u p)
    (hu : u ≤ u') : TimelySync epoch L u' p := by
  obtain ⟨served, reference, hp, hserved, hL, hnow⟩ := hp
  exact ⟨served, reference, hp, hserved, hL, hnow.trans hu⟩

/-- The synchronisations are timely, and so is the reply that waits for its reference. -/
structure Timely (epoch L : ℕ) (h : List Mark) (t : TimedNode α) : Prop where
  paired : Paired h t.sntp
  syncs : ∀ p ∈ (Log.of h).syncs, TimelySync epoch L t.uptime p
  last : t.sntp.line = .setReference →
    t.served ≤ t.uptime ∧ (Log.of h).queried = some (secondsAt epoch t.served)

variable {epoch L : ℕ} {img : Image α} {t t' : TimedNode α} {h : List Mark}

theorem Timely.init (epoch L : ℕ) (app : α) : Timely epoch L [] ⟨boot app, 0, 0⟩ where
  paired := .boot app
  syncs := nofun
  last := nofun

/-- A statement of the thread adds a synchronisation where it takes the reference. -/
theorem Timely.syncs_sntp (hT : Timely epoch L h t) {rv : Int} {seconds : UInt64}
    (hL : t.sntp.line = .setReference → t.uptime ≤ t.served + L) :
    ∀ p ∈ (Log.of (h ++ (Sntp.mark t.sntp
        (.sntp rv seconds (Int64.ofNat t.uptime))).toList)).syncs,
      TimelySync epoch L t.uptime p := by
  cases hm : Sntp.mark t.sntp (.sntp rv seconds (Int64.ofNat t.uptime)) with
  | none =>
    rw [Option.toList_none, List.append_nil]
    exact hT.syncs
  | some m =>
    rw [Option.toList_some, Log.of_concat]
    rcases mark_sntp hm with ⟨-, rfl⟩ | ⟨hl, rfl⟩ | rfl | rfl
    · exact hT.syncs
    · obtain ⟨hserved, hqueried⟩ := hT.last hl
      intro p hp
      simp only [Log.add, hqueried, List.mem_append, List.mem_singleton] at hp
      rcases hp with hp | rfl
      · exact hT.syncs p hp
      · exact ⟨t.served, t.uptime, rfl, hserved, hL hl, le_rfl⟩
    · exact hT.syncs
    · exact hT.syncs

theorem Timely.step (hT : Timely epoch L h t) {a : Act} (ha : t.Sound epoch L a)
    (hs : step epoch img t a = some t') : Timely epoch L (h ++ (mark epoch t a).toList) t' := by
  cases a with
  | pass ms =>
    obtain rfl := Option.some.inj hs
    rw [mark, Option.toList_none, List.append_nil]
    refine ⟨hT.paired, fun p hp => (hT.syncs p hp).mono (Nat.le_add_right _ _), fun hl => ?_⟩
    obtain ⟨hserved, hqueried⟩ := hT.last hl
    exact ⟨hserved.trans (Nat.le_add_right _ _), hqueried⟩
  | node a =>
    obtain ⟨s, hnode, rfl⟩ := Option.map_eq_some_iff.mp hs
    have hpaired := hT.paired.step hnode
    obtain ⟨n, -, rfl⟩ := node_cases hnode
    rw [mark, Option.toList_none, List.append_nil]
    rw [Sntp.mark, Option.toList_none, List.append_nil] at hpaired
    exact ⟨hpaired, hT.syncs, hT.last⟩
  | sntp rv served =>
    obtain ⟨hserved, hs⟩ := Option.ite_none_right_eq_some.mp hs
    obtain ⟨s, hthread, rfl⟩ := Option.map_eq_some_iff.mp hs
    have hsntp : Sntp.step img t.sntp
        (.sntp rv (secondsAt epoch served) (Int64.ofNat t.uptime)) = some s := hthread
    refine ⟨hT.paired.step hsntp, hT.syncs_sntp ha, fun hl => ?_⟩
    obtain ⟨hquery, hm⟩ := sntp_setReference hsntp hl
    rw [if_pos hquery, mark, hm, Option.toList_some, Log.of_concat]
    exact ⟨hserved, rfl⟩
  | getUnixTime =>
    obtain rfl := Option.some.inj hs
    have hof : Log.of (h ++ (mark epoch t .getUnixTime).toList) = Log.of h :=
      Log.of_concat h _
    have hreader : Sntp.step img t.sntp (.getUnixTime (Int64.ofNat t.uptime)) = some t.sntp := rfl
    refine ⟨hT.paired.step hreader, ?_, ?_⟩
    · rw [hof]
      exact hT.syncs
    · rw [hof]
      exact hT.last

/-! ## The readers -/

theorem TimelySync.accurate {p : UInt64 × Int64} (hp : TimelySync epoch L t.uptime p)
    (hfits : epoch + t.uptime < 2 ^ 63) :
    1000 * (Sntp.timeAt p.1 p.2 (Int64.ofNat t.uptime)).toInt ≤ epoch + t.uptime ∧
      epoch + t.uptime < 1000 * (Sntp.timeAt p.1 p.2 (Int64.ofNat t.uptime)).toInt + L + 2000 := by
  obtain ⟨served, reference, rfl, hserved, hL, hnow⟩ := hp
  have huptime : (Int64.ofNat t.uptime).toInt = t.uptime := Int64.toInt_ofNat_of_lt (by omega)
  have hreference : (Int64.ofNat reference).toInt = reference :=
    Int64.toInt_ofNat_of_lt (by omega)
  have hseconds : (secondsAt epoch served).toNat = (epoch + served) / 1000 :=
    UInt64.toNat_ofNat_of_lt' (show _ < 2 ^ 64 by omega)
  have htime := @timeAt_toInt (secondsAt epoch served) _ _ (by omega)
    (show (Int64.ofNat reference).toInt ≤ (Int64.ofNat t.uptime).toInt by omega) (by omega)
  rw [hseconds, huptime, hreference] at htime
  show 1000 * (Sntp.timeAt (secondsAt epoch served) (Int64.ofNat reference) _).toInt ≤ _ ∧
    _ < 1000 * (Sntp.timeAt (secondsAt epoch served) (Int64.ofNat reference) _).toInt + _ + _
  rw [htime]
  omega

theorem Timely.read (hT : Timely epoch L h t) (ht : t.Sound epoch L .getUnixTime) :
    Accurate epoch L h (Int64.ofNat t.uptime)
      (rnbGetUnixTime (Int64.ofNat t.uptime) t.sntp.clock) := by
  obtain ⟨hwhole, hfits⟩ := ht
  have hone := hT.paired.read hwhole
  rw [OneSync] at hone
  rw [Accurate]
  by_cases hc : .synchronized ∈ h
  · rw [if_pos ((completed_iff h).mpr hc)] at hone
    obtain ⟨p, hp, hvalue⟩ := hone
    have huptime : (Int64.ofNat t.uptime).toInt = t.uptime :=
      Int64.toInt_ofNat_of_lt (by omega)
    rw [if_pos hc, hvalue, huptime]
    exact (hT.syncs p hp).accurate hfits
  · rw [if_neg (fun h' => hc ((completed_iff h).mp h'))] at hone
    rw [if_neg hc]
    exact hone

/-- **How far off a reader's time is.**  Where no reader comes between a later reply and its
reference, and the thread takes the reference at most `L` milliseconds after the server has
read its clock, no time is ahead, and each is behind by less than two seconds more than `L`. -/
theorem clock_accurate (epoch L : ℕ) (img : Image α) (app : α) {as : List Act}
    {t : TimedNode α} (hr : (machine epoch img app).run as = some t)
    (hs : (machine epoch img app).Along (Sound epoch L) (machine epoch img app).init as) :
    ∀ before now value after, marks epoch img app as = before ++ .read now value :: after →
      Accurate epoch L before now value := by
  have hread : ∀ (h : List Mark) (t : TimedNode α) (a : Act) (t' : TimedNode α),
      Timely epoch L h t → t.Sound epoch L a → (machine epoch img app).step t a = some t' →
      ∀ m, mark epoch t a = some m → ∀ now value, m = .read now value →
        Accurate epoch L h now value := by
    intro h t a t' hT ha _ m hm now value hread
    subst hread
    cases a with
    | pass ms => cases hm
    | node a => cases hm
    | sntp rv served =>
      have hread : Sntp.mark t.sntp (.sntp rv (secondsAt epoch served) (Int64.ofNat t.uptime)) =
          some (.read now value) := hm
      cases (mark_read hread).1
    | getUnixTime =>
      cases hm
      exact hT.read ha
  have heach := Machine.history_each (fun h t a t' hT ha hs => hT.step ha hs) hread
    (Timely.init epoch L app) hs hr
  intro before now value after heq
  exact heach before _ after heq now value rfl

/-- A synchronisation 20 seconds after the reset, the reply 50 milliseconds old when it comes
and the reference 200 later, and a reader a day after. -/
def dayRun : List Act :=
  .pass 20000 :: (Node.Act.report (.newState 3 0) :: Node.Act.utilsTimes 6).map .node ++
    [.sntp 0 0, .sntp 0 0, .sntp 0 0, .pass 100, .sntp 0 20050, .pass 200] ++
    List.replicate 4 (.sntp 0 0) ++ [.pass 86400700, .getUnixTime]

theorem clock_accurate_dayRun :
    Accurate 1700000000000 250
      (marks 1700000000000 .plain .undefined dayRun).dropLast 86421000 1700086420 := by
  obtain ⟨t, hr⟩ := Option.isSome_iff_exists.mp
    (show ((machine 1700000000000 .plain .undefined).run dayRun).isSome = true by
      decide +kernel)
  exact clock_accurate 1700000000000 250 .plain .undefined hr (by decide +kernel) _ _ _ []
    (by decide +kernel)

end TimedNode

end RedNodeBus.Utils.Sntp

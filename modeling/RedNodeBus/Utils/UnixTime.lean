import Mathlib.Algebra.Order.Ring.Int
import RedNodeBus.Utils.Sntp

/-!
# The time a reader gets

A synchronisation gives two numbers that mean something only together: the seconds and the
uptime they were taken at.  `sntp_synchronized` keeps a reader away until the first pair is
complete, but it stays set, and a later `sntp_query` puts its seconds beside the uptime of
the synchronisation before.  A reader that comes before `sntp_reference_uptime` is set too
counts the time since that synchronisation twice (`torn_read`).

Nothing else can go wrong: `Paired` says that the two variables are a pair at every other
statement of the thread, and `one_sync` that then every reader gets a time of one
synchronisation.
-/

namespace RedNodeBus.Utils.Sntp

/-- In the range of the variables, the time is what the seconds and the time since say. -/
theorem timeAt_toInt {s : UInt64} {r now : Int64} (hr : 0 ≤ r.toInt) (hnow : r.toInt ≤ now.toInt)
    (hfits : (s.toNat : ℤ) + (now.toInt - r.toInt) / 1000 < 2 ^ 63) :
    (timeAt s r now).toInt = s.toNat + (now.toInt - r.toInt) / 1000 := by
  have hlt := Int64.toInt_lt now
  have hsub : (now - r).toInt = now.toInt - r.toInt := by
    rw [Int64.toInt_sub]
    exact Int.bmod_eq_of_le (by omega) (by omega)
  have hdiv : ((now - r) / 1000).toInt = (now.toInt - r.toInt) / 1000 := by
    have h1000 : (1000 : Int64).toInt = 1000 := by decide
    rw [Int64.toInt_div, hsub, h1000, Int.tdiv_eq_ediv_of_nonneg (by omega)]
    exact Int.bmod_eq_of_le (by omega) (by omega)
  have hle : (0 : Int64) ≤ (now - r) / 1000 := by
    rw [Int64.le_iff_toInt_le, hdiv]
    exact Int.ediv_nonneg (by omega) (by decide)
  have helapsed : ((now - r) / 1000).toUInt64.toNat = ((now.toInt - r.toInt) / 1000).toNat := by
    rw [Int64.toNat_toUInt64_of_le hle, ← hdiv]
    rfl
  have hsum : (((now - r) / 1000).toUInt64 + s).toNat =
      ((now.toInt - r.toInt) / 1000).toNat + s.toNat := by
    rw [UInt64.toNat_add, helapsed]
    omega
  have hbmod : (timeAt s r now).toInt =
      ((((now - r) / 1000).toUInt64 + s).toNat : ℤ).bmod (2 ^ 64) :=
    BitVec.toInt_eq_toNat_bmod _
  rw [hbmod, hsum, Int.bmod_eq_of_le (by omega) (by omega)]
  omega

/-! ## The synchronisations of a run -/

/-- The seconds of the last reply, the synchronisations, and whether one is completed. -/
structure Log where
  queried : Option UInt64
  syncs : List (UInt64 × Int64)
  completed : Bool

def Log.add (l : Log) : Mark → Log
  | .queried seconds => { l with queried := some seconds }
  | .referenced uptime =>
    match l.queried with
    | some seconds => { l with syncs := l.syncs ++ [(seconds, uptime)] }
    | none => l
  | .synchronized => { l with completed := true }
  | .consumed | .read _ _ => l

def Log.of (h : List Mark) : Log := h.foldl Log.add ⟨none, [], false⟩

theorem Log.of_concat (h : List Mark) (m : Mark) : Log.of (h ++ [m]) = (Log.of h).add m :=
  List.foldl_concat _ _ _ _

/-- What a reader gets at `now` is `-1` before the first synchronisation is completed, and
the time of one synchronisation after. -/
def OneSync (before : List Mark) (now value : Int64) : Prop :=
  if (Log.of before).completed then ∃ p ∈ (Log.of before).syncs, value = timeAt p.1 p.2 now
  else value = -1

instance (before : List Mark) (now value : Int64) : Decidable (OneSync before now value) :=
  inferInstanceAs (Decidable (if (Log.of before).completed then
    ∃ p ∈ (Log.of before).syncs, value = timeAt p.1 p.2 now else value = -1))

/-- No reader comes between a later reply and the reference that belongs to it. -/
def Whole {α : Type} (s : SntpNode α) : Act → Prop
  | .getUnixTime _ => s.line = .setReference → s.clock.sntpSynchronized = false
  | .node _ | .sntp _ _ _ => True

instance {α : Type} (s : SntpNode α) (a : Act) : Decidable (Whole s a) :=
  match a with
  | .getUnixTime _ => inferInstanceAs (Decidable (_ → _))
  | .node _ | .sntp _ _ _ => isTrue trivial

variable {α : Type} {img : Image α} {s s' : SntpNode α} {h : List Mark}

/-- The two variables are a pair, except between a reply and its reference. -/
structure Paired (h : List Mark) (s : SntpNode α) : Prop where
  completed : s.clock.sntpSynchronized = (Log.of h).completed
  started : s.line = .clearSynchronized → s.clock.sntpSynchronized = false
  queried : s.line = .setReference → (Log.of h).queried = some s.clock.sntpTime
  paired : s.line = .setSynchronized ∨
      s.clock.sntpSynchronized = true ∧ s.line ≠ .setReference →
    (s.clock.sntpTime, s.clock.sntpReferenceUptime) ∈ (Log.of h).syncs

namespace Paired

theorem boot (app : α) : Paired [] (boot app) where
  completed := rfl
  started := fun _ => rfl
  queried := nofun
  paired := by
    rintro (hl | ⟨hc, -⟩)
    · cases hl
    · cases hc

theorem goto (hp : Paired h s) (hl : s.line ≠ .setReference) {line : Line}
    (hnew : line ≠ .clearSynchronized ∧ line ≠ .setReference ∧ line ≠ .setSynchronized)
    (n : Node α) : Paired h { s with node := n, line := line } where
  completed := hp.completed
  started := fun hc => absurd hc hnew.1
  queried := fun hq => absurd hq hnew.2.1
  paired := by
    rintro (hs | ⟨hc, -⟩)
    · exact absurd hs hnew.2.2
    · exact hp.paired (Or.inr ⟨hc, hl⟩)

theorem sntp {rv : Int} {m : Option Mark} (hp : Paired h s) (hm : SntpMove s s' rv m) :
    Paired (h ++ m.toList) s' := by
  cases hm with
  | clear hl eq =>
    subst eq
    have hcompleted := hp.completed
    rw [hp.started hl] at hcompleted
    rw [Option.toList_none, List.append_nil]
    refine ⟨hcompleted, fun _ => rfl, nofun, ?_⟩
    rintro (hs | ⟨hc, -⟩)
    · cases hs
    · cases hc
  | connected hl hc eq | disconnected hl hc eq | waits hl hc eq | sleeps hl hc eq =>
    subst eq
    rw [Option.toList_none, List.append_nil]
    exact hp.goto (by rw [hl]; decide) (by decide) s.node
  | opened hl eq | closed hl eq | slept hl eq =>
    subst eq
    rw [Option.toList_none, List.append_nil]
    exact hp.goto (by rw [hl]; decide) (by decide) s.node
  | failed hl hrv eq =>
    subst eq
    have hne : s.line ≠ .setReference := by
      rcases hl with hl | hl <;> rw [hl] <;> decide
    rw [Option.toList_none, List.append_nil]
    exact hp.goto hne (by decide) s.node
  | queried hl seconds eq =>
    subst eq
    rw [Option.toList_some]
    refine ⟨?_, nofun, fun _ => ?_, ?_⟩
    · rw [Log.of_concat]
      exact hp.completed
    · rw [Log.of_concat]
      rfl
    · rintro (hs | ⟨-, hne⟩)
      · cases hs
      · exact absurd rfl hne
  | referenced hl uptime eq =>
    subst eq
    have hadd : (Log.of h).add (.referenced uptime) =
        { Log.of h with syncs := (Log.of h).syncs ++ [(s.clock.sntpTime, uptime)] } := by
      simp only [Log.add, hp.queried hl]
    rw [Option.toList_some]
    refine ⟨?_, nofun, nofun, fun _ => ?_⟩
    · rw [Log.of_concat, hadd]
      exact hp.completed
    · rw [Log.of_concat, hadd]
      exact List.mem_append_right _ List.mem_cons_self
  | synchronized hl eq =>
    subst eq
    rw [Option.toList_some]
    refine ⟨?_, nofun, nofun, fun _ => ?_⟩
    · rw [Log.of_concat]
      rfl
    · rw [Log.of_concat]
      exact hp.paired (Or.inl hl)
  | consumed hl hsem eq =>
    subst eq
    have hgoto : Paired h { s with node.sntpSem := false, line := .isConnected } :=
      hp.goto (by rw [hl]; decide) (by decide) { s.node with sntpSem := false }
    have hof : Log.of (h ++ [.consumed]) = Log.of h := Log.of_concat h .consumed
    rw [Option.toList_some]
    exact ⟨hof ▸ hgoto.completed, hgoto.started, hof ▸ hgoto.queried, hof ▸ hgoto.paired⟩

theorem step {a : Act} (hp : Paired h s) (hs : Sntp.step img s a = some s') :
    Paired (h ++ (mark s a).toList) s' := by
  cases a with
  | node a =>
    obtain ⟨n, -, rfl⟩ := node_cases hs
    rw [mark, Option.toList_none, List.append_nil]
    exact ⟨hp.completed, hp.started, hp.queried, hp.paired⟩
  | sntp rv seconds uptime => exact hp.sntp (sntp_move hs)
  | getUnixTime now =>
    obtain rfl := Option.some.inj hs
    have hof : Log.of (h ++ [.read now (rnbGetUnixTime now s.clock)]) = Log.of h :=
      Log.of_concat h _
    rw [mark, Option.toList_some]
    exact ⟨hof ▸ hp.completed, hp.started, hof ▸ hp.queried, hof ▸ hp.paired⟩

/-- A reader that does not come in between gets a time of one synchronisation. -/
theorem read (hp : Paired h s) {now : Int64} (hw : Whole s (.getUnixTime now)) :
    OneSync h now (rnbGetUnixTime now s.clock) := by
  rw [OneSync, ← hp.completed, rnbGetUnixTime]
  cases hc : s.clock.sntpSynchronized with
  | true =>
    have hne : s.line ≠ .setReference := by
      intro hl
      rw [hw hl] at hc
      cases hc
    rw [if_pos rfl, if_pos rfl]
    exact ⟨_, hp.paired (Or.inr ⟨hc, hne⟩), rfl⟩
  | false => rfl

end Paired

/-- **When every time comes from one synchronisation.**  It is enough that no reader comes
between the reply of a later synchronisation and its reference. -/
theorem one_sync (img : Image α) (app : α) {as : List Act} {s : SntpNode α}
    (hr : (machine img app).run as = some s)
    (hw : (machine img app).Along Whole (machine img app).init as) :
    ∀ before now value after, marks img app as = before ++ .read now value :: after →
      OneSync before now value := by
  have hread : ∀ (h : List Mark) (s : SntpNode α) (a : Act) (s' : SntpNode α), Paired h s →
      Whole s a → (machine img app).step s a = some s' → ∀ m, mark s a = some m →
      ∀ now value, m = .read now value → OneSync h now value := by
    intro h s a s' hp hwhole _ m hm now value hread
    subst hread
    obtain ⟨rfl, rfl⟩ := mark_read hm
    exact hp.read hwhole
  have heach := Machine.history_each (fun h s a s' hp _ hs => hp.step hs) hread
    (Paired.boot app) hw hr
  intro before now value after heq
  exact heach before _ after heq now value rfl

/-- Two synchronisations a day apart, and a reader when the second one is complete. -/
def dayRun : List Act :=
  firstSync 1700000000 20000 ++ trigger ++ List.replicate 5 (.sntp 0 1700086400 86420000) ++
    [.getUnixTime 86421000]

theorem one_sync_dayRun :
    OneSync (marks .plain .undefined dayRun).dropLast 86421000 1700086401 := by
  obtain ⟨s, hr⟩ := Option.isSome_iff_exists.mp
    (show ((machine .plain .undefined).run dayRun).isSome = true by decide +kernel)
  exact one_sync .plain .undefined hr (by decide +kernel) _ _ _ [] (by decide +kernel)

/-- The same, and a reader that comes before the second reference is set. -/
def tornRun : List Act :=
  firstSync 1700000000 20000 ++ trigger ++ List.replicate 3 (.sntp 0 1700086400 86420000) ++
    [.getUnixTime 86420500]

/-- The reader is a day ahead. -/
theorem torn_read :
    ¬ ∀ (as : List Act) (s : SntpNode UserRole) (before : List Mark) (now value : Int64)
        (after : List Mark), (machine .plain .undefined).run as = some s →
      marks .plain .undefined as = before ++ .read now value :: after →
      OneSync before now value := by
  intro h
  obtain ⟨s, hr⟩ := Option.isSome_iff_exists.mp
    (show ((machine .plain .undefined).run tornRun).isSome = true by decide +kernel)
  have hmarks : marks .plain .undefined tornRun =
      [.queried 1700000000, .referenced 20000, .synchronized, .consumed, .queried 1700086400] ++
        [.read 86420500 1700172800] := by decide +kernel
  exact absurd (h tornRun s _ _ _ [] hr hmarks) (by decide +kernel)

end RedNodeBus.Utils.Sntp

import RedNodeBus.Utils.Sntp

/-!
# What a trigger does

A trigger wakes the SNTP thread for one pass through its loop.  Before the first
synchronisation a pass that fails is repeated after ten seconds; afterwards
`sntp_synchronized` is set for good, and the thread waits for the next trigger whatever the
pass came to.  So a trigger is lost where the bus is disconnected or the server does not
answer (`trigger_lost`).

`Served` is the invariant of the other runs: from `sntp_close` to `k_sem_take` the last
trigger has had its reply, or the next one is there already.
-/

namespace RedNodeBus.Utils

namespace Node

variable {α : Type} {img : Image α} {n n' : Node α}

theorem sntpSem_step {a : Act} (hn : n.sntpSem = true) (h : step img n a = some n') :
    n'.sntpSem = true := by
  cases a with
  | report r =>
    obtain rfl := Option.some.inj h
    exact hn
  | utils ret =>
    rcases utils_cases h with ⟨slot, rest, -, -, rfl⟩ | ⟨slot, line, -, rfl⟩ | ⟨slot, -, rfl⟩
    · exact hn
    · cases line with
      | switchEvt | initConfig | updateConfig =>
        rw [processRnbUtilsEvent]
        split <;> exact hn
      | callStart =>
        rw [processRnbUtilsEvent, rnbUtilsStart_eq]
        exact hn
      | userPayload =>
        show (n.sntpSem || _) = true
        rw [hn, Bool.true_or]
      | setConfigured | setConnected | submitStart | submitStop | clearConnected | handleNewState
      | handleUserPayload => exact hn
    · exact hn
  | take =>
    obtain ⟨w, rest, -, -, rfl⟩ := take_cases h
    exact hn
  | work ret =>
    obtain ⟨pc, -, rfl⟩ := work_cases h
    exact hn
  | initialized =>
    obtain ⟨-, rfl⟩ := initialized_cases h
    exact hn
  | start =>
    obtain rfl := Option.some.inj h
    rw [rnbUtilsStart_eq]
    exact hn
  | stop =>
    obtain rfl := Option.some.inj h
    rw [rnbUtilsStop_eq]
    exact hn

end Node

namespace Sntp

variable {α : Type} {img : Image α} {s s' : SntpNode α} {h : List Mark}

/-- The thread is blocked in `k_sem_take`. -/
def Blocked (s : SntpNode α) : Prop := s.line = .semTake ∧ s.node.sntpSem = false

instance (s : SntpNode α) : Decidable (Blocked s) := inferInstanceAs (Decidable (_ ∧ _))

/-- A successful `sntp_query` came after the last trigger taken. -/
def Effective (h : List Mark) : Prop :=
  ∃ before seconds after, h = before ++ .queried seconds :: after ∧ .consumed ∉ after

/-- Once there is a time, a pass through the loop finds the bus connected and both calls
succeed, unless the next trigger is pending. -/
def Succeeds (s : SntpNode α) : Act → Prop
  | .sntp rv _ _ =>
    s.clock.sntpSynchronized = true → s.node.sntpSem = false →
      (s.line = .isConnected → s.node.rnbConnected = true) ∧
        (s.line = .sntpInit ∨ s.line = .sntpQuery → 0 ≤ rv)
  | .node _ | .getUnixTime _ => True

instance (s : SntpNode α) (a : Act) : Decidable (Succeeds s a) :=
  match a with
  | .sntp _ _ _ => inferInstanceAs (Decidable (_ → _ → _ ∧ _))
  | .node _ | .getUnixTime _ => isTrue trivial

theorem effective_queried (h : List Mark) (seconds : UInt64) :
    Effective (h ++ [.queried seconds]) := ⟨h, seconds, [], rfl, List.not_mem_nil⟩

theorem Effective.concat {m : Mark} (he : Effective h) (hm : m ≠ .consumed) :
    Effective (h ++ [m]) := by
  obtain ⟨before, seconds, after, rfl, hafter⟩ := he
  refine ⟨before, seconds, after ++ [m], by rw [List.append_assoc, List.cons_append], ?_⟩
  rw [List.mem_append, List.mem_singleton]
  rintro (hc | hc)
  · exact hafter hc
  · exact hm hc.symm

theorem not_effective_consumed (h : List Mark) : ¬ Effective (h ++ [.consumed]) := by
  rintro ⟨before, seconds, after, heq, hafter⟩
  rcases List.eq_nil_or_concat after with rfl | ⟨after, m, rfl⟩
  · cases (List.append_inj' heq rfl).2
  · rw [List.concat_eq_append, ← List.cons_append, ← List.append_assoc] at heq
    obtain rfl : Mark.consumed = m := List.singleton_injective (List.append_inj' heq rfl).2
    exact hafter (by simp)

/-- From a successful reply on to `k_sem_take` the last trigger has had its effect. -/
structure Served (h : List Mark) (s : SntpNode α) : Prop where
  replied : s.line = .setReference ∨ s.line = .setSynchronized → Effective h
  closed : s.line = .sntpClose ∨ s.line = .ifSynchronized ∨ s.line = .semTake →
    s.clock.sntpSynchronized = true → s.node.sntpSem = false → Effective h
  waiting : s.line = .semTake → s.clock.sntpSynchronized = true

namespace Served

theorem top (line : Line) (hl : s.line = line)
    (htop : line = .clearSynchronized ∨ line = .isConnected ∨ line = .sntpInit ∨
      line = .sntpQuery ∨ line = .sleep) : Served h s := by
  constructor
  · rintro (h' | h') <;> rw [h'] at hl <;> subst hl <;> simp at htop
  · rintro (h' | h' | h') <;> rw [h'] at hl <;> subst hl <;> simp at htop
  · intro h'
    rw [h'] at hl
    subst hl
    simp at htop

theorem boot (app : α) : Served [] (boot app) := top .clearSynchronized rfl (by decide)

/-- A pass goes on to `sntp_close`, or to the test of `sntp_synchronized`. -/
theorem bottom (line : Line) (hl : s.line = line)
    (hbottom : line = .sntpClose ∨ line = .ifSynchronized)
    (he : s.clock.sntpSynchronized = true → s.node.sntpSem = false → Effective h) :
    Served h s := by
  refine ⟨?_, fun _ => he, ?_⟩
  · rintro (h' | h') <;> rw [h'] at hl <;> subst hl <;> simp at hbottom
  · intro h'
    rw [h'] at hl
    subst hl
    simp at hbottom

theorem sntp {rv : Int} {seconds : UInt64} {uptime : Int64} {m : Option Mark} (hp : Served h s)
    (hsucc : Succeeds s (.sntp rv seconds uptime)) (hm : SntpMove s s' rv m) :
    Served (h ++ m.toList) s' := by
  cases hm with
  | clear hl eq | slept hl eq =>
    subst eq
    exact top .isConnected rfl (by decide)
  | consumed hl hsem eq =>
    subst eq
    exact top .isConnected rfl (by decide)
  | connected hl hc eq =>
    subst eq
    exact top .sntpInit rfl (by decide)
  | opened hl eq =>
    subst eq
    exact top .sntpQuery rfl (by decide)
  | sleeps hl hc eq =>
    subst eq
    exact top .sleep rfl (by decide)
  | disconnected hl hc eq =>
    subst eq
    refine bottom .ifSynchronized rfl (by decide) fun hsync hsem => ?_
    rw [(hsucc hsync hsem).1 hl] at hc
    cases hc
  | failed hl hrv eq =>
    subst eq
    refine bottom .sntpClose rfl (by decide) fun hsync hsem => ?_
    exact absurd hrv (Int.not_lt.mpr ((hsucc hsync hsem).2 hl))
  | queried hl seconds eq =>
    subst eq
    refine ⟨fun _ => effective_queried h seconds, ?_, nofun⟩
    rintro (hl | hl | hl) <;> cases hl
  | referenced hl uptime eq =>
    subst eq
    refine ⟨fun _ => (hp.replied (Or.inl hl)).concat nofun, ?_, nofun⟩
    rintro (hl | hl | hl) <;> cases hl
  | synchronized hl eq =>
    subst eq
    exact bottom .sntpClose rfl (by decide) fun _ _ => (hp.replied (Or.inr hl)).concat nofun
  | closed hl eq =>
    subst eq
    rw [Option.toList_none, List.append_nil]
    exact bottom .ifSynchronized rfl (by decide) (hp.closed (Or.inl hl))
  | waits hl hc eq =>
    subst eq
    rw [Option.toList_none, List.append_nil]
    refine ⟨?_, fun _ => hp.closed (Or.inr (Or.inl hl)), fun _ => hc⟩
    rintro (hl | hl) <;> cases hl

theorem step {a : Act} (hp : Served h s) (hsucc : Succeeds s a)
    (hs : Sntp.step img s a = some s') : Served (h ++ (mark s a).toList) s' := by
  cases a with
  | node a =>
    obtain ⟨n, hn, rfl⟩ := node_cases hs
    rw [mark, Option.toList_none, List.append_nil]
    refine ⟨hp.replied, fun hl hsync hsem => hp.closed hl hsync ?_, hp.waiting⟩
    cases hold : s.node.sntpSem with
    | false => rfl
    | true => exact (Node.sntpSem_step hold hn).symm.trans hsem
  | sntp rv seconds uptime => exact hp.sntp hsucc (sntp_move hs)
  | getUnixTime now =>
    obtain rfl := Option.some.inj hs
    have hne : Mark.read now (rnbGetUnixTime now s.clock) ≠ .consumed := by
      intro hc
      cases hc
    rw [mark, Option.toList_some]
    exact ⟨fun hl => (hp.replied hl).concat hne,
      fun hl hsync hsem => (hp.closed hl hsync hsem).concat hne, hp.waiting⟩

end Served

/-- **When no trigger is lost.**  It is enough that once there is a time, no pass through
the loop fails, unless the next trigger is pending. -/
theorem trigger_effective (img : Image α) (app : α) {as : List Act} {s : SntpNode α}
    (hr : (machine img app).run as = some s)
    (hsucc : (machine img app).Along Succeeds (machine img app).init as) (hb : Blocked s) :
    Effective (marks img app as) := by
  have hserved := Machine.history_invariant (fun h s a s' hp hsucc hs => hp.step hsucc hs)
    (Served.boot app) hsucc hr
  exact hserved.closed (Or.inr (Or.inr hb.1)) (hserved.waiting hb.1) hb.2

/-- A trigger after the first synchronisation, and a second synchronisation. -/
def servedRun : List Act :=
  firstSync 1700000000 20000 ++ trigger ++ List.replicate 7 (.sntp 0 1700086400 86420000)

theorem trigger_effective_servedRun : Effective (marks .plain .undefined servedRun) := by
  obtain ⟨s, hr, hs⟩ := (Option.any_eq_true (fun s : SntpNode UserRole => decide (Blocked s))
    ((machine .plain .undefined).run servedRun)).mp (by decide +kernel)
  exact trigger_effective .plain .undefined hr (by decide +kernel) (of_decide_eq_true hs)

def etimedout : Int := -116

/-- A trigger after the first synchronisation, and a server that does not answer. -/
def unansweredRun : List Act :=
  firstSync 1700000000 20000 ++ trigger ++
    [.sntp 0 0 0, .sntp 0 0 0, .sntp etimedout 0 0, .sntp 0 0 0, .sntp 0 0 0]

theorem trigger_lost :
    ¬ ∀ (as : List Act) (s : SntpNode UserRole), (machine .plain .undefined).run as = some s →
      Blocked s → Effective (marks .plain .undefined as) := by
  intro h
  obtain ⟨s, hr, hs⟩ := (Option.any_eq_true (fun s : SntpNode UserRole => decide (Blocked s))
    ((machine .plain .undefined).run unansweredRun)).mp (by decide +kernel)
  have hmarks : marks .plain .undefined unansweredRun =
      [.queried 1700000000, .referenced 20000, .synchronized] ++ [.consumed] := by
    decide +kernel
  have heff := h unansweredRun s hr (of_decide_eq_true hs)
  rw [hmarks] at heff
  exact not_effective_consumed _ heff

end Sntp

end RedNodeBus.Utils

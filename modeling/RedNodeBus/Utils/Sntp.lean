import RedNodeBus.Utils.UserPayload

/-!
# The SNTP thread

`rnb_sntp_process_thread` runs beside the node: it asks for the time whenever it finds the
bus connected, every ten seconds until it has it and from then on once for each trigger
that `rnb_utils_user_payload` gives to `sntp_sem`.  The time is three variables, written
one after the other; `rnb_get_unix_time` may be called from any thread between any two
statements, and reads them at once.

`machine` interleaves the statements of the node and of the thread and the calls of
`rnb_get_unix_time`.  What `sntp_init` and `sntp_query` return, and what the clock shows,
is part of the action.
-/

namespace RedNodeBus.Utils.Sntp

/-- The SNTP variables. -/
structure Clock where
  /-- `sntp_time.seconds` -/
  sntpTime : UInt64
  sntpReferenceUptime : Int64
  sntpSynchronized : Bool
  deriving DecidableEq, Repr

/-- Seconds `s`, taken when the uptime was `r`, are this much when it is `now`. -/
def timeAt (s : UInt64) (r now : Int64) : Int64 :=
  -- `sntp_time.seconds` is unsigned, and so is the sum
  (((now - r) / 1000).toUInt64 + s).toInt64

/-- `rnb_get_unix_time`, when `k_uptime_get` returns `now`. -/
def rnbGetUnixTime (now : Int64) (c : Clock) : Int64 :=
  if c.sntpSynchronized then timeAt c.sntpTime c.sntpReferenceUptime now else -1

/-- Where `rnb_sntp_process_thread` stands. -/
inductive Line
  | clearSynchronized
  | isConnected
  | sntpInit
  | sntpQuery
  | setReference
  | setSynchronized
  | sntpClose
  | ifSynchronized
  | semTake
  | sleep
  deriving DecidableEq, Repr

/-- The node and its SNTP thread. -/
structure SntpNode (α : Type) where
  node : Node α
  clock : Clock
  line : Line

variable {α : Type}

def boot (app : α) : SntpNode α where
  node := .boot app
  clock := ⟨0, 0, false⟩
  line := .clearSynchronized

/-- The next statement of `rnb_sntp_process_thread`: `rv` is what `sntp_init` or
`sntp_query` returns, `seconds` the time of the reply, `uptime` what `k_uptime_get` does. -/
def rnbSntpProcessThread (rv : Int) (seconds : UInt64) (uptime : Int64) (s : SntpNode α) :
    Option (SntpNode α) :=
  match s.line with
  | .clearSynchronized =>
    some { s with clock := { s.clock with sntpSynchronized := false }, line := .isConnected }
  | .isConnected =>
    some { s with line := if s.node.rnbConnected then .sntpInit else .ifSynchronized }
  | .sntpInit => some { s with line := if rv < 0 then .sntpClose else .sntpQuery }
  | .sntpQuery =>
    if rv < 0 then some { s with line := .sntpClose }
    else some { s with clock := { s.clock with sntpTime := seconds }, line := .setReference }
  | .setReference =>
    some { s with
      clock := { s.clock with sntpReferenceUptime := uptime }, line := .setSynchronized }
  | .setSynchronized =>
    some { s with clock := { s.clock with sntpSynchronized := true }, line := .sntpClose }
  | .sntpClose => some { s with line := .ifSynchronized }
  | .ifSynchronized =>
    some { s with line := if s.clock.sntpSynchronized then .semTake else .sleep }
  | .semTake =>
    if s.node.sntpSem then
      some { s with node := { s.node with sntpSem := false }, line := .isConnected }
    else none
  | .sleep => some { s with line := .isConnected }

/-- A statement of the node, one of the SNTP thread, or a call of `rnb_get_unix_time`. -/
inductive Act
  | node (a : Node.Act)
  | sntp (rv : Int) (seconds : UInt64) (uptime : Int64)
  | getUnixTime (now : Int64)

def step (img : Image α) (s : SntpNode α) : Act → Option (SntpNode α)
  | .node a => (Node.step img s.node a).map fun n => { s with node := n }
  | .sntp rv seconds uptime => rnbSntpProcessThread rv seconds uptime s
  | .getUnixTime _ => some s

def machine (img : Image α) (app : α) : Machine (SntpNode α) Act where
  init := boot app
  step := step img

/-! ## What is seen of a run -/

inductive Mark
  /-- `sntp_query` succeeds, and writes `sntp_time`. -/
  | queried (seconds : UInt64)
  | referenced (uptime : Int64)
  | synchronized
  /-- `k_sem_take` takes a trigger. -/
  | consumed
  | read (now value : Int64)
  deriving DecidableEq, Repr

def mark (s : SntpNode α) : Act → Option Mark
  | .node _ => none
  | .sntp rv seconds uptime =>
    match s.line with
    | .sntpQuery => if rv < 0 then none else some (.queried seconds)
    | .setReference => some (.referenced uptime)
    | .setSynchronized => some .synchronized
    | .semTake => some .consumed
    | .clearSynchronized | .isConnected | .sntpInit | .sntpClose | .ifSynchronized | .sleep => none
  | .getUnixTime now => some (.read now (rnbGetUnixTime now s.clock))

def marks (img : Image α) (app : α) (as : List Act) : List Mark :=
  (machine img app).observe mark (machine img app).init as

variable {img : Image α} {s s' : SntpNode α}

theorem node_cases {a : Node.Act} (hs : step img s (.node a) = some s') :
    ∃ n, Node.step img s.node a = some n ∧ s' = { s with node := n } := by
  obtain ⟨n, hn, rfl⟩ := Option.map_eq_some_iff.mp hs
  exact ⟨n, hn, rfl⟩

/-- **What a statement of the SNTP thread does**, and what is seen of it. -/
inductive SntpMove (s s' : SntpNode α) (rv : Int) : Option Mark → Prop
  | clear (at_clear : s.line = .clearSynchronized)
      (eq : s' = { s with clock.sntpSynchronized := false, line := .isConnected }) :
      SntpMove s s' rv none
  | connected (at_isConnected : s.line = .isConnected) (connected : s.node.rnbConnected = true)
      (eq : s' = { s with line := .sntpInit }) : SntpMove s s' rv none
  | disconnected (at_isConnected : s.line = .isConnected)
      (connected : s.node.rnbConnected = false)
      (eq : s' = { s with line := .ifSynchronized }) : SntpMove s s' rv none
  | opened (at_sntpInit : s.line = .sntpInit) (eq : s' = { s with line := .sntpQuery }) :
      SntpMove s s' rv none
  | failed (at_call : s.line = .sntpInit ∨ s.line = .sntpQuery) (error : rv < 0)
      (eq : s' = { s with line := .sntpClose }) : SntpMove s s' rv none
  | queried (at_sntpQuery : s.line = .sntpQuery) (seconds : UInt64)
      (eq : s' = { s with clock.sntpTime := seconds, line := .setReference }) :
      SntpMove s s' rv (some (.queried seconds))
  | referenced (at_setReference : s.line = .setReference) (uptime : Int64)
      (eq : s' = { s with clock.sntpReferenceUptime := uptime, line := .setSynchronized }) :
      SntpMove s s' rv (some (.referenced uptime))
  | synchronized (at_setSynchronized : s.line = .setSynchronized)
      (eq : s' = { s with clock.sntpSynchronized := true, line := .sntpClose }) :
      SntpMove s s' rv (some .synchronized)
  | closed (at_sntpClose : s.line = .sntpClose) (eq : s' = { s with line := .ifSynchronized }) :
      SntpMove s s' rv none
  | waits (at_ifSynchronized : s.line = .ifSynchronized)
      (synchronized : s.clock.sntpSynchronized = true) (eq : s' = { s with line := .semTake }) :
      SntpMove s s' rv none
  | sleeps (at_ifSynchronized : s.line = .ifSynchronized)
      (synchronized : s.clock.sntpSynchronized = false) (eq : s' = { s with line := .sleep }) :
      SntpMove s s' rv none
  | consumed (at_semTake : s.line = .semTake) (sem : s.node.sntpSem = true)
      (eq : s' = { s with node.sntpSem := false, line := .isConnected }) :
      SntpMove s s' rv (some .consumed)
  | slept (at_sleep : s.line = .sleep) (eq : s' = { s with line := .isConnected }) :
      SntpMove s s' rv none

theorem sntp_move {rv : Int} {seconds : UInt64} {uptime : Int64}
    (hs : step img s (.sntp rv seconds uptime) = some s') :
    SntpMove s s' rv (mark s (.sntp rv seconds uptime)) := by
  rw [step, rnbSntpProcessThread] at hs
  rw [mark]
  cases hl : s.line with
  | clearSynchronized =>
    rw [hl] at hs
    exact .clear hl (Option.some.inj hs).symm
  | isConnected =>
    rw [hl] at hs
    cases hc : s.node.rnbConnected with
    | true =>
      rw [hc] at hs
      exact .connected hl hc (Option.some.inj hs).symm
    | false =>
      rw [hc] at hs
      exact .disconnected hl hc (Option.some.inj hs).symm
  | sntpInit =>
    rw [hl] at hs
    by_cases hrv : rv < 0
    · rw [if_pos hrv] at hs
      exact .failed (Or.inl hl) hrv (Option.some.inj hs).symm
    · rw [if_neg hrv] at hs
      exact .opened hl (Option.some.inj hs).symm
  | sntpQuery =>
    rw [hl] at hs
    by_cases hrv : rv < 0
    · simp only [if_pos hrv] at hs ⊢
      exact .failed (Or.inr hl) hrv (Option.some.inj hs).symm
    · simp only [if_neg hrv] at hs ⊢
      exact .queried hl seconds (Option.some.inj hs).symm
  | setReference =>
    rw [hl] at hs
    exact .referenced hl uptime (Option.some.inj hs).symm
  | setSynchronized =>
    rw [hl] at hs
    exact .synchronized hl (Option.some.inj hs).symm
  | sntpClose =>
    rw [hl] at hs
    exact .closed hl (Option.some.inj hs).symm
  | ifSynchronized =>
    rw [hl] at hs
    cases hc : s.clock.sntpSynchronized with
    | true =>
      rw [hc] at hs
      exact .waits hl hc (Option.some.inj hs).symm
    | false =>
      rw [hc] at hs
      exact .sleeps hl hc (Option.some.inj hs).symm
  | semTake =>
    rw [hl] at hs
    obtain ⟨hsem, hs⟩ := Option.ite_none_right_eq_some.mp hs
    exact .consumed hl hsem (Option.some.inj hs).symm
  | sleep =>
    rw [hl] at hs
    exact .slept hl (Option.some.inj hs).symm

theorem mark_read {a : Act} {now value : Int64} (hm : mark s a = some (.read now value)) :
    a = .getUnixTime now ∧ value = rnbGetUnixTime now s.clock := by
  cases a with
  | node a => cases hm
  | sntp rv seconds uptime =>
    rw [mark] at hm
    split at hm
    · split at hm <;> cases hm
    all_goals cases hm
  | getUnixTime t =>
    cases hm
    exact ⟨rfl, rfl⟩

/-! ## A first synchronisation -/

def nodeActs (as : List Node.Act) : List Act := as.map .node

/-- The node connects; the thread has the seconds `seconds` at the uptime `uptime`, and
waits for a trigger. -/
def firstSync (seconds : UInt64) (uptime : Int64) : List Act :=
  nodeActs (.report (.newState 3 0) :: Node.Act.utilsTimes 6) ++
    List.replicate 8 (.sntp 0 seconds uptime)

def trigger : List Act :=
  nodeActs (.report Node.clockReport :: Node.Act.utilsTimes 5) ++ [.sntp 0 0 0]

end RedNodeBus.Utils.Sntp

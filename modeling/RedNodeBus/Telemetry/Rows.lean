import Mathlib.Data.List.DropRight
import RedNodeBus.Telemetry.RnbAccounting

/-!
# The rows of a script

Whatever payloads come, from whichever nodes and in whichever order, the row of a UID is
that of the last readings of the UID with one session value, its `block`: how many there
are, how many bytes, the time from the first to the last, and for what is lost the last counter
less the first one, as the signed differences telescope (`blockRow`).  A script ends exactly if
it cannot read a payload, or if one makes it divide by zero (`Steady`): its counter comes right
before the first one of its block, or it comes at the time of the first one.

`rows_exact` says so of every script and every list of payloads, and of the scripts behind
the broker, where the payloads are those of the events that carry one (`carried`).
-/

namespace RedNodeBus.Telemetry

open Mqtt

/-- A reading, with the length of its payload and the time at which it was taken. -/
structure Taken (δ : Type) extends Reading δ where
  lenPayload : ℕ
  now : ℚ

section Block

variable {δ : Type} {uid : String} {rs : List (Taken δ)} {r f : Taken δ}

/-- The last readings of a UID with one session value. -/
def block (uid : String) (rs : List (Taken δ)) : List (Taken δ) :=
  let mine := rs.filter (·.euid = uid)
  mine.rtakeWhile fun r => mine.getLast?.map (·.sessionRand) = some r.sessionRand

def blockRow (b : List (Taken δ)) : Option (Row δ) :=
  b.head?.bind fun f => b.getLast?.map fun l =>
    let packetsLost : ℤ := l.ctr - f.ctr + 1 - b.length
    let bytesReceived := (b.map (·.lenPayload)).sum
    { sessionRand := l.sessionRand
      ctr := l.ctr
      packetsReceived := b.length
      packetsLost := packetsLost
      errorRate := 100 * packetsLost / (packetsLost + b.length)
      bytesReceived := bytesReceived
      bitrate := if b.length = 1 then 0 else bytesReceived / (l.now - f.now)
      time := f.now
      data := l.data }

/-- The reading, behind the first one of its block, makes the script divide by zero: in the
error rate, or in the bit rate. -/
def Divides (rs : List (Taken δ)) (r : Taken δ) : Prop :=
  ∃ f between, block r.euid (rs ++ [r]) = f :: between ++ [r] ∧
    (r.ctr + 1 = f.ctr ∨ r.now = f.now)

/-- No reading does. -/
def Steady (rs : List (Taken δ)) : Prop :=
  ∀ before r after, rs = before ++ r :: after → ¬ Divides before r

theorem getLast_block (uid : String) (rs : List (Taken δ)) :
    (block uid rs).getLast? = (rs.filter (·.euid = uid)).getLast? := by
  rw [block]
  cases h : (rs.filter (·.euid = uid)).getLast? with
  | none =>
    rw [List.getLast?_eq_none_iff.mp h]
    rfl
  | some l =>
    obtain ⟨front, hfront⟩ := List.getLast?_eq_some_iff.mp h
    simp only [Option.map_some]
    rw [hfront, List.rtakeWhile_concat_pos _ _ _ (by simp), List.getLast?_concat]

theorem block_of_ne (h : r.euid ≠ uid) : block uid (rs ++ [r]) = block uid rs := by
  have hfilter : (rs ++ [r]).filter (·.euid = uid) = rs.filter (·.euid = uid) := by
    rw [List.filter_append, List.filter_cons_of_neg (by simpa using h)]
    exact List.append_nil _
  rw [block, block, hfilter]

theorem filter_concat_self (rs : List (Taken δ)) (r : Taken δ) :
    (rs ++ [r]).filter (·.euid = r.euid) = rs.filter (·.euid = r.euid) ++ [r] := by
  rw [List.filter_append, List.filter_cons_of_pos (by simp)]
  rfl

theorem block_of_session {l : Taken δ} (hl : (block r.euid rs).getLast? = some l)
    (hsession : l.sessionRand = r.sessionRand) :
    block r.euid (rs ++ [r]) = block r.euid rs ++ [r] := by
  rw [getLast_block] at hl
  rw [block, block, filter_concat_self, hl, List.getLast?_concat]
  simp only [Option.map_some, hsession]
  exact List.rtakeWhile_concat_pos _ _ _ (by simp)

theorem block_of_other
    (h : ∀ l, (block r.euid rs).getLast? = some l → l.sessionRand ≠ r.sessionRand) :
    block r.euid (rs ++ [r]) = [r] := by
  rw [block, filter_concat_self, List.getLast?_concat]
  simp only [Option.map_some]
  rw [List.rtakeWhile_concat_pos _ _ _ (by simp)]
  rw [getLast_block] at h
  cases hl : (rs.filter (·.euid = r.euid)).getLast? with
  | none =>
    rw [List.getLast?_eq_none_iff.mp hl]
    rfl
  | some l =>
    obtain ⟨front, hfront⟩ := List.getLast?_eq_some_iff.mp hl
    have hne : ¬ r.sessionRand = l.sessionRand := fun heq => h l hl heq.symm
    rw [hfront, List.rtakeWhile_concat_neg _ _ _ (by simpa using hne), List.nil_append]

theorem blockRow_singleton (r : Taken δ) :
    blockRow [r] = some (.first r.toReading r.lenPayload r.now) := by
  simp [blockRow, Row.first]

/-- **The differences telescope**, and the sum that is divided by is the last counter less
the first one plus one. -/
theorem next_blockRow {between : List (Taken δ)} {l : Taken δ}
    (hl : (f :: between).getLast? = some l) (hsession : l.sessionRand = r.sessionRand) :
    ∃ row, blockRow (f :: between) = some row ∧ row.sessionRand = r.sessionRand ∧
      (r.ctr + 1 = f.ctr ∨ r.now = f.now → row.next r.toReading r.lenPayload r.now = none) ∧
      (¬ (r.ctr + 1 = f.ctr ∨ r.now = f.now) →
        row.next r.toReading r.lenPayload r.now = blockRow (f :: between ++ [r])) := by
  have hlost : (l.ctr - f.ctr + 1 - (f :: between).length : ℤ) + (r.ctr - l.ctr - 1) =
      r.ctr - f.ctr + 1 - ((f :: between).length + 1 : ℕ) := by
    push_cast
    ring
  refine ⟨_, by rw [blockRow, List.head?_cons, hl]; rfl, hsession, ?_, ?_⟩
  · intro hdivides
    simp only [Row.next, Row.count, hlost]
    split
    · rfl
    · rename_i hsum
      have hnow : r.now = f.now := hdivides.resolve_left (by omega)
      exact Row.rate_eq_none_iff.mpr hnow
  · intro hdivides
    obtain ⟨hctr, hnow⟩ := not_or.mp hdivides
    rw [blockRow, List.cons_append, List.head?_cons, ← List.cons_append, List.getLast?_concat,
      List.length_append, List.length_singleton]
    simp only [Row.next, Row.count, Row.rate, hlost, Option.bind_some, Option.map_some]
    rw [if_neg (by omega), Option.bind_some, if_neg (sub_ne_zero.mpr hnow)]
    simp [hsession, add_assoc]

theorem steady_concat : Steady (rs ++ [r]) ↔ Steady rs ∧ ¬ Divides rs r := by
  constructor
  · intro h
    refine ⟨?_, h rs r [] rfl⟩
    intro before q after hsplit
    exact h before q (after ++ [r]) (by rw [hsplit, List.append_assoc]; rfl)
  · intro h before q after hsplit
    cases after using List.reverseRecOn with
    | nil =>
      obtain ⟨rfl, hq⟩ := List.append_inj' hsplit rfl
      obtain rfl := List.singleton_inj.mp hq
      exact h.2
    | append_singleton after x =>
      have hsplit' : rs ++ [r] = before ++ q :: after ++ [x] := by
        rw [hsplit, List.append_assoc]
        rfl
      obtain ⟨hrs, -⟩ := List.append_inj' hsplit' rfl
      exact h.1 before q after hrs

end Block

namespace Script

variable {S : Script}

/-- What the script reads in the payloads, if it can read them all. -/
def readings (S : Script) (payloads : List (ℚ × List UInt8)) : Option (List (Taken S.Data)) :=
  payloads.mapM fun (now, payload) =>
    (S.read payload).map fun r => { r with lenPayload := payload.length, now := now }

def rows (S : Script) (rs : List (Taken S.Data)) : S.Stats :=
  fun uid => blockRow (block uid rs)

theorem rows_concat (rs : List (Taken S.Data)) (r : Taken S.Data) :
    S.rows (rs ++ [r]) =
      Function.update (S.rows rs) r.euid (blockRow (block r.euid (rs ++ [r]))) := by
  funext uid
  by_cases h : uid = r.euid
  · rw [h, Function.update_self]
    rfl
  · rw [Function.update_of_ne h]
    exact congrArg blockRow (block_of_ne (Ne.symm h))

theorem receive_rows {rs : List (Taken S.Data)} {payload : List UInt8} {r : Taken S.Data}
    (hread : S.read payload = some r.toReading) (hlength : r.lenPayload = payload.length) :
    (Divides rs r → S.receive (S.rows rs) (r.now, payload) = none) ∧
    (¬ Divides rs r → S.receive (S.rows rs) (r.now, payload) = some (S.rows (rs ++ [r]))) := by
  by_cases hblock : ∃ l, (block r.euid rs).getLast? = some l ∧ l.sessionRand = r.sessionRand
  · -- another packet of the block's session
    obtain ⟨l, hl, hsession⟩ := hblock
    have happ := block_of_session hl hsession
    obtain ⟨f, between, hf⟩ : ∃ f between, block r.euid rs = f :: between := by
      cases hb : block r.euid rs with
      | nil =>
        rw [hb] at hl
        cases hl
      | cons f rest => exact ⟨f, rest, rfl⟩
    rw [hf] at hl happ
    obtain ⟨row, hrow, hsame, hbad, hgood⟩ := next_blockRow hl hsession
    have hreceive : S.receive (S.rows rs) (r.now, payload) = _ :=
      receive_next hread ((congrArg blockRow hf).trans hrow) hsame
    rw [← hlength] at hreceive
    constructor
    · intro hdivides
      obtain ⟨f', between', hb, hzero⟩ := hdivides
      rw [happ] at hb
      obtain ⟨rfl, -⟩ := List.cons.inj hb
      rw [hreceive, hbad hzero]
      rfl
    · intro hdivides
      have hzero : ¬ (r.ctr + 1 = f.ctr ∨ r.now = f.now) :=
        fun hzero => hdivides ⟨f, between, happ, hzero⟩
      rw [hreceive, hgood hzero, rows_concat, happ]
      cases hnew : blockRow (f :: between ++ [r]) with
      | none =>
        rw [blockRow, List.cons_append, List.head?_cons, ← List.cons_append,
          List.getLast?_concat] at hnew
        cases hnew
      | some row' => rfl
  · -- a first packet, or one of another session
    have hother : ∀ l, (block r.euid rs).getLast? = some l → l.sessionRand ≠ r.sessionRand :=
      fun l hl hsession => hblock ⟨l, hl, hsession⟩
    have hone := block_of_other hother
    have hfirst : S.receive (S.rows rs) (r.now, payload) = some (Function.update (S.rows rs)
        r.euid (some (.first r.toReading r.lenPayload r.now))) := by
      rw [hlength]
      apply receive_first hread
      intro row hrow
      obtain ⟨f, -, hrow⟩ := Option.bind_eq_some_iff.mp hrow
      obtain ⟨l, hl, rfl⟩ := Option.map_eq_some_iff.mp hrow
      exact hother l hl
    constructor
    · intro hdivides
      obtain ⟨f, between, hb, -⟩ := hdivides
      rw [hone] at hb
      have hlen := congrArg List.length hb
      simp at hlen
    · intro _
      rw [hfirst, rows_concat, hone, blockRow_singleton]

theorem readings_concat (payloads : List (ℚ × List UInt8)) (now : ℚ) (payload : List UInt8) :
    S.readings (payloads ++ [(now, payload)]) = (S.readings payloads).bind fun rs =>
      (S.read payload).map fun r =>
        rs ++ [{ r with lenPayload := payload.length, now := now }] := by
  rw [readings, List.mapM_append]
  refine congrArg (Option.bind _) (funext fun rs => ?_)
  rw [List.mapM_cons, List.mapM_nil]
  cases hread : S.read payload with
  | none => simp [hread]
  | some r => simp [hread]

theorem run_concat (payloads : List (ℚ × List UInt8)) (payload : ℚ × List UInt8) :
    S.run (payloads ++ [payload]) = (S.run payloads).bind fun stats => S.receive stats payload := by
  rw [run, List.foldlM_append]
  exact congrArg (Option.bind _) (funext fun stats => bind_pure (S.receive stats payload))

theorem run_eq_some_iff (S : Script) (payloads : List (ℚ × List UInt8)) (stats : S.Stats) :
    S.run payloads = some stats ↔
      ∃ rs, S.readings payloads = some rs ∧ Steady rs ∧ stats = S.rows rs := by
  induction payloads using List.reverseRecOn generalizing stats with
  | nil =>
    constructor
    · intro h
      obtain rfl := Option.some.inj h
      refine ⟨[], rfl, ?_, rfl⟩
      intro before r after h
      cases before <;> cases h
    · intro h
      obtain ⟨rs, hrs, -, rfl⟩ := h
      obtain rfl := Option.some.inj hrs
      rfl
  | append_singleton payloads payload ih =>
    obtain ⟨now, payload⟩ := payload
    rw [run_concat, readings_concat]
    constructor
    · intro h
      obtain ⟨stats₀, hrun, hreceive⟩ := Option.bind_eq_some_iff.mp h
      obtain ⟨rs, hrs, hsteady, rfl⟩ := (ih stats₀).mp hrun
      obtain ⟨r, hread, -⟩ := Option.bind_eq_some_iff.mp hreceive
      let taken : Taken S.Data := { r with lenPayload := payload.length, now := now }
      have htaken : S.read payload = some taken.toReading := hread
      obtain ⟨hbad, hgood⟩ :
          (Divides rs taken → S.receive (S.rows rs) (taken.now, payload) = none) ∧ _ :=
        receive_rows htaken rfl
      have hdivides : ¬ Divides rs taken := by
        intro hd
        rw [hbad hd] at hreceive
        cases hreceive
      refine ⟨rs ++ [taken], ?_, steady_concat.mpr ⟨hsteady, hdivides⟩, ?_⟩
      · rw [hrs, Option.bind_some, hread, Option.map_some]
      · rw [hgood hdivides] at hreceive
        exact (Option.some.inj hreceive).symm
    · intro h
      obtain ⟨rs', hrs', hsteady, rfl⟩ := h
      obtain ⟨rs, hrs, hmap⟩ := Option.bind_eq_some_iff.mp hrs'
      obtain ⟨r, hread, rfl⟩ := Option.map_eq_some_iff.mp hmap
      obtain ⟨hbefore, hdivides⟩ := steady_concat.mp hsteady
      rw [(ih _).mpr ⟨rs, hrs, hbefore, rfl⟩, Option.bind_some]
      exact (receive_rows hread rfl).2 hdivides

/-- The payloads that the messages carry, if the script can take them all. -/
def carried : List (ℚ × Option Message) → Option (List (ℚ × List UInt8))
  | [] => some []
  | (now, msg) :: msgs =>
    msg.bind fun msg => (isUserData msg).bind fun userData =>
      if userData then (dataBytes msg).bind fun payload => (carried msgs).map ((now, payload) :: ·)
      else carried msgs

theorem runRnb_eq (S : Script) (msgs : List (ℚ × Option Message)) :
    S.runRnb msgs = (carried msgs).bind S.run := by
  have hfold : ∀ stats : S.Stats, msgs.foldlM S.onMessage stats =
      (carried msgs).bind fun payloads => payloads.foldlM S.receive stats := by
    induction msgs with
    | nil => exact fun stats => rfl
    | cons msg msgs ih =>
      obtain ⟨now, msg⟩ := msg
      intro stats
      rw [List.foldlM_cons, carried, onMessage]
      cases msg with
      | none => rfl
      | some msg =>
        rw [Option.bind_some, Option.bind_some]
        cases isUserData msg with
        | none => rfl
        | some userData =>
          rw [Option.bind_some, Option.bind_some]
          cases userData with
          | false => exact ih stats
          | true =>
            rw [if_pos rfl, if_pos rfl]
            cases dataBytes msg with
            | none => rfl
            | some payload =>
              rw [Option.bind_some, Option.bind_some, Option.bind_map]
              show (S.receive stats (now, payload)).bind
                (fun stats => msgs.foldlM S.onMessage stats) = _
              rw [funext ih]
              show _ = (carried msgs).bind fun payloads =>
                (S.receive stats (now, payload)).bind fun stats => payloads.foldlM S.receive stats
              exact Option.bind_comm _ _
  exact hfold _

/-- **Every row is that of its block**, after every list of payloads or messages, and a
script comes through exactly those that it can read and that are steady. -/
theorem rows_exact (S : Script) :
    (∀ payloads stats, S.run payloads = some stats ↔
      ∃ rs, S.readings payloads = some rs ∧ Steady rs ∧ stats = S.rows rs) ∧
    ∀ msgs stats, S.runRnb msgs = some stats ↔
      ∃ payloads rs, carried msgs = some payloads ∧ S.readings payloads = some rs ∧
        Steady rs ∧ stats = S.rows rs := by
  refine ⟨run_eq_some_iff S, ?_⟩
  intro msgs stats
  rw [runRnb_eq, Option.bind_eq_some_iff]
  constructor
  · intro h
    obtain ⟨payloads, hcarried, hrun⟩ := h
    obtain ⟨rs, hrs, hsteady, rfl⟩ := (run_eq_some_iff S payloads stats).mp hrun
    exact ⟨payloads, rs, hcarried, hrs, hsteady, rfl⟩
  · intro h
    obtain ⟨payloads, rs, hcarried, hrs, hsteady, rfl⟩ := h
    exact ⟨payloads, hcarried, (run_eq_some_iff S payloads _).mpr ⟨rs, hrs, hsteady, rfl⟩⟩

end Script

end RedNodeBus.Telemetry

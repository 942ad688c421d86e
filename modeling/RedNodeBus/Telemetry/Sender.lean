import RedNodeBus.Lib.Bytes
import RedNodeBus.Lib.Epochs
import RedNodeBus.Lib.Machine

/-!
# Samples that number their packets

A sample stamps its buffer with the EUID and a random session value in `init_app`, and
puts a counter into each packet, which it increments when `send` accepted the packet.  A
`Sender` is such a sample; the node it runs on boots it, any number of times.

The session a packet belongs to and its place in the session are facts of the run:
`Sender.packets` reads them off, without looking at the packets.  `Sender.Numbers` is what
a sample's own steps have to keep, and `packets_numbered` draws the conclusion: what the
packet says is what it is.
-/

namespace RedNodeBus.Telemetry

open Bytes Epochs

/-- A EUID of six bytes, as on the air. -/
structure Euid where
  val : UInt64
  lt : val.toNat < 2 ^ 48
  deriving DecidableEq

/-- `rnb_utils_get_euid`, of the two words of `DEVICEADDR`. -/
def rnbUtilsGetEuid (deviceaddr : UInt64) : Euid where
  val := deviceaddr &&& ((1 : UInt64) <<< (6 * 8) - 1)
  lt := by
    rw [UInt64.toNat_and]
    exact Nat.lt_of_le_of_lt Nat.and_le_right (by decide)

theorem words_euid (euid : Euid) :
    euid.val.toUInt32.toNat + 256 ^ 4 * (euid.val >>> 32).toUInt32.toNat = euid.val.toNat := by
  have hlt := euid.lt
  rw [UInt64.toNat_toUInt32, UInt64.toNat_toUInt32, UInt64.toNat_shiftRight,
    Nat.shiftRight_eq_div_pow]
  show euid.val.toNat % 2 ^ 32 + 256 ^ 4 * (euid.val.toNat / 2 ^ 32 % 2 ^ 32) = euid.val.toNat
  omega

theorem ofLe_slice_words {euid : Euid} {ws : List UInt32} (hlen : 1 < ws.length)
    (hlow : ws[0] = euid.val.toUInt32) (hhigh : ws[1] = (euid.val >>> 32).toUInt32) :
    ofLe (slice 0 8 (words ws)) = euid.val.toNat := by
  have hfirst : slice 0 4 (words ws) = le32 ws[0] := slice_words ws (i := 0) (by omega)
  have hsecond : slice (0 + 4) 4 (words ws) = le32 ws[1] := slice_words ws hlen
  rw [slice_add 0 4 4, hfirst, hsecond, ofLe_append, ofLe_le32, ofLe_le32, length_le32, hlow,
    hhigh]
  exact words_euid euid

/-- `send_udp_data` of the samples, when `send` returns `ret`. -/
def sendUdpData (ret : Int) : Int := if ret < 0 then -5 else 0

/-- A sample: what `init_app` leaves for an EUID and a session value, its steps, and the
datagram that `send` accepts in a step. -/
structure Sender where
  State : Type
  Act : Type
  initApp : Euid → UInt32 → State
  step : State → Act → Option State
  sent : State → Act → Option (List UInt8)

/-- What happens to a node: it boots and draws a session value, or the sample makes a
step. -/
inductive NodeAct (α : Type)
  | boot (sessionRand : UInt32)
  | act (a : α)

namespace Sender

/-- A node that runs the sample; `none` until it boots. -/
def node (S : Sender) (euid : Euid) : Machine (Option S.State) (NodeAct S.Act) where
  init := none
  step
    | _, .boot sessionRand => some (some (S.initApp euid sessionRand))
    | some s, .act a => (S.step s a).map some
    | none, .act _ => none

/-- A boot begins a session, a datagram that is accepted is an item of it. -/
def mark (S : Sender) : Option S.State → NodeAct S.Act → Option (Mark UInt32 (List UInt8))
  | _, .boot sessionRand => some (.epoch sessionRand)
  | some s, .act a => (S.sent s a).map .item
  | none, .act _ => none

def marks (S : Sender) (euid : Euid) (run : List (NodeAct S.Act)) :
    List (Mark UInt32 (List UInt8)) :=
  (S.node euid).observe S.mark none run

/-- The packets of a run, each with its session and its place in it. -/
def packets (S : Sender) (euid : Euid) (run : List (NodeAct S.Act)) :
    List (Numbered UInt32 (List UInt8)) :=
  number (S.marks euid run)

/-- The sample stamps and counts: `R` holds of a state after `n` packets of a session, and
a packet sent then is one of number `n`. -/
structure Numbers (S : Sender) (Packet : Euid → UInt32 → UInt32 → List UInt8 → Prop) where
  R : Euid → UInt32 → UInt32 → S.State → Prop
  initApp : ∀ euid sessionRand, R euid sessionRand 0 (S.initApp euid sessionRand)
  quiet : ∀ {euid sessionRand n s a s'}, R euid sessionRand n s → S.step s a = some s' →
    S.sent s a = none → R euid sessionRand n s'
  sends : ∀ {euid sessionRand n s a s' payload}, R euid sessionRand n s → S.step s a = some s' →
    S.sent s a = some payload →
      Packet euid sessionRand n payload ∧ R euid sessionRand (n + 1) s'

variable {S : Sender} {Packet : Euid → UInt32 → UInt32 → List UInt8 → Prop} {euid : Euid}

/-- What holds after `init_app`, and is kept by every step, holds of every node that has
booted. -/
theorem node_invariant {I : S.State → Prop} (hinit : ∀ sessionRand, I (S.initApp euid sessionRand))
    (hstep : ∀ s a s', I s → S.step s a = some s' → I s') {run : List (NodeAct S.Act)}
    {s : S.State} (h : (S.node euid).run run = some (some s)) : I s := by
  have hall : ∀ t ∈ some s, I t := by
    refine Machine.reachable_invariant (M := S.node euid) (I := fun t => ∀ u ∈ t, I u) ?_ ?_
      ⟨run, h⟩
    · intro u hu
      cases hu
    · intro t a t' hI hs u hu
      obtain rfl := hu
      cases a with
      | boot sessionRand =>
        obtain rfl : S.initApp euid sessionRand = u := by cases t <;> simpa [node] using hs
        exact hinit sessionRand
      | act a =>
        cases t with
        | none => cases hs
        | some t =>
          obtain ⟨u', hu', heq⟩ := Option.map_eq_some_iff.mp hs
          obtain rfl := Option.some.inj heq
          exact hstep t a u' (hI t rfl) hu'
  exact hall s rfl

theorem Numbers.numberFrom (N : S.Numbers Packet) {run : List (NodeAct S.Act)} {s : S.State}
    {sessionRand : UInt32} {e i : ℕ} (hs : N.R euid sessionRand (UInt32.ofNat i) s)
    {p : Numbered UInt32 (List UInt8)}
    (hp : p ∈ numberFrom e sessionRand i ((S.node euid).observe S.mark (some s) run)) :
    Packet euid p.label (UInt32.ofNat p.index) p.item := by
  induction run generalizing s sessionRand e i with
  | nil => cases hp
  | cons a run ih =>
    cases a with
    | boot sessionRand' => exact ih (N.initApp euid sessionRand') hp
    | act a =>
      cases hstep : S.step s a with
      | none =>
        have hnone : (S.node euid).step (some s) (.act a) = none := by
          simp only [node, hstep, Option.map_none]
        rw [Machine.observe, hnone] at hp
        cases hp
      | some s' =>
        have hsome : (S.node euid).step (some s) (.act a) = some (some s') := by
          simp only [node, hstep, Option.map_some]
        rw [Machine.observe_cons _ hsome] at hp
        cases hsent : S.sent s a with
        | none =>
          simp only [mark, hsent, Option.map_none] at hp
          exact ih (N.quiet hs hstep hsent) hp
        | some payload =>
          obtain ⟨hpacket, hs'⟩ := N.sends hs hstep hsent
          simp only [mark, hsent, Option.map_some] at hp
          rcases List.mem_cons.mp hp with rfl | hp
          · exact hpacket
          · exact ih (i := i + 1) (by rw [UInt32.ofNat_add]; exact hs') hp

/-- **A packet says what it is**: the EUID of its node, the value of its session, and its
place in the session. -/
theorem packets_numbered (N : S.Numbers Packet) {run : List (NodeAct S.Act)}
    {p : Numbered UInt32 (List UInt8)} (hp : p ∈ S.packets euid run) :
    Packet euid p.label (UInt32.ofNat p.index) p.item := by
  cases run with
  | nil => cases hp
  | cons a run =>
    cases a with
    | boot sessionRand => exact N.numberFrom (N.initApp euid sessionRand) hp
    | act a => cases hp

end Sender

end RedNodeBus.Telemetry

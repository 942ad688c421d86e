import Mathlib.Algebra.Field.Rat
import RedNodeBus.Lib.Hex

/-!
# MQTT messages

The gateway publishes events under `rednodebus/events` and takes commands under
`rednodebus/commands`, each a JSON object.  A user payload is an event with the name
`user_data`, and its bytes are the hexadecimal text of the field `data`.

A `Message` is what `json.loads` makes of such an object.  `isUserData` is the test that the
callbacks of the scripts have in common; they read the bytes with `bytearray.fromhex`, which
takes digits of either case and blanks between the bytes (`fromHex`).  What the gateway
writes is not in the repository; `userDataEvent` is an event as the scripts want it.
-/

namespace RedNodeBus.Mqtt

open Hex

/-! ## Hexadecimal text of bytes -/

/-- The blanks that `bytearray.fromhex` skips. -/
def isBlank (c : Char) : Bool :=
  c = ' ' ∨ c = '\t' ∨ c = '\n' ∨ c = '\r' ∨ c.toNat = 11 ∨ c.toNat = 12

/-- `bytearray.fromhex`; `none` is the value error. -/
def fromHex : List Char → Option (List UInt8)
  | [] => some []
  | [c] => if isBlank c then some [] else none
  | c :: d :: text =>
    if isBlank c then fromHex (d :: text)
    else
      (hexDigit? c).bind fun high => (hexDigit? d).bind fun low =>
        (fromHex text).map (UInt8.ofNat (16 * high + low) :: ·)

def hexText (bytes : List UInt8) : List Char :=
  bytes.flatMap fun b => [hexChar (b.toNat / 16), hexChar (b.toNat % 16)]

theorem not_isBlank_hexChar : ∀ d < 16, isBlank (hexChar d) = false := by decide

theorem fromHex_hexText (bytes : List UInt8) : fromHex (hexText bytes) = some bytes := by
  induction bytes with
  | nil => rfl
  | cons b bytes ih =>
    have hb : b.toNat < 256 := b.toNat_lt
    have hhigh : b.toNat / 16 < 16 := by omega
    have hlow : b.toNat % 16 < 16 := Nat.mod_lt _ (by decide)
    have hbyte : UInt8.ofNat (16 * (b.toNat / 16) + b.toNat % 16) = b := by
      rw [Nat.div_add_mod, UInt8.ofNat_toNat]
    show fromHex (hexChar (b.toNat / 16) :: hexChar (b.toNat % 16) :: hexText bytes) = _
    rw [fromHex, not_isBlank_hexChar _ hhigh, hexDigit_hexChar _ hhigh, hexDigit_hexChar _ hlow,
      ih]
    simp only [Bool.false_eq_true, if_false, Option.bind_some, Option.map_some, hbyte]

/-! ## Messages -/

inductive Json
  | null
  | bool (b : Bool)
  | num (n : ℚ)
  | str (s : String)
  | arr (items : List Json)
  | obj (members : List (String × Json))

/-- `len`; `none` is the type error. -/
def Json.len : Json → Option ℕ
  | .str s => some s.length
  | .arr items => some items.length
  | .obj members => some members.length
  | .null | .bool _ | .num _ => none

/-- The fields of an object. -/
abbrev Message : Type := String → Option Json

/-- `msg["name"] == "user_data"`; `none` is the key error. -/
def isUserData (msg : Message) : Option Bool :=
  match msg "name" with
  | some (.str name) => some (name = "user_data")
  | some _ => some false
  | none => none

/-- `bytearray.fromhex(msg["data"])`. -/
def dataBytes (msg : Message) : Option (List UInt8) :=
  match msg "data" with
  | some (.str text) => fromHex text.toList
  | _ => none

def userDataEvent (uid : Json) (bytes : List UInt8) : Message := fun key =>
  if key = "name" then some (.str "user_data")
  else if key = "uid" then some uid
  else if key = "data" then some (.str (String.ofList (hexText bytes)))
  else none

theorem dataBytes_of_data {msg : Message} {bytes : List UInt8}
    (h : msg "data" = some (.str (String.ofList (hexText bytes)))) :
    dataBytes msg = some bytes := by
  rw [dataBytes, h]
  show fromHex (String.ofList (hexText bytes)).toList = some bytes
  rw [String.toList_ofList, fromHex_hexText]

end RedNodeBus.Mqtt

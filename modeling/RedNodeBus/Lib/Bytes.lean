import Mathlib.Data.List.Basic
import Mathlib.Tactic.Ring

/-!
# Byte buffers

A buffer is a list of bytes.  `slice a n l` reads `n` bytes from position `a`, `writeAt a
src l` copies `src` over the bytes from `a` on.  A read sees what the last write over it
left (`slice_writeAt_self`) and nothing of a write behind it (`slice_writeAt_of_le`) or in
front of it (`slice_writeAt_of_ge`).

`leBytes w n` writes a number in `w` bytes, the least significant first, and `ofLe` reads
one of any length.  `ofLe_leBytes` says the reading undoes the writing, modulo `256 ^ w`.

`decodeUtf8` reads text.  `decodeUtf8_asciiBytes` is the case of text written one byte a
character.
-/

namespace Bytes

/-! ## Reading and copying -/

/-- The `n` bytes from position `a` on, as many as there are. -/
def slice (a n : ℕ) (l : List UInt8) : List UInt8 := (l.drop a).take n

/-- `memcpy`: the bytes from position `a` on are those of `src`. -/
def writeAt (a : ℕ) (src l : List UInt8) : List UInt8 :=
  l.take a ++ src ++ l.drop (a + src.length)

variable {a b m n : ℕ} {src l : List UInt8}

theorem length_writeAt (h : a + src.length ≤ l.length) : (writeAt a src l).length = l.length := by
  simp only [writeAt, List.length_append, List.length_take, List.length_drop]
  omega

theorem getElem?_slice (i : ℕ) : (slice a n l)[i]? = if i < n then l[a + i]? else none := by
  rw [slice, List.getElem?_take, List.getElem?_drop]

theorem getElem?_writeAt (h : a ≤ l.length) (i : ℕ) :
    (writeAt a src l)[i]? =
      if i < a then l[i]? else if i < a + src.length then src[i - a]? else l[i]? := by
  have hlen : (l.take a).length = a := List.length_take_of_le h
  rcases Nat.lt_or_ge i a with hi | hi
  · rw [if_pos hi, writeAt, List.append_assoc, List.getElem?_append_left (by omega),
      List.getElem?_take_of_lt hi]
  · rw [if_neg (by omega), writeAt, List.append_assoc, List.getElem?_append_right (by omega), hlen]
    split
    · exact List.getElem?_append_left (by omega)
    · rw [List.getElem?_append_right (by omega), List.getElem?_drop]
      congr 1
      omega

theorem slice_writeAt_self (h : a ≤ l.length) : slice a src.length (writeAt a src l) = src := by
  apply List.ext_getElem?
  intro i
  rw [getElem?_slice, getElem?_writeAt h]
  split
  · rw [if_neg (by omega), if_pos (by omega), Nat.add_sub_cancel_left]
  · exact (List.getElem?_eq_none (by omega)).symm

theorem slice_writeAt_of_le (h : a ≤ l.length) (hb : b + n ≤ a) :
    slice b n (writeAt a src l) = slice b n l := by
  apply List.ext_getElem?
  intro i
  rw [getElem?_slice, getElem?_slice, getElem?_writeAt h]
  split
  · rw [if_pos (by omega)]
  · rfl

theorem slice_writeAt_of_ge (h : a + src.length ≤ l.length) (hb : a + src.length ≤ b) :
    slice b n (writeAt a src l) = slice b n l := by
  apply List.ext_getElem?
  intro i
  rw [getElem?_slice, getElem?_slice, getElem?_writeAt (by omega)]
  split
  · rw [if_neg (by omega), if_neg (by omega)]
  · rfl

/-- A read from the last byte of the copy on. -/
theorem slice_writeAt_last {x : UInt8} (h : a + src.length < l.length) (hn : 0 < n) :
    slice (a + src.length) n (writeAt a (src ++ [x]) l) =
      x :: (slice (a + src.length) n l).tail := by
  have hlen : (src ++ [x]).length = src.length + 1 := List.length_append
  apply List.ext_getElem?
  intro i
  cases i with
  | zero =>
    rw [getElem?_slice, getElem?_writeAt (by omega), if_pos hn, if_neg (by omega),
      if_pos (by omega), List.getElem?_append_right (by omega)]
    simp
  | succ i =>
    rw [List.getElem?_cons_succ, List.getElem?_tail, getElem?_slice, getElem?_slice,
      getElem?_writeAt (by omega)]
    split
    · rw [if_neg (by omega), if_neg (by omega)]
    · rfl

/-- A read from the beginning, over a copy to the beginning. -/
theorem slice_writeAt_zero (n : ℕ) (src l : List UInt8) :
    slice 0 n (writeAt 0 src l) = (src ++ (slice 0 n l).drop src.length).take n := by
  rw [slice, slice, writeAt, List.drop_zero, List.drop_zero, List.take_zero, List.nil_append,
    Nat.zero_add, List.take_append, List.take_append, List.drop_take, List.take_take, Nat.min_self]

theorem slice_take (h : a + n ≤ m) : slice a n (l.take m) = slice a n l := by
  apply List.ext_getElem?
  intro i
  rw [getElem?_slice, getElem?_slice]
  split
  · exact List.getElem?_take_of_lt (by omega)
  · rfl

theorem slice_add (a m n : ℕ) (l : List UInt8) :
    slice a (m + n) l = slice a m l ++ slice (a + m) n l := by
  rw [slice, slice, slice, List.take_add, List.drop_drop]

/-! ## Numbers -/

/-- `n` in `w` bytes, the least significant first. -/
def leBytes : ℕ → ℕ → List UInt8
  | 0, _ => []
  | w + 1, n => UInt8.ofNat n :: leBytes w (n / 256)

/-- The number that the bytes write, the least significant first. -/
def ofLe (l : List UInt8) : ℕ := l.foldr (fun b n => b.toNat + 256 * n) 0

/-- The same in two's complement. -/
def ofLeSigned (l : List UInt8) : ℤ := Int.bmod (ofLe l) (256 ^ l.length)

def le32 (x : UInt32) : List UInt8 := leBytes 4 x.toNat

@[simp] theorem length_leBytes (w n : ℕ) : (leBytes w n).length = w := by
  induction w generalizing n with
  | zero => rfl
  | succ w ih => rw [leBytes, List.length_cons, ih]

@[simp] theorem length_le32 (x : UInt32) : (le32 x).length = 4 := length_leBytes 4 _

theorem ofLe_leBytes (w n : ℕ) : ofLe (leBytes w n) = n % 256 ^ w := by
  induction w generalizing n with
  | zero => rw [pow_zero, Nat.mod_one]; rfl
  | succ w ih =>
    have hcons : ofLe (leBytes (w + 1) n) = n % 256 + 256 * ofLe (leBytes w (n / 256)) := by
      rw [leBytes, ofLe, List.foldr_cons, UInt8.toNat_ofNat']
      rfl
    rw [hcons, ih, pow_succ', Nat.mod_mul]

@[simp] theorem ofLe_le32 (x : UInt32) : ofLe (le32 x) = x.toNat := by
  rw [le32, ofLe_leBytes]
  exact Nat.mod_eq_of_lt x.toNat_lt

/-- A word that is read as signed is the word, as signed. -/
@[simp] theorem ofLeSigned_le32 (x : UInt32) : ofLeSigned (le32 x) = x.toInt32.toInt := by
  rw [ofLeSigned, ofLe_le32, length_le32]
  exact (BitVec.toInt_eq_toNat_bmod x.toBitVec).symm

theorem ofLe_append (l l' : List UInt8) : ofLe (l ++ l') = ofLe l + 256 ^ l.length * ofLe l' := by
  induction l with
  | nil => simp [ofLe]
  | cons b l ih =>
    have hcons : ∀ l : List UInt8, ofLe (b :: l) = b.toNat + 256 * ofLe l := fun _ => rfl
    rw [List.cons_append, hcons, hcons, ih, List.length_cons, pow_succ']
    ring

/-- The array `ws` in memory. -/
def words (ws : List UInt32) : List UInt8 := ws.flatMap le32

theorem length_words (ws : List UInt32) : (words ws).length = 4 * ws.length := by
  induction ws with
  | nil => rfl
  | cons w ws ih =>
    rw [words, List.flatMap_cons, List.length_append, length_le32, List.length_cons, ← words, ih]
    omega

/-- The words of an array, one behind the other. -/
theorem slice_words (ws : List UInt32) {i : ℕ} (h : i < ws.length) :
    slice (4 * i) 4 (words ws) = le32 ws[i] := by
  induction ws generalizing i with
  | nil => cases h
  | cons w ws ih =>
    rw [words, List.flatMap_cons, ← words]
    cases i with
    | zero => exact List.take_left' (length_le32 w)
    | succ i =>
      have hdrop : (le32 w ++ words ws).drop (4 * (i + 1)) = (words ws).drop (4 * i) := by
        have hle : (le32 w).length ≤ 4 * (i + 1) := by
          rw [length_le32]
          omega
        rw [List.drop_append, List.drop_eq_nil_of_le hle, List.nil_append, length_le32]
        rfl
      rw [slice, hdrop]
      exact ih (Nat.lt_of_succ_lt_succ h)

theorem slice_words_toList {n : ℕ} (ws : Vector UInt32 n) {i : ℕ} (h : i < n) :
    slice (4 * i) 4 (words ws.toList) = le32 ws[i] := by
  rw [slice_words _ (by simpa using h), Vector.getElem_toList]

/-! ## Text -/

def asciiBytes (text : List Char) : List UInt8 := text.map fun c => UInt8.ofNat c.toNat

/-- The text that the bytes are in UTF-8, if they are text. -/
def decodeUtf8 (l : List UInt8) : Option String := String.fromUTF8? l.toByteArray

@[simp] theorem length_asciiBytes (text : List Char) : (asciiBytes text).length = text.length :=
  List.length_map _

theorem asciiBytes_eq_utf8 {text : List Char} (h : ∀ c ∈ text, c.toNat < 128) :
    asciiBytes text = text.flatMap String.utf8EncodeChar := by
  induction text with
  | nil => rfl
  | cons c text ih =>
    have hc : c.val.toNat ≤ 0x7f := Nat.le_of_lt_succ (h c List.mem_cons_self)
    have hchar : String.utf8EncodeChar c = [UInt8.ofNat c.toNat] := if_pos hc
    rw [List.flatMap_cons, ← ih fun d hd => h d (List.mem_cons_of_mem c hd), hchar]
    rfl

theorem decodeUtf8_asciiBytes {text : List Char} (h : ∀ c ∈ text, c.toNat < 128) :
    decodeUtf8 (asciiBytes text) = some (String.ofList text) := by
  rw [asciiBytes_eq_utf8 h]
  have hvalid : (text.flatMap String.utf8EncodeChar).toByteArray.IsValidUTF8 := ⟨text, rfl⟩
  rw [decodeUtf8, String.fromUTF8?, dif_pos hvalid]
  rfl

end Bytes

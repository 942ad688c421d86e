import Mathlib.Algebra.Order.Ring.Nat

/-!
# Hexadecimal text

`upperHex n` is what `%X` prints of `n`, and `hexPad w n` what `%0wX` prints: at least
`w` digits, more where the number needs them.  So the text is `w` digits long only for
`n < 16 ^ w` (`length_hexPad_le`), and longer paddings of a number that fills them are
all the same text (`hexPad_eq`).

`readHex?` reads such a text back (`readHex_hexPad`), whatever the padding, so distinct
numbers have distinct texts.  `hexPad_append` puts two texts together: the second must be
as wide as its place.
-/

namespace Hex

/-- The uppercase digit of `d`. -/
def hexChar (d : ℕ) : Char := (Nat.digitChar d).toUpper

/-- `%X`. -/
def upperHex (n : ℕ) : List Char := (Nat.toDigits 16 n).map Char.toUpper

/-- `%0wX`: zeros on the left, up to `w` digits. -/
def hexPad (w n : ℕ) : List Char := (upperHex n).leftpad w '0'

def hexDigit? (c : Char) : Option ℕ :=
  if '0' ≤ c ∧ c ≤ '9' then some (c.toNat - 48)
  else if 'A' ≤ c ∧ c ≤ 'F' then some (c.toNat - 55)
  else if 'a' ≤ c ∧ c ≤ 'f' then some (c.toNat - 87)
  else none

/-- Reading on, after `v`. -/
def readHexFrom (v : ℕ) : List Char → Option ℕ
  | [] => some v
  | c :: text => (hexDigit? c).bind fun d => readHexFrom (16 * v + d) text

/-- The hexadecimal number that the text is, if it is one. -/
def readHex? (text : List Char) : Option ℕ := if text = [] then none else readHexFrom 0 text

/-! ## Digits -/

theorem hexDigit_hexChar : ∀ d < 16, hexDigit? (hexChar d) = some d := by decide

/-- A digit is a character of one byte, and not the terminating zero. -/
theorem hexChar_ascii : ∀ d < 16, (hexChar d).toNat < 128 ∧ (hexChar d).toNat ≠ 0 := by decide

theorem upperHex_of_lt {n : ℕ} (h : n < 16) : upperHex n = [hexChar n] := by
  rw [upperHex, Nat.toDigits_of_lt_base h]
  rfl

theorem upperHex_of_le {n : ℕ} (h : 16 ≤ n) :
    upperHex n = upperHex (n / 16) ++ [hexChar (n % 16)] := by
  rw [upperHex, Nat.toDigits_of_base_le (by decide) h, List.map_append]
  rfl

theorem length_upperHex_le {n k : ℕ} (hk : 0 < k) : (upperHex n).length ≤ k ↔ n < 16 ^ k := by
  rw [upperHex, List.length_map]
  exact Nat.length_toDigits_le_iff (by decide) hk

theorem mem_upperHex {n : ℕ} {c : Char} (h : c ∈ upperHex n) : ∃ d < 16, c = hexChar d := by
  induction n using Nat.strong_induction_on with
  | _ n ih =>
    rcases Nat.lt_or_ge n 16 with hn | hn
    · rw [upperHex_of_lt hn, List.mem_singleton] at h
      exact ⟨n, hn, h⟩
    · rw [upperHex_of_le hn, List.mem_append, List.mem_singleton] at h
      rcases h with h | h
      · exact ih (n / 16) (Nat.div_lt_self (by omega) (by decide)) h
      · exact ⟨n % 16, Nat.mod_lt n (by decide), h⟩

/-! ## Reading -/

theorem readHexFrom_append (v : ℕ) (text text' : List Char) :
    readHexFrom v (text ++ text') = (readHexFrom v text).bind fun u => readHexFrom u text' := by
  induction text generalizing v with
  | nil => rfl
  | cons c text ih =>
    rw [List.cons_append, readHexFrom, readHexFrom, Option.bind_assoc]
    exact Option.bind_congr fun d _ => ih (16 * v + d)

theorem readHexFrom_upperHex (n : ℕ) : readHexFrom 0 (upperHex n) = some n := by
  induction n using Nat.strong_induction_on with
  | _ n ih =>
    rcases Nat.lt_or_ge n 16 with hn | hn
    · rw [upperHex_of_lt hn, readHexFrom, hexDigit_hexChar n hn]
      show some (16 * 0 + n) = some n
      rw [Nat.mul_zero, Nat.zero_add]
    · rw [upperHex_of_le hn, readHexFrom_append,
        ih (n / 16) (Nat.div_lt_self (by omega) (by decide)), Option.bind_some, readHexFrom,
        hexDigit_hexChar _ (Nat.mod_lt n (by decide))]
      show some (16 * (n / 16) + n % 16) = some n
      rw [Nat.div_add_mod]

theorem readHexFrom_zeros (k : ℕ) (text : List Char) :
    readHexFrom 0 (List.replicate k '0' ++ text) = readHexFrom 0 text := by
  induction k with
  | zero => rfl
  | succ k ih => exact ih

theorem hexPad_ne_nil (w n : ℕ) : hexPad w n ≠ [] := by
  intro h
  have hdigits : upperHex n = [] := (List.append_eq_nil_iff.mp h).2
  exact Nat.toDigits_ne_nil (List.map_eq_nil_iff.mp hdigits)

/-- **The text is read back**, however wide it was padded. -/
theorem readHex_hexPad (w n : ℕ) : readHex? (hexPad w n) = some n := by
  rw [readHex?, if_neg (hexPad_ne_nil w n), hexPad, List.leftpad, readHexFrom_zeros,
    readHexFrom_upperHex]

theorem hexPad_injective (w : ℕ) : Function.Injective (hexPad w) := by
  intro m n h
  have hread := congrArg readHex? h
  rw [readHex_hexPad, readHex_hexPad] at hread
  exact Option.some.inj hread

/-! ## Padding -/

theorem mem_hexPad {w n : ℕ} {c : Char} (h : c ∈ hexPad w n) : ∃ d < 16, c = hexChar d := by
  rcases List.mem_append.mp h with h | h
  · exact ⟨0, by decide, (List.mem_replicate.mp h).2⟩
  · exact mem_upperHex h

theorem length_hexPad (w n : ℕ) : (hexPad w n).length = max w (upperHex n).length :=
  List.length_leftpad

/-- The text keeps to its width exactly for the numbers that fit. -/
theorem length_hexPad_le {w k n : ℕ} (hw : w ≤ k) (hk : 0 < k) :
    (hexPad w n).length ≤ k ↔ n < 16 ^ k := by
  rw [length_hexPad, Nat.max_le, length_upperHex_le hk, and_iff_right hw]

theorem length_hexPad_of_lt {w n : ℕ} (hw : 0 < w) (h : n < 16 ^ w) :
    (hexPad w n).length = w := by
  apply Nat.le_antisymm ((length_hexPad_le le_rfl hw).mpr h)
  rw [length_hexPad]
  exact Nat.le_max_left _ _

/-- A number that fills the wider text has the same text in the narrower one. -/
theorem hexPad_eq {w w' n : ℕ} (hw : w ≤ w' + 1) (h : 16 ^ w' ≤ n) (hw' : 0 < w') :
    hexPad w n = hexPad (w' + 1) n := by
  have hlen : w' < (upperHex n).length := by
    by_contra hle
    exact Nat.not_lt_of_le h ((length_upperHex_le hw').mp (Nat.le_of_not_lt hle))
  rw [hexPad, hexPad, List.leftpad, List.leftpad, Nat.sub_eq_zero_of_le (by omega),
    Nat.sub_eq_zero_of_le (by omega)]

theorem hexPad_succ {w : ℕ} (hw : 0 < w) (n : ℕ) :
    hexPad (w + 1) n = hexPad w (n / 16) ++ [hexChar (n % 16)] := by
  rcases Nat.lt_or_ge n 16 with hn | hn
  · obtain ⟨v, rfl⟩ := Nat.exists_eq_add_one_of_ne_zero (Nat.pos_iff_ne_zero.mp hw)
    have hzeros : hexPad (v + 1) 0 = List.replicate (v + 1) '0' :=
      (List.replicate_succ' (n := v) (a := '0')).symm
    rw [Nat.div_eq_of_lt hn, Nat.mod_eq_of_lt hn, hzeros, hexPad, upperHex_of_lt hn]
    rfl
  · rw [hexPad, upperHex_of_le hn, hexPad, List.leftpad, List.leftpad, List.length_append,
      List.length_singleton, Nat.add_sub_add_right, List.append_assoc]

/-- Two texts put together, the second as wide as its place. -/
theorem hexPad_append {w k : ℕ} (hw : 0 < w) (hk : 0 < k) (m : ℕ) {n : ℕ} (hn : n < 16 ^ k) :
    hexPad w m ++ hexPad k n = hexPad (w + k) (16 ^ k * m + n) := by
  induction k, hk using Nat.le_induction generalizing n with
  | base =>
    have hlast : hexPad 1 n = [hexChar n] := by
      rw [hexPad, upperHex_of_lt (by omega)]
      rfl
    rw [hlast, hexPad_succ hw]
    congr 3 <;> omega
  | succ k hk ih =>
    have hdiv : n / 16 < 16 ^ k := by
      rw [pow_succ] at hn
      omega
    rw [hexPad_succ hk, ← List.append_assoc, ih hdiv, ← Nat.add_assoc, hexPad_succ (by omega)]
    rw [pow_succ', Nat.mul_assoc]
    congr 3 <;> omega

end Hex

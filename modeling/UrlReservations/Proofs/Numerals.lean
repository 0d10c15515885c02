/-
Numerals give their numbers back.

A numeral is read from its first digit to its last, so what has been read stands in front of what
is left (`readFrom`), and both notations are proved by induction on how they are made: a
hexadecimal numeral of a fixed width digit by digit from the front, a decimal one by its last
digit.  A number that needs more digits than the width gives loses the first ones; one that fits
loses nothing.
-/
import Mathlib.Data.String.Basic
import UrlReservations.Numeral

namespace UrlReservations.Numeral

/-- The number that digits stand for behind those that were read before. -/
def readFrom (base value : Nat) (digits : List Char) : Option Nat :=
  digits.foldlM (fun value c => (digit? base c).map (value * base + ·)) value

theorem read?_eq_readFrom {base : Nat} {digits : List Char} (h : digits ≠ []) :
    read? base digits = readFrom base 0 digits := by
  cases digits with
  | nil => exact absurd rfl h
  | cons c rest => rfl

theorem readFrom_cons {base value d : Nat} {c : Char} (h : digit? base c = some d)
    (rest : List Char) :
    readFrom base value (c :: rest) = readFrom base (value * base + d) rest := by
  rw [readFrom, List.foldlM_cons, h]
  rfl

theorem readFrom_append_singleton {base value read d : Nat} {digits : List Char} {c : Char}
    (hdigits : readFrom base value digits = some read) (hc : digit? base c = some d) :
    readFrom base value (digits ++ [c]) = some (read * base + d) := by
  rw [readFrom] at hdigits ⊢
  rw [List.foldlM_append, hdigits]
  show readFrom base read [c] = _
  rw [readFrom_cons hc]
  rfl

/-! ### Hexadecimal numerals -/

/-- A digit of either case is read as what it stands for. -/
theorem digit?_lowerDigit : ∀ n < 16, digit? 16 (lowerDigit n) = some n := by decide

theorem digit?_upperDigit : ∀ n < 16, digit? 16 (upperDigit n) = some n := by decide

theorem hex_succ (digit : Nat → Char) (width n : Nat) :
    hex digit (width + 1) n = digit (n >>> (4 * width) % 16) :: hex digit width n := by
  rw [hex, List.range_succ, List.reverse_append]
  rfl

theorem length_hex (digit : Nat → Char) (width n : Nat) : (hex digit width n).length = width := by
  simp [hex]

theorem readFrom_hex {digit : Nat → Char} (hdigit : ∀ n < 16, digit? 16 (digit n) = some n)
    (value width n : Nat) :
    readFrom 16 value (hex digit width n) = some (value * 16 ^ width + n % 16 ^ width) := by
  induction width generalizing value with
  | zero =>
    rw [Nat.pow_zero, Nat.mod_one, Nat.mul_one, Nat.add_zero]
    rfl
  | succ width ih =>
    have hshift : n >>> (4 * width) = n / 16 ^ width := by
      rw [Nat.shiftRight_eq_div_pow, Nat.pow_mul]
    have hmod : n % 16 ^ (width + 1) = n % 16 ^ width + 16 ^ width * (n / 16 ^ width % 16) :=
      Nat.mod_pow_succ
    rw [hex_succ, readFrom_cons (hdigit _ (Nat.mod_lt _ (by decide))), ih, hshift, hmod,
      Nat.pow_succ]
    congr 1
    grind

/-- **A hexadecimal numeral is read as its number**, if the number fits into the width. -/
theorem read?_hex {digit : Nat → Char} (hdigit : ∀ n < 16, digit? 16 (digit n) = some n)
    {width n : Nat} (hwidth : 0 < width) (hn : n < 16 ^ width) :
    read? 16 (hex digit width n) = some n := by
  have hne : hex digit width n ≠ [] := by
    rw [← List.length_pos_iff, length_hex]
    exact hwidth
  rw [read?_eq_readFrom hne, readFrom_hex hdigit, Nat.mod_eq_of_lt hn, Nat.zero_mul, Nat.zero_add]

/-! ### Decimal numerals -/

theorem digit?_digitChar : ∀ n < 10, digit? 10 (Nat.digitChar n) = some n := by decide

theorem toList_toString (n : Nat) : (toString n).toList = Nat.toDigits 10 n := by
  rw [Nat.toString_eq_repr, Nat.repr, String.toList_ofList]

theorem isDigit_of_mem_toDigits {n : Nat} {c : Char} (h : c ∈ Nat.toDigits 10 n) :
    c.isDigit = true :=
  Nat.isDigit_of_mem_toDigits (by decide) (by decide) h

theorem readFrom_toDigits (n : Nat) : readFrom 10 0 (Nat.toDigits 10 n) = some n := by
  induction n using Nat.strongRecOn with
  | ind n ih =>
    by_cases hsmall : n < 10
    · rw [Nat.toDigits_of_lt_base hsmall, readFrom_cons (digit?_digitChar n hsmall)]
      simp [readFrom]
    · have hrest := ih (n / 10) (by omega)
      rw [Nat.toDigits_of_base_le (by decide) (by omega),
        readFrom_append_singleton hrest (digit?_digitChar _ (Nat.mod_lt n (by decide)))]
      congr 1
      omega

/-- **A decimal numeral is read as its number.** -/
theorem read?_toDigits (n : Nat) : read? 10 (Nat.toDigits 10 n) = some n := by
  rw [read?_eq_readFrom Nat.toDigits_ne_nil, readFrom_toDigits]

/-- So numerals tell numbers apart. -/
theorem toDigits_inj {m n : Nat} (h : Nat.toDigits 10 m = Nat.toDigits 10 n) : m = n := by
  have hread : read? 10 (Nat.toDigits 10 m) = read? 10 (Nat.toDigits 10 n) := by rw [h]
  rw [read?_toDigits, read?_toDigits] at hread
  exact Option.some.inj hread

theorem toString_inj {m n : Nat} (h : toString m = toString n) : m = n := by
  have htexts := congrArg String.toList h
  rw [toList_toString, toList_toString] at htexts
  exact toDigits_inj htexts

/-- A numeral has a first digit, which is a zero only if there is no other. -/
theorem exists_toDigits_eq_cons (n : Nat) :
    ∃ c digits, Nat.toDigits 10 n = c :: digits ∧ c.isDigit = true ∧ (c = '0' → digits = []) := by
  induction n using Nat.strongRecOn with
  | ind n ih =>
    by_cases hsmall : n < 10
    · have hdigit := Nat.toDigits_of_lt_base hsmall
      exact ⟨_, [], hdigit, isDigit_of_mem_toDigits (hdigit ▸ List.mem_singleton_self _),
        fun _ => rfl⟩
    · have hlast := Nat.toDigits_of_base_le (b := 10) (by decide) (Nat.not_lt.mp hsmall)
      obtain ⟨c, digits, hdigits, hdigit, hzero⟩ := ih (n / 10) (by omega)
      refine ⟨c, digits ++ [(n % 10).digitChar], by rw [hlast, hdigits]; rfl, hdigit, ?_⟩
      rintro rfl
      -- a lone zero in front would be all that is left of the number without its last digit
      have hread := readFrom_toDigits (n / 10)
      rw [hdigits, hzero rfl] at hread
      have hvalue : n / 10 = 0 := (Option.some.inj hread).symm
      omega

end UrlReservations.Numeral

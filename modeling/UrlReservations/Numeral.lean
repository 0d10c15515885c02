/-
Whole numbers written in a base.

A numeral is one or more digits and nothing else; letters stand for the digits from ten
on and may have either case.
-/

namespace UrlReservations.Numeral

/-- The value of a digit in a base up to sixteen. -/
def digit? (base : Nat) (c : Char) : Option Nat :=
  let value? :=
    if '0' ≤ c ∧ c ≤ '9' then some (c.toNat - '0'.toNat)
    else if 'a' ≤ c ∧ c ≤ 'f' then some (c.toNat - 'a'.toNat + 10)
    else if 'A' ≤ c ∧ c ≤ 'F' then some (c.toNat - 'A'.toNat + 10)
    else none
  value?.filter (· < base)

/--
The number that digits stand for, if there is at least one and nothing else stands among them.
-/
def read? (base : Nat) : List Char → Option Nat
  | [] => none
  | digits => digits.foldlM (fun value c => (digit? base c).map (value * base + ·)) 0

/-- The lower-case hexadecimal digit of a number below sixteen. -/
def lowerDigit (n : Nat) : Char := Nat.digitChar n

/-- The upper-case hexadecimal digit of a number below sixteen. -/
def upperDigit (n : Nat) : Char := (Nat.digitChar n).toUpper

/-- The last `width` hexadecimal digits of a number, most significant first. -/
def hex (digit : Nat → Char) (width n : Nat) : List Char :=
  (List.range width).reverse.map fun i => digit ((n >>> (4 * i)) % 16)

end UrlReservations.Numeral

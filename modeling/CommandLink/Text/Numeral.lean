/-!
# Unsigned decimal numerals

A numeral is one or more ASCII digits, with at most one `+` before them. Reading takes a bound
and refuses what exceeds it, so a numeral never wraps around.

Results:
* `read?_le`: what is read respects the bound.
* `read?_plus`: a leading `+` changes nothing.
-/
namespace CommandLink.Text.Numeral

def isDigit (c : Char) : Bool :=
  decide ('0' ≤ c) && decide (c ≤ '9')

def digitValue (c : Char) : Nat :=
  c.toNat - 48

/-- The number that a row of digits denotes. -/
def value (ds : List Char) : Nat :=
  ds.foldl (fun n d => 10 * n + digitValue d) 0

/-- The digits of a numeral: all of it, or what follows its `+`. -/
def digits : List Char → List Char
  | '+' :: ds => ds
  | ds => ds

/-- The number a numeral denotes, if it is a numeral and at most `bound`. -/
def read? (bound : Nat) (cs : List Char) : Option Nat :=
  let ds := digits cs
  if ds ≠ [] ∧ ds.all isDigit = true ∧ value ds ≤ bound then some (value ds) else none

theorem read?_le {bound n : Nat} {cs : List Char} (h : read? bound cs = some n) : n ≤ bound := by
  simp only [read?] at h
  split at h
  · next hd => cases h; exact hd.2.2
  · cases h

theorem digits_of_ne_plus {d : Char} (ds : List Char) (hd : d ≠ '+') :
    digits (d :: ds) = d :: ds := by
  unfold digits
  split
  · next h => cases h; exact absurd rfl hd
  · rfl

theorem read?_plus {bound : Nat} {d : Char} {ds : List Char} (hd : d ≠ '+') :
    read? bound ('+' :: d :: ds) = read? bound (d :: ds) := by
  have h : digits ('+' :: d :: ds) = d :: ds := rfl
  simp only [read?, h, digits_of_ne_plus ds hd]

end CommandLink.Text.Numeral

namespace CommandLink.Text

/-- The greatest number of 16 bits. -/
def max16 : Nat := 0xFFFF
/-- The greatest number of 32 bits. -/
def max32 : Nat := 0xFFFFFFFF
/-- The greatest number of 64 bits. -/
def max64 : Nat := 0xFFFFFFFFFFFFFFFF

/-- A number written as decimal digits, without sign or leading zeros. -/
def decimal (n : Nat) : String :=
  String.ofList (Nat.toDigits 10 n)

/-- The text of a numeral, read with a bound. -/
def readNumeral? (bound : Nat) (s : String) : Option Nat :=
  Numeral.read? bound s.toList

end CommandLink.Text

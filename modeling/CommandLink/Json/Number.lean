import CommandLink.Json.Lexeme
/-!
# Numbers of JSON

An integer keeps its exact value as long as its digits fit 64 bits; anything else is a fraction, a
double computed from the leading digits and a power of ten. A number that is skipped is checked for
form alone.

Results:
* `significand_le`: the leading digits kept stay within 64 bits.
* `significand_length`, `skipDigits_length`: reading digits never lengthens what remains.
-/
namespace CommandLink.Json

inductive Number where
  | whole (n : Nat)
  | negative (n : Nat)
  | fraction (x : Float)
  deriving Repr

/-- How a number is named when something else was wanted. -/
def Number.found : Number → Found
  | .whole n => .integer n
  | .negative n => .integer (-n)
  | .fraction x => .fraction x

def isDigit (b : UInt8) : Bool := decide (0x30 ≤ b) && decide (b ≤ 0x39)

def digitValue (b : UInt8) : Nat := b.toNat - 0x30

/-- The byte of the mark before an exponent, in either case. -/
def isExponentMark (b : UInt8) : Bool := b == 0x65 || b == 0x45

/-- Digits taken into a number for as long as it fits 64 bits: the number, how many digits were
taken, and the rest. -/
def significand (n count : Nat) : Bytes → Nat × Nat × Bytes
  | [] => (n, count, [])
  | b :: rest =>
    if isDigit b = true ∧ n * 10 + digitValue b ≤ Text.max64 then
      significand (n * 10 + digitValue b) (count + 1) rest
    else (n, count, b :: rest)

/-- The number of further digits, and the rest. -/
def skipDigits (count : Nat) : Bytes → Nat × Bytes
  | [] => (count, [])
  | b :: rest => if isDigit b then skipDigits (count + 1) rest else (count, b :: rest)

/-- `x · 10^e` by one rounded multiplication or by divisions through at most `10^308` each; `none`
if it is beyond the doubles. -/
def scale (x : Float) (e : Int) : Nat → Option Float
  | 0 => some x
  | fuel + 1 =>
    if e.natAbs ≤ 308 then
      let p := Float.ofScientific 1 false e.natAbs
      if 0 ≤ e then
        let y := x * p
        if y.isInf then none else some y
      else some (x / p)
    else if x == 0 then some x
    else if 0 ≤ e then none
    else scale (x / Float.ofScientific 1 false 308) (e + 308) fuel

/-- The double of a significand and a power of ten, with a sign. -/
def fraction (negative : Bool) (n : Nat) (e : Int) (rest : Bytes) : Except Stop (Number × Bytes) :=
  match scale (UInt64.ofNat n).toFloat e (e.natAbs / 308 + 2) with
  | none => .error (.here .numberOutOfRange rest)
  | some x => .ok (.fraction (if negative then -x else x), rest)

/-- Digits of an exponent as long as they fit 31 bits: the number, the rest, and whether the digit
before the rest was one too many. -/
def exponentDigits (n : Nat) : Bytes → Nat × Bytes × Bool
  | [] => (n, [], false)
  | b :: rest =>
    if isDigit b then
      if n * 10 + digitValue b ≤ 0x7FFFFFFF then exponentDigits (n * 10 + digitValue b) rest
      else (n, rest, true)
    else (n, b :: rest, false)

/-- The exponent behind its mark; `e` is the power of ten the significand has already. -/
def exponent (negative : Bool) (n : Nat) (e : Int) (bs : Bytes) : Except Stop (Number × Bytes) :=
  let (down, bs) := match bs with
    | b :: rest => if b = 0x2B then (false, rest) else if b = 0x2D then (true, rest) else (false, bs)
    | [] => (false, [])
  match bs with
  | [] => .error (.here .endInValue [])
  | b :: rest =>
    if isDigit b then
      let (power, rest, tooLong) := exponentDigits (digitValue b) rest
      if tooLong then
        if n ≠ 0 ∧ down = false then .error (.here .numberOutOfRange rest)
        else .ok (.fraction (if negative then -0.0 else 0.0), (skipDigits 0 rest).2)
      else fraction negative n (if down then e - power else e + power) rest
    else .error (.here .badNumber rest)

/-- An exponent if there is one, else the number so far. -/
def exponentOrEnd (negative : Bool) (n : Nat) (e : Int) (bs : Bytes) : Except Stop (Number × Bytes) :=
  match bs with
  | [] => fraction negative n e []
  | b :: rest => if isExponentMark b then exponent negative n e rest else fraction negative n e (b :: rest)

/-- The decimals behind the point. Digits beyond 64 bits are dropped. -/
def decimals (negative : Bool) (n : Nat) (e : Int) (bs : Bytes) : Except Stop (Number × Bytes) :=
  let (n', count, rest) := significand n 0 bs
  match rest with
  | b :: _ =>
    if isDigit b then exponentOrEnd negative n' (e - count) (skipDigits 0 rest).2
    else if count = 0 then .error (.atNext .badNumber rest)
    else exponentOrEnd negative n' (e - count) rest
  | [] => if count = 0 then .error (.atNext .endInValue []) else fraction negative n' (e - count) []

/-- What follows the integer part `n`, of which `dropped` digits no longer fitted. -/
def afterInteger (negative : Bool) (n : Nat) (dropped : Nat) (exact : Bool) (bs : Bytes) :
    Except Stop (Number × Bytes) :=
  let plain : Except Stop (Number × Bytes) :=
    if exact then
      if negative then
        if 0 < n ∧ n ≤ 0x8000000000000000 then .ok (.negative n, bs)
        else .ok (.fraction (-(UInt64.ofNat n).toFloat), bs)
      else .ok (.whole n, bs)
    else fraction negative n dropped bs
  match bs with
  | b :: rest =>
    if b = 0x2E then decimals negative n dropped rest
    else if isExponentMark b then exponent negative n dropped rest
    else plain
  | [] => plain

/-- A number behind its sign. -/
def number (negative : Bool) : Reader Number
  | [] => .error (.here .endInValue [])
  | b :: rest =>
    if b = 0x30 then
      match rest with
      | c :: _ => if isDigit c then .error (.atNext .badNumber rest) else afterInteger negative 0 0 true rest
      | [] => afterInteger negative 0 0 true []
    else if isDigit b then
      let (n, _, rest) := significand (digitValue b) 0 rest
      match rest with
      | c :: _ =>
        if isDigit c then
          let (dropped, rest) := skipDigits 0 rest
          afterInteger negative n dropped false rest
        else afterInteger negative n 0 true rest
      | [] => afterInteger negative n 0 true []
    else .error (.here .badNumber rest)

/-- The rest behind a skipped exponent. -/
def skipExponent (bs : Bytes) : Except Stop Bytes :=
  let bs := match bs with
    | b :: rest => if b = 0x2B ∨ b = 0x2D then rest else bs
    | [] => []
  match bs with
  | [] => .error (.here .badNumber [])
  | b :: rest => if isDigit b then .ok (skipDigits 0 rest).2 else .error (.here .badNumber rest)

/-- The rest behind skipped decimals. -/
def skipDecimals (bs : Bytes) : Except Stop Bytes :=
  match skipDigits 0 bs with
  | (0, rest) => .error (.atNext .badNumber rest)
  | (_, b :: rest) => if isExponentMark b then skipExponent rest else .ok (b :: rest)
  | (_, []) => .ok []

/-- The rest behind a number that is skipped, its sign being read. -/
def skipNumber (bs : Bytes) : Except Stop Bytes :=
  let tail : Bytes → Except Stop Bytes
    | b :: rest =>
      if b = 0x2E then skipDecimals rest else if isExponentMark b then skipExponent rest else .ok (b :: rest)
    | [] => .ok []
  match bs with
  | [] => .error (.here .badNumber [])
  | b :: rest =>
    if b = 0x30 then
      match rest with
      | c :: _ => if isDigit c then .error (.atNext .badNumber rest) else tail rest
      | [] => .ok []
    else if isDigit b then tail (skipDigits 0 rest).2
    else .error (.here .badNumber rest)

theorem significand_le {n count : Nat} {bs : Bytes} (h : n ≤ Text.max64) :
    (significand n count bs).1 ≤ Text.max64 := by
  induction bs generalizing n count with
  | nil => exact h
  | cons b rest ih =>
    simp only [significand]
    split
    · next hb => exact ih hb.2
    · exact h

theorem significand_length (n count : Nat) (bs : Bytes) :
    (significand n count bs).2.2.length ≤ bs.length := by
  induction bs generalizing n count with
  | nil => exact Nat.le_refl _
  | cons b rest ih =>
    simp only [significand]
    split
    · exact Nat.le_succ_of_le (ih _ _)
    · exact Nat.le_refl _

theorem skipDigits_length (count : Nat) (bs : Bytes) : (skipDigits count bs).2.length ≤ bs.length := by
  induction bs generalizing count with
  | nil => exact Nat.le_refl _
  | cons b rest ih =>
    simp only [skipDigits]
    split
    · exact Nat.le_succ_of_le (ih _)
    · exact Nat.le_refl _

end CommandLink.Json

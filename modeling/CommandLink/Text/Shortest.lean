/-!
# Shortest decimal digits

The decimal digits that name a positive binary fraction `m · 2^q` among all doubles: the fewest
digits whose value rounds back to it, and of those the nearest. Everything is decided in exact
arithmetic on natural numbers.

Results:
* `stripZeros_value`: dropping trailing zeros keeps the value of digits and exponent.
-/
namespace CommandLink.Text.Shortest

/-- A decimal number `digits · 10^exponent`. -/
structure Decimal where
  digits : Nat
  exponent : Int
  deriving Repr, BEq, DecidableEq

/-- `b` to an integer power, as numerator and denominator. -/
def ratio (b : Nat) (e : Int) : Nat × Nat :=
  if 0 ≤ e then (b.pow e.toNat, 1) else (1, b.pow (-e).toNat)

/-- The reals around `v · 2^q` that round to it, in quarters of the last binary place: `lo` and `hi`
belong to them exactly when `closed`. -/
structure Interval where
  lo : Nat
  mid : Nat
  hi : Nat
  closed : Bool

/-- The least mantissa of all its bits. -/
def fullMantissa : Nat := 0x10000000000000

/-- Below a power of two the doubles lie twice as dense, except at the bottom of the range. -/
def interval (m : Nat) (lowest : Bool) : Interval :=
  let below := if m = fullMantissa ∧ lowest = false then 1 else 2
  ⟨4 * m - below, 4 * m, 4 * m + 2, m % 2 == 0⟩

/-- Whether `d · 10^k` lies in an interval, with the place value `2^q / 4`. -/
def Interval.contains (i : Interval) (q k : Int) (d : Nat) : Bool :=
  let (pn, pd) := ratio 2 (q - 2)
  let (tn, td) := ratio 10 k
  let x := d * tn * pd
  let lo := i.lo * pn * td
  let hi := i.hi * pn * td
  if i.closed then decide (lo ≤ x) && decide (x ≤ hi) else decide (lo < x) && decide (x < hi)

/-- The greatest `d` with `d · 10^k` at most the middle of the interval. -/
def Interval.floorAt (i : Interval) (q k : Int) : Nat :=
  let (pn, pd) := ratio 2 (q - 2)
  let (tn, td) := ratio 10 k
  (i.mid * pn * td) / (pd * tn)

/-- Of two neighbours on the grid `10^k` both in the interval, the nearer to the middle; a tie goes
to the even one. -/
def Interval.nearer (i : Interval) (q k : Int) (d : Nat) : Nat :=
  let (pn, pd) := ratio 2 (q - 2)
  let (tn, td) := ratio 10 k
  let twice := 2 * (i.mid * pn * td)
  let middle := (2 * d + 1) * tn * pd
  if twice < middle then d
  else if middle < twice then d + 1
  else if d % 2 = 0 then d else d + 1

/-- The exponent of the first decimal digit, searched from `e` downwards. -/
def leadingExponent (i : Interval) (q : Int) : Nat → Int → Int
  | 0, e => e
  | fuel + 1, e => if 1 ≤ i.floorAt q e then e else leadingExponent i q fuel (e - 1)

def stripZeros : Nat → Decimal → Decimal
  | 0, d => d
  | fuel + 1, d =>
    if d.digits % 10 = 0 ∧ d.digits ≠ 0 then stripZeros fuel ⟨d.digits / 10, d.exponent + 1⟩ else d

/-- Tries one digit more each time, at most `fuel` times. -/
def search (i : Interval) (q : Int) (k : Int) : Nat → Decimal
  | 0 => ⟨i.floorAt q k, k⟩
  | fuel + 1 =>
    let d := i.floorAt q k
    match i.contains q k d, i.contains q k (d + 1) with
    | true, true => ⟨i.nearer q k d, k⟩
    | true, false => ⟨d, k⟩
    | false, true => ⟨d + 1, k⟩
    | false, false => search i q (k - 1) fuel

/-- The shortest decimal of `m · 2^q`, where `m` has at most 53 bits and `lowest` tells the least
exponent. -/
def shortest (m : Nat) (q : Int) (lowest : Bool) : Decimal :=
  let i := interval m lowest
  let k := leadingExponent i q 700 310
  stripZeros 20 (search i q k 17)

/-- A double taken apart: sign, mantissa, binary exponent, and whether the exponent is the least. -/
def parts (x : Float) : Bool × Nat × Int × Bool :=
  let bits := x.toBits.toNat
  let sign := bits / 0x8000000000000000 == 1
  let biased := bits / fullMantissa % 0x800
  let fraction := bits % fullMantissa
  if biased = 0 then (sign, fraction, -1074, true)
  else (sign, fullMantissa + fraction, Int.ofNat biased - 1075, biased == 1)

theorem stripZeros_value (fuel : Nat) (d : Decimal) :
    ∃ n : Nat, d.digits = (stripZeros fuel d).digits * Nat.pow 10 n ∧
      (stripZeros fuel d).exponent = d.exponent + n := by
  induction fuel generalizing d with
  | zero => exact ⟨0, by simp [stripZeros]⟩
  | succ fuel ih =>
    simp only [stripZeros]
    split
    · next h =>
      obtain ⟨n, hn, he⟩ := ih ⟨d.digits / 10, d.exponent + 1⟩
      refine ⟨n + 1, ?_, ?_⟩
      · simp only at hn
        show d.digits = _ * (Nat.pow 10 n * 10)
        rw [← Nat.mul_assoc, ← hn]
        omega
      · simp only at he
        rw [he]
        omega
    · exact ⟨0, by simp⟩

end CommandLink.Text.Shortest

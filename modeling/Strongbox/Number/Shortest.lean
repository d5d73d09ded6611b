import Strongbox.Number.Binary64

/-!
# Shortest decimal digits

For a finite positive double `m · 2^e`, the decimal `d · 10^p` with the fewest significant
digits that reads back as the same double, and of those the nearest to it. Reading rounds
to nearest, so the decimals that read back are those in the interval halfway to the two
neighbouring doubles, ends included when `m` is even. For each digit count from one up, the
two decimals of that many digits around the value are the only ones that can be nearest, so
testing those two decides the count.

All arithmetic is on natural numbers: the value, the interval's ends and the candidates are
compared as fractions over the common denominator `2^(2 - e)`.
-/

namespace Strongbox.Shortest

/-- A positive value `num / den` compared with `c · 10^p`. -/
def compareScaled (num den c : Nat) (p : Int) : Ordering :=
  if p ≥ 0 then compare num (c * Nat.pow 10 p.toNat * den)
  else compare (num * Nat.pow 10 (-p).toNat) (c * den)

/-- The greatest `c` with `c · 10^p ≤ num / den`. -/
def floorScaled (num den : Nat) (p : Int) : Nat :=
  if p ≥ 0 then num / (den * Nat.pow 10 p.toNat) else num * Nat.pow 10 (-p).toNat / den

/-- `⌊log₁₀ (num / den)⌋` for a positive fraction. -/
def floorLog10 (num den : Nat) : Int :=
  if num ≥ den then ((Nat.toDigits 10 (num / den)).length : Int) - 1
  else
    -- the least k with num · 10^k ≥ den, found by counting digits first
    let k := (Nat.toDigits 10 (den / num)).length
    if num * Nat.pow 10 (k - 1) ≥ den then -((k : Int) - 1) else -(k : Int)

/-- The rounding interval of `m · 2^e` scaled by four: its low end, the value and its high
end, all over the denominator `2^(2 - e)` (or times `2^(e - 2)` when that is whole). -/
structure Interval where
  low : Nat
  value : Nat
  high : Nat
  den : Nat
  inclusive : Bool

/-- The interval of a finite positive double. The gap below is halved at the bottom of a
binade, where the neighbour below is closer. -/
def interval (m : Nat) (e : Int) : Interval :=
  let lowGap := if m = Nat.pow 2 52 ∧ e > -1074 then 1 else 2
  let scale (x : Nat) : Nat := if e ≥ 2 then x * Nat.pow 2 (e - 2).toNat else x
  let den := if e ≥ 2 then 1 else Nat.pow 2 (2 - e).toNat
  ⟨scale (4 * m - lowGap), scale (4 * m), scale (4 * m + 2), den, m % 2 == 0⟩

/-- `c · 10^p` lies in the interval. -/
def Interval.contains (iv : Interval) (c : Nat) (p : Int) : Bool :=
  let aboveLow := match compareScaled iv.low iv.den c p with
    | .lt => true
    | .eq => iv.inclusive
    | .gt => false
  let belowHigh := match compareScaled iv.high iv.den c p with
    | .gt => true
    | .eq => iv.inclusive
    | .lt => false
  aboveLow && belowHigh

/-- The nearer to the value of `c · 10^p` and `(c + 1) · 10^p`, the even one on a tie. -/
def Interval.nearer (iv : Interval) (c : Nat) (p : Int) : Nat :=
  match compareScaled (2 * iv.value) iv.den (2 * c + 1) p with
  | .lt => c
  | .gt => c + 1
  | .eq => if c % 2 = 0 then c else c + 1

/-- The decimal of `k` significant digits that reads back, if there is one. -/
def Interval.withDigits (iv : Interval) (q : Int) (k : Nat) : Option (Nat × Int) :=
  let p := q - k + 1
  let c := floorScaled iv.value iv.den p
  match iv.contains c p, iv.contains (c + 1) p with
  | true, true => some (iv.nearer c p, p)
  | true, false => some (c, p)
  | false, true => some (c + 1, p)
  | false, false => none

/-- Trailing zeros moved from the digits into the exponent. -/
def normalize (c : Nat) (p : Int) : Nat → Nat × Int
  | 0 => (c, p)
  | fuel + 1 => if c ≠ 0 ∧ c % 10 = 0 then normalize (c / 10) (p + 1) fuel else (c, p)

/-- The shortest digits `d` and exponent `p` of `m · 2^e` (`m > 0`), with `d` free of
trailing zeros; seventeen digits always suffice for a double. -/
def digits (m : Nat) (e : Int) : Nat × Int :=
  let iv := interval m e
  let q := floorLog10 iv.value iv.den
  let found := (List.range' 1 17).findSome? fun k => iv.withDigits q k
  let (c, p) := found.getD (floorScaled iv.value iv.den (q - 16), q - 16)
  normalize c p 20

end Strongbox.Shortest

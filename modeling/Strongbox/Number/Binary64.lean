/-!
# Binary64 numbers

An IEEE 754 double read off its 64 bits: not-a-number, an infinity, or a finite value
`(-1)^sign · m · 2^e` with an integer significand `m < 2⁵³`. This is the exact value that
printing and comparing start from.
-/

namespace Strongbox

/-- What the bits of a double stand for. -/
inductive Binary64 where
  | nan
  | infinity (negative : Bool)
  | finite (negative : Bool) (significand : Nat) (exponent : Int)
  deriving DecidableEq, Repr

namespace Binary64

/-- The meaning of 64 bits: sign, 11 exponent bits and 52 fraction bits. -/
def ofBits (bits : Nat) : Binary64 :=
  let negative := bits >>> 63 % 2 == 1
  let field := (bits >>> 52) % 2048
  let fraction := bits % Nat.pow 2 52
  if field = 2047 then (if fraction = 0 then .infinity negative else .nan)
  else if field = 0 then .finite negative fraction (-1074)
  else .finite negative (fraction + Nat.pow 2 52) (field - 1075)

/-- The meaning of a `Float`. -/
def ofFloat (x : Float) : Binary64 := ofBits x.toBits.toNat

/-- The double is finite with an integral value, which is returned. -/
def toInt? : Binary64 → Option Int
  | .finite negative m e =>
    if e ≥ 0 then
      let n : Int := m * Int.pow 2 e.toNat
      some (if negative then -n else n)
    else if m % Nat.pow 2 (-e).toNat = 0 then
      let n : Int := m / Int.pow 2 (-e).toNat
      some (if negative then -n else n)
    else none
  | _ => none

end Binary64

end Strongbox

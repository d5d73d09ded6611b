import Strongbox.Number.Shortest

/-!
# Decimal notation of doubles

How a double is written once its shortest digits are known. A `Notation` record holds the
decisions of one format: which decimal exponents are written positionally, whether a whole
number keeps `.0`, how the exponent is marked and padded, and the spellings of
not-a-number and the infinities.
-/

namespace Strongbox

/-- The decisions of one way of writing doubles. -/
structure Notation where
  /-- Positional notation when the point falls after digit `pointPos` (counting from the
  first digit) with `minPoint < pointPos ≤ maxPoint`; exponent notation otherwise. -/
  minPoint : Int
  maxPoint : Int
  /-- A whole number in positional notation ends in `.0`. -/
  pointZero : Bool
  /-- The exponent's sign is always written. -/
  exponentPlus : Bool
  /-- The exponent has at least this many digits. -/
  exponentWidth : Nat
  nanText : String
  infText : String
  negInfText : String

namespace Notation

/-- `n` in decimal, padded with zeros to `width` digits. -/
def padded (width n : Nat) : String :=
  let s := Nat.repr n
  String.ofList (List.replicate (width - s.length) '0') ++ s

/-- The digits `ds` with the decimal point after digit `pointPos`. -/
def positional (nt : Notation) (ds : String) (pointPos : Int) : String :=
  let n := ds.length
  if pointPos ≤ 0 then "0." ++ String.ofList (List.replicate (-pointPos).toNat '0') ++ ds
  else if pointPos ≥ n then
    ds ++ String.ofList (List.replicate (pointPos.toNat - n) '0') ++ (if nt.pointZero then ".0" else "")
  else
    String.ofList (ds.toList.take pointPos.toNat) ++ "." ++ String.ofList (ds.toList.drop pointPos.toNat)

/-- The digits `ds` as one digit, the rest after a point, and the exponent `x`. -/
def scientific (nt : Notation) (ds : String) (x : Int) : String :=
  let mantissa := match ds.toList with
    | d :: rest@(_ :: _) => String.ofList (d :: '.' :: rest)
    | _ => ds
  let sign := if x < 0 then "-" else if nt.exponentPlus then "+" else ""
  mantissa ++ "e" ++ sign ++ padded nt.exponentWidth x.natAbs

/-- The text of a finite positive `m · 2^e`. -/
def magnitude (nt : Notation) (m : Nat) (e : Int) : String :=
  if m = 0 then (if nt.pointZero then "0.0" else "0")
  else
    let (d, p) := Shortest.digits m e
    let ds := Nat.repr d
    let pointPos := (ds.length : Int) + p
    if nt.minPoint < pointPos ∧ pointPos ≤ nt.maxPoint then positional nt ds pointPos
    else scientific nt ds (pointPos - 1)

/-- The text of a double. -/
def render (nt : Notation) (x : Float) : String :=
  match Binary64.ofFloat x with
  | .nan => nt.nanText
  | .infinity negative => if negative then nt.negInfText else nt.infText
  | .finite negative m e => (if negative then "-" else "") ++ nt.magnitude m e

end Notation

end Strongbox

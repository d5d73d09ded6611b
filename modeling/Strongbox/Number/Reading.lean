import Strongbox.Text.Basic
import Strongbox.Text.Digit

/-!
# Reading decimal numbers

Decimal literals of doubles: an optional sign, digits with an optional fraction, and an
optional exponent, or one of the words `inf`, `infinity` and `nan` in any case. The value is
the double nearest to the exact decimal. Two grammars share the reader: the plain one, and
the one of number text typed by people, which also allows single underscores between digits
and blanks around the number, and takes decimal digits of every script.
-/

namespace Strongbox

/-- What a decimal literal denotes. -/
inductive FloatLiteral where
  | nan
  | infinity (negative : Bool)
  /-- `±digits · 10^exponent`. -/
  | decimal (negative : Bool) (digits : Nat) (exponent : Int)
  deriving DecidableEq, Repr

namespace FloatLiteral

/-- The nearest double; beyond the range of doubles the answer is an infinity or zero. -/
def toFloat : FloatLiteral → Float
  | nan => 0.0 / 0.0
  | infinity negative => if negative then -1.0 / 0.0 else 1.0 / 0.0
  | decimal negative digits exponent =>
    let size := ((Nat.toDigits 10 digits).length : Int) + exponent
    let magnitude : Float :=
      if digits = 0 || size < -400 then 0.0
      else if size > 400 then 1.0 / 0.0
      else if exponent ≥ 0 then Float.ofScientific digits false exponent.toNat
      else Float.ofScientific digits true (-exponent).toNat
    if negative then -magnitude else magnitude

end FloatLiteral

namespace Reading

/-- A run of decimal digits, with single underscores between digits when `underscores`;
returns the digits and the rest. -/
def digitRun (underscores : Bool) : List Char → List Char × List Char
  | c :: rest =>
    if c.isDigit then
      let (ds, r) := digitRun underscores rest
      (c :: ds, r)
    else if underscores ∧ c = '_' then
      match rest with
      | d :: _ =>
        if d.isDigit then
          let (ds, r) := digitRun underscores rest
          (ds, r)
        else ([], c :: rest)
      | [] => ([], [c])
    else ([], c :: rest)
  | [] => ([], [])

/-- The value of a list of ASCII digits. -/
def digitsValue (ds : List Char) : Nat := ds.foldl (fun n c => 10 * n + (c.toNat - 48)) 0

/-- An optional sign: whether it is a minus, and the rest. -/
def sign : List Char → Bool × List Char
  | '-' :: rest => (true, rest)
  | '+' :: rest => (false, rest)
  | cs => (false, cs)

/-- The optional exponent part `e±digits`; `none` when an exponent mark has no digits. -/
def exponentPart (underscores : Bool) : List Char → Option (Int × List Char)
  | c :: rest =>
    if c = 'e' ∨ c = 'E' then
      let (neg, r) := sign rest
      match r with
      | d :: _ =>
        if d.isDigit then
          let (ds, r') := digitRun underscores r
          let n : Int := digitsValue ds
          some (if neg then -n else n, r')
        else none
      | [] => none
    else some (0, c :: rest)
  | [] => some (0, [])

/-- A whole literal in the ASCII grammar, nothing left over. -/
def literal? (underscores : Bool) (cs : List Char) : Option FloatLiteral :=
  let (negative, body) := sign cs
  let word := String.ofList (body.map Char.toLower)
  if word = "inf" ∨ word = "infinity" then some (.infinity negative)
  else if word = "nan" then some .nan
  else
    let (intDigits, r) := match body with
      | d :: _ => if d.isDigit then digitRun underscores body else ([], body)
      | [] => ([], [])
    let (fracDigits, r) := match r with
      | '.' :: d :: rest' =>
        if d.isDigit then digitRun underscores (d :: rest') else ([], d :: rest')
      | '.' :: [] => ([], [])
      | _ => ([], r)
    if intDigits.isEmpty ∧ fracDigits.isEmpty then none
    else
      match exponentPart underscores r with
      | some (x, []) =>
        some (.decimal negative (digitsValue (intDigits ++ fracDigits)) (x - fracDigits.length))
      | _ => none

/-- Characters below 127 stay as they are; above them, blanks become spaces, decimal digits of
any script become ASCII digits, and anything else becomes `?`, which no literal contains. -/
def normalizePoint (c : Nat) : Char :=
  if c < 127 then Char.ofNat c
  else if Text.isBlank c then ' '
  else match Text.digitValue? c with
    | some d => Char.ofNat (48 + d)
    | none => '?'

/-- The ASCII blanks that surround a literal: space, tab, line feed, vertical tab, form feed
and carriage return. -/
def isAsciiBlank (c : Char) : Bool :=
  c = ' ' || c = '\t' || c = '\n' || c = '\x0b' || c = '\x0c' || c = '\r'

end Reading

/-- The double that number text typed by people denotes: ASCII blanks around it, and blanks
beyond ASCII anywhere, are ignored, single underscores may stand between digits, and any
script's decimal digits count. The ASCII information separators are not blanks here. -/
def FloatLiteral.ofText? (t : Text) : Option FloatLiteral :=
  let cs := t.points.map Reading.normalizePoint
  let trimmed := ((cs.dropWhile Reading.isAsciiBlank).reverse.dropWhile Reading.isAsciiBlank).reverse
  Reading.literal? true trimmed

end Strongbox

import Strongbox.Json.Basic
import Strongbox.Number.Reading

/-!
# Reading JSON

A JSON reader over code points, with the choices on which JSON readers differ gathered in a
`Dialect`: whether integers beyond a range become doubles, whether `NaN`, `Infinity` and
`-Infinity` are numbers, whether a number too large for a double is refused, how many digits
an integer may have, whether escapes may name lone surrogates, and how deep arrays and objects
may nest. A field named
twice keeps its first place and takes its last value. Only blanks may surround the document.

The reader is given fuel four times the length of its input; every call consumes a code
point or ends a loop, so it never runs out on a document that is well formed.
-/

namespace Strongbox

namespace Json

/-- The choices on which JSON readers differ. -/
structure Dialect where
  /-- Integers outside this range are read as doubles. -/
  intRange : Option (Int × Int)
  /-- `NaN`, `Infinity` and `-Infinity` are numbers. -/
  namedNumbers : Bool
  /-- A number whose nearest double is infinite is refused. -/
  refuseInfinite : Bool
  /-- A `\u` escape may name a surrogate without its partner. -/
  loneSurrogates : Bool
  /-- The deepest nesting of arrays and objects. -/
  maxDepth : Nat
  /-- Integers written with more digits than this are refused. -/
  intDigits : Option Nat := none

/-- Why a document cannot be read. -/
inductive ReadError where
  | unexpectedEnd
  | unexpected (c : Nat)
  | badEscape
  | loneSurrogate
  | numberOutOfRange
  /-- An integer has more digits than the dialect allows; `count` is how many it has. -/
  | tooManyDigits (count : Nat)
  /-- An array or, when `inObject`, an object opens beyond the deepest nesting. -/
  | tooDeep (inObject : Bool)
  | trailing
  | outOfFuel
  deriving DecidableEq, Repr

namespace Reader

/-- The blanks JSON allows between tokens: space, tab, line feed and carriage return. -/
def isSpace (c : Nat) : Bool := c == 0x20 || c == 0x09 || c == 0x0A || c == 0x0D

/-- The input without leading blanks. -/
def skipSpace (cs : List Nat) : List Nat := cs.dropWhile isSpace

/-- The code points of an ASCII word. -/
def word (s : String) : List Nat := s.toList.map Char.toNat

/-- The input after the word `w`, if it starts with it. -/
def afterWord (w : String) (cs : List Nat) : Option (List Nat) :=
  let ws := word w
  if ws.isPrefixOf cs then some (cs.drop ws.length) else none

/-- An ASCII digit. -/
def isDigit (c : Nat) : Bool := 0x30 ≤ c && c ≤ 0x39

/-- Four hexadecimal digits. -/
def hex4 : List Nat → Option (Nat × List Nat)
  | a :: b :: c :: d :: rest => do
    let va ← Hex.digitValue? (Char.ofNat a)
    let vb ← Hex.digitValue? (Char.ofNat b)
    let vc ← Hex.digitValue? (Char.ofNat c)
    let vd ← Hex.digitValue? (Char.ofNat d)
    pure (((va * 16 + vb) * 16 + vc) * 16 + vd, rest)
  | _ => none

/-- The code point of an escape after its backslash, with the rest; a high surrogate
followed by an escaped low one makes one code point. -/
def escape (d : Dialect) : List Nat → Except ReadError (Nat × List Nat)
  | c :: rest =>
    if c == 0x22 || c == 0x5C || c == 0x2F then .ok (c, rest)
    else if c == 0x62 then .ok (0x08, rest)
    else if c == 0x66 then .ok (0x0C, rest)
    else if c == 0x6E then .ok (0x0A, rest)
    else if c == 0x72 then .ok (0x0D, rest)
    else if c == 0x74 then .ok (0x09, rest)
    else if c == 0x75 then
      match hex4 rest with
      | none => .error .badEscape
      | some (hi, rest') =>
        if 0xD800 ≤ hi ∧ hi < 0xDC00 then
          match rest' with
          | 0x5C :: 0x75 :: more =>
            match hex4 more with
            | some (lo, rest'') =>
              if 0xDC00 ≤ lo ∧ lo < 0xE000 then
                .ok (0x10000 + (hi - 0xD800) * 1024 + (lo - 0xDC00), rest'')
              else if d.loneSurrogates then .ok (hi, rest')
              else .error .loneSurrogate
            | none => if d.loneSurrogates then .ok (hi, rest') else .error .loneSurrogate
          | _ => if d.loneSurrogates then .ok (hi, rest') else .error .loneSurrogate
        else if 0xDC00 ≤ hi ∧ hi < 0xE000 ∧ !d.loneSurrogates then .error .loneSurrogate
        else .ok (hi, rest')
    else .error .badEscape
  | [] => .error .unexpectedEnd

/-- The rest of a string after its opening quote; `acc` holds the code points so far,
last first. Control characters must be escaped. -/
def stringBody (d : Dialect) : Nat → List Nat → List Nat → Except ReadError (Text × List Nat)
  | 0, _, _ => .error .outOfFuel
  | fuel + 1, acc, cs =>
    match cs with
    | [] => .error .unexpectedEnd
    | c :: rest =>
      if c == 0x22 then .ok (⟨acc.reverse⟩, rest)
      else if c == 0x5C then
        match escape d rest with
        | .ok (x, rest') => stringBody d fuel (x :: acc) rest'
        | .error e => .error e
      else if c < 0x20 then .error (.unexpected c)
      else stringBody d fuel (c :: acc) rest

/-- A run of ASCII digits and the rest. -/
def digits (cs : List Nat) : List Nat × List Nat := (cs.takeWhile isDigit, cs.dropWhile isDigit)

/-- The value of ASCII digits. -/
def digitsValue (ds : List Nat) : Nat := ds.foldl (fun n c => 10 * n + (c - 0x30)) 0

/-- The sign of a number and what follows it. -/
def signPart (cs : List Nat) : Bool × List Nat :=
  match cs with
  | 0x2D :: rest => (true, rest)
  | _ => (false, cs)

/-- The digits of an integer part and the rest: a lone zero, or a run of digits. -/
def intPart (body : List Nat) : List Nat × List Nat :=
  match body with
  | 0x30 :: rest => ([0x30], rest)
  | _ => digits body

/-- The digits of a fraction and the rest; a point not followed by a digit is not one. -/
def fracPart (cs : List Nat) : List Nat × List Nat :=
  match cs with
  | 0x2E :: c :: more => if isDigit c then digits (c :: more) else ([], cs)
  | _ => ([], cs)

/-- The exponent and the rest; an `e` or `E` not followed by digits is not one. -/
def expPart (cs : List Nat) : Option Int × List Nat :=
  match cs with
  | e :: more =>
    if e == 0x65 || e == 0x45 then
      let (neg, more') := match more with
        | 0x2D :: m => (true, m)
        | 0x2B :: m => (false, m)
        | m => (false, m)
      let (ds, more'') := digits more'
      if ds.isEmpty then (none, cs)
      else (some (if neg then -(digitsValue ds : Int) else digitsValue ds), more'')
    else (none, cs)
  | [] => (none, [])

/-- A number: `-?(0|[1-9][0-9]*)(\.[0-9]+)?([eE][+-]?[0-9]+)?`. -/
def number (d : Dialect) (cs : List Nat) : Except ReadError (Json × List Nat) :=
  let (negative, body) := signPart cs
  let (intDigits, rest) := intPart body
  if intDigits.isEmpty then
    match body with
    | c :: _ => .error (.unexpected c)
    | [] => .error .unexpectedEnd
  else
    let (fracDigits, rest) := fracPart rest
    let (exponent, rest) := expPart rest
    if fracDigits.isEmpty ∧ exponent.isNone then
      if d.intDigits.any (· < intDigits.length) then .error (.tooManyDigits intDigits.length)
      else
        let n : Int := digitsValue intDigits
        let n := if negative then -n else n
        match d.intRange with
        | some (lo, hi) =>
          if lo ≤ n ∧ n ≤ hi then .ok (.int n, rest)
          else
            let x := (FloatLiteral.decimal negative n.natAbs 0).toFloat
            if d.refuseInfinite ∧ x.isInf then .error .numberOutOfRange else .ok (.float x, rest)
        | none => .ok (.int n, rest)
    else
      let lit := FloatLiteral.decimal negative (digitsValue (intDigits ++ fracDigits))
        (exponent.getD 0 - fracDigits.length)
      let x := lit.toFloat
      if d.refuseInfinite ∧ (x.isInf) then .error .numberOutOfRange
      else .ok (.float x, rest)

/-- The field list with `v` under `k`: a repeated name keeps its place and takes the value. -/
def setField (fields : List (Text × Json)) (k : Text) (v : Json) : List (Text × Json) :=
  if fields.any (·.1 == k) then fields.map fun f => if f.1 == k then (k, v) else f
  else fields ++ [(k, v)]

mutual
/-- One value after optional blanks, nested `depth` levels deep. -/
def value (d : Dialect) : Nat → Nat → List Nat → Except ReadError (Json × List Nat)
  | 0, _, _ => .error .outOfFuel
  | fuel + 1, depth, cs =>
    match skipSpace cs with
    | [] => .error .unexpectedEnd
    | c :: rest =>
      if c == 0x22 then (stringBody d (rest.length + 1) [] rest).map fun (t, r) => (.str t, r)
      else if c == 0x5B then
        if depth ≥ d.maxDepth then .error (.tooDeep false)
        else
          match skipSpace rest with
          | 0x5D :: rest' => .ok (.arr [], rest')
          | _ => items d fuel (depth + 1) [] rest
      else if c == 0x7B then
        if depth ≥ d.maxDepth then .error (.tooDeep true)
        else
          match skipSpace rest with
          | 0x7D :: rest' => .ok (.obj [], rest')
          | _ => fields d fuel (depth + 1) [] rest
      else if c == 0x2D || isDigit c then
        match afterWord "-Infinity" (c :: rest) with
        | some r => if d.namedNumbers then .ok (.float (-1.0 / 0.0), r) else .error (.unexpected c)
        | none => number d (c :: rest)
      else match afterWord "null" (c :: rest) with
        | some r => .ok (.null, r)
        | none => match afterWord "true" (c :: rest) with
          | some r => .ok (.bool true, r)
          | none => match afterWord "false" (c :: rest) with
            | some r => .ok (.bool false, r)
            | none =>
              if d.namedNumbers then
                match afterWord "NaN" (c :: rest) with
                | some r => .ok (.float (0.0 / 0.0), r)
                | none => match afterWord "Infinity" (c :: rest) with
                  | some r => .ok (.float (1.0 / 0.0), r)
                  | none => .error (.unexpected c)
              else .error (.unexpected c)

/-- Array items from the first one on; `acc` holds the items so far, last first. -/
def items (d : Dialect) : Nat → Nat → List Json → List Nat → Except ReadError (Json × List Nat)
  | 0, _, _, _ => .error .outOfFuel
  | fuel + 1, depth, acc, cs =>
    match value d fuel depth cs with
    | .error e => .error e
    | .ok (v, rest) =>
      match skipSpace rest with
      | 0x2C :: rest' => items d fuel depth (v :: acc) rest'
      | 0x5D :: rest' => .ok (.arr (v :: acc).reverse, rest')
      | c :: _ => .error (.unexpected c)
      | [] => .error .unexpectedEnd

/-- Object fields from the first one on. -/
def fields (d : Dialect) :
    Nat → Nat → List (Text × Json) → List Nat → Except ReadError (Json × List Nat)
  | 0, _, _, _ => .error .outOfFuel
  | fuel + 1, depth, acc, cs =>
    match skipSpace cs with
    | 0x22 :: rest =>
      match stringBody d (rest.length + 1) [] rest with
      | .error e => .error e
      | .ok (k, rest) =>
        match skipSpace rest with
        | 0x3A :: rest' =>
          match value d fuel depth rest' with
          | .error e => .error e
          | .ok (v, rest'') =>
            match skipSpace rest'' with
            | 0x2C :: more => fields d fuel depth (setField acc k v) more
            | 0x7D :: more => .ok (.obj (setField acc k v), more)
            | c :: _ => .error (.unexpected c)
            | [] => .error .unexpectedEnd
        | c :: _ => .error (.unexpected c)
        | [] => .error .unexpectedEnd
    | c :: _ => .error (.unexpected c)
    | [] => .error .unexpectedEnd
end

end Reader

/-- The document that the code points spell, blanks allowed around it. -/
def readPoints (d : Dialect) (cs : List Nat) : Except ReadError Json :=
  match Reader.value d (4 * cs.length + 4) 0 cs with
  | .error e => .error e
  | .ok (j, rest) => if (Reader.skipSpace rest).isEmpty then .ok j else .error .trailing

/-- The document that a text spells. -/
def readText (d : Dialect) (t : Text) : Except ReadError Json := readPoints d t.points

end Json

end Strongbox

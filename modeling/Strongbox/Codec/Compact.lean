import Strongbox.Value.Literal
import Strongbox.Json.Reader
import Strongbox.Json.Writer

/-!
# Compact JSON

The vault's JSON: no blanks, text written as UTF-8 with only quotes, backslashes and control
characters escaped, and doubles in their shortest form, positionally from `0.00001` up to
below `1e16` and otherwise with a signed, unpadded exponent (`1e-6`, `1e+16`). Writing accepts
integers that fit in 64 bits (signed or unsigned), text-keyed dictionaries, lists and tuples
(both as arrays); NaN and the infinities are written as `null`. Writing counts the non-empty
containers it is inside, modulo 256, and refuses a non-empty list or dictionary entered at
count 255; tuples count but are never refused. Reading is strict: integers beyond the 64-bit
ranges become doubles, a number too large for a double is refused, escapes may not name lone
surrogates, and nesting stops at 1024 levels.
-/

namespace Strongbox

namespace CompactJson

/-- Why a value has no compact JSON form. -/
inductive EncodeError where
  | intRange
  | keyNotText
  | unsupported (typeName : String)
  | surrogate
  | tooDeep
  deriving DecidableEq, Repr

/-- What the writer says of each failure. -/
def EncodeError.message : EncodeError → String
  | .intRange => "Integer exceeds 64-bit range"
  | .keyNotText => "Dict key must be str"
  | .unsupported t => "Type is not JSON serializable: " ++ t
  | .surrogate => "str is not valid UTF-8: surrogates not allowed"
  | .tooDeep => "Recursion limit reached"

/-- The count at which entering a list or dictionary is refused. -/
def nestingLimit : Nat := 255

/-- The nesting count inside a non-empty container entered at count `d`: it counts up to 255
and then wraps to 0. -/
def enter (d : Nat) : Nat := (d + 1) % 256

/-- How compact JSON writes doubles: positional notation while the point falls after digit
`-4` to `16` of the shortest digits, otherwise an exponent with its sign and no padding. -/
def numbers : Notation :=
  { minPoint := -5, maxPoint := 16, pointZero := true, exponentPlus := true, exponentWidth := 1,
    nanText := "null", infText := "null", negInfText := "null" }

/-- Integers that fit in 64 bits, signed or unsigned. -/
def inRange (n : Int) : Bool := -Int.pow 2 63 ≤ n && n ≤ Int.pow 2 64 - 1

/-- Text without lone surrogates. -/
def checkText (t : Text) : Except EncodeError Json :=
  if t.points.any Text.isSurrogate then .error .surrogate else .ok (.str t)

mutual
/-- The document of a value met at nesting count `depth`. -/
def toJson (depth : Nat) : Value → Except EncodeError Json
  | .null => .ok .null
  | .bool b => .ok (.bool b)
  | .int n => if inRange n then .ok (.int n) else .error .intRange
  | .float x => .ok (if x.isNaN || x.isInf then .null else .float x)
  | .str t => checkText t
  | .bytes _ => .error (.unsupported "bytes")
  | .tuple [] => .ok (.arr [])
  | .tuple items => (itemsJson (enter depth) items).map .arr
  | .list [] => .ok (.arr [])
  | .list items =>
    if enter depth = nestingLimit then .error .tooDeep else (itemsJson (enter depth) items).map .arr
  | .dict [] => .ok (.obj [])
  | .dict entries =>
    if enter depth = nestingLimit then .error .tooDeep
    else (entriesJson (enter depth) entries).map .obj
  | .frozenset _ => .error (.unsupported "frozenset")
  | .object name => .error (.unsupported name)

/-- Documents of the items, in order. -/
def itemsJson (depth : Nat) : List Value → Except EncodeError (List Json)
  | [] => .ok []
  | v :: rest => do
    let j ← toJson depth v
    let js ← itemsJson depth rest
    pure (j :: js)

/-- Fields of the entries; each key must be text. -/
def entriesJson (depth : Nat) : List (Value × Value) → Except EncodeError (List (Text × Json))
  | [] => .ok []
  | (k, v) :: rest => do
    let key ← match k with
      | .str t => if t.points.any Text.isSurrogate then .error .surrogate else .ok t
      | _ => .error .keyNotText
    let j ← toJson depth v
    let fs ← entriesJson depth rest
    pure ((key, j) :: fs)
end

/-- The compact writing style. -/
def style : Json.Style :=
  { itemSeparator := ",", nameSeparator := ":", asciiOnly := false, numbers := numbers }

/-- The compact JSON text of a value. -/
def encode (v : Value) : Except EncodeError String := do
  let j ← toJson 0 v
  match Json.writeWith style j with
  | .ok s => pure s
  | .error _ => .error .surrogate

/-- The strict reading dialect. -/
def dialect : Json.Dialect :=
  { intRange := some (-Int.pow 2 63, Int.pow 2 64 - 1), namedNumbers := false, refuseInfinite := true,
    loneSurrogates := false, maxDepth := 1024 }

mutual
/-- The value of a document read back: arrays are lists, objects are text-keyed
dictionaries. -/
def ofJson : Json → Value
  | .null => .null
  | .bool b => .bool b
  | .int n => .int n
  | .float x => .float x
  | .str t => .str t
  | .arr items => .list (ofJsonList items)
  | .obj fields => .dict (ofJsonFields fields)

/-- Values of the items. -/
def ofJsonList : List Json → List Value
  | [] => []
  | j :: rest => ofJson j :: ofJsonList rest

/-- Entries of the fields. -/
def ofJsonFields : List (Text × Json) → List (Value × Value)
  | [] => []
  | (k, j) :: rest => (.str k, ofJson j) :: ofJsonFields rest
end

/-- Why compact JSON input cannot be read. -/
inductive DecodeError where
  | notUtf8
  | malformed (e : Json.ReadError)
  deriving DecidableEq, Repr

/-- The value of compact JSON text given as code points. -/
def decodeText (t : Text) : Except DecodeError Value :=
  if t.points.any Text.isSurrogate then .error .notUtf8
  else match Json.readText dialect t with
    | .ok j => .ok (ofJson j)
    | .error e => .error (.malformed e)

/-- The value of compact JSON given as UTF-8 bytes. -/
def decodeBytes (b : ByteArray) : Except DecodeError Value :=
  match Text.decode? b with
  | some t => decodeText t
  | none => .error .notUtf8

end CompactJson

end Strongbox

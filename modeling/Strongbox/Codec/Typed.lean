import Strongbox.Codec.Compact
import Strongbox.Value.HashSet
import Strongbox.Encoding.Base64

/-!
# Typed JSON

A JSON form that keeps every kind of value, for values that compact JSON cannot hold.
Null, truth values, integers, doubles (with `NaN`, `Infinity` and `-Infinity`), text and
lists are themselves; bytes are `{"py/b64": …}`, tuples `{"py/tuple": […]}` and frozen sets
`{"py/reduce": [{"py/type": "builtins.frozenset"}, {"py/tuple": [[…]]}]}`. A dictionary
writes its text keys first and then its other keys, each as `json://` followed by the key's
own typed text; a text key that itself starts with `json://` is written that way too, and
a text key that is a tag name is dropped. A frozen set lists its elements in the order it
yields them, and an object with no value form is `{"py/object": name}`. The text uses `, `
and `: ` separators and escapes everything beyond ASCII.
-/

namespace Strongbox

namespace TypedJson

/-- Tag names that a dictionary key may not be. -/
def reservedNames : List String :=
  ["py/bytes", "py/function", "py/id", "py/initargs", "py/iterator", "py/mod",
    "py/newargs", "py/newargsex", "py/newobj", "py/object", "py/property", "py/reduce", "py/ref",
    "py/repr", "py/seq", "py/set", "py/state", "py/tuple", "py/type"]

/-- The prefix of keys that are not text. -/
def keyPrefix : String := "json://"

/-- How doubles are written: as in literals, with the names `NaN`, `Infinity` and
`-Infinity`. -/
def numbers : Notation :=
  { Value.floatNotation with nanText := "NaN", infText := "Infinity", negInfText := "-Infinity" }

/-- The typed writing style. -/
def style : Json.Style :=
  { itemSeparator := ", ", nameSeparator := ": ", asciiOnly := true, numbers := numbers }

/-- The text of a document in the typed style; ASCII escaping makes it total. -/
def render (j : Json) : String :=
  match Json.writeWith style j with
  | .ok s => s
  | .error _ => ""

/-- The text starts with the key prefix. -/
def hasKeyPrefix (t : Text) : Bool := (Text.ofString keyPrefix).points.isPrefixOf t.points

/-- Fields with later duplicates folded in: a repeated name keeps its first place and takes
its last value. -/
def mergeFields (fields : List (Text × Json)) : List (Text × Json) :=
  fields.foldl (fun acc f => Json.Reader.setField acc f.1 f.2) []

mutual
/-- The typed document of a value. -/
def toJson : Value → Json
  | .null => .null
  | .bool b => .bool b
  | .int n => .int n
  | .float x => .float x
  | .str t => .str t
  | .bytes b => .record [("py/b64", .ofString (Base64.encode b))]
  | .tuple items => .record [("py/tuple", .arr (toJsonList items))]
  | .list items => .arr (toJsonList items)
  | .dict entries => .obj (mergeFields (textFields entries ++ otherFields entries))
  | .frozenset items =>
    .record [("py/reduce", .arr [.record [("py/type", .ofString "builtins.frozenset")],
      .record [("py/tuple", .arr [.arr (toJsonList items)])]])]
  | .object name => .record [("py/object", .ofString name)]

/-- Documents of the items. -/
def toJsonList : List Value → List Json
  | [] => []
  | v :: rest => toJson v :: toJsonList rest

/-- The text-keyed entries, tag names left out and prefixed keys escaped. -/
def textFields : List (Value × Value) → List (Text × Json)
  | [] => []
  | (.str k, v) :: rest =>
    if reservedNames.contains k.toStringLossy then textFields rest
    else if hasKeyPrefix k then
      (Text.ofString (keyPrefix ++ render (.str k)), toJson v) :: textFields rest
    else (k, toJson v) :: textFields rest
  | _ :: rest => textFields rest

/-- The entries with other keys, each key written as the prefix and its typed text. -/
def otherFields : List (Value × Value) → List (Text × Json)
  | [] => []
  | (.str _, _) :: rest => otherFields rest
  | (k, v) :: rest => (Text.ofString (keyPrefix ++ render (toJson k)), toJson v) :: otherFields rest
end

/-- The typed text of a value. -/
def encode (v : Value) : String := render (toJson v)

/-- The most digits an integer of typed text may have. -/
def intDigitLimit : Nat := 4300

/-- The reading dialect: integers of up to 4300 digits, named numbers, overflow to infinity,
lone surrogates, and nesting as deep as `depth`. -/
def dialectTo (depth : Nat) : Json.Dialect :=
  { intRange := none, namedNumbers := true, refuseInfinite := false, loneSurrogates := true,
    maxDepth := depth, intDigits := some intDigitLimit }

/-- The reading dialect without a practical limit on nesting or on the digits of integers. -/
def dialect : Json.Dialect := { dialectTo 100000 with intDigits := none }

end TypedJson

end Strongbox

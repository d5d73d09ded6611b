import Strongbox.Value.Literal
import Strongbox.Value.HashSet
import Strongbox.Json.Reader
import Strongbox.Json.Writer
import Strongbox.Number.Reading

/-!
# Tagged JSON

A lossless JSON form of values. Null, truth values, integers, text and lists are
themselves; the other kinds are one-field objects named by a tag: `$bytes` with lowercase
hexadecimal, `$float` with the double's literal, `$tuple` and `$set` with their elements,
and `$dict` with `[key, value]` pairs for a dictionary whose keys are not all text. Any
other object is a dictionary with text keys. A text-keyed dictionary whose only key is a
tag name is written with `$dict`, so that it does not read back as the tag. A set's
elements are written in the order of their own tagged text with sorted field names. An object
with no value form is written `{"$type": name}` with its class name, and reads back as that
dictionary.
-/

namespace Strongbox

namespace Value

/-- The tag names. -/
def tagNames : List String := ["$bytes", "$tuple", "$dict", "$float", "$set"]

/-- The interchange style: separators with a space after them, ASCII only, doubles as in
literals. -/
def interchangeStyle : Json.Style :=
  { itemSeparator := ", ", nameSeparator := ": ", asciiOnly := true, numbers := floatNotation }

/-- The tagged form of a value that is a text-keyed dictionary, if it is one. -/
def textKeys? : List (Value × Value) → Option (List (Text × Value))
  | [] => some []
  | (str k, v) :: rest => (textKeys? rest).map ((k, v) :: ·)
  | _ => none

mutual
/-- The tagged JSON form. -/
def toTagged : Value → Json
  | null => .null
  | bool b => .bool b
  | int n => .int n
  | float x => .record [("$float", .ofString (floatNotation.render x))]
  | str t => .str t
  | bytes b => .record [("$bytes", .ofString (Hex.toHex b))]
  | tuple items => .record [("$tuple", .arr (toTaggedList items))]
  | list items => .arr (toTaggedList items)
  | dict entries =>
    match textKeys? entries with
    | some [(k, _)] =>
      if tagNames.contains k.toStringLossy then .record [("$dict", .arr (toTaggedPairs entries))]
      else .obj (toTaggedFields entries)
    | some _ => .obj (toTaggedFields entries)
    | none => .record [("$dict", .arr (toTaggedPairs entries))]
  | frozenset items =>
    let tagged := toTaggedList items
    let key (j : Json) : List Nat :=
      match Json.writeWith interchangeStyle (Json.sortKeys j) with
      | .ok s => (Text.ofString s).points
      | .error _ => []
    .record [("$set", .arr (tagged.mergeSort fun a b => compareOfLessAndEq (key a) (key b) != .gt))]
  | object name => .record [("$type", .ofString name)]

/-- Tagged forms of the items. -/
def toTaggedList : List Value → List Json
  | [] => []
  | v :: rest => toTagged v :: toTaggedList rest

/-- `[key, value]` pairs. -/
def toTaggedPairs : List (Value × Value) → List Json
  | [] => []
  | (k, v) :: rest => .arr [toTagged k, toTagged v] :: toTaggedPairs rest

/-- Fields of a text-keyed dictionary; entries with other keys are left out. -/
def toTaggedFields : List (Value × Value) → List (Text × Json)
  | [] => []
  | (str k, v) :: rest => (k, toTagged v) :: toTaggedFields rest
  | _ :: rest => toTaggedFields rest
end

/-- Why a tagged document does not denote a value. -/
inductive TagError where
  | badTag (name : String)
  | unhashable
  /-- A float tag whose text is not a float literal. -/
  | notFloat (literal : Text)
  deriving DecidableEq

mutual
/-- The value a tagged document denotes. -/
def ofTagged : Json → Except TagError Value
  | .null => .ok null
  | .bool b => .ok (bool b)
  | .int n => .ok (int n)
  | .float x => .ok (float x)
  | .str t => .ok (str t)
  | .arr items => (ofTaggedList items).map list
  | .obj [(k, j)] => ofSingleField k j
  | .obj fields => (ofTaggedFields fields).map dict

/-- An object with the single field `k`: a tag, or a dictionary of one entry. -/
def ofSingleField (k : Text) : Json → Except TagError Value
  | .str t =>
    let name := k.toStringLossy
    if name = "$bytes" then
      match t.toString?.bind Hex.ofHex? with
      | some b => .ok (bytes b)
      | none => .error (.badTag name)
    else if name = "$float" then
      match FloatLiteral.ofText? t with
      | some lit => .ok (float lit.toFloat)
      | none => .error (.notFloat t)
    else if tagNames.contains name then .error (.badTag name)
    else .ok (dict [(str k, str t)])
  | .arr items =>
    let name := k.toStringLossy
    if name = "$tuple" then (ofTaggedList items).map tuple
    else if name = "$set" then do
      let vs ← ofTaggedList items
      if vs.all hashable then pure (setOf vs) else .error .unhashable
    else if name = "$dict" then do
      let ps ← ofTaggedPairs items
      if ps.all (hashable ·.1) then pure (dictOf ps) else .error .unhashable
    else if tagNames.contains name then .error (.badTag name)
    else (ofTaggedList items).map fun vs => dict [(str k, list vs)]
  | j =>
    if tagNames.contains k.toStringLossy then .error (.badTag k.toStringLossy)
    else (ofTagged j).map fun v => dict [(str k, v)]

/-- Values of the items. -/
def ofTaggedList : List Json → Except TagError (List Value)
  | [] => .ok []
  | j :: rest => do
    let v ← ofTagged j
    let vs ← ofTaggedList rest
    pure (v :: vs)

/-- Key and value of each `[key, value]` pair. -/
def ofTaggedPairs : List Json → Except TagError (List (Value × Value))
  | [] => .ok []
  | .arr [k, v] :: rest => do
    let kv ← ofTagged k
    let vv ← ofTagged v
    let ps ← ofTaggedPairs rest
    pure ((kv, vv) :: ps)
  | _ :: _ => .error (.badTag "$dict")

/-- Text keys and their values. -/
def ofTaggedFields : List (Text × Json) → Except TagError (List (Value × Value))
  | [] => .ok []
  | (k, j) :: rest => do
    let v ← ofTagged j
    let ps ← ofTaggedFields rest
    pure ((str k, v) :: ps)
end

end Value

end Strongbox

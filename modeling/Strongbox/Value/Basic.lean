import Strongbox.Text.Basic
import Strongbox.Number.Binary64

/-!
# Values

The values a vault stores: the null value, truth values, integers of any size, doubles,
text, byte strings, tuples, lists, dictionaries with keys of any hashable kind, and frozen
sets; and, among what typed JSON reads back, objects that have no value form and are known
only by their class name. Dictionaries keep their insertion order and sets the order in
which they yield their elements.

Equality is that of the values' meaning: `true`, `1` and `1.0` are equal numbers, a NaN is
equal to nothing, and dictionaries and sets are equal regardless of order. Building a
dictionary or a set goes through this equality, so keys that are equal numbers collapse
into one.
-/

namespace Strongbox

/-- A stored value. -/
inductive Value where
  | null
  | bool (b : Bool)
  | int (n : Int)
  | float (x : Float)
  | str (t : Text)
  | bytes (b : ByteArray)
  | tuple (items : List Value)
  | list (items : List Value)
  | dict (entries : List (Value × Value))
  | frozenset (items : List Value)
  /-- An object that has no value form, known by the name of its class. -/
  | object (className : String)
  deriving Inhabited

namespace Value

/-- Text from a string. -/
def ofString (s : String) : Value := .str (Text.ofString s)

/-- The name of the value's kind, as messages about wrong kinds name it. -/
def typeName : Value → String
  | null => "NoneType"
  | bool _ => "bool"
  | int _ => "int"
  | float _ => "float"
  | str _ => "str"
  | bytes _ => "bytes"
  | tuple _ => "tuple"
  | list _ => "list"
  | dict _ => "dict"
  | frozenset _ => "frozenset"
  | object name => name

/-- Whether the value counts as true: everything but null, false, zero, and empty text,
bytes and collections. -/
def truthy : Value → Bool
  | null => false
  | bool b => b
  | int n => n != 0
  | float x => x != 0.0
  | str t => !t.points.isEmpty
  | bytes b => b.size != 0
  | tuple items => !items.isEmpty
  | list items => !items.isEmpty
  | dict entries => !entries.isEmpty
  | frozenset items => !items.isEmpty
  | object _ => true

mutual
/-- The type of the first part of a value that cannot be hashed, looking into tuples item by
item: lists and dictionaries cannot be. -/
def unhashablePart? : Value → Option String
  | list _ => some "list"
  | dict _ => some "dict"
  | tuple items => firstUnhashable items
  | _ => none

/-- The first unhashable part among items, in order. -/
def firstUnhashable : List Value → Option String
  | [] => none
  | v :: rest =>
    match unhashablePart? v with
    | some t => some t
    | none => firstUnhashable rest
end

/-- The value can be a dictionary key or a set element. -/
def hashable (v : Value) : Bool := (unhashablePart? v).isNone

/-- The integer a number stands for, if it is an integral value. -/
def numberAsInt? : Value → Option Int
  | bool b => some (if b then 1 else 0)
  | int n => some n
  | float x => (Binary64.ofFloat x).toInt?
  | _ => none

/-- Equality of two numbers: integers and truth values exactly, doubles as doubles, and an
integer with a double when the double is that integer. -/
def numbersEqual : Value → Value → Bool
  | float x, float y => x == y
  | float x, v => match (Binary64.ofFloat x).toInt?, v.numberAsInt? with
    | some a, some b => a == b
    | _, _ => false
  | v, float y => match v.numberAsInt?, (Binary64.ofFloat y).toInt? with
    | some a, some b => a == b
    | _, _ => false
  | a, b => match a.numberAsInt?, b.numberAsInt? with
    | some m, some n => m == n
    | _, _ => false

/-- The value is a number: a truth value, an integer or a double. -/
def isNumber : Value → Bool
  | bool _ => true
  | int _ => true
  | float _ => true
  | _ => false

mutual
/-- Equality of meaning. -/
def equiv : Value → Value → Bool
  | null, null => true
  | str a, str b => a == b
  | bytes a, bytes b => a == b
  | tuple xs, tuple ys => equivList xs ys
  | list xs, list ys => equivList xs ys
  | dict xs, dict ys => xs.length == ys.length && entriesWithin xs ys
  | frozenset xs, frozenset ys => xs.length == ys.length && membersWithin xs ys
  | a, b => a.isNumber && b.isNumber && numbersEqual a b
termination_by a => (sizeOf a, 0, 0)

/-- Equal lists, element by element. -/
def equivList : List Value → List Value → Bool
  | [], [] => true
  | x :: xs, y :: ys => equiv x y && equivList xs ys
  | _, _ => false
termination_by xs => (sizeOf xs, 0, 0)

/-- Every entry of the first dictionary has its key in the second with an equal value. -/
def entriesWithin : List (Value × Value) → List (Value × Value) → Bool
  | [], _ => true
  | (k, v) :: rest, ys => lookupEquiv k v ys && entriesWithin rest ys
termination_by xs => (sizeOf xs, 2, 0)

/-- The key is in the entries with a value equal to `v`. -/
def lookupEquiv (k v : Value) : List (Value × Value) → Bool
  | [] => false
  | (k', v') :: rest => if equiv k k' then equiv v v' else lookupEquiv k v rest
termination_by ys => (sizeOf k + sizeOf v + 1, 1, sizeOf ys)

/-- Every element of the first set is in the second. -/
def membersWithin : List Value → List Value → Bool
  | [], _ => true
  | x :: rest, ys => memberOf x ys && membersWithin rest ys
termination_by xs => (sizeOf xs, 2, 0)

/-- The value is equal to one of the list. -/
def memberOf (x : Value) : List Value → Bool
  | [] => false
  | y :: rest => equiv x y || memberOf x rest
termination_by ys => (sizeOf x, 1, sizeOf ys)
end

/-- The entries with `v` stored under `k`: an equal key keeps its place and its own form
and takes the new value, a new key goes to the end. -/
def insertEntry (entries : List (Value × Value)) (k v : Value) : List (Value × Value) :=
  if entries.any (fun e => equiv e.1 k) then
    entries.map fun e => if equiv e.1 k then (e.1, v) else e
  else entries ++ [(k, v)]

/-- A dictionary built by storing the pairs in order. -/
def dictOf (pairs : List (Value × Value)) : Value :=
  .dict (pairs.foldl (fun acc p => insertEntry acc p.1 p.2) [])

/-- The value stored under `k` in a dictionary's entries. -/
def lookup (entries : List (Value × Value)) (k : Value) : Option Value :=
  (entries.find? fun e => equiv e.1 k).map Prod.snd

/-- The text of a text value. -/
def asText? : Value → Option Text
  | str t => some t
  | _ => none

/-- The entries of a dictionary value. -/
def asDict? : Value → Option (List (Value × Value))
  | dict entries => some entries
  | _ => none

end Value

end Strongbox

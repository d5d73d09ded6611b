import Strongbox.Value.HashSet
import Strongbox.Codec.Compact

/-!
# The objects of a typed document

Reading typed JSON builds objects that refer to one another. A `py/id` names an object read
earlier, possibly one whose reading has not finished, so two places may share one object and
a list may hold itself. The objects therefore live on a heap of numbered cells, and a slot of
a container holds either an immutable value or the number of a cell.

Two kinds of cell stand in for objects that are not there yet: one for an id that names no
object so far, and one for a value still being built from its constructor. A list, and a
dictionary under a key that is not text, notes every stand-in it receives; when reading ends
the noted stand-ins are replaced, in the order they were noted, by what they stand for.

Equality and hashing follow the objects' meaning: numbers compare as numbers, tuples item by
item, frozen sets as sets, and every other cell only with itself. Lists, dictionaries and
mutable sets cannot be hashed.
-/

namespace Strongbox

namespace TypedJson

/-- A slot of a container: an immutable value, or the number of a cell on the heap. -/
inductive Ref where
  | atom (v : Value)
  | cell (n : Nat)
  deriving Inhabited

/-- An object built while reading. -/
inductive Obj where
  | list (items : List Ref)
  /-- A dictionary, in insertion order. -/
  | dict (entries : List (Ref × Ref))
  | tuple (items : List Ref)
  /-- A set, hashable when `frozen`. -/
  | set (frozen : Bool) (items : List Ref)
  /-- The class of frozen sets, which builds one when called. -/
  | frozensetClass
  /-- An iterator over the list in cell `list`, having yielded `taken` items. -/
  | iterator (list : Nat) (taken : Nat)
  /-- A stand-in for the object with id `index`, looked up when reading ends. -/
  | laterId (index : Int)
  /-- A stand-in for a value being built, holding the value once it is. -/
  | pending (target : Option Ref)
  /-- A dictionary kept as it was read, its tags not interpreted. -/
  | document (j : Json)
  deriving Inhabited

/-- Where a stand-in sits in its container. -/
inductive Place where
  | index (i : Nat)
  | key (k : Ref)

/-- A stand-in to replace when reading ends. -/
structure Swap where
  container : Nat
  place : Place
  standIn : Nat

/-- The cells, the objects that ids count in the order they were counted, and the stand-ins
to replace. -/
structure Heap where
  cells : Array Obj := #[]
  ids : Array Ref := #[]
  swaps : Array Swap := #[]

namespace Heap

/-- The object in cell `n`. -/
def get (h : Heap) (n : Nat) : Obj := h.cells.getD n default

/-- The heap with cell `n` holding `o`. -/
def put (h : Heap) (n : Nat) (o : Obj) : Heap := { h with cells := h.cells.set! n o }

/-- The name of the class of the object a slot holds. -/
def typeName (h : Heap) : Ref → String
  | .atom v => v.typeName
  | .cell n =>
    match h.get n with
    | .list _ => "list"
    | .dict _ => "dict"
    | .tuple _ => "tuple"
    | .set frozen _ => if frozen then "frozenset" else "set"
    | .frozensetClass => "type"
    | .iterator _ _ => "list_iterator"
    | .laterId _ => "_IDProxy"
    | .pending _ => "_Proxy"
    | .document _ => "dict"

/-- The slot holds a stand-in. -/
def isStandIn (h : Heap) : Ref → Bool
  | .atom _ => false
  | .cell n =>
    match h.get n with
    | .laterId _ | .pending _ => true
    | _ => false

/-- The slot holds the class of frozen sets. -/
def isFrozensetClass (h : Heap) : Ref → Bool
  | .atom _ => false
  | .cell n =>
    match h.get n with
    | .frozensetClass => true
    | _ => false

/-- The slot holds a frozen set. -/
def isFrozenset (h : Heap) : Ref → Bool
  | .atom _ => false
  | .cell n =>
    match h.get n with
    | .set frozen _ => frozen
    | _ => false

/-- Whether the object counts as true: empty containers count as false, and so do null,
false, zero and empty text and bytes. -/
def truthy (h : Heap) : Ref → Bool
  | .atom v => v.truthy
  | .cell n =>
    match h.get n with
    | .list items | .tuple items | .set _ items => !items.isEmpty
    | .dict entries => !entries.isEmpty
    | .document (.obj fields) => !fields.isEmpty
    | _ => true

/-- The class of the first part of an object that cannot be hashed, looking into tuples item
by item; `fuel` bounds the nesting of tuples, which the heap's size bounds in turn. -/
def unhashable? (h : Heap) : Nat → Ref → Option String
  | 0, _ => none
  | _, .atom _ => none
  | fuel + 1, .cell n =>
    match h.get n with
    | .list _ => some "list"
    | .dict _ | .document _ => some "dict"
    | .set frozen _ => if frozen then none else some "set"
    | .tuple items => items.findSome? (unhashable? h fuel)
    | _ => none

/-- The class of the first unhashable part of an object, if any. -/
def unhashablePart? (h : Heap) (r : Ref) : Option String := h.unhashable? (h.cells.size + 1) r

/-- Equality of two objects: an object equals itself, values by meaning, tuples item by item,
frozen sets member by member; `fuel` bounds the nesting. -/
def same (h : Heap) : Nat → Ref → Ref → Bool
  | 0, _, _ => false
  | _ + 1, .atom a, .atom b => a.equiv b
  | fuel + 1, .cell m, .cell n =>
    m == n ||
      match h.get m, h.get n with
      | .tuple xs, .tuple ys =>
        xs.length == ys.length && (xs.zip ys).all fun p => same h fuel p.1 p.2
      | .set _ xs, .set _ ys => xs.length == ys.length && xs.all fun x => ys.any (same h fuel x)
      | .frozensetClass, .frozensetClass => true
      | _, _ => false
  | _ + 1, _, _ => false

/-- Equality of two objects on this heap. -/
def equal (h : Heap) (a b : Ref) : Bool := h.same (h.cells.size + 1) a b

/-- The object that id `i` names, counting back from the end for a negative `i`. -/
def lookupId (h : Heap) (i : Int) : Option Ref :=
  let j : Int := if i < 0 then i + h.ids.size else i
  if 0 ≤ j ∧ j < h.ids.size then h.ids[j.toNat]? else none

/-- What a stand-in stands for once reading has ended: the object of its id, or the value
built; null when there is none. -/
def resolve (h : Heap) (standIn : Nat) : Ref :=
  match h.get standIn with
  | .laterId i => (h.lookupId i).getD (.atom .null)
  | .pending target => target.getD (.atom .null)
  | _ => .cell standIn

/-- The heap with one noted stand-in replaced in its container. -/
def swapIn (h : Heap) (s : Swap) : Heap :=
  let value := h.resolve s.standIn
  match h.get s.container, s.place with
  | .list items, .index i => h.put s.container (.list (items.set i value))
  | .dict entries, .key k =>
    h.put s.container (.dict (entries.map fun e => if h.equal e.1 k then (e.1, value) else e))
  | _, _ => h

/-- The heap with every noted stand-in replaced, in the order they were noted. -/
def settle (h : Heap) : Heap := h.swaps.foldl swapIn h

/-- The value an object stands for, or none when it holds itself; `path` holds the cells
being written, and `fuel` bounds the nesting, which a path without repeats keeps below the
heap's size. -/
def valueOf (h : Heap) : Nat → List Nat → Ref → Option Value
  | _, _, .atom v => some v
  | 0, _, .cell _ => none
  | fuel + 1, path, .cell n =>
    if path.contains n then none
    else
      let inner := valueOf h fuel (n :: path)
      match h.get n with
      | .list items => (items.mapM inner).map .list
      | .dict entries =>
        (entries.mapM fun (e : Ref × Ref) => do pure (← inner e.1, ← inner e.2)).map .dict
      | .tuple items => (items.mapM inner).map .tuple
      | .set _ items => (items.mapM inner).map fun vs => .frozenset (Value.iterationOrder vs)
      | .frozensetClass => some (.object "type")
      | .iterator _ _ => some (.object "list_iterator")
      | .laterId _ => some (.object "_IDProxy")
      | .pending _ => some (.object "_Proxy")
      | .document j => some (CompactJson.ofJson j)

/-- The value of an object on this heap, or none when it holds itself. -/
def value? (h : Heap) (r : Ref) : Option Value := h.valueOf (h.cells.size + 1) [] r

end Heap

end TypedJson

end Strongbox

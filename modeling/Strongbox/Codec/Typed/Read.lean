import Strongbox.Codec.Typed
import Strongbox.Codec.Typed.Heap
import Strongbox.Encoding.Base64
import Strongbox.Encoding.Base85

/-!
# Reading typed JSON

Typed JSON text is read in two steps: the text as JSON, then the document as objects. An
object with a tag is read by the first tag it carries, in the order `py/tuple`, `py/set`,
`py/b64`, `py/b85`, `py/id`, `py/iterator`, `py/object`, `py/type`, `py/reduce`,
`py/function`, `py/mod`, `py/repr`; an object without one is a dictionary. A dictionary reads
its text keys first and then the keys written as `json://` and their typed text.

Lists, dictionaries, objects of unknown classes and values being built are counted as they
are begun, and `{"py/id": i}` names the `i`-th of them, from zero, counting back from the end
when `i` is negative; a name that counts nothing yet becomes a stand-in that is looked up
once reading ends. Tuples and sets take what their tag holds as items: the items of a list,
the characters of text, the keys of an object. A type error while reading a tuple's or a
set's items, or a constructor's arguments, gives an empty tuple, set or list. Bytes that do
not decode read as empty bytes. The only class known is that of frozen sets.

Reading has a depth budget of calls: the JSON reader spends one per level of nesting, and
reading a list, tuple or set spends three per level, a dictionary two. A document that spends
more fails with a recursion error, as does the JSON within a key.
-/

namespace Strongbox

namespace TypedJson

/-- An exception raised while reading, by its kind: only type errors are caught on the way. -/
inductive Raised where
  | typeError (message : String)
  | valueError (message : String)
  | attributeError (message : String)
  /-- The depth budget ran out. -/
  | recursion (message : String)
  /-- The JSON text of a key does not read. -/
  | badKey
  deriving Inhabited

/-- Reading threads the heap through, and keeps it when an exception is raised. -/
abbrev Reading := ExceptT Raised (StateM Heap)

/-- A fresh cell holding `o`. -/
def alloc (o : Obj) : Reading Nat :=
  modifyGet fun h => (h.cells.size, { h with cells := h.cells.push o })

/-- The object in cell `n`. -/
def cellOf (n : Nat) : Reading Obj := return (← get).get n

/-- Cell `n` now holds `o`. -/
def setCell (n : Nat) (o : Obj) : Reading Unit := modify fun h => h.put n o

/-- Counts an object for ids. -/
def count (r : Ref) : Reading Unit := modify fun h => { h with ids := h.ids.push r }

/-- The object counted as the stand-in in cell `standIn` is now `r`. -/
def recount (standIn : Nat) (r : Ref) : Reading Unit :=
  modify fun h =>
    let ids := h.ids.map fun x => match x with
      | .cell n => if n = standIn then r else x
      | .atom _ => x
    { h with ids := ids }

/-- Notes a stand-in to replace when reading ends. -/
def note (s : Swap) : Reading Unit := modify fun h => { h with swaps := h.swaps.push s }

/-- Runs `x`, and `fallback` instead if `x` raises a type error. -/
def onTypeError (x : Reading α) (fallback : Reading α) : Reading α :=
  tryCatch x fun e => match e with
    | .typeError _ => fallback
    | e => throw e

/-- The value error of an integer written with `count` digits, more than typed text allows. -/
def digitsExceeded (count : Nat) : Raised :=
  .valueError ("Exceeds the limit (" ++ toString intDigitLimit ++
    " digits) for integer string conversion: value has " ++ toString count ++
    " digits; use sys.set_int_max_str_digits() to increase the limit")

/-- The recursion error whose message ends in `suffix`. -/
def depthExceeded (suffix : String) : Raised :=
  .recursion ("maximum recursion depth exceeded" ++ suffix)

/-- How reading a node fails when `r` calls are left and it needs more: with none left the
call itself is refused, with one left the kind test, with two the next call; with three or
four, a node that is counted fails at a call into the runtime. -/
def shortOf (counted : Bool) : Nat → Raised
  | 0 => depthExceeded ""
  | 1 => depthExceeded " in __instancecheck__"
  | 2 => depthExceeded ""
  | _ => depthExceeded (if counted then " while calling a Python object" else "")

/-! ## Documents as they were read -/

/-- The class name of a document's value. -/
def docTypeName : Json → String
  | .null => "NoneType"
  | .bool _ => "bool"
  | .int _ => "int"
  | .float _ => "float"
  | .str _ => "str"
  | .arr _ => "list"
  | .obj _ => "dict"

/-- What iterating a document yields: a list its items, text its characters, an object its
keys; none for a document that cannot be iterated. -/
def docItems : Json → Option (List Json)
  | .arr items => some items
  | .str t => some (t.points.map fun c => .str ⟨[c]⟩)
  | .obj fields => some (fields.map fun f => .str f.1)
  | _ => none

/-- The type error of iterating something that cannot be. -/
def notIterable (typeName : String) : Raised :=
  .typeError ("'" ++ typeName ++ "' object is not iterable")

/-- The attribute error of splitting a class or module name that is not text. -/
def notSplittable (j : Json) : Raised :=
  .attributeError ("'" ++ docTypeName j ++ "' object has no attribute 'split'")

/-- The bytes of base64 text: non-alphabet characters are skipped, and text that is not
base64, or not text, gives empty bytes. -/
def base64Bytes : Json → ByteArray
  | .str t =>
    if t.points.any Text.isSurrogate then ByteArray.empty
    else match Base64.run false {} (t.points.filter (· < 128)) with
      | .ok b => b
      | .error _ => ByteArray.empty
  | _ => ByteArray.empty

/-- The bytes of base85 text, given as UTF-8; anything that is not base85 gives empty bytes. -/
def base85Bytes : Json → ByteArray
  | .str t =>
    match t.encode? with
    | some b =>
      match Base85.decode (b.data.toList.map UInt8.toNat) with
      | .ok out => out
      | .error _ => ByteArray.empty
    | none => ByteArray.empty
  | _ => ByteArray.empty

/-- A name of the class of frozen sets, under any module name that means the built-ins. -/
def namesFrozensetClass (t : Text) : Bool :=
  ["builtins.frozenset", "__builtin__.frozenset", "exceptions.frozenset"].any
    fun s => t == Text.ofString s

/-! ## Objects -/

/-- The class name of the object in a slot. -/
def typeOf (r : Ref) : Reading String := return (← get).typeName r

/-- What iterating an object yields, or none for an object that cannot be iterated. An
iterator yields the items it has left and is used up. -/
def iterate (r : Ref) : Reading (Option (List Ref)) := do
  match r with
  | .atom (.str t) => pure (some (t.points.map fun c => .atom (.str ⟨[c]⟩)))
  | .atom (.bytes b) => pure (some (b.data.toList.map fun x => .atom (.int x.toNat)))
  | .atom _ => pure none
  | .cell n =>
    match ← cellOf n with
    | .list items | .tuple items | .set _ items => pure (some items)
    | .dict entries => pure (some (entries.map Prod.fst))
    | .document (.obj fields) => pure (some (fields.map fun f => .atom (.str f.1)))
    | .iterator l taken =>
      match ← cellOf l with
      | .list items =>
        setCell n (.iterator l items.length)
        pure (some (items.drop taken))
      | _ => pure (some [])
    | _ => pure none

/-- The members with `x` added, unless an equal member is there; `x` must be hashable. -/
def addMember (members : List Ref) (x : Ref) : Reading (List Ref) := do
  let h ← get
  match h.unhashablePart? x with
  | some t => throw (.typeError ("unhashable type: '" ++ t ++ "'"))
  | none => pure (if members.any (h.equal x) then members else members ++ [x])

/-- Dictionary `n` with `value` under `key`: an equal key keeps its place and its first form. -/
def putEntry (n : Nat) (key value : Ref) : Reading Unit := do
  let h ← get
  match h.get n with
  | .dict entries =>
    let entries :=
      if entries.any fun e => h.equal e.1 key then
        entries.map fun e => if h.equal e.1 key then (e.1, value) else e
      else entries ++ [(key, value)]
    setCell n (.dict entries)
  | _ => pure ()

/-- Notes the stand-ins among a list's items. -/
def noteItems (n : Nat) (items : List Ref) : Reading Unit := do
  let h ← get
  for (x, i) in items.zipIdx do
    match x with
    | .cell m => if h.isStandIn x then note { container := n, place := .index i, standIn := m }
    | .atom _ => pure ()

/-- A list whose items `inner` reads: it is counted before them. -/
def listOf (inner : Json → Reading Ref) (docs : List Json) : Reading Ref := do
  let n ← alloc (.list [])
  count (.cell n)
  let items ← docs.mapM inner
  setCell n (.list items)
  noteItems n items
  pure (.cell n)

/-- An iterator over a list read from what the tag holds. -/
def iteratorOf (inner : Json → Reading Ref) (d : Json) : Reading Ref := do
  let n ← alloc (.list [])
  count (.cell n)
  match docItems d with
  | none => throw (notIterable (docTypeName d))
  | some docs =>
    let items ← docs.mapM inner
    setCell n (.list items)
    noteItems n items
    pure (.cell (← alloc (.iterator n 0)))

/-- A tuple of what the tag holds; a type error gives the empty tuple. -/
def tupleOf (inner : Json → Reading Ref) (d : Json) : Reading Ref :=
  onTypeError
    (do
      let some docs := docItems d | throw (notIterable (docTypeName d))
      let items ← docs.mapM inner
      pure (.cell (← alloc (.tuple items))))
    (do pure (.cell (← alloc (.tuple []))))

/-- A set of what the tag holds, each item added as it is read; a type error, such as an
unhashable item, gives the empty set. -/
def setOf (inner : Json → Reading Ref) (d : Json) : Reading Ref :=
  onTypeError
    (do
      let some docs := docItems d | throw (notIterable (docTypeName d))
      let items ← docs.foldlM (fun acc doc => do addMember acc (← inner doc)) []
      pure (.cell (← alloc (.set false items))))
    (do pure (.cell (← alloc (.set false []))))

/-- The object that an id names: a stand-in when it names nothing yet, null when the id is
not an integer. -/
def byId : Json → Reading Ref
  | .int i => lookup i
  | .bool b => lookup (if b then 1 else 0)
  | _ => pure (.atom .null)
where
  /-- The object of id `i`, or a stand-in for it. -/
  lookup (i : Int) : Reading Ref := do
    match (← get).lookupId i with
    | some r => pure r
    | none => pure (.cell (← alloc (.laterId i)))

/-- The object a module name loads: the name must split into a module and a name, the
module's name must not be empty, and the module is not loaded, which gives null, counted
once. -/
def moduleOf : Json → Reading Ref
  | .str t =>
    let parts := t.points.splitOn 0x2F
    if parts.length < 2 then
      throw (.valueError ("not enough values to unpack (expected 2, got " ++
        toString parts.length ++ ")"))
    else if parts.length > 2 then throw (.valueError "too many values to unpack (expected 2)")
    else if parts.head?.all List.isEmpty then throw (.valueError "Empty module name")
    else do
      let counted := (← get).ids.any fun r => match r with
        | .atom .null => true
        | _ => false
      unless counted do count (.atom .null)
      pure (.atom .null)
  | j => throw (notSplittable j)

/-! ## Calling the class of frozen sets -/

/-- One call of the class of frozen sets on the items of `args`: no item gives the empty
set, one item the set of what it yields, more a type error. `first` tells the call from the
second try, whose message for arguments that cannot be iterated differs. -/
def frozensetCall (first : Bool) (args : Ref) : Reading Ref := do
  match ← iterate args with
  | none =>
    throw (.typeError ((if first then "frozenset() argument" else "Value") ++
      " after * must be an iterable, not " ++ (← typeOf args)))
  | some [] => pure (.cell (← alloc (.set true [])))
  | some [x] =>
    if (← get).isFrozenset x then pure x
    else match ← iterate x with
      | none => throw (notIterable (← typeOf x))
      | some elems =>
        let items ← elems.foldlM addMember []
        pure (.cell (← alloc (.set true items)))
  | some xs =>
    throw (.typeError ("frozenset expected at most 1 argument, got " ++ toString xs.length))

/-- The class of frozen sets called on `args`, and called once more when that raises a type
error. -/
def callFrozenset (args : Ref) : Reading Ref :=
  onTypeError (frozensetCall true args) (frozensetCall false args)

/-- The error of taking `r` apart as a pair. -/
def unpackPair (r : Ref) : Reading (Ref × Ref) := do
  match ← iterate r with
  | none => throw (.typeError ("cannot unpack non-iterable " ++ (← typeOf r) ++ " object"))
  | some [a, b] => pure (a, b)
  | some xs =>
    if xs.length > 2 then throw (.valueError "too many values to unpack (expected 2)")
    else throw (.valueError
      ("not enough values to unpack (expected 2, got " ++ toString xs.length ++ ")"))

/-- Setting the attributes of a mapping on a frozen set: it has none to set. -/
def setAttributes (mapping : Ref) : Reading Unit := do
  let first? : Option Ref ← match mapping with
    | .cell n => do
      match ← cellOf n with
      | .dict entries => pure (entries.head?.map Prod.fst)
      | .document (.obj fields) => pure (fields.head?.map fun f => .atom (.str f.1))
      | _ => throw (.attributeError ("'" ++ (← typeOf mapping) ++ "' object has no attribute 'items'"))
    | .atom _ => throw (.attributeError ("'" ++ (← typeOf mapping) ++ "' object has no attribute 'items'"))
  match first? with
  | none => pure ()
  | some (.atom (.str k)) =>
    throw (.attributeError ("'frozenset' object has no attribute '" ++ k.toStringLossy ++ "'"))
  | some k => throw (.typeError ("attribute name must be string, not '" ++ (← typeOf k) ++ "'"))

/-- Giving a frozen set a state: it takes none, so the state is taken apart as a pair of
attributes and slots, and the first of them that is not empty cannot be set. -/
def setState (state : Ref) : Reading Unit := do
  let (attributes, slots) ← unpackPair state
  let h ← get
  if h.truthy attributes then
    throw (.attributeError "'frozenset' object has no attribute '__dict__'")
  else if h.truthy slots then setAttributes slots
  else pure ()

/-- Appending items to a frozen set: it cannot take any. -/
def appendItems (items : Ref) : Reading Unit := do
  match ← iterate items with
  | none => throw (notIterable (← typeOf items))
  | some [] => pure ()
  | some _ => throw (.attributeError "'frozenset' object has no attribute 'append'")

/-- Setting items of a frozen set from key and value pairs: it cannot take any. -/
def setItems (pairs : Ref) : Reading Unit := do
  match ← iterate pairs with
  | none => throw (notIterable (← typeOf pairs))
  | some [] => pure ()
  | some (pair :: _) =>
    let _ ← unpackPair pair
    throw (.attributeError "'frozenset' object has no attribute '__setitem__'")

/-- A value built from a constructor and its arguments, state, list items and dictionary
items. A stand-in is counted before the parts are read and replaced by the value after; parts
that are not a sequence, or a constructor that is not the class of frozen sets, give an empty
list. -/
def reducedOf (inner : Json → Reading Ref) (d : Json) : Reading Ref := do
  let p ← alloc (.pending none)
  count (.cell p)
  let settle (x : Ref) : Reading Ref := do
    setCell p (.pending (some x))
    recount p x
    pure x
  let parts? ← onTypeError
    (do
      let some docs := docItems d | throw (notIterable (docTypeName d))
      some <$> docs.mapM inner)
    (pure none)
  match parts? with
  | none => settle (.cell (← alloc (.list [])))
  | some parts =>
    if parts.length > 5 then throw (.valueError "too many values to unpack (expected 5)")
    let part (i : Nat) : Ref := parts.getD i (.atom .null)
    if (← get).isFrozensetClass (part 0) then
      let made ← callFrozenset (part 1)
      if (← get).truthy (part 2) then setState (part 2)
      if (← get).truthy (part 3) then appendItems (part 3)
      if (← get).truthy (part 4) then setItems (part 4)
      settle made
    else settle (.cell (← alloc (.list [])))

/-! ## Dictionaries -/

/-- The key a `json://` field names: its text read as JSON no deeper than `depth`, then as
an object by `inner`. -/
def keyOf (inner : Json → Reading Ref) (depth : Nat) (t : Text) : Reading Ref :=
  match Json.readText (dialectTo depth) t with
  | .ok j => inner j
  | .error (.tooDeep inObject) =>
    throw (depthExceeded (" while decoding a JSON " ++ (if inObject then "object" else "array") ++
      " from a unicode string"))
  | .error (.tooManyDigits count) => throw (digitsExceeded count)
  | .error _ => throw .badKey

/-- How deep the JSON of a `json://` key may nest in a dictionary read with `r` calls left:
ten levels fewer, as the key is read by a decoding of its own. With nine calls left only the
scanner's call runs short; with fewer, a call on the way to it. -/
def keyNesting (r : Nat) : Except Raised Nat :=
  if r ≥ 10 then .ok (r - 10)
  else if r = 9 then .error (depthExceeded " while calling a Python object")
  else .error (depthExceeded "")

/-- A dictionary: counted first, then its text keys with their values read by `inner`, then
its `json://` keys, each read by `keyInner` before its value. Stand-ins under the second
kind of key are noted. -/
def dictOf (inner keyInner : Json → Reading Ref) (keyDepth : Except Raised Nat)
    (fields : List (Text × Json)) : Reading Ref := do
  let n ← alloc (.dict [])
  count (.cell n)
  for (k, v) in fields do
    unless hasKeyPrefix k do
      putEntry n (.atom (.str k)) (← inner v)
  for (k, v) in fields do
    if hasKeyPrefix k then
      let depth ← match keyDepth with
        | .ok d => pure d
        | .error e => throw e
      let key ← keyOf keyInner depth ⟨k.points.drop keyPrefix.length⟩
      let x ← inner v
      match (← get).unhashablePart? key with
      | some t => throw (.typeError ("unhashable type: '" ++ t ++ "'"))
      | none =>
        putEntry n key x
        match x with
        | .cell m => if (← get).isStandIn x then note { container := n, place := .key key, standIn := m }
        | .atom _ => pure ()
  pure (.cell n)

/-! ## Documents -/

/-- The tags, in the order in which the first one present decides how an object reads. -/
def tagOrder : List String :=
  ["py/tuple", "py/set", "py/b64", "py/b85", "py/id", "py/iterator", "py/object", "py/type",
    "py/reduce", "py/function", "py/mod", "py/repr"]

/-- The first tag an object carries, with what it holds. -/
def firstTag (fields : List (Text × Json)) : Option (String × Json) :=
  tagOrder.findSome? fun name => (Json.field? fields name).map fun j => (name, j)

/-- Reading one node with `r` calls left, at least five. The readers passed in read a part
with `r - 5`, `r - 4`, `r - 3` and `r - 2` calls left. -/
def node (less5 less4 less3 less2 : Json → Reading Ref) (r : Nat) : Json → Reading Ref
  | .null => pure (.atom .null)
  | .bool b => pure (.atom (.bool b))
  | .int n => pure (.atom (.int n))
  | .float x => pure (.atom (.float x))
  | .str t => pure (.atom (.str t))
  | .arr items => listOf less3 items
  | .obj fields =>
    match firstTag fields with
    | some ("py/tuple", d) => tupleOf less3 d
    | some ("py/set", d) => setOf less3 d
    | some ("py/b64", d) => pure (.atom (.bytes (base64Bytes d)))
    | some ("py/b85", d) => pure (.atom (.bytes (base85Bytes d)))
    | some ("py/id", d) => byId d
    | some ("py/iterator", d) => iteratorOf less4 d
    | some ("py/object", .str _) => do
      let n ← alloc (.document (.obj fields))
      count (.cell n)
      pure (.cell n)
    | some ("py/object", d) => throw (notSplittable d)
    | some ("py/type", .str t) => do
      if namesFrozensetClass t then pure (.cell (← alloc .frozensetClass))
      else pure (.cell (← alloc (.document (.obj fields))))
    | some ("py/type", d) => throw (notSplittable d)
    | some ("py/reduce", d) => reducedOf less3 d
    | some ("py/function", .str t) => do
      if namesFrozensetClass t then pure (.cell (← alloc .frozensetClass))
      else pure (.atom .null)
    | some ("py/function", d) => throw (notSplittable d)
    | some ("py/mod", d) => moduleOf d
    | some _ => pure (.atom .null)
    | none => dictOf less2 less5 (keyNesting r) fields

/-- Reading a node with fewer than five calls left: values need two, and a tuple or set three
with nothing to read inside; everything else runs out. -/
def shallow (r : Nat) : Json → Reading Ref
  | .arr _ => throw (shortOf true r)
  | .obj fields =>
    match firstTag fields with
    | some ("py/tuple", d) => few (fun _ => do pure (.cell (← alloc (.tuple [])))) d
    | some ("py/set", d) => few (fun _ => do pure (.cell (← alloc (.set false [])))) d
    | _ => throw (shortOf true r)
  | j => if r ≥ 2 then node (fun _ => pure default) (fun _ => pure default) (fun _ => pure default)
      (fun _ => pure default) r j else throw (shortOf false r)
where
  /-- A tuple or set: empty when its tag holds nothing to iterate, refused when its items
  would need calls that are not left. -/
  few (empty : Unit → Reading Ref) (d : Json) : Reading Ref :=
    if r < 2 then throw (shortOf false r)
    else match docItems d with
      | none => empty ()
      | some [] => if r = 2 then throw (shortOf false r) else empty ()
      | some _ => throw (shortOf false (if r = 2 then 2 else r - 3))

/-- Reading a document with `r` calls left. -/
def restore : Nat → Json → Reading Ref
  | k + 5, j => node (restore k) (restore (k + 1)) (restore (k + 2)) (restore (k + 3)) (k + 5) j
  | r, j => shallow r j

/-! ## Reading text -/

/-- Why typed JSON text does not read back. -/
inductive ReadFailure where
  /-- The text is not UTF-8 or not JSON, or a key's text is not JSON. -/
  | unreadable
  /-- Reading raised an exception with this message. -/
  | raised (message : String)
  /-- The value read holds itself, so it cannot be written out. -/
  | cyclic
  deriving DecidableEq, Repr

/-- How many levels fewer the JSON of a document may nest than the calls left when reading it
begins: the calls of the decoding function, of the JSON reader it hands the text to (entered
from outside), and of the scanner, less the call that starts reading the document. -/
def readerCalls : Nat := 5

/-- The failure an exception stands for. -/
def Raised.failure : Raised → ReadFailure
  | .typeError m | .valueError m | .attributeError m | .recursion m => .raised m
  | .badKey => .unreadable

/-- The value of typed JSON text given as UTF-8 bytes, read with `calls` nested calls left:
the JSON may nest as deep as the calls left to the JSON reader, and reading the document
begins with all of them. -/
def decode (b : ByteArray) (calls : Nat) : Except ReadFailure Value :=
  match Text.decode? b with
  | none => .error .unreadable
  | some t =>
    match Json.readText (dialectTo (calls - readerCalls)) t with
    | .error (.tooDeep inObject) =>
      .error (.raised ("maximum recursion depth exceeded while decoding a JSON " ++
        (if inObject then "object" else "array") ++ " from a unicode string"))
    | .error (.tooManyDigits count) => .error (digitsExceeded count).failure
    | .error _ => .error .unreadable
    | .ok j =>
      match (restore calls j).run.run {} with
      | (.error e, _) => .error e.failure
      | (.ok root, heap) =>
        match heap.settle.value? root with
        | some v => .ok v
        | none => .error .cyclic

end TypedJson

end Strongbox

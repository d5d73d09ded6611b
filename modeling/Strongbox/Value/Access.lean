import Strongbox.Value.Basic

/-!
# Item access

Reading, setting and removing the item of a value under a text key, as a dictionary does, and
how each goes wrong for other values: a dictionary may lack the key, a sequence or text cannot
be indexed by text, and other values hold no items at all. Paths of keys reach into nested
dictionaries, each key taken from the value the one before it reached. Bytes are changed one
byte at a time, at a position counted from either end.
-/

namespace Strongbox

/-- Why an item access fails. -/
inductive AccessError where
  /-- A dictionary has no item under the key. -/
  | missingKey (key : Text)
  /-- A sequence of the named kind is indexed by text. -/
  | sequenceIndex (kind : String)
  /-- Text is indexed by text. -/
  | textIndex
  /-- The value, of the named type, has no items. -/
  | notSubscriptable (typeName : String)
  /-- The value, of the named type, does not let its items be set. -/
  | noItemAssignment (typeName : String)
  /-- The value, of the named type, has no items to remove. -/
  | noRemoval (typeName : String)
  /-- A list removes by position alone, not by a key with a default. -/
  | removalArguments
  /-- A byte position beyond the bytes. -/
  | byteIndex
  /-- A byte value outside 0 to 255. -/
  | byteRange
  deriving DecidableEq, Repr

namespace AccessError

/-- What an access error says. -/
def message : AccessError → String
  | missingKey k => k.quoted
  | sequenceIndex kind => kind ++ " indices must be integers or slices, not str"
  | textIndex => "string indices must be integers, not 'str'"
  | notSubscriptable t => "'" ++ t ++ "' object is not subscriptable"
  | noItemAssignment t => "'" ++ t ++ "' object does not support item assignment"
  | noRemoval t => "'" ++ t ++ "' object has no attribute 'pop'"
  | removalArguments => "pop expected at most 1 argument, got 2"
  | byteIndex => "bytearray index out of range"
  | byteRange => "byte must be in range(0, 256)"

end AccessError

namespace Value

/-- The item under a text key. -/
def item (v : Value) (k : Text) : Except AccessError Value :=
  match v with
  | .dict entries => match lookup entries (.str k) with
    | some x => .ok x
    | none => .error (.missingKey k)
  | .list _ => .error (.sequenceIndex "list")
  | .tuple _ => .error (.sequenceIndex "tuple")
  | .bytes _ => .error (.sequenceIndex "byte")
  | .str _ => .error .textIndex
  | v => .error (.notSubscriptable v.typeName)

/-- The value with `x` under a text key; a dictionary keeps the key's place if it has it. -/
def setItem (v : Value) (k : Text) (x : Value) : Except AccessError Value :=
  match v with
  | .dict entries => .ok (.dict (insertEntry entries (.str k) x))
  | .list _ => .error (.sequenceIndex "list")
  | v => .error (.noItemAssignment v.typeName)

/-- The value without the item under a text key; a dictionary without it stays as it is. -/
def removeItem (v : Value) (k : Text) : Except AccessError Value :=
  match v with
  | .dict entries => .ok (.dict (entries.filter fun e => !equiv e.1 (.str k)))
  | .list _ => .error .removalArguments
  | v => .error (.noRemoval v.typeName)

/-- The value with `x` under the last key of a path, the keys before it leading from the value
to the one that takes it. -/
def setAt (x : Value) : List Text → Value → Except AccessError Value
  | [], _ => .ok x
  | [k], v => v.setItem k x
  | k :: rest, v => do
    let inner ← v.item k
    v.setItem k (← setAt x rest inner)

/-- The value without the item under the last key of a path, the keys before it leading from
the value to the one that loses it. -/
def removeAt : List Text → Value → Except AccessError Value
  | [], v => .ok v
  | [k], v => v.removeItem k
  | k :: rest, v => do
    let inner ← v.item k
    v.setItem k (← removeAt rest inner)

end Value

/-- Bytes with byte `index`, counted from the end when negative, XORed with `mask`; the byte
must be there, and the result must be a byte. -/
def flipByte (b : ByteArray) (index mask : Int) : Except AccessError ByteArray :=
  let i : Int := if index < 0 then b.size + index else index
  if 0 ≤ i ∧ i < b.size then
    -- a byte XOR a mask is a byte exactly when the mask is one
    if 0 ≤ mask ∧ mask < 256 then
      .ok (b.set! i.toNat (b.get! i.toNat ^^^ mask.toNat.toUInt8))
    else .error .byteRange
  else .error .byteIndex

end Strongbox

import Strongbox.Value.Basic
import Strongbox.Number.Binary64
import Strongbox.Hash.SipHash

/-!
# Hash sets

The order in which a hash set yields its elements. Every hashable value has a 64-bit hash:
an integer its residue modulo the Mersenne prime `2^61 - 1` (with `-1` taken as `-2`), a
double the residue of its exact value, so that equal numbers hash alike, a tuple a
multiply-rotate mix of its items' hashes, and a frozen set a mix of its elements' hashes that
does not depend on their order. Bytes hash by SipHash-1-3 under the zero key, and text by the
same hash of its code units, each as wide as the widest code point needs. Null and
not-a-number hash by values this library does not see.

A set is an open-addressing table of `2^k` slots, starting with 8. An element goes to the slot
its hash selects; when that is taken, the next nine slots are tried if they exist, and then a
perturbed jump is made. The table grows to the least power of two above four times its
elements once three fifths of the slots would be filled, placing the old elements again in
slot order. The set yields its elements in slot order. Where some element's hash is not
known, the elements are kept in the order they came.
-/

namespace Strongbox

namespace Value

/-- The Mersenne prime that integer hashes are taken modulo. -/
def hashModulus : Nat := Nat.pow 2 61 - 1

/-- A signed hash as 64 bits; `-1` is reserved and becomes `-2`. -/
def hashWord (h : Int) : UInt64 :=
  let h := if h = -1 then -2 else h
  UInt64.ofNat (h % Int.pow 2 64).toNat

/-- The hash of an integer. -/
def intHash (n : Int) : UInt64 :=
  let r : Int := (n.natAbs % hashModulus : Nat)
  hashWord (if n < 0 then -r else r)

/-- The hash of a double's exact value `m · 2^e`; `2^61 ≡ 1` makes the exponent act modulo 61. -/
def floatHash? (x : Float) : Option UInt64 :=
  match Binary64.ofFloat x with
  | .nan => none
  | .infinity negative => some (hashWord (if negative then -314159 else 314159))
  | .finite negative m e =>
    let r : Int := (m % hashModulus * Nat.pow 2 (e % 61).toNat % hashModulus : Nat)
    some (hashWord (if negative then -r else r))

/-- The constants of the tuple mix. -/
def tuplePrime1 : UInt64 := 11400714785074694791
def tuplePrime2 : UInt64 := 14029467366897019727
def tuplePrime5 : UInt64 := 2870177450012600261

/-- One item's hash mixed into a tuple's accumulator. -/
def tupleStep (acc lane : UInt64) : UInt64 :=
  let acc := acc + lane * tuplePrime2
  let acc := (acc <<< 31) ||| (acc >>> 33)
  acc * tuplePrime1

/-- The hash of a tuple from its items' hashes. -/
def tupleHash (lanes : List UInt64) : UInt64 :=
  let acc := lanes.foldl tupleStep tuplePrime5
  let acc := acc + (UInt64.ofNat lanes.length ^^^ (tuplePrime5 ^^^ 3527539))
  if acc = UInt64.ofNat (Nat.pow 2 64 - 1) then 1546275796 else acc

/-- An element's hash spread over the word, for the frozen-set mix. -/
def shuffleBits (h : UInt64) : UInt64 := ((h ^^^ (89869747 : UInt64)) ^^^ (h <<< (16 : UInt64))) * 3644798167

/-- The hash of a frozen set from its elements' hashes. -/
def frozensetHash (hs : List UInt64) : UInt64 :=
  let h := hs.foldl (fun acc x => acc ^^^ shuffleBits x) 0
  let h := h ^^^ ((UInt64.ofNat hs.length + 1) * 1927868237)
  let h := h ^^^ ((h >>> 11) ^^^ (h >>> 25))
  let h := h * 69069 + 907133923
  if h = UInt64.ofNat (Nat.pow 2 64 - 1) then 590923713 else h

/-- The hash of a byte string: zero when it is empty, else its SipHash-1-3 under the zero key. -/
def bytesHash (bs : List UInt8) : UInt64 :=
  if bs.isEmpty then 0
  else
    let h := SipHash.hash13 0 0 bs
    if h = UInt64.ofNat (Nat.pow 2 64 - 1) then UInt64.ofNat (Nat.pow 2 64 - 2) else h

/-- The code units of text as it is held for hashing: one byte each when every code point is
below 256, two little-endian bytes when every one is below 65536, and four otherwise. -/
def codeUnitBytes (t : Text) : List UInt8 :=
  let top := t.points.foldl max 0
  let width := if top < 256 then 1 else if top < 65536 then 2 else 4
  t.points.flatMap fun c => (List.range width).map fun i => (c >>> (8 * i)).toUInt8

mutual
/-- The hash of a value, where this library knows it. -/
def hash? : Value → Option UInt64
  | bool b => some (if b then 1 else 0)
  | int n => some (intHash n)
  | float x => floatHash? x
  | tuple items => (hashes? items).map tupleHash
  | frozenset items => (hashes? items).map frozensetHash
  | str t => some (bytesHash (codeUnitBytes t))
  | bytes b => some (bytesHash b.data.toList)
  | _ => none

/-- The hashes of items, if all are known. -/
def hashes? : List Value → Option (List UInt64)
  | [] => some []
  | v :: rest => do
    let h ← hash? v
    let hs ← hashes? rest
    pure (h :: hs)
end

/-! ## The table -/

/-- Slots of a table: empty, or an element's hash and its place among the elements. -/
abbrev Slots := Array (Option (UInt64 × Nat))

/-- The slots tried in one round from slot `i`: it and the nine after it when they exist. -/
def probeWindow (size i : Nat) : List Nat :=
  if i + 9 < size then (List.range 10).map (i + ·) else [i]

/-- The first free slot along the probe sequence of hash `h`, from slot `i` with the
perturbation `perturb`; `fuel` bounds the rounds. -/
def freeSlot (slots : Slots) : Nat → Nat → UInt64 → Option Nat
  | 0, _, _ => none
  | fuel + 1, i, perturb =>
    match (probeWindow slots.size i).find? fun j => (slots.getD j none).isNone with
    | some j => some j
    | none =>
      let perturb := perturb >>> 5
      freeSlot slots fuel ((i * 5 + 1 + perturb.toNat) % slots.size) perturb

/-- The table with an element placed in the first free slot of its probe sequence. -/
def place (slots : Slots) (entry : UInt64 × Nat) : Slots :=
  match freeSlot slots (slots.size + 64) (entry.1.toNat % slots.size) entry.1 with
  | some j => slots.set! j (some entry)
  | none => slots

/-- The least power of two, from 8, above `n`. -/
def tableSize (n : Nat) : Nat := go 8 n
where
  /-- Doubling `size` until it exceeds `n`; each step at least doubles, so `n` steps do. -/
  go (size : Nat) : Nat → Nat
    | 0 => size
    | fuel + 1 => if size > n then size else go (2 * size) fuel

/-- The table grown to hold four times its elements, the old elements placed in slot order. -/
def grow (slots : Slots) (count : Nat) : Slots :=
  (slots.toList.filterMap id).foldl place (Array.replicate (tableSize (4 * count)) none)

/-- The table and its element count after adding an element, growing when three fifths of it
would be full. -/
def addEntry (table : Slots × Nat) (entry : UInt64 × Nat) : Slots × Nat :=
  let slots := place table.1 entry
  let count := table.2 + 1
  if count * 5 < (slots.size - 1) * 3 then (slots, count) else (grow slots count, count)

/-- The order in which a set built by adding the elements in turn yields them; the elements
are distinct. -/
def iterationOrder (items : List Value) : List Value :=
  match hashes? items with
  | none => items
  | some hs =>
    let entries := hs.zip (List.range items.length)
    let (slots, _) := entries.foldl addEntry (Array.replicate 8 none, 0)
    (slots.toList.filterMap id).filterMap fun e => items[e.2]?

/-- A set of the elements, each kept at its first arrival, in the order the set yields them. -/
def setOf (items : List Value) : Value :=
  .frozenset (iterationOrder (items.foldl (fun acc x => if acc.any (equiv x) then acc else acc ++ [x]) []))

end Value

end Strongbox

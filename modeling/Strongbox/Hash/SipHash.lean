import Strongbox.Bytes

/-!
# SipHash-1-3

The keyed hash of Aumasson and Bernstein on four 64-bit state words, with one round per
message word and three rounds to finish. The message is read as little-endian 8-byte words;
the last word holds the bytes left over and, in its top byte, the message length modulo 256.
-/

namespace Strongbox.SipHash

/-- Rotation to the left by `n` places. -/
def rotl (x : UInt64) (n : UInt64) : UInt64 := (x <<< n) ||| (x >>> (64 - n))

/-- The four state words. -/
structure State where
  v0 : UInt64
  v1 : UInt64
  v2 : UInt64
  v3 : UInt64

/-- One round: two add-rotate-xor halves. -/
def round (s : State) : State :=
  let v0 := s.v0 + s.v1
  let v2 := s.v2 + s.v3
  let v1 := rotl s.v1 13 ^^^ v0
  let v3 := rotl s.v3 16 ^^^ v2
  let v0 := rotl v0 32
  let v2 := v2 + v1
  let v0 := v0 + v3
  let v1 := rotl v1 17 ^^^ v2
  let v3 := rotl v3 21 ^^^ v0
  let v2 := rotl v2 32
  ⟨v0, v1, v2, v3⟩

/-- A message word taken into the state. -/
def absorb (s : State) (m : UInt64) : State :=
  let s := round { s with v3 := s.v3 ^^^ m }
  { s with v0 := s.v0 ^^^ m }

/-- Bytes as a little-endian word; at most eight are used. -/
def word (bs : List UInt8) : UInt64 :=
  bs.foldr (fun b acc => (acc <<< 8) ||| b.toUInt64) 0

/-- The state after the whole words of a message, and the bytes left over. -/
def absorbWords (s : State) : List UInt8 → State × List UInt8
  | b0 :: b1 :: b2 :: b3 :: b4 :: b5 :: b6 :: b7 :: rest =>
    absorbWords (absorb s (word [b0, b1, b2, b3, b4, b5, b6, b7])) rest
  | tail => (s, tail)

/-- The SipHash-1-3 of a message under the key `k0`, `k1`. -/
def hash13 (k0 k1 : UInt64) (msg : List UInt8) : UInt64 :=
  let s : State := ⟨k0 ^^^ 0x736f6d6570736575, k1 ^^^ 0x646f72616e646f6d,
    k0 ^^^ 0x6c7967656e657261, k1 ^^^ 0x7465646279746573⟩
  let (s, tail) := absorbWords s msg
  let last := (UInt64.ofNat msg.length <<< 56) ||| word tail
  let s := absorb s last
  let s := round (round (round { s with v2 := s.v2 ^^^ 0xff }))
  s.v0 ^^^ s.v1 ^^^ s.v2 ^^^ s.v3

end Strongbox.SipHash

import Strongbox.Bytes

/-!
# ChaCha20

The stream cipher of RFC 8439: a 32-byte key, a 32-bit block counter and a 96-bit nonce
fill a 4×4 state of 32-bit words, twenty rounds of quarter-rounds mix it, and the mixed state
plus the state it started from is one 64-byte block of key stream.
-/

namespace Strongbox.ChaCha20

open Strongbox.Bytes

/-- Rotation to the left by `n` places. -/
def rotl (x : UInt32) (n : UInt32) : UInt32 := (x <<< n) ||| (x >>> (32 - n))

/-- The little-endian word at byte `i`. -/
def wordLE (b : ByteArray) (i : Nat) : UInt32 :=
  (byteAt b i).toUInt32 ||| (byteAt b (i + 1)).toUInt32 <<< 8 |||
    (byteAt b (i + 2)).toUInt32 <<< 16 ||| (byteAt b (i + 3)).toUInt32 <<< 24

/-- The quarter round on state words `a`, `b`, `c` and `d`. -/
def quarter (s : Array UInt32) (a b c d : Nat) : Array UInt32 :=
  let va := s.getD a 0; let vb := s.getD b 0; let vc := s.getD c 0; let vd := s.getD d 0
  let va := va + vb; let vd := rotl (vd ^^^ va) 16
  let vc := vc + vd; let vb := rotl (vb ^^^ vc) 12
  let va := va + vb; let vd := rotl (vd ^^^ va) 8
  let vc := vc + vd; let vb := rotl (vb ^^^ vc) 7
  ((s.set! a va).set! b vb |>.set! c vc).set! d vd

/-- A column round followed by a diagonal round. -/
def doubleRound (s : Array UInt32) : Array UInt32 :=
  let s := quarter s 0 4 8 12
  let s := quarter s 1 5 9 13
  let s := quarter s 2 6 10 14
  let s := quarter s 3 7 11 15
  let s := quarter s 0 5 10 15
  let s := quarter s 1 6 11 12
  let s := quarter s 2 7 8 13
  quarter s 3 4 9 14

/-- The initial state: the constant "expand 32-byte k", the key, the counter, the nonce. -/
def initial (key : ByteArray) (counter : Nat) (nonce : ByteArray) : Array UInt32 :=
  #[0x61707865, 0x3320646e, 0x79622d32, 0x6b206574] ++
    ((List.range 8).toArray.map fun i => wordLE key (4 * i)) ++
    #[counter.toUInt32] ++ ((List.range 3).toArray.map fun i => wordLE nonce (4 * i))

/-- The 64 bytes of key stream for one counter value. -/
def block (key : ByteArray) (counter : Nat) (nonce : ByteArray) : ByteArray :=
  let s0 := initial key counter nonce
  let s := (List.range 10).foldl (fun s _ => doubleRound s) s0
  (Array.zipWith (· + ·) s s0).foldl (fun acc w => acc ++ ofNatLE 4 w.toNat) ByteArray.empty

/-- The data xored with the key stream that starts at block `counter`. -/
def xorStream (key : ByteArray) (counter : Nat) (nonce data : ByteArray) : ByteArray :=
  (List.range ((data.size + 63) / 64)).foldl (fun acc i =>
    acc ++ xor (slice data (64 * i) 64) (block key (counter + i) nonce)) ByteArray.empty

end Strongbox.ChaCha20

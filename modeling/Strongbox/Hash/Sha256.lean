import Strongbox.Bytes

/-!
# SHA-256

The hash of FIPS 180-4 on 32-bit words. The message is padded to whole 64-byte blocks,
each block is expanded to 64 schedule words, and 64 rounds fold it into eight state words.
-/

namespace Strongbox.Sha256

open Strongbox.Bytes

/-- The round constants: the first 32 bits of the fractional parts of the cube roots of the
first 64 primes. -/
def roundConstants : Array UInt32 := #[
  0x428a2f98, 0x71374491, 0xb5c0fbcf, 0xe9b5dba5, 0x3956c25b, 0x59f111f1,
  0x923f82a4, 0xab1c5ed5, 0xd807aa98, 0x12835b01, 0x243185be, 0x550c7dc3,
  0x72be5d74, 0x80deb1fe, 0x9bdc06a7, 0xc19bf174, 0xe49b69c1, 0xefbe4786,
  0x0fc19dc6, 0x240ca1cc, 0x2de92c6f, 0x4a7484aa, 0x5cb0a9dc, 0x76f988da,
  0x983e5152, 0xa831c66d, 0xb00327c8, 0xbf597fc7, 0xc6e00bf3, 0xd5a79147,
  0x06ca6351, 0x14292967, 0x27b70a85, 0x2e1b2138, 0x4d2c6dfc, 0x53380d13,
  0x650a7354, 0x766a0abb, 0x81c2c92e, 0x92722c85, 0xa2bfe8a1, 0xa81a664b,
  0xc24b8b70, 0xc76c51a3, 0xd192e819, 0xd6990624, 0xf40e3585, 0x106aa070,
  0x19a4c116, 0x1e376c08, 0x2748774c, 0x34b0bcb5, 0x391c0cb3, 0x4ed8aa4a,
  0x5b9cca4f, 0x682e6ff3, 0x748f82ee, 0x78a5636f, 0x84c87814, 0x8cc70208,
  0x90befffa, 0xa4506ceb, 0xbef9a3f7, 0xc67178f2]

/-- The initial state: the first 32 bits of the fractional parts of the square roots of the
first eight primes. -/
def initialState : Array UInt32 := #[
  0x6a09e667, 0xbb67ae85, 0x3c6ef372, 0xa54ff53a, 0x510e527f, 0x9b05688c,
  0x1f83d9ab, 0x5be0cd19]

/-- Rotation to the right by `n` places. -/
def rotr (x : UInt32) (n : UInt32) : UInt32 := (x >>> n) ||| (x <<< (32 - n))

/-- The message, a one bit, zero bits, and the message's length in bits as a 64-bit number:
a whole number of 64-byte blocks. -/
def pad (msg : ByteArray) : ByteArray :=
  let zeros := (119 - msg.size % 64) % 64
  msg ++ ByteArray.mk #[0x80] ++ replicate zeros 0 ++ ofNatBE 8 (8 * msg.size)

/-- The big-endian word at byte `i`. -/
def wordAt (b : ByteArray) (i : Nat) : UInt32 :=
  (byteAt b i).toUInt32 <<< 24 ||| (byteAt b (i + 1)).toUInt32 <<< 16 |||
    (byteAt b (i + 2)).toUInt32 <<< 8 ||| (byteAt b (i + 3)).toUInt32

/-- The 64 schedule words of the block at byte `start`. -/
def schedule (b : ByteArray) (start : Nat) : Array UInt32 :=
  let first := (List.range 16).toArray.map fun i => wordAt b (start + 4 * i)
  (List.range' 16 48).foldl (fun w t =>
    let x := w.getD (t - 15) 0
    let y := w.getD (t - 2) 0
    let s0 := rotr x 7 ^^^ rotr x 18 ^^^ (x >>> 3)
    let s1 := rotr y 17 ^^^ rotr y 19 ^^^ (y >>> 10)
    w.push (w.getD (t - 16) 0 + s0 + w.getD (t - 7) 0 + s1)) first

/-- One round on the working variables `a` to `h`, with schedule word `w` and constant `k`. -/
def round (v : Array UInt32) (k w : UInt32) : Array UInt32 :=
  let a := v.getD 0 0; let b := v.getD 1 0; let c := v.getD 2 0; let d := v.getD 3 0
  let e := v.getD 4 0; let f := v.getD 5 0; let g := v.getD 6 0; let h := v.getD 7 0
  let s1 := rotr e 6 ^^^ rotr e 11 ^^^ rotr e 25
  let ch := (e &&& f) ^^^ (~~~e &&& g)
  let t1 := h + s1 + ch + k + w
  let s0 := rotr a 2 ^^^ rotr a 13 ^^^ rotr a 22
  let maj := (a &&& b) ^^^ (a &&& c) ^^^ (b &&& c)
  #[t1 + s0 + maj, a, b, c, d + t1, e, f, g]

/-- The state after the block at byte `start`. -/
def compress (state : Array UInt32) (b : ByteArray) (start : Nat) : Array UInt32 :=
  let w := schedule b start
  let v := (List.range 64).foldl (fun v t => round v (roundConstants.getD t 0) (w.getD t 0)) state
  Array.zipWith (· + ·) state v

/-- The 32-byte digest of `msg`. -/
def hash (msg : ByteArray) : ByteArray :=
  let p := pad msg
  let state := (List.range (p.size / 64)).foldl (fun s i => compress s p (64 * i)) initialState
  state.foldl (fun acc x => acc ++ ofNatBE 4 x.toNat) ByteArray.empty

end Strongbox.Sha256

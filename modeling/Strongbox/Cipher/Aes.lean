import Strongbox.Bytes

/-!
# AES

The block cipher of FIPS 197 in the forward direction, which is all that counter mode needs.
Keys of 16, 24 and 32 bytes give 10, 12 and 14 rounds. The state is the 16 bytes of a block
in input order, so byte `r + 4 * c` stands in row `r` and column `c`.
-/

namespace Strongbox.Aes

open Strongbox.Bytes

/-- The substitution box: inversion in GF(2⁸) followed by the affine map of the standard. -/
def sbox : Array UInt8 := #[
  0x63, 0x7c, 0x77, 0x7b, 0xf2, 0x6b, 0x6f, 0xc5, 0x30, 0x01, 0x67, 0x2b,
  0xfe, 0xd7, 0xab, 0x76, 0xca, 0x82, 0xc9, 0x7d, 0xfa, 0x59, 0x47, 0xf0,
  0xad, 0xd4, 0xa2, 0xaf, 0x9c, 0xa4, 0x72, 0xc0, 0xb7, 0xfd, 0x93, 0x26,
  0x36, 0x3f, 0xf7, 0xcc, 0x34, 0xa5, 0xe5, 0xf1, 0x71, 0xd8, 0x31, 0x15,
  0x04, 0xc7, 0x23, 0xc3, 0x18, 0x96, 0x05, 0x9a, 0x07, 0x12, 0x80, 0xe2,
  0xeb, 0x27, 0xb2, 0x75, 0x09, 0x83, 0x2c, 0x1a, 0x1b, 0x6e, 0x5a, 0xa0,
  0x52, 0x3b, 0xd6, 0xb3, 0x29, 0xe3, 0x2f, 0x84, 0x53, 0xd1, 0x00, 0xed,
  0x20, 0xfc, 0xb1, 0x5b, 0x6a, 0xcb, 0xbe, 0x39, 0x4a, 0x4c, 0x58, 0xcf,
  0xd0, 0xef, 0xaa, 0xfb, 0x43, 0x4d, 0x33, 0x85, 0x45, 0xf9, 0x02, 0x7f,
  0x50, 0x3c, 0x9f, 0xa8, 0x51, 0xa3, 0x40, 0x8f, 0x92, 0x9d, 0x38, 0xf5,
  0xbc, 0xb6, 0xda, 0x21, 0x10, 0xff, 0xf3, 0xd2, 0xcd, 0x0c, 0x13, 0xec,
  0x5f, 0x97, 0x44, 0x17, 0xc4, 0xa7, 0x7e, 0x3d, 0x64, 0x5d, 0x19, 0x73,
  0x60, 0x81, 0x4f, 0xdc, 0x22, 0x2a, 0x90, 0x88, 0x46, 0xee, 0xb8, 0x14,
  0xde, 0x5e, 0x0b, 0xdb, 0xe0, 0x32, 0x3a, 0x0a, 0x49, 0x06, 0x24, 0x5c,
  0xc2, 0xd3, 0xac, 0x62, 0x91, 0x95, 0xe4, 0x79, 0xe7, 0xc8, 0x37, 0x6d,
  0x8d, 0xd5, 0x4e, 0xa9, 0x6c, 0x56, 0xf4, 0xea, 0x65, 0x7a, 0xae, 0x08,
  0xba, 0x78, 0x25, 0x2e, 0x1c, 0xa6, 0xb4, 0xc6, 0xe8, 0xdd, 0x74, 0x1f,
  0x4b, 0xbd, 0x8b, 0x8a, 0x70, 0x3e, 0xb5, 0x66, 0x48, 0x03, 0xf6, 0x0e,
  0x61, 0x35, 0x57, 0xb9, 0x86, 0xc1, 0x1d, 0x9e, 0xe1, 0xf8, 0x98, 0x11,
  0x69, 0xd9, 0x8e, 0x94, 0x9b, 0x1e, 0x87, 0xe9, 0xce, 0x55, 0x28, 0xdf,
  0x8c, 0xa1, 0x89, 0x0d, 0xbf, 0xe6, 0x42, 0x68, 0x41, 0x99, 0x2d, 0x0f,
  0xb0, 0x54, 0xbb, 0x16]

/-- The substituted byte. -/
def sub (x : UInt8) : UInt8 := sbox.getD x.toNat 0

/-- Multiplication by the polynomial `x` in GF(2⁸). -/
def xtime (a : UInt8) : UInt8 := (a <<< 1) ^^^ (if a &&& 0x80 == 0 then 0 else 0x1b)

/-- A key of one of the three sizes, with its number of rounds. -/
def rounds? (key : ByteArray) : Option Nat :=
  if key.size = 16 then some 10
  else if key.size = 24 then some 12
  else if key.size = 32 then some 14
  else none

/-- The round-constant byte of key word `i / nk`: successive powers of `x`. -/
def rcon (n : Nat) : UInt8 := (List.range (n - 1)).foldl (fun a _ => xtime a) 1

/-- The expanded key as 4-byte words, `4 * (rounds + 1)` of them. -/
def expandKey (key : ByteArray) (rounds : Nat) : Array ByteArray :=
  let nk := key.size / 4
  let first := (List.range nk).toArray.map fun i => slice key (4 * i) 4
  (List.range' nk (4 * (rounds + 1) - nk)).foldl (fun w i =>
    let prev := w.getD (i - 1) ByteArray.empty
    let temp :=
      if i % nk = 0 then
        let r := prev.data
        ByteArray.mk #[sub (r.getD 1 0) ^^^ rcon (i / nk), sub (r.getD 2 0), sub (r.getD 3 0),
          sub (r.getD 0 0)]
      else if nk > 6 ∧ i % nk = 4 then ⟨prev.data.map sub⟩
      else prev
    w.push (xor (w.getD (i - nk) ByteArray.empty) temp)) first

/-- The 16-byte key of round `r`. -/
def roundKey (w : Array ByteArray) (r : Nat) : ByteArray :=
  w.getD (4 * r) .empty ++ w.getD (4 * r + 1) .empty ++ w.getD (4 * r + 2) .empty ++
    w.getD (4 * r + 3) .empty

/-- Row `r` moves `r` columns to the left. -/
def shiftRows (s : ByteArray) : ByteArray :=
  ⟨(List.range 16).toArray.map fun i =>
    let r := i % 4
    let c := i / 4
    byteAt s (r + 4 * ((c + r) % 4))⟩

/-- Each column is multiplied by the fixed polynomial `3x³ + x² + x + 2`. -/
def mixColumns (s : ByteArray) : ByteArray :=
  ⟨(List.range 4).toArray.flatMap fun c =>
    let a0 := byteAt s (4 * c); let a1 := byteAt s (4 * c + 1)
    let a2 := byteAt s (4 * c + 2); let a3 := byteAt s (4 * c + 3)
    #[xtime a0 ^^^ (xtime a1 ^^^ a1) ^^^ a2 ^^^ a3,
      a0 ^^^ xtime a1 ^^^ (xtime a2 ^^^ a2) ^^^ a3,
      a0 ^^^ a1 ^^^ xtime a2 ^^^ (xtime a3 ^^^ a3),
      (xtime a0 ^^^ a0) ^^^ a1 ^^^ a2 ^^^ xtime a3]⟩

/-- A block enciphered under an expanded key of `rounds` rounds. -/
def encryptBlock (w : Array ByteArray) (rounds : Nat) (block : ByteArray) : ByteArray :=
  let s := xor block (roundKey w 0)
  let s := (List.range' 1 (rounds - 1)).foldl (fun s r =>
    xor (mixColumns (shiftRows ⟨s.data.map sub⟩)) (roundKey w r)) s
  xor (shiftRows ⟨s.data.map sub⟩) (roundKey w rounds)

/-- A key ready for enciphering: its round keys and their number. -/
structure Schedule where
  words : Array ByteArray
  rounds : Nat

/-- The schedule of a key of 16, 24 or 32 bytes. -/
def schedule? (key : ByteArray) : Option Schedule :=
  (rounds? key).map fun n => ⟨expandKey key n, n⟩

/-- A block enciphered under a schedule. -/
def Schedule.encrypt (k : Schedule) (block : ByteArray) : ByteArray :=
  encryptBlock k.words k.rounds block

end Strongbox.Aes

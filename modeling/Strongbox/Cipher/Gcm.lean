import Strongbox.Cipher.Aes

/-!
# AES-GCM

Galois/counter mode of NIST SP 800-38D with 96-bit nonces and 128-bit tags. The plaintext is
xored with the cipher of successive counter blocks; the tag is the GHASH of the associated
data and the ciphertext under the hash key `E(K, 0)`, masked by the cipher of the first
counter block.
-/

namespace Strongbox.Gcm

open Strongbox.Bytes

/-- The reduction constant of GF(2¹²⁸) in the reflected bit order of the mode. -/
def reduction : Nat := 0xe1 <<< 120

/-- Product in GF(2¹²⁸), bit 0 of the field element being the most significant bit. -/
def mul (x y : Nat) : Nat :=
  ((List.range 128).foldl (fun (acc : Nat × Nat) i =>
    let z := if x.testBit (127 - i) then acc.1 ^^^ acc.2 else acc.1
    let v := if acc.2 % 2 = 1 then (acc.2 >>> 1) ^^^ reduction else acc.2 >>> 1
    (z, v)) (0, y)).1

/-- The data cut into 16-byte blocks, the last one padded with zeros. -/
def blocks (b : ByteArray) : List ByteArray :=
  (List.range ((b.size + 15) / 16)).map fun i =>
    let blk := slice b (16 * i) 16
    blk ++ replicate (16 - blk.size) 0

/-- GHASH of associated data `aad` and ciphertext `c` under hash key `h`. -/
def ghash (h : Nat) (aad c : ByteArray) : Nat :=
  let lens := ofNatBE 8 (8 * aad.size) ++ ofNatBE 8 (8 * c.size)
  (blocks aad ++ blocks c ++ [lens]).foldl (fun x blk => mul (x ^^^ toNatBE blk) h) 0

/-- Counter block `i`: the nonce followed by a 32-bit big-endian counter. -/
def counterBlock (nonce : ByteArray) (i : Nat) : ByteArray := nonce ++ ofNatBE 4 i

/-- The data xored with the cipher of counter blocks 2, 3, … -/
def ctr (k : Aes.Schedule) (nonce data : ByteArray) : ByteArray :=
  (List.range ((data.size + 15) / 16)).foldl (fun acc i =>
    acc ++ xor (slice data (16 * i) 16) (k.encrypt (counterBlock nonce (i + 2)))) ByteArray.empty

/-- The tag over associated data and ciphertext. -/
def tag (k : Aes.Schedule) (nonce aad c : ByteArray) : ByteArray :=
  let h := toNatBE (k.encrypt (replicate 16 0))
  xor (ofNatBE 16 (ghash h aad c)) (k.encrypt (counterBlock nonce 1))

/-- Ciphertext followed by its 16-byte tag. -/
def encrypt (k : Aes.Schedule) (nonce plaintext aad : ByteArray) : ByteArray :=
  let c := ctr k nonce plaintext
  c ++ tag k nonce aad c

/-- The plaintext of ciphertext-and-tag, or `none` when the tag does not match. -/
def decrypt? (k : Aes.Schedule) (nonce sealed aad : ByteArray) : Option ByteArray :=
  if sealed.size < 16 then none
  else
    let c := sealed.extract 0 (sealed.size - 16)
    let t := dropBytes sealed (sealed.size - 16)
    if equalInTime t (tag k nonce aad c) then some (ctr k nonce c) else none

end Strongbox.Gcm

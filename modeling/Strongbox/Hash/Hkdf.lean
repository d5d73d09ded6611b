import Strongbox.Hash.Hmac

/-!
# HKDF-SHA256

Key derivation of RFC 5869 with HMAC-SHA256: a pseudorandom key is extracted from the input
key material under a salt, then expanded block by block under a context string. At most 255
blocks of 32 bytes can be produced.
-/

namespace Strongbox.Hkdf

open Strongbox.Bytes

/-- The most bytes one derivation yields: 255 blocks of 32. -/
def maxLength : Nat := 255 * 32

/-- The pseudorandom key; no salt means a block of zeros. -/
def extract (salt : Option ByteArray) (ikm : ByteArray) : ByteArray :=
  Hmac.mac Hmac.sha256 (salt.getD (replicate 32 0)) ikm

/-- Blocks `T(1) ‖ … ‖ T(n)`, each keyed by `prk` over the previous block, `info` and its
one-byte index. -/
def expandBlocks (prk info : ByteArray) (n : Nat) : ByteArray :=
  ((List.range n).foldl (fun (acc : ByteArray × ByteArray) i =>
    let t := Hmac.mac Hmac.sha256 prk (acc.2 ++ info ++ ByteArray.mk #[(i + 1).toUInt8])
    (acc.1 ++ t, t)) (ByteArray.empty, ByteArray.empty)).1

/-- `length` bytes of output key material, or `none` when more than `maxLength` are asked for. -/
def derive? (ikm info : ByteArray) (salt : Option ByteArray) (length : Nat) : Option ByteArray :=
  if length > maxLength then none
  else
    let prk := extract salt ikm
    some ((expandBlocks prk info ((length + 31) / 32)).extract 0 length)

end Strongbox.Hkdf

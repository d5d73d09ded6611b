import Strongbox.Hash.Sha256
import Strongbox.Hash.Sha512

/-!
# HMAC

The keyed hash of RFC 2104 over any hash with its block size: a key longer than a block is
hashed first, then zero-padded to a block, and the message is hashed inside an inner and an
outer pad.
-/

namespace Strongbox.Hmac

open Strongbox.Bytes

/-- A hash function together with the size of its input blocks. -/
structure HashFunction where
  hash : ByteArray → ByteArray
  blockSize : Nat

/-- SHA-256, which takes 64-byte blocks. -/
def sha256 : HashFunction := ⟨Sha256.hash, 64⟩

/-- SHA-512, which takes 128-byte blocks. -/
def sha512 : HashFunction := ⟨Sha512.hash, 128⟩

/-- The key as one block: hashed if it is too long, then padded with zeros. -/
def blockKey (h : HashFunction) (key : ByteArray) : ByteArray :=
  let k := if key.size > h.blockSize then h.hash key else key
  k ++ replicate (h.blockSize - k.size) 0

/-- `H((K ⊕ opad) ‖ H((K ⊕ ipad) ‖ msg))`. -/
def mac (h : HashFunction) (key msg : ByteArray) : ByteArray :=
  let k := blockKey h key
  let inner := h.hash (xor k (replicate h.blockSize 0x36) ++ msg)
  h.hash (xor k (replicate h.blockSize 0x5c) ++ inner)

end Strongbox.Hmac

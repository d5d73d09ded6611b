import Strongbox.Cipher.Gcm
import Strongbox.Cipher.ChaCha20
import Strongbox.Cipher.Poly1305

/-!
# Authenticated ciphers

The two authenticated ciphers with associated data that the vault offers: AES-GCM, which
takes keys of 128, 192 or 256 bits, and ChaCha20-Poly1305, which takes 256-bit keys. Both
take 96-bit nonces and append a 16-byte tag. A key of the wrong size is refused before any
work is done.
-/

namespace Strongbox

open Strongbox.Bytes

/-- An authenticated cipher with associated data. -/
inductive Aead where
  | aesGcm
  | chacha20Poly1305
  deriving DecidableEq, Repr

/-- A key that the cipher cannot take. -/
inductive KeySizeError where
  | aes
  | chacha
  deriving DecidableEq, Repr

namespace KeySizeError

/-- What the cipher says of a key of the wrong size. -/
def message : KeySizeError → String
  | aes => "AESGCM key must be 128, 192, or 256 bits."
  | chacha => "ChaCha20Poly1305 key must be 32 bytes."

end KeySizeError

namespace ChaChaPoly

/-- Zero bytes that bring `n` up to a multiple of sixteen. -/
def padding (n : Nat) : ByteArray := replicate ((16 - n % 16) % 16) 0

/-- The Poly1305 tag over associated data and ciphertext, each padded, then both lengths. -/
def tag (key nonce aad c : ByteArray) : ByteArray :=
  let otk := slice (ChaCha20.block key 0 nonce) 0 32
  Poly1305.mac otk (aad ++ padding aad.size ++ c ++ padding c.size ++ ofNatLE 8 aad.size ++
    ofNatLE 8 c.size)

/-- Ciphertext, from key-stream block 1 on, followed by its tag. -/
def encrypt (key nonce plaintext aad : ByteArray) : ByteArray :=
  let c := ChaCha20.xorStream key 1 nonce plaintext
  c ++ tag key nonce aad c

/-- The plaintext of ciphertext-and-tag, or `none` when the tag does not match. -/
def decrypt? (key nonce sealed aad : ByteArray) : Option ByteArray :=
  if sealed.size < 16 then none
  else
    let c := sealed.extract 0 (sealed.size - 16)
    if equalInTime (dropBytes sealed (sealed.size - 16)) (tag key nonce aad c) then
      some (ChaCha20.xorStream key 1 nonce c)
    else none

end ChaChaPoly

namespace Aead

/-- The key is of a size the cipher takes. -/
def checkKey : Aead → ByteArray → Except KeySizeError Unit
  | aesGcm, key => if (Aes.rounds? key).isSome then .ok () else .error .aes
  | chacha20Poly1305, key => if key.size = 32 then .ok () else .error .chacha

/-- Ciphertext and tag of `plaintext` under a key already checked. -/
def encryptChecked : Aead → ByteArray → ByteArray → ByteArray → ByteArray → ByteArray
  | aesGcm, key, nonce, pt, aad =>
    match Aes.schedule? key with
    | some k => Gcm.encrypt k nonce pt aad
    | none => ByteArray.empty
  | chacha20Poly1305, key, nonce, pt, aad => ChaChaPoly.encrypt key nonce pt aad

/-- Plaintext of ciphertext-and-tag under a key already checked, `none` on a tag mismatch. -/
def decryptChecked : Aead → ByteArray → ByteArray → ByteArray → ByteArray → Option ByteArray
  | aesGcm, key, nonce, sealed, aad =>
    (Aes.schedule? key).bind fun k => Gcm.decrypt? k nonce sealed aad
  | chacha20Poly1305, key, nonce, sealed, aad => ChaChaPoly.decrypt? key nonce sealed aad

/-- Ciphertext and tag, or the key's fault. -/
def encrypt (a : Aead) (key nonce plaintext aad : ByteArray) : Except KeySizeError ByteArray :=
  return (← a.checkKey key) |> fun _ => a.encryptChecked key nonce plaintext aad

/-- Plaintext (`none` on a tag mismatch), or the key's fault. -/
def decrypt (a : Aead) (key nonce sealed aad : ByteArray) :
    Except KeySizeError (Option ByteArray) :=
  return (← a.checkKey key) |> fun _ => a.decryptChecked key nonce sealed aad

end Aead

end Strongbox

import Strongbox.Failure
import Strongbox.Entropy
import Strongbox.Encoding.Hex

/-!
# Entry ciphers

An entry is sealed with an AEAD under a 32-byte key and a fresh 12-byte nonce, and stored as
`nonce ‖ ciphertext ‖ tag`. Opening checks the length first, then the key, then the tag. Keys
are named by their key id: the first 16 hexadecimal digits of their SHA-256. Nonces come from
the entropy source, so a computation that seals is one that draws; draws made before a failure
stay made.
-/

namespace Strongbox

/-- Computations that draw random bytes and may fail. -/
abbrev Drawing := ExceptT Failure (StateM Entropy)

/-- The next `n` random bytes. -/
def drawBytes (n : Nat) : Drawing ByteArray :=
  ExceptT.lift (modifyGet fun e => e.draw n)

/-- The length of a nonce. -/
def nonceSize : Nat := 12

/-- The length of an authentication tag. -/
def tagSize : Nat := 16

/-- The key id of a key: the first 16 hexadecimal digits of its SHA-256. -/
def keyId (key : ByteArray) : String := String.ofList ((Hex.toHex (Sha256.hash key)).toList.take 16)

namespace Aead

/-- How a cipher shows itself. -/
def className : Aead → String
  | .aesGcm => "AESGCMCipher"
  | .chacha20Poly1305 => "ChaCha20Cipher"

/-- The cipher's description: its class and its name. -/
def describe (a : Aead) : String := "<" ++ a.className ++ " " ++ a.name ++ ">"

/-- The cipher an envelope names; other names are an integrity failure, and only values that
can be looked up can be names. -/
def named : Value → Except Failure Aead
  | .str t => match Aead.ofName? t.toStringLossy with
    | some a => .ok a
    | none => .error (.unknownCipher t.quoted)
  | v => match v.unhashablePart? with
    | none => .error (.unknownCipher v.literal)
    | some t => .error (.unhashable t)

/-- The cipher named by a text. -/
def ofText (name : Text) : Except Failure Aead := named (.str name)

/-- Seal a plaintext under a key with a fresh nonce: `nonce ‖ ciphertext ‖ tag`. A key of the
wrong size is refused before the nonce is drawn. -/
def encryptBlob (a : Aead) (key plaintext : ByteArray) : Drawing ByteArray := do
  match a.checkKey key with
  | .error e => throw (.keySize e)
  | .ok () =>
    let nonce ← drawBytes nonceSize
    match a.encrypt key nonce plaintext ByteArray.empty with
    | .ok sealed => pure (nonce ++ sealed)
    | .error e => throw (.keySize e)

/-- Open a sealed blob: it must hold a nonce and a tag, the key must fit the cipher, and the
tag must authenticate. -/
def decryptBlob (a : Aead) (key blob : ByteArray) : Except Failure ByteArray :=
  if blob.size < nonceSize + tagSize then .error (.blobTooShort blob.size)
  else
    match a.decrypt key (Bytes.slice blob 0 nonceSize) (Bytes.dropBytes blob nonceSize)
      ByteArray.empty with
    | .error e => .error (.badDecryptionKey e)
    | .ok none => .error .tagMismatch
    | .ok (some plaintext) => .ok plaintext

end Aead

/-- A fresh 32-byte entry key. -/
def generateEntryKey : Drawing ByteArray := drawBytes 32

end Strongbox

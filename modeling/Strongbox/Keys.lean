import Strongbox.Failure
import Strongbox.Hash.Hkdf
import Strongbox.Hash.Hmac
import Strongbox.Encoding.Hex

/-!
# Keys from a signer

A vault holds no stored secret: its master key and its encryption identity are derived from
signatures of its owner's signer over two fixed messages. The master key is
`HKDF-SHA256(sign("vault-master-v1:" ‖ scope), salt = SHA-256(scope), info = "vault-master")`;
the identity's private key is `HKDF-SHA256(sign("encryption-identity-v1"), salt =
"x25519-domain", info = "encryption-identity")`, clamped, with its X25519 public key. A signature
is bytes, or text: `0x` and hexadecimal digits stand for those bytes, other text for its UTF-8.
-/

namespace Strongbox

/-- A signing capability, as its owner lends it: the answer to each message, or the reason it
refuses. -/
structure Signer where
  sign : Text → Except String Value

namespace Keys

/-- The bytes a signature stands for: bytes as they are; `0x` or `0X` and hexadecimal digits
(ASCII blanks between pairs allowed) for those bytes; other text for its UTF-8. -/
def signatureBytes : Value → Except Failure ByteArray
  | .bytes b => .ok b
  | .str t =>
    let hexBytes := match t.points with
      | 0x30 :: x :: rest =>
        if x == 0x78 || x == 0x58 then (Text.toString? ⟨rest⟩).bind Hex.ofHexSpaced? else none
      | _ => none
    match hexBytes with
    | some b => .ok b
    | none => match t.encode? with
      | some b => .ok b
      | none => .error .surrogateText
  | v => .error (.signatureType v.typeName)

/-- The signature of a message: a refusal, an empty answer and an answer that is no signature
are all failures to derive keys. -/
def requestSignature (s : Signer) (message : Text) : Except Failure ByteArray :=
  match s.sign message with
  | .error reason => .error (.signerFailed reason)
  | .ok v =>
    if !v.truthy then .error .emptySignature
    else match signatureBytes v with
      | .error (.signatureType t) => .error (.signatureRejected t)
      | r => r

/-- The length of derived keys. -/
def keyLength : Nat := 32

/-- HKDF-SHA256 of key material; lengths beyond 255 blocks are refused. -/
def derive (ikm info : ByteArray) (salt : Option ByteArray) (length : Nat := keyLength) :
    Except Failure ByteArray :=
  match Hkdf.derive? ikm info salt length with
  | some k => .ok k
  | none => .error .derivationTooLong

/-- The message whose signature gives the master key of a scope. -/
def masterMessage (scope : Text) : Text := Text.ofString "vault-master-v1:" ++ scope

/-- The message whose signature gives the encryption identity. -/
def identityMessage : Text := Text.ofString "encryption-identity-v1"

/-- The master key of a scope from the signature of its message; the scope must be Unicode
text, as its UTF-8 is hashed. -/
def masterKeyOf (signature : ByteArray) (scope : Text) : Except Failure ByteArray :=
  match scope.encode? with
  | some b =>
    .ok ((Hkdf.derive? signature "vault-master".toUTF8 (some (Sha256.hash b)) keyLength).getD
      ByteArray.empty)
  | none => .error .surrogateText

/-- A 32-byte seed made an X25519 scalar. -/
def clamp (seed : ByteArray) : Except Failure ByteArray :=
  if seed.size = keyLength then .ok (X25519.clamp seed) else .error (.seedSize seed.size)

/-- An X25519 key pair that receives grants. -/
structure Identity where
  publicKey : ByteArray
  privateKey : ByteArray

/-- The identity from the signature of its message. -/
def identityOf (signature : ByteArray) : Identity :=
  let seed := (Hkdf.derive? signature "encryption-identity".toUTF8
    (some "x25519-domain".toUTF8) keyLength).getD ByteArray.empty
  let priv := X25519.clamp seed
  ⟨X25519.publicKey priv, priv⟩

/-- The master key of a scope, asking the signer. -/
def deriveMasterKey (s : Signer) (scope : Text) : Except Failure ByteArray :=
  requestSignature s (masterMessage scope) >>= (masterKeyOf · scope)

/-- The encryption identity, asking the signer. -/
def deriveIdentity (s : Signer) : Except Failure Identity :=
  (requestSignature s identityMessage).map identityOf

end Keys

/-- A key buffer that can be wiped: after wiping it holds as many zero bytes. -/
structure SecretBytes where
  bytes : ByteArray

namespace SecretBytes

/-- The buffer with every byte zero. -/
def wipe (s : SecretBytes) : SecretBytes := ⟨Bytes.replicate s.bytes.size 0⟩

/-- Whether every byte is zero. -/
def wiped (s : SecretBytes) : Bool := Bytes.allZero s.bytes

/-- How a buffer shows itself: its length and never its bytes. -/
def describe (s : SecretBytes) : String := "<SecretBytes len=" ++ toString s.bytes.size ++ ">"

end SecretBytes

end Strongbox

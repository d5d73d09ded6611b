import Strongbox.Principal
import Strongbox.Entry.Name
import Strongbox.Settings
import Strongbox.Curve.X25519
import Strongbox.Codec.Compact
import Strongbox.Value.Access

/-!
# Failures

Every way an operation of the library can fail, one constructor per cause, each with what its
message quotes. A failure belongs to a kind, on which callers branch; the message is for
people. Diagnostics of the parsers underneath (JSON, base64, UTF-8) are not part of a message:
where one would stand, the message reads `<detail>`.
-/

namespace Strongbox

/-- What a failure is about. -/
inductive FailureKind where
  /-- The vault holds no keys. -/
  | locked
  /-- Keys could not be derived from the signer; the vault stays locked. -/
  | keyDerivation
  /-- A ciphertext does not open. -/
  | decryption
  /-- Stored records are malformed or disagree. -/
  | integrity
  | keyNotFound
  | grantNotFound
  | publicKeyNotFound
  /-- The store failed. -/
  | storage
  /-- An identifier names no principal or space. -/
  | principal
  /-- A value of the right type is out of its range. -/
  | invalidValue
  /-- A value has a type the operation does not take. -/
  | wrongType
  /-- An operation could not go on for a reason of its surroundings. -/
  | runtime
  | undecodableText
  | unencodableText
  | malformedJson
  | malformedBase64
  | invalidSettings
  /-- Decoding the content would run stored data. -/
  | unsafeContent
  /-- A name that names nothing. -/
  | unknownName
  /-- A value nests without end, so it cannot be written out. -/
  | recursion
  /-- A value lacks an operation asked of it. -/
  | missingAttribute
  /-- A position lies beyond a sequence. -/
  | indexOutOfRange
  /-- The operating system refused a request. -/
  | system
  deriving DecidableEq, Repr

/-- Why an operation failed. -/
inductive Failure where
  | locked
  | signerFailed (reason : String)
  | emptySignature
  | signatureRejected (typeName : String)
  | blobTooShort (size : Nat)
  | badDecryptionKey (e : KeySizeError)
  | tagMismatch
  | grantTooShort (size : Nat)
  | badGrantExchange (e : X25519.ExchangeError)
  | badEncoding
  | unknownCipher (literal : String)
  | malformedRecord
  | recordNotObject
  | invalidRecord (model : String) (count : Nat)
  | keyIdMismatch (recorded : Text)
  | envelopeMismatch (envelopeKeyId : Option Text) (blobKeyId key : Text)
  | undecodable (contentType : Text) (cause : Failure)
  | injectedIntegrity
  | keyNotFound (key : Text)
  | grantNotFound (grantor key : Text)
  | publicKeyNotFound (did : Text) (reason : Option Text)
  /-- The store refused a call; the only cause a store gives is an injected fault. -/
  | storage (operation : String) (path : Text)
  | principal (e : PrincipalError)
  | keySize (e : KeySizeError)
  | exchange (e : X25519.ExchangeError)
  | noSerializer (literal : String)
  | recipientKeySize (size : Nat)
  | dotSegment (literal : String)
  | badName (e : NameError)
  | seedSize (size : Nat)
  | notFloat (literal : String)
  | derivationTooLong
  | nonAsciiBase64
  | unsafeContent
  | unencodable (e : CompactJson.EncodeError)
  | storedValueType (typeName : String)
  | signatureType (typeName : String)
  | binaryValueType (typeName : String)
  | base64Argument (typeName : String)
  | patternArgument (typeName : String)
  | textPatternOnBytes
  | unhashable (typeName : String)
  | spaceUnset
  /-- Typed JSON that does not read back: a parser's diagnostic when `message` is none. -/
  | typedJson (message : Option String)
  /-- A value read back holds itself. -/
  | cyclicValue
  | notUtf8
  | surrogateText
  | jsonSyntax
  | badBase64
  | invalidSettings (issues : List Settings.FieldIssue)
  | publicKeySize
  | unknownVault (name : String)
  /-- An item of a value could not be read, set or removed. -/
  | access (e : AccessError)
  /-- A variable could not be set in the environment. -/
  | unsettableVariable (e : Settings.VariableError)
  /-- Text makes no buffer without an encoding. -/
  | bufferOfText
  | negativeCount
  | notByteIndex (typeName : String)
  | byteOutOfRange
  | notBuffer (typeName : String)

namespace Failure

/-- The text that stands for a parser's diagnostic. -/
def detail : String := "<detail>"

/-- The shortest sealed blob: a nonce and a tag. -/
def minimumBlob : Nat := 28

/-- The shortest grant: an ephemeral key, a nonce and a tag. -/
def minimumGrant : Nat := 60

/-- The kind of a failure. -/
def kind : Failure → FailureKind
  | locked => .locked
  | signerFailed _ | emptySignature | signatureRejected _ => .keyDerivation
  | blobTooShort _ | badDecryptionKey _ | tagMismatch | grantTooShort _ | badGrantExchange _
  | badEncoding => .decryption
  | unknownCipher _ | malformedRecord | recordNotObject | invalidRecord _ _ | keyIdMismatch _
  | envelopeMismatch _ _ _ | undecodable _ _ | injectedIntegrity => .integrity
  | keyNotFound _ => .keyNotFound
  | grantNotFound _ _ => .grantNotFound
  | publicKeyNotFound _ _ => .publicKeyNotFound
  | storage _ _ => .storage
  | principal _ => .principal
  | keySize _ | exchange _ | noSerializer _ | recipientKeySize _ | dotSegment _ | badName _
  | seedSize _ | notFloat _ | derivationTooLong | nonAsciiBase64 => .invalidValue
  | unsafeContent => .unsafeContent
  | unencodable _ | storedValueType _ | signatureType _ | binaryValueType _ | base64Argument _
  | patternArgument _ | textPatternOnBytes | unhashable _ => .wrongType
  | spaceUnset | typedJson _ => .runtime
  | cyclicValue => .recursion
  | notUtf8 => .undecodableText
  | surrogateText => .unencodableText
  | jsonSyntax => .malformedJson
  | badBase64 => .malformedBase64
  | invalidSettings _ => .invalidSettings
  | publicKeySize => .invalidValue
  | unknownVault _ => .unknownName
  | access e => match e with
    | .missingKey _ => .unknownName
    | .noRemoval _ => .missingAttribute
    | .byteIndex => .indexOutOfRange
    | .byteRange => .invalidValue
    | .sequenceIndex _ | .textIndex | .notSubscriptable _ | .noItemAssignment _
    | .removalArguments => .wrongType
  | unsettableVariable e => match e with
    | .unencodable => .unencodableText
    | .nullByte | .illegalName => .invalidValue
    | .emptyName => .system
  | bufferOfText | notByteIndex _ | notBuffer _ => .wrongType
  | negativeCount | byteOutOfRange => .invalidValue

/-- What a failure says. -/
def message : Failure → Text
  | locked => Text.ofString "Vault is locked. Call unlock() first."
  | signerFailed reason => Text.ofString ("Signer failed: " ++ reason)
  | emptySignature => Text.ofString "Signer returned an empty signature"
  | signatureRejected t => Text.ofString ("Unsupported signature type: " ++ t)
  | blobTooShort n =>
    Text.ofString ("Encrypted blob too short: " ++ toString n ++ " bytes (minimum " ++
      toString minimumBlob ++ ")")
  | badDecryptionKey e => Text.ofString ("Invalid decryption key: " ++ e.message)
  | tagMismatch => Text.ofString "Authentication tag mismatch (tampered data or wrong key)"
  | grantTooShort n =>
    Text.ofString ("Grant blob too short: " ++ toString n ++ " bytes (minimum " ++
      toString minimumGrant ++ ")")
  | badGrantExchange e => Text.ofString ("Invalid grant key exchange: " ++ e.message)
  | badEncoding => Text.ofString ("Malformed ciphertext encoding: " ++ detail)
  | unknownCipher literal => Text.ofString ("Unsupported vault cipher: " ++ literal)
  | malformedRecord => Text.ofString ("Malformed vault record: " ++ detail)
  | recordNotObject => Text.ofString "Malformed vault record: expected a JSON object"
  | invalidRecord model n =>
    Text.ofString ("Malformed " ++ model ++ ": " ++ toString n ++ " invalid field(s)")
  | keyIdMismatch recorded =>
    Text.ofString "Key blob keyId mismatch (recorded " ++ recorded ++ Text.ofString ")"
  | envelopeMismatch e b key =>
    Text.ofString "Envelope keyId " ++ e.getD (Text.ofString "None") ++
      Text.ofString " does not match key blob " ++ b ++ Text.ofString " for " ++ key
  | undecodable ct cause =>
    Text.ofString "Cannot deserialize " ++ ct ++ Text.ofString " value: " ++ cause.message
  | injectedIntegrity => Text.ofString "injected integrity fault"
  | keyNotFound key => Text.ofString "Vault key not found: " ++ key
  | grantNotFound grantor key =>
    Text.ofString "No grant from " ++ grantor ++ Text.ofString " for key " ++ key
  | publicKeyNotFound did reason =>
    Text.ofString "Vault public key not found for " ++ did ++
      (match reason with
       | some r => if r.isEmpty then Text.ofString "" else Text.ofString ": " ++ r
       | none => Text.ofString "")
  | storage op path =>
    let place := (Text.ofString (op ++ " ") ++ path).trim
    (if place.isEmpty then Text.ofString "Storage failed: "
      else Text.ofString "Storage " ++ place ++ Text.ofString " failed: ") ++
      Text.ofString "RuntimeError('injected fault')"
  | principal e => Text.ofString e.message
  | keySize e => Text.ofString e.message
  | exchange e => Text.ofString e.message
  | noSerializer literal =>
    Text.ofString ("No serializer for content type " ++ literal ++ "; pass a custom serializer")
  | recipientKeySize n =>
    Text.ofString ("Recipient public key must be 32 bytes, got " ++ toString n)
  | dotSegment literal => Text.ofString ("Storage path cannot contain dot segments: " ++ literal)
  | badName e => Text.ofString e.message
  | seedSize n => Text.ofString ("X25519 seed must be 32 bytes, got " ++ toString n)
  | notFloat literal => Text.ofString ("could not convert string to float: " ++ literal)
  | derivationTooLong => Text.ofString "Cannot derive keys larger than 8160 octets."
  | nonAsciiBase64 => Text.ofString detail
  | unsafeContent =>
    Text.ofString "Refusing to decode application/x-jsonpickle without allow_pickle"
  | unencodable e => Text.ofString e.message
  | storedValueType t => Text.ofString ("Storage values must be str or bytes, got " ++ t)
  | signatureType t => Text.ofString ("Unsupported signature type: " ++ t)
  | binaryValueType t =>
    Text.ofString ("application/octet-stream values must be bytes, got " ++ t)
  | base64Argument t =>
    Text.ofString ("argument should be a bytes-like object or ASCII string, not '" ++ t ++ "'")
  | patternArgument t => Text.ofString ("expected string or bytes-like object, got '" ++ t ++ "'")
  | textPatternOnBytes => Text.ofString "cannot use a string pattern on a bytes-like object"
  | unhashable t => Text.ofString ("unhashable type: '" ++ t ++ "'")
  | spaceUnset => Text.ofString "VAULT_SPACE_ID environment variable is not set"
  | typedJson message => Text.ofString (message.getD detail)
  | cyclicValue =>
    Text.ofString "maximum recursion depth exceeded while calling a Python object"
  | notUtf8 | surrogateText | jsonSyntax | badBase64 => Text.ofString detail
  | invalidSettings issues =>
    Text.ofString (toString issues.length ++ " validation error(s) for VaultConfig")
  | publicKeySize => Text.ofString "Public key must be 32 bytes"
  | unknownVault name => Text.ofString (Text.quotedString name)
  | access e => Text.ofString e.message
  | unsettableVariable e => Text.ofString (match e with
    | .unencodable => detail
    | .nullByte => "embedded null byte"
    | .illegalName => "illegal environment variable name"
    | .emptyName => "[Errno 22] Invalid argument")
  | bufferOfText => Text.ofString "string argument without an encoding"
  | negativeCount => Text.ofString "negative count"
  | notByteIndex t => Text.ofString ("'" ++ t ++ "' object cannot be interpreted as an integer")
  | byteOutOfRange => Text.ofString "bytes must be in range(0, 256)"
  | notBuffer t => Text.ofString ("cannot convert '" ++ t ++ "' object to bytes")

/-- Failures of the vault itself, as opposed to failures of its inputs or surroundings. -/
def isVaultFailure (f : Failure) : Bool :=
  match f.kind with
  | .locked | .keyDerivation | .decryption | .integrity | .keyNotFound | .grantNotFound
  | .publicKeyNotFound | .storage => true
  | _ => false

/-- Failures that say a value was out of range, including the malformed-input kinds. -/
def isInvalidValue (f : Failure) : Bool :=
  match f.kind with
  | .invalidValue | .principal | .unsafeContent | .undecodableText | .unencodableText
  | .malformedJson | .malformedBase64 | .invalidSettings => true
  | _ => false

/-- The failure of reading settings from fields: the issues, or the text that is not Unicode
in the message of one. -/
def ofRejection : Settings.Rejection → Failure
  | .invalid issues => invalidSettings issues
  | .unreportable => surrogateText

/-- The failure of reading settings from the environment. -/
def ofEnvironment : Settings.EnvironmentError → Failure
  | .spaceUnset => spaceUnset
  | .badTimeout t => notFloat t.quoted
  | .rejected r => ofRejection r
  | .unsettable e => unsettableVariable e

end Failure

end Strongbox

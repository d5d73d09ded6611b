import Strongbox.Answer
import Strongbox.Answer.Records
import Strongbox.Bytes
import Strongbox.Cipher.Aead
import Strongbox.Cipher.Aes
import Strongbox.Cipher.ChaCha20
import Strongbox.Cipher.Gcm
import Strongbox.Cipher.Poly1305
import Strongbox.Codec.Compact
import Strongbox.Codec.Typed
import Strongbox.Codec.Typed.Heap
import Strongbox.Codec.Typed.Read
import Strongbox.Codec.Typed.Stack
import Strongbox.Command
import Strongbox.Content
import Strongbox.Curve.X25519
import Strongbox.Encoding.Base64
import Strongbox.Encoding.Base85
import Strongbox.Encoding.Hex
import Strongbox.Entropy
import Strongbox.Entry.Cipher
import Strongbox.Entry.Name
import Strongbox.Entry.Record
import Strongbox.Failure
import Strongbox.Grant
import Strongbox.Hash.Hkdf
import Strongbox.Hash.Hmac
import Strongbox.Hash.Sha256
import Strongbox.Hash.Sha512
import Strongbox.Hash.SipHash
import Strongbox.Json.Basic
import Strongbox.Json.Reader
import Strongbox.Json.Writer
import Strongbox.Keys
import Strongbox.Number.Binary64
import Strongbox.Number.Notation
import Strongbox.Number.Reading
import Strongbox.Number.Shortest
import Strongbox.Principal
import Strongbox.Proofs.Bytes
import Strongbox.Proofs.Ciphers
import Strongbox.Proofs.Encoding
import Strongbox.Proofs.Records
import Strongbox.Proofs.Store
import Strongbox.Proofs.Runs
import Strongbox.Proofs.Layout
import Strongbox.Proofs.Frame
import Strongbox.Proofs.Entries
import Strongbox.Proofs.Consistency
import Strongbox.Remote
import Strongbox.Scenario.Signers
import Strongbox.Scenario.Storage
import Strongbox.Scenario.Vaults
import Strongbox.Settings
import Strongbox.Store
import Strongbox.Text.Basic
import Strongbox.Text.Blank
import Strongbox.Text.Cased
import Strongbox.Text.Digit
import Strongbox.Text.Escaped
import Strongbox.Text.Lower
import Strongbox.Text.Printable
import Strongbox.Text.Ranges
import Strongbox.Value.Access
import Strongbox.Value.Basic
import Strongbox.Value.HashSet
import Strongbox.Value.Literal
import Strongbox.Value.Tagged
import Strongbox.Vault.Basic
import Strongbox.Vault.Directory
import Strongbox.Vault.Entries
import Strongbox.Vault.Sharing
import Strongbox.Proofs.Grants
import Strongbox.Proofs.Effects
import Strongbox.Proofs.LockState
import Strongbox.Proofs.FailedWrites
import Strongbox.Proofs.ReadFailures
import Strongbox.Proofs.Interleaving
import Strongbox.Proofs.ConcurrentReads
import Strongbox.Proofs.Reads
import Strongbox.Proofs.Rotation
import Strongbox.Proofs.Directory
import Strongbox.Proofs.GrantFolder
import Strongbox.Proofs.Resealing
import Strongbox.Proofs.Wrapping
import Strongbox.Proofs.Progress
import Strongbox.Proofs.Revocation
import Strongbox.Proofs.ConcurrentRevokes
import Strongbox.Proofs.Signatures
import Strongbox.Proofs.RotatedHeaders
import Strongbox.Proofs.ShareFrame
import Strongbox.Proofs.Resharing
import Strongbox.Proofs.ShareKeeping
import Strongbox.Proofs.SealedValues
import Strongbox.Proofs.GrantListing
import Strongbox.Proofs.Utf8
import Strongbox.Proofs.Addresses
import Strongbox.Proofs.Identifiers
import Strongbox.Proofs.RecordJson
import Strongbox.Proofs.SharedDirectory
import Strongbox.Proofs.FloatBits
import Strongbox.Proofs.Rounding
import Strongbox.Proofs.DecimalReading
import Strongbox.Proofs.Documents
import Strongbox.Proofs.Formats
import Strongbox.Proofs.SharedReads

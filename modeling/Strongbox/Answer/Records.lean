import Strongbox.Answer
import Strongbox.Grant
import Strongbox.Keys

/-!
# Records as answers

How answers present the records of the library: key blobs, envelopes, grant records,
principals, identities and settings, each as named parts.
-/

namespace Strongbox

namespace Answer

/-- A key blob: its JSON, key id and cipher; a blob without JSON text fails. -/
def ofKeyBlob (b : KeyBlob) : Except Failure Answer := do
  let json ← b.toJson
  pure (.fields [("json", .text json), ("key_id", .text b.keyId), ("cipher", .text b.cipher)])

/-- An envelope: its JSON, key id, cipher, content type and the caller's headers; an envelope
without JSON text fails. -/
def ofEnvelope (e : Envelope) : Except Failure Answer := do
  let json ← e.toJson
  pure (.fields [("json", .text json), ("key_id", .text? e.keyId?), ("cipher", .text e.cipher),
    ("content_type", .text e.contentType), ("custom_metadata", .value e.customMetadata.toValue)])

/-- A grant record: its JSON, space, grantor, and its blob or why the blob does not decode; a
record without JSON text fails. -/
def ofGrant (g : GrantRecord) : Except Failure Answer := do
  let json ← g.toJson
  pure (.fields [("json", .text json), ("space_id", .text g.spaceId),
    ("grantor", .text? g.grantor?), ("blob", Answer.ofExcept (g.blob.map .bytes))])

/-- A principal: its parts, identifier and the ids of its two spaces. -/
def ofPrincipal (p : Principal) : Answer :=
  .fields [("namespace", .text p.chainNamespace), ("chain_id", .text p.chainId),
    ("address", .text p.address), ("did", .text p.did), ("str", .text p.did),
    ("default_space_id", .text p.defaultSpaceId), ("public_space_id", .text p.publicSpaceId)]

/-- An identity: its public and private keys. -/
def ofIdentity (i : Keys.Identity) : Answer :=
  .fields [("public_key", .bytes i.publicKey), ("private_key", .bytes i.privateKey)]

/-- Settings as named fields. -/
def ofSettings (s : Settings) : Answer := .value s.summary

end Answer

end Strongbox

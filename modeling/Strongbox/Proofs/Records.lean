import Strongbox.Proofs.Encoding
import Strongbox.Proofs.Ciphers
import Strongbox.Grant
import Mathlib.Data.List.Nodup

/-!
# Records read back, keys unwrap, values open

Everything the vault stores is a record written as compact JSON: key blobs, envelopes and grant
records. The JSON text of a record reads as its object (`KeyBlob.layout` and its siblings), and
the record is loaded back from it as itself, as long as its headers have distinct names; headers
built by `Headers.insert` always do. A key blob made by `wrap`
unwraps to its entry key, and an envelope made by `sealValue` opens to its plaintext and names the
key id, cipher and content type it was sealed with.
-/

namespace Strongbox

/-! ## Texts of strings -/

theorem Text.ofString_injective : Function.Injective Text.ofString := by
  intro a b h
  simp only [Text.ofString, Text.mk.injEq] at h
  exact String.toList_injective (List.map_injective_iff.mpr
    (fun x y hxy => by simpa using congrArg Char.ofNat hxy) h)

@[simp] theorem Text.ofString_inj {a b : String} : Text.ofString a = Text.ofString b ↔ a = b :=
  Text.ofString_injective.eq_iff

@[simp] theorem Text.ofString_beq (a b : String) :
    (Text.ofString a == Text.ofString b) = (a == b) := by
  by_cases h : a = b
  · simp [h]
  · simp [h, Text.ofString_injective.ne h]

theorem Value.equiv_str (a b : Text) : Value.equiv (.str a) (.str b) = (a == b) := by
  simp [Value.equiv]

/-! ## Headers -/

namespace Headers

theorem lookup_replace (h : Headers) (k v k' : Text) :
    (h.map fun e => if e.1 == k then (k, v) else e).lookup k' =
      if k' = k then (if h.any (·.1 == k) then some v else none) else h.lookup k' := by
  induction h with
  | nil => simp
  | cons e h ih =>
    obtain ⟨a, b⟩ := e
    simp only [List.map_cons, List.any_cons]
    by_cases hak : a = k <;> by_cases hk' : k' = k <;> grind

@[simp] theorem lookup_insert (h : Headers) (k v k' : Text) :
    (h.insert k v).lookup k' = if k' = k then some v else h.lookup k' := by
  unfold insert
  split
  · rename_i hany
    rw [lookup_replace]
    simp [hany]
  · -- a new name goes last, and no earlier field has it
    rw [List.lookup_append]
    grind

theorem names_replace (h : Headers) (k v : Text) :
    (h.map fun e => if e.1 == k then (k, v) else e).map Prod.fst = h.map Prod.fst := by
  induction h with
  | nil => rfl
  | cons e h ih =>
    obtain ⟨a, b⟩ := e
    by_cases hak : a = k <;> simp_all

/-- Inserting keeps names distinct. -/
theorem nodup_insert {h : Headers} (hnd : (h.map Prod.fst).Nodup) (k v : Text) :
    ((h.insert k v).map Prod.fst).Nodup := by
  unfold insert
  split
  · rwa [names_replace]
  · rename_i hany
    rw [List.map_append, List.nodup_append]
    refine ⟨hnd, by simp, ?_⟩
    simp only [List.map_cons, List.map_nil, List.mem_singleton]
    rintro a ha b rfl rfl
    simp only [List.any_eq_true, beq_iff_eq, not_exists, not_and] at hany
    obtain ⟨⟨a', b'⟩, hmem, rfl⟩ := List.mem_map.mp ha
    exact hany _ hmem rfl

theorem mem_insert {h : Headers} {k v : Text} {p : Text × Text} (hp : p ∈ h.insert k v) :
    p ∈ h ∨ p = (k, v) := by
  unfold insert at hp
  split at hp
  · obtain ⟨e, he, rfl⟩ := List.mem_map.mp hp
    split
    · exact .inr rfl
    · exact .inl he
  · simpa using hp

theorem nodup_ofValues (entries : List (Value × Value)) :
    ((ofValues entries).map Prod.fst).Nodup := by
  unfold ofValues
  suffices ∀ h : Headers, (h.map Prod.fst).Nodup →
      ((entries.foldl (fun h e => h.insert e.1.display e.2.display) h).map Prod.fst).Nodup from
    this [] List.nodup_nil
  induction entries with
  | nil => intro h hnd; exact hnd
  | cons e entries ih => intro h hnd; exact ih _ (nodup_insert hnd _ _)

end Headers

end Strongbox

namespace Strongbox

/-! ## Which records have JSON -/

/-- Every name and value of the headers is a string. -/
def Headers.AllStrings (h : Headers) : Prop := ∀ p ∈ h, p.1.IsString ∧ p.2.IsString

namespace Json

open Writer

theorem quote_compact_of_isString {t : Text} (ht : t.IsString) :
    quote CompactJson.style t =
      .ok (String.ofList ('"' :: t.points.flatMap (escapePoint false) ++ ['"'])) := by
  have hno : t.points.any (fun c => Text.isSurrogate c || 0x110000 ≤ c) = false := by
    simp only [List.any_eq_false, Bool.or_eq_true, decide_eq_true_eq, not_or]
    intro c hc
    exact ⟨by simp [(ht c hc).1], by have := (ht c hc).2; omega⟩
  simp [quote, CompactJson.style, hno]

theorem quote_compact_ok_iff {t : Text} :
    (∃ s, quote CompactJson.style t = .ok s) ↔ t.IsString := by
  constructor
  · rintro ⟨s, hs⟩
    exact (quote_compact hs).1
  · intro ht
    exact ⟨_, quote_compact_of_isString ht⟩

theorem write_str (t : Text) : write CompactJson.style (.str t) = quote CompactJson.style t := by
  simp [write]

theorem write_obj (fs : List (Text × Json)) :
    write CompactJson.style (.obj fs) =
      (fun body => "\x7b" ++ body ++ "\x7d") <$> writeFields CompactJson.style fs := by
  rw [write]
  cases writeFields CompactJson.style fs <;> rfl

/-- Headers are written exactly when every name and value is a string. -/
theorem writeFields_headers_ok_iff (h : Headers) :
    (∃ s, writeFields CompactJson.style (h.map fun e => (e.1, .str e.2)) = .ok s) ↔
      Headers.AllStrings h := by
  induction h with
  | nil => simp [writeFields, Headers.AllStrings]
  | cons e h ih =>
    obtain ⟨k, v⟩ := e
    have hcons : Headers.AllStrings ((k, v) :: h) ↔
        k.IsString ∧ v.IsString ∧ Headers.AllStrings h := by
      simp [Headers.AllStrings, and_assoc]
    rw [hcons, ← ih, ← quote_compact_ok_iff, ← quote_compact_ok_iff (t := v)]
    cases h with
    | nil =>
      cases hk : quote CompactJson.style k <;> cases hv : quote CompactJson.style v <;>
        simp [writeFields, write_str, hk, hv]
    | cons f h =>
      cases hk : quote CompactJson.style k <;> cases hv : quote CompactJson.style v <;>
        cases hr : writeFields CompactJson.style ((f :: h).map fun e => (e.1, .str e.2)) <;>
        simp_all [writeFields, write_str]

end Json

open Json Writer in
theorem Envelope.toJson_ok_iff (e : Envelope) :
    (∃ s, e.toJson = .ok s) ↔ e.data.IsString ∧ Headers.AllStrings e.metadata := by
  rw [← quote_compact_ok_iff, ← writeFields_headers_ok_iff]
  cases hd : quote CompactJson.style e.data <;>
    cases hm : writeFields CompactJson.style (e.metadata.map fun p => (p.1, .str p.2)) <;>
    simp [Envelope.toJson, CompactJson.write, writeWith, Json.record, writeFields, write_str,
      write_obj, Headers.toJson, Except.mapError, hd, hm, quote_compact_of_isString,
      Text.isString_ofString]

open Json Writer in
theorem GrantRecord.toJson_ok_iff (g : GrantRecord) :
    (∃ s, g.toJson = .ok s) ↔
      g.grant.IsString ∧ g.spaceId.IsString ∧ Headers.AllStrings g.metadata := by
  rw [← quote_compact_ok_iff, ← quote_compact_ok_iff (t := g.spaceId),
    ← writeFields_headers_ok_iff]
  cases hg : quote CompactJson.style g.grant <;> cases hs : quote CompactJson.style g.spaceId <;>
    cases hm : writeFields CompactJson.style (g.metadata.map fun p => (p.1, .str p.2)) <;>
    simp [GrantRecord.toJson, CompactJson.write, writeWith, Json.record, writeFields, write_str,
      write_obj, Headers.toJson, Except.mapError, hg, hs, hm, quote_compact_of_isString,
      Text.isString_ofString]

open Json Writer in
theorem KeyBlob.toJson_ok {b : KeyBlob} (hk : b.key.IsString) (hi : b.keyId.IsString)
    (hc : b.cipher.IsString) : ∃ s, b.toJson = .ok s := by
  simp [KeyBlob.toJson, CompactJson.write, writeWith, Json.record, writeFields, write_str,
    write_obj, Except.mapError, quote_compact_of_isString, Text.isString_ofString, hk, hi, hc]

/-! ## Records read back -/

theorem Json.textual_record {h : Nat} {fields : List (String × Json)}
    (hnd : (fields.map Prod.fst).Nodup) (hv : ∀ f ∈ fields, Json.Textual h f.2) :
    Json.Textual (h + 1) (Json.record fields) := by
  refine .obj ?_ ?_
  · simpa [Json.record, List.map_map, Function.comp_def] using
      List.Nodup.map Text.ofString_injective hnd
  · simp only [List.mem_map]
    rintro _ ⟨f, hf, rfl⟩
    exact hv f hf

theorem Headers.textual_toJson {h : Headers} (hnd : (h.map Prod.fst).Nodup) :
    Json.Textual 1 h.toJson := by
  refine .obj (by simpa [Function.comp_def] using hnd) ?_
  simp only [List.mem_map]
  rintro _ ⟨p, -, rfl⟩
  exact .str

theorem CompactJson.ofJsonFields_map (fs : List (Text × Json)) :
    ofJsonFields fs = fs.map fun f => (.str f.1, ofJson f.2) := by
  induction fs with
  | nil => rfl
  | cons f fs ih => simp [ofJsonFields, ih]

theorem Headers.headersField_toValue (h : Headers) :
    Record.headersField (some h.toValue) = .ok h := by
  simp [Headers.toValue, Record.headersField, List.foldl_map, List.filterMap_map]

end Strongbox

namespace Strongbox

/-- The object a key blob's JSON holds: the sealed key, then its key id and cipher. -/
def KeyBlob.layout (b : KeyBlob) : Value :=
  .dict [(Value.ofString "key", .str b.key), (Value.ofString "metadata",
    .dict [(Value.ofString "keyId", .str b.keyId), (Value.ofString "cipher", .str b.cipher)])]

/-- The object an envelope's JSON holds: the sealed value, then the headers in order. -/
def Envelope.layout (e : Envelope) : Value :=
  .dict [(Value.ofString "data", .str e.data), (Value.ofString "metadata", e.metadata.toValue)]

/-- The object a grant record's JSON holds: the grant, the owner's space, then the headers. -/
def GrantRecord.layout (g : GrantRecord) : Value :=
  .dict [(Value.ofString "grant", .str g.grant), (Value.ofString "spaceId", .str g.spaceId),
    (Value.ofString "metadata", g.metadata.toValue)]

theorem CompactJson.ofJson_headers (h : Headers) : CompactJson.ofJson h.toJson = h.toValue := by
  simp [Headers.toJson, Headers.toValue, CompactJson.ofJson, CompactJson.ofJsonFields_map]

/-- The JSON of a key blob reads as its object. -/
theorem KeyBlob.decodeText_toJson {b : KeyBlob} {s : String} (hw : b.toJson = .ok s) :
    CompactJson.decodeText (Text.ofString s) = .ok b.layout := by
  have htext : Json.Textual 2 (Json.record [("key", .str b.key),
      ("metadata", Json.record [("keyId", .str b.keyId), ("cipher", .str b.cipher)])]) := by
    refine Json.textual_record (by simp) ?_
    simp only [List.mem_cons, List.mem_nil_iff, or_false]
    rintro f (rfl | rfl)
    · exact .str
    · exact Json.textual_record (by simp) (by simp [Json.Textual.str])
  rw [CompactJson.decodeText_write htext (by omega) hw]
  simp [KeyBlob.layout, Json.record, CompactJson.ofJson, CompactJson.ofJsonFields_map,
    Value.ofString]

/-- The JSON of an envelope with distinct header names reads as its object. -/
theorem Envelope.decodeText_toJson {e : Envelope} (hnd : (e.metadata.map Prod.fst).Nodup)
    {s : String} (hw : e.toJson = .ok s) :
    CompactJson.decodeText (Text.ofString s) = .ok e.layout := by
  have htext : Json.Textual 2 (Json.record [("data", .str e.data),
      ("metadata", e.metadata.toJson)]) := by
    refine Json.textual_record (by simp) ?_
    simp only [List.mem_cons, List.mem_nil_iff, or_false]
    rintro f (rfl | rfl)
    · exact .str
    · exact Headers.textual_toJson hnd
  rw [CompactJson.decodeText_write htext (by omega) hw]
  simp [Envelope.layout, Json.record, CompactJson.ofJson, CompactJson.ofJsonFields_map,
    CompactJson.ofJson_headers, Value.ofString]

/-- The JSON of a grant record with distinct header names reads as its object. -/
theorem GrantRecord.decodeText_toJson {g : GrantRecord} (hnd : (g.metadata.map Prod.fst).Nodup)
    {s : String} (hw : g.toJson = .ok s) :
    CompactJson.decodeText (Text.ofString s) = .ok g.layout := by
  have htext : Json.Textual 2 (Json.record [("grant", .str g.grant), ("spaceId", .str g.spaceId),
      ("metadata", g.metadata.toJson)]) := by
    refine Json.textual_record (by simp) ?_
    simp only [List.mem_cons, List.mem_nil_iff, or_false]
    rintro f (rfl | rfl | rfl)
    · exact .str
    · exact .str
    · exact Headers.textual_toJson hnd
  rw [CompactJson.decodeText_write htext (by omega) hw]
  simp [GrantRecord.layout, Json.record, CompactJson.ofJson, CompactJson.ofJsonFields_map,
    CompactJson.ofJson_headers, Value.ofString]

end Strongbox

namespace Strongbox

theorem KeyBlob.load_toJson {b : KeyBlob} {s : String} (hw : b.toJson = .ok s) :
    KeyBlob.load (Value.ofString s) = .ok b := by
  rw [KeyBlob.load, Value.ofString, Record.load, KeyBlob.decodeText_toJson hw]
  simp [Record.load.ofRead, KeyBlob.layout, KeyBlob.ofRecord, Record.field?, Value.ofString,
    Record.textField, Value.lookup, Value.equiv_str]

/-- An envelope with distinct header names is read back from its JSON. -/
theorem Envelope.load_toJson {e : Envelope} (hnd : (e.metadata.map Prod.fst).Nodup) {s : String}
    (hw : e.toJson = .ok s) : Envelope.load (Value.ofString s) = .ok e := by
  rw [Envelope.load, Value.ofString, Record.load, Envelope.decodeText_toJson hnd hw]
  simp [Record.load.ofRead, Envelope.layout, Envelope.ofRecord, Record.field?, Value.ofString,
    Record.textField, Value.lookup, Value.equiv_str, Headers.headersField_toValue]

/-- A grant record with distinct header names is read back from its JSON. -/
theorem GrantRecord.load_toJson {g : GrantRecord} (hnd : (g.metadata.map Prod.fst).Nodup)
    {s : String} (hw : g.toJson = .ok s) : GrantRecord.load (Value.ofString s) = .ok g := by
  rw [GrantRecord.load, Value.ofString, Record.load, GrantRecord.decodeText_toJson hnd hw]
  simp [Record.load.ofRead, GrantRecord.layout, GrantRecord.ofRecord, Record.field?,
    Value.ofString, Record.textField, Value.lookup, Value.equiv_str, Headers.headersField_toValue]

end Strongbox

namespace Strongbox

/-! ## Keys unwrap, values open -/

theorem decodeSealed_encode (b : ByteArray) :
    decodeSealed (Text.ofString (Base64.encode b)) = .ok b := by
  simp [decodeSealed, Base64.decodePoints_encode, Except.mapError]

theorem Text.toStringLossy_ofString (s : String) : (Text.ofString s).toStringLossy = s := by
  have hchar : ((fun c => if Text.isSurrogate c then '�' else Char.ofNat c) ∘ Char.toNat) = id :=
    funext fun ch => by simp [Text.isSurrogate_toNat]
  simp only [Text.toStringLossy, Text.ofString, List.map_map, hchar, List.map_id,
    String.ofList_toList]

theorem Aead.ofText_name (a : Aead) : Aead.ofText (Text.ofString a.name) = .ok a := by
  cases a <;> simp [Aead.ofText, Aead.named, Text.toStringLossy_ofString, Aead.ofName?, Aead.name]

/-- Both ciphers take a 32-byte key. -/
theorem Aead.checkKey_of_size {a : Aead} {key : ByteArray} (h : key.size = 32) :
    a.checkKey key = .ok () := by
  cases a <;> simp [Aead.checkKey, Aes.rounds?, h]

/-- The key blob `wrap` makes of `entryKey` with a given nonce. -/
def KeyBlob.wrapped (cipher : Aead) (masterKey entryKey nonce : ByteArray) : KeyBlob :=
  ⟨Text.ofString (Base64.encode (nonce ++ cipher.encryptChecked masterKey nonce entryKey .empty)),
    Text.ofString (Strongbox.keyId entryKey), Text.ofString cipher.name⟩

/-- Wrapping draws a nonce and nothing else. -/
theorem wrap_run {cipher : Aead} {masterKey : ByteArray} (hk : cipher.checkKey masterKey = .ok ())
    (entryKey : ByteArray) (e : Entropy) :
    (wrap masterKey entryKey cipher).run.run e =
      (.ok (KeyBlob.wrapped cipher masterKey entryKey (e.draw nonceSize).1), (e.draw nonceSize).2) := by
  simp [wrap, Aead.encryptBlob_run hk]
  rfl

/-- A wrapped key unwraps under the key it was wrapped with. -/
theorem unwrap_wrapped {cipher : Aead} {masterKey : ByteArray}
    (hk : cipher.checkKey masterKey = .ok ()) (entryKey : ByteArray) {nonce : ByteArray}
    (hn : nonce.size = nonceSize) :
    unwrap masterKey (KeyBlob.wrapped cipher masterKey entryKey nonce) = .ok entryKey := by
  simp [unwrap, KeyBlob.wrapped, Aead.ofText_name, decodeSealed_encode,
    Aead.decryptBlob_seal hk hn]

section Metadata

variable (entryKeyId cipher contentType rotation : Text) (custom : List (Value × Value))

@[simp] theorem buildMetadata_keyId :
    (buildMetadata entryKeyId cipher contentType rotation custom).get? Header.keyId =
      some entryKeyId := by
  simp [buildMetadata, Headers.get?, Header.keyId, Header.contentType, Header.kdf,
    Header.keyRotation]

@[simp] theorem buildMetadata_cipher :
    (buildMetadata entryKeyId cipher contentType rotation custom).get? Header.cipher =
      some cipher := by
  simp [buildMetadata, Headers.get?, Header.keyId, Header.cipher, Header.contentType, Header.kdf,
    Header.keyRotation]

@[simp] theorem buildMetadata_contentType :
    (buildMetadata entryKeyId cipher contentType rotation custom).get? Header.contentType =
      some contentType := by
  simp [buildMetadata, Headers.get?, Header.contentType, Header.kdf, Header.keyRotation]

@[simp] theorem buildMetadata_keyRotation :
    (buildMetadata entryKeyId cipher contentType rotation custom).get? Header.keyRotation =
      some rotation := by
  simp [buildMetadata, Headers.get?, Header.keyRotation]

theorem nodup_buildMetadata :
    ((buildMetadata entryKeyId cipher contentType rotation custom).map Prod.fst).Nodup := by
  simp only [buildMetadata, List.foldl_cons, List.foldl_nil]
  repeat apply Headers.nodup_insert
  exact Headers.nodup_ofValues custom

theorem Headers.allStrings_insert {h : Headers} (hh : Headers.AllStrings h) {k v : Text}
    (hk : k.IsString) (hv : v.IsString) : Headers.AllStrings (h.insert k v) := by
  intro p hp
  rcases Headers.mem_insert hp with hp | rfl
  · exact hh p hp
  · exact ⟨hk, hv⟩

/-- The headers are strings when every text put in them is. -/
theorem allStrings_buildMetadata (hid : entryKeyId.IsString) (hc : cipher.IsString)
    (hct : contentType.IsString) (hrot : rotation.IsString)
    (hcustom : Headers.AllStrings (Headers.ofValues custom)) :
    Headers.AllStrings (buildMetadata entryKeyId cipher contentType rotation custom) := by
  simp only [buildMetadata, List.foldl_cons, List.foldl_nil]
  repeat' apply Headers.allStrings_insert
  all_goals first
    | exact hcustom
    | exact hid
    | exact hc
    | exact hct
    | exact hrot
    | exact Text.isString_ofString _

end Metadata

/-- The envelope `sealValue` makes with a given nonce. -/
def Envelope.sealed (cipher : Aead) (entryKey plaintext nonce : ByteArray)
    (contentType rotation : Text) (custom : List (Value × Value)) : Envelope :=
  ⟨Text.ofString (Base64.encode (nonce ++ cipher.encryptChecked entryKey nonce plaintext .empty)),
    buildMetadata (Text.ofString (keyId entryKey)) (Text.ofString cipher.name) contentType rotation
      custom⟩

/-- Sealing a value draws a nonce and nothing else. -/
theorem sealValue_run {cipher : Aead} {entryKey : ByteArray}
    (hk : cipher.checkKey entryKey = .ok ()) (plaintext : ByteArray) (contentType rotation : Text)
    (custom : List (Value × Value)) (e : Entropy) :
    (sealValue entryKey plaintext cipher contentType rotation custom).run.run e =
      (.ok (Envelope.sealed cipher entryKey plaintext (e.draw nonceSize).1 contentType rotation
        custom), (e.draw nonceSize).2) := by
  simp [sealValue, Aead.encryptBlob_run hk]
  rfl

section Sealed

variable {cipher : Aead} {entryKey plaintext nonce : ByteArray} {contentType rotation : Text}
  {custom : List (Value × Value)}

@[simp] theorem Envelope.keyId?_sealed :
    (Envelope.sealed cipher entryKey plaintext nonce contentType rotation custom).keyId? =
      some (Text.ofString (keyId entryKey)) := by
  simp [Envelope.sealed, Envelope.keyId?]

@[simp] theorem Envelope.cipher_sealed :
    (Envelope.sealed cipher entryKey plaintext nonce contentType rotation custom).cipher =
      Text.ofString cipher.name := by
  simp [Envelope.sealed, Envelope.cipher]

@[simp] theorem Envelope.contentType_sealed :
    (Envelope.sealed cipher entryKey plaintext nonce contentType rotation custom).contentType =
      contentType := by
  simp [Envelope.sealed, Envelope.contentType]

/-- A sealed value opens under its entry key. -/
theorem openValue_sealed (hk : cipher.checkKey entryKey = .ok ()) (hn : nonce.size = nonceSize) :
    openValue entryKey (Envelope.sealed cipher entryKey plaintext nonce contentType rotation custom) =
      .ok plaintext := by
  have hdata : (Envelope.sealed cipher entryKey plaintext nonce contentType rotation custom).data =
      Text.ofString (Base64.encode (nonce ++ cipher.encryptChecked entryKey nonce plaintext .empty)) :=
    rfl
  simp only [openValue, Envelope.cipher_sealed, Aead.ofText_name, hdata, decodeSealed_encode,
    except_ok_bind, Aead.decryptBlob_seal hk hn]

end Sealed

end Strongbox

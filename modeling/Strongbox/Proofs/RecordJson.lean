import Strongbox.Proofs.Records

/-!
# Records through their JSON

Key blobs, envelopes and grant records are stored as their compact JSON text. A record goes
through its JSON (`ThroughJson`) when it is written exactly as long as none of its texts holds a
lone surrogate, writing fails only with the surrogate failure, and the text written reads as the
record's object, field names and order included, and loads back as the record itself.

Main statement: every record whose texts are sequences of Unicode code points and whose headers
have distinct names goes through its JSON (`records_read_back_from_json`).
-/

namespace Strongbox

/-! ## Texts that can be written -/

namespace Text

/-- Every code point is below U+110000, as in any string of the source language; lone surrogates
are allowed. -/
def InCodeSpace (t : Text) : Prop := ∀ c ∈ t.points, c < 0x110000

/-- The text holds a lone surrogate. -/
def HasSurrogate (t : Text) : Prop := ∃ c ∈ t.points, isSurrogate c = true

instance (t : Text) : Decidable t.InCodeSpace :=
  inferInstanceAs (Decidable (∀ c ∈ t.points, c < 0x110000))

instance (t : Text) : Decidable t.HasSurrogate :=
  inferInstanceAs (Decidable (∃ c ∈ t.points, isSurrogate c = true))

/-- Text of code points is a string exactly when it holds no lone surrogate. -/
theorem isString_iff {t : Text} (ht : t.InCodeSpace) : t.IsString ↔ ¬ t.HasSurrogate := by
  simp only [IsString, HasSurrogate, not_exists, not_and, Bool.not_eq_true]
  exact ⟨fun h c hc => (h c hc).1, fun h c hc => ⟨h c hc, ht c hc⟩⟩

end Text

/-- The names and values of the headers, in order. -/
def Headers.texts (h : Headers) : List Text := h.flatMap fun e => [e.1, e.2]

theorem Headers.allStrings_iff (h : Headers) :
    Headers.AllStrings h ↔ ∀ t ∈ h.texts, t.IsString := by
  simp only [Headers.AllStrings, Headers.texts, List.mem_flatMap, List.mem_cons,
    List.not_mem_nil, or_false]
  constructor
  · rintro hs t ⟨e, he, rfl | rfl⟩
    · exact (hs e he).1
    · exact (hs e he).2
  · intro hs e he
    exact ⟨hs _ ⟨e, he, .inl rfl⟩, hs _ ⟨e, he, .inr rfl⟩⟩

/-- The texts of a key blob. -/
def KeyBlob.texts (b : KeyBlob) : List Text := [b.key, b.keyId, b.cipher]

/-- The texts of an envelope: the sealed value, then its headers. -/
def Envelope.texts (e : Envelope) : List Text := e.data :: e.metadata.texts

/-- The texts of a grant record: the grant, the owner's space, then its headers. -/
def GrantRecord.texts (g : GrantRecord) : List Text := g.grant :: g.spaceId :: g.metadata.texts

/-! ## What writing and reading back promise -/

/-- A record goes through its JSON: it is written exactly when none of its texts holds a lone
surrogate, a failure to write is the surrogate failure (a type error), and the text written
reads as the record's object and loads back as the record. -/
structure ThroughJson {R : Type} (toJson : R → Except Failure String)
    (load : Value → Except Failure R) (texts : R → List Text) (layout : R → Value) (r : R) :
    Prop where
  written_iff : (∃ s, toJson r = .ok s) ↔ ∀ t ∈ texts r, ¬ t.HasSurrogate
  failure : ∀ f, toJson r = .error f → f = .unencodable .surrogate
  reads_back : ∀ s, toJson r = .ok s →
    CompactJson.decodeText (Text.ofString s) = .ok (layout r) ∧ load (Value.ofString s) = .ok r

/-- Compact writing fails only on a lone surrogate. -/
theorem CompactJson.write_error {j : Json} {f : Failure} (h : CompactJson.write j = .error f) :
    f = .unencodable .surrogate := by
  unfold CompactJson.write at h
  cases hw : Json.writeWith CompactJson.style j <;> simp [hw, Except.mapError] at h
  exact h.symm

/-- The promises of `ThroughJson`, with "no lone surrogate" still said as "is a string". -/
theorem ThroughJson.of_isString {R : Type} {toJson : R → Except Failure String}
    {load : Value → Except Failure R} {texts : R → List Text} {layout : R → Value} {r : R}
    (hcode : ∀ t ∈ texts r, t.InCodeSpace)
    (hok : (∃ s, toJson r = .ok s) ↔ ∀ t ∈ texts r, t.IsString)
    (herr : ∀ f, toJson r = .error f → f = .unencodable .surrogate)
    (hread : ∀ s, toJson r = .ok s →
      CompactJson.decodeText (Text.ofString s) = .ok (layout r) ∧ load (Value.ofString s) = .ok r) :
    ThroughJson toJson load texts layout r where
  written_iff := hok.trans (forall₂_congr fun t ht => Text.isString_iff (hcode t ht))
  failure := herr
  reads_back := hread

open Json Writer in
/-- A key blob is written exactly when its three texts are strings. -/
theorem KeyBlob.toJson_ok_iff (b : KeyBlob) :
    (∃ s, b.toJson = .ok s) ↔ ∀ t ∈ b.texts, t.IsString := by
  simp only [KeyBlob.texts, List.mem_cons, List.not_mem_nil, or_false, forall_eq_or_imp,
    forall_eq]
  rw [← quote_compact_ok_iff, ← quote_compact_ok_iff (t := b.keyId),
    ← quote_compact_ok_iff (t := b.cipher)]
  cases hk : quote CompactJson.style b.key <;> cases hi : quote CompactJson.style b.keyId <;>
    cases hc : quote CompactJson.style b.cipher <;>
    simp [KeyBlob.toJson, CompactJson.write, writeWith, Json.record, writeFields, write_str,
      write_obj, Except.mapError, hk, hi, hc, quote_compact_of_isString, Text.isString_ofString]

theorem Envelope.toJson_ok_iff_texts (e : Envelope) :
    (∃ s, e.toJson = .ok s) ↔ ∀ t ∈ e.texts, t.IsString := by
  rw [Envelope.toJson_ok_iff, Headers.allStrings_iff]
  simp [Envelope.texts]

theorem GrantRecord.toJson_ok_iff_texts (g : GrantRecord) :
    (∃ s, g.toJson = .ok s) ↔ ∀ t ∈ g.texts, t.IsString := by
  rw [GrantRecord.toJson_ok_iff, Headers.allStrings_iff]
  simp [GrantRecord.texts]

/-! ## Every record goes through its JSON -/

theorem KeyBlob.throughJson {b : KeyBlob} (hcode : ∀ t ∈ b.texts, t.InCodeSpace) :
    ThroughJson KeyBlob.toJson KeyBlob.load KeyBlob.texts KeyBlob.layout b :=
  .of_isString hcode b.toJson_ok_iff (fun _ => CompactJson.write_error)
    (fun _ hw => ⟨KeyBlob.decodeText_toJson hw, KeyBlob.load_toJson hw⟩)

theorem Envelope.throughJson {e : Envelope} (hcode : ∀ t ∈ e.texts, t.InCodeSpace)
    (hnd : (e.metadata.map Prod.fst).Nodup) :
    ThroughJson Envelope.toJson Envelope.load Envelope.texts Envelope.layout e :=
  .of_isString hcode e.toJson_ok_iff_texts (fun _ => CompactJson.write_error)
    (fun _ hw => ⟨Envelope.decodeText_toJson hnd hw, Envelope.load_toJson hnd hw⟩)

theorem GrantRecord.throughJson {g : GrantRecord} (hcode : ∀ t ∈ g.texts, t.InCodeSpace)
    (hnd : (g.metadata.map Prod.fst).Nodup) :
    ThroughJson GrantRecord.toJson GrantRecord.load GrantRecord.texts GrantRecord.layout g :=
  .of_isString hcode g.toJson_ok_iff_texts (fun _ => CompactJson.write_error)
    (fun _ hw => ⟨GrantRecord.decodeText_toJson hnd hw, GrantRecord.load_toJson hnd hw⟩)

/-- Key blobs, envelopes and grant records all go through their JSON, field names (`keyId`,
`spaceId`) and header order included; headers are a mapping, so their names are distinct. -/
theorem records_read_back_from_json :
    (∀ b : KeyBlob, (∀ t ∈ b.texts, t.InCodeSpace) →
      ThroughJson KeyBlob.toJson KeyBlob.load KeyBlob.texts KeyBlob.layout b) ∧
    (∀ e : Envelope, (∀ t ∈ e.texts, t.InCodeSpace) → (e.metadata.map Prod.fst).Nodup →
      ThroughJson Envelope.toJson Envelope.load Envelope.texts Envelope.layout e) ∧
    (∀ g : GrantRecord, (∀ t ∈ g.texts, t.InCodeSpace) → (g.metadata.map Prod.fst).Nodup →
      ThroughJson GrantRecord.toJson GrantRecord.load GrantRecord.texts GrantRecord.layout g) :=
  ⟨fun _ hcode => KeyBlob.throughJson hcode, fun _ hcode hnd => Envelope.throughJson hcode hnd,
    fun _ hcode hnd => GrantRecord.throughJson hcode hnd⟩

/-- Records whose texts hold a quote, a backslash, a line feed, a control character, non-ASCII
text and a character beyond the basic plane go through their JSON. -/
theorem records_read_back_from_json_escapes :
    ThroughJson KeyBlob.toJson KeyBlob.load KeyBlob.texts KeyBlob.layout
        ⟨⟨[107, 34, 92]⟩, ⟨[233, 0x1F600]⟩, ⟨[1, 10]⟩⟩ ∧
      ThroughJson Envelope.toJson Envelope.load Envelope.texts Envelope.layout
        ⟨⟨[34]⟩, [(⟨[110, 34]⟩, ⟨[92, 10, 31]⟩), (⟨[233]⟩, ⟨[0x1F600, 127]⟩)]⟩ ∧
      ThroughJson GrantRecord.toJson GrantRecord.load GrantRecord.texts GrantRecord.layout
        ⟨⟨[92]⟩, ⟨[58, 9]⟩, [(⟨[8]⟩, ⟨[]⟩), (⟨[12, 13]⟩, ⟨[0xFFFF]⟩)]⟩ :=
  ⟨records_read_back_from_json.1 _ (by decide),
    records_read_back_from_json.2.1 _ (by decide) (by decide),
    records_read_back_from_json.2.2 _ (by decide) (by decide)⟩

end Strongbox

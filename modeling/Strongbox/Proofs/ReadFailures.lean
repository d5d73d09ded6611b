import Strongbox.Proofs.Effects
import Strongbox.Scenario.Vaults

/-!
# How reads fail

Reading an entry goes through the store, the JSON records, the ciphers they name, strict base64,
the tags of two sealed blobs, the agreement of key ids, an exchange for a shared entry, and last
the content format of the value. Each layer but the last fails only with a failure of the vault's
own kinds, whatever the store holds: a missing record, a malformed one, a ciphertext that does not
open, records that disagree. The content formats fail with their own failures, and a read turns
those that say the bytes are malformed into integrity failures; one kind passes untouched, the
type failure of compact JSON holding a bytes object whose payload is not text.
-/

namespace Strongbox

/-- The failures a read may end with: the vault's own kinds, or the type failure of a compact
JSON bytes object whose payload is not text. -/
def Failure.OfRead (f : Failure) : Prop := f.isVaultFailure = true ∨ ∃ t, f = .base64Argument t

namespace Failure

theorem isVaultFailure_of_integrity {f : Failure} (h : f.kind = .integrity) :
    f.isVaultFailure = true := by
  unfold isVaultFailure
  rw [h]

theorem isVaultFailure_of_decryption {f : Failure} (h : f.kind = .decryption) :
    f.isVaultFailure = true := by
  unfold isVaultFailure
  rw [h]

end Failure

/-! ## Records -/

theorem Record.load_error {v : Value} {f : Failure} (h : Record.load v = .error f) :
    f.kind = .integrity := by
  have hread : ∀ r : Except CompactJson.DecodeError Value, Record.load.ofRead r = .error f →
      f.kind = .integrity := by
    intro r hr
    unfold Record.load.ofRead at hr
    split at hr
    · cases hr
    · rw [← Except.error.inj hr]; rfl
    · rw [← Except.error.inj hr]; rfl
  unfold Record.load at h
  split at h
  · cases h
  · exact hread _ h
  · exact hread _ h
  · rw [← Except.error.inj h]; rfl

/-- A record read as an object and then checked fails as an integrity failure when the check
does. -/
theorem Record.load_bind_error {α : Type} {v : Value} {check : List (Value × Value) → Except Failure α}
    {f : Failure} (hcheck : ∀ es f, check es = .error f → f.kind = .integrity)
    (h : (Record.load v >>= check) = .error f) : f.kind = .integrity := by
  cases hr : Record.load v with
  | error e =>
    rw [hr] at h
    exact (Except.error.inj h) ▸ Record.load_error hr
  | ok es =>
    rw [hr] at h
    exact hcheck es f h

theorem KeyBlob.load_error {v : Value} {f : Failure} (h : KeyBlob.load v = .error f) :
    f.kind = .integrity := by
  refine Record.load_bind_error (fun es f h => ?_) h
  unfold KeyBlob.ofRecord at h
  extract_lets key fields at h
  clear_value key fields
  split at h
  · cases h
  · rw [← Except.error.inj h]; rfl

theorem Envelope.load_error {v : Value} {f : Failure} (h : Envelope.load v = .error f) :
    f.kind = .integrity := by
  refine Record.load_bind_error (fun es f h => ?_) h
  unfold Envelope.ofRecord at h
  extract_lets data fields at h
  clear_value data fields
  split at h
  · cases h
  · rw [← Except.error.inj h]; rfl

theorem GrantRecord.load_error {v : Value} {f : Failure} (h : GrantRecord.load v = .error f) :
    f.kind = .integrity := by
  refine Record.load_bind_error (fun es f h => ?_) h
  unfold GrantRecord.ofRecord at h
  extract_lets grant space headers at h
  clear_value grant space headers
  split at h
  · cases h
  · rw [← Except.error.inj h]; rfl

/-! ## Sealed blobs -/

theorem decodeSealed_error {t : Text} {f : Failure} (h : decodeSealed t = .error f) :
    f = .badEncoding := by
  unfold decodeSealed at h
  cases hd : Base64.decodePoints true t.points with
  | ok b => rw [hd] at h; cases h
  | error e => rw [hd] at h; exact (Except.error.inj h).symm

theorem Aead.ofText_error {t : Text} {f : Failure} (h : Aead.ofText t = .error f) :
    f.kind = .integrity := by
  simp only [Aead.ofText, Aead.named] at h
  cases ho : Aead.ofName? t.toStringLossy with
  | some a => simp only [ho, reduceCtorEq] at h
  | none =>
    simp only [ho, Except.error.injEq] at h
    rw [← h]; rfl

theorem Aead.decryptBlob_error {a : Aead} {key blob : ByteArray} {f : Failure}
    (h : a.decryptBlob key blob = .error f) : f.kind = .decryption := by
  unfold Aead.decryptBlob at h
  split at h
  · rw [← Except.error.inj h]; rfl
  · split at h
    · rw [← Except.error.inj h]; rfl
    · rw [← Except.error.inj h]; rfl
    · cases h

/-- The failures of opening: a cipher the vault does not know, records that disagree, and
ciphertexts that do not open. -/
def Failure.OfOpening (f : Failure) : Prop := f.kind = .integrity ∨ f.kind = .decryption

theorem Failure.OfOpening.isVaultFailure {f : Failure} (h : f.OfOpening) :
    f.isVaultFailure = true := by
  rcases h with h | h
  · exact isVaultFailure_of_integrity h
  · exact isVaultFailure_of_decryption h

/-- Opening a sealed field with a named cipher: each step fails only as opening does. -/
theorem opening_error {α β : Type} {x : Except Failure α} {g : α → Except Failure β} {f : Failure}
    (hx : ∀ f, x = .error f → f.OfOpening) (hg : ∀ a f, g a = .error f → f.OfOpening)
    (h : (x >>= g) = .error f) : f.OfOpening := by
  cases hr : x with
  | error e =>
    rw [hr] at h
    exact (Except.error.inj h) ▸ hx e hr
  | ok a =>
    rw [hr] at h
    exact hg a f h

theorem ofOpening_ofText {t : Text} : ∀ f, Aead.ofText t = .error f → f.OfOpening :=
  fun _ h => .inl (Aead.ofText_error h)

theorem ofOpening_decodeSealed {t : Text} : ∀ f, decodeSealed t = .error f → f.OfOpening :=
  fun _ h => .inr (by rw [decodeSealed_error h]; rfl)

theorem ofOpening_decryptBlob {a : Aead} {key blob : ByteArray} :
    ∀ f, a.decryptBlob key blob = .error f → f.OfOpening :=
  fun _ h => .inr (Aead.decryptBlob_error h)

theorem unwrap_error {mk : ByteArray} {b : KeyBlob} {f : Failure} (h : unwrap mk b = .error f) :
    f.OfOpening := by
  unfold unwrap at h
  refine opening_error ofOpening_ofText (fun cipher f h => ?_) h
  refine opening_error ofOpening_decodeSealed (fun sealed f h => ?_) h
  refine opening_error ofOpening_decryptBlob (fun ek f h => ?_) h
  split at h
  · cases h
  · exact .inl (by rw [← Except.error.inj h]; rfl)

theorem openValue_error {ek : ByteArray} {e : Envelope} {f : Failure}
    (h : openValue ek e = .error f) : f.OfOpening := by
  unfold openValue at h
  refine opening_error ofOpening_ofText (fun cipher f h => ?_) h
  exact opening_error ofOpening_decodeSealed (fun sealed f h => ofOpening_decryptBlob f h) h

theorem Grant.open?_error {g blob : ByteArray} {f : Failure} (h : Grant.open? g blob = .error f) :
    f.kind = .decryption := by
  unfold Grant.open? at h
  split at h
  · rw [← Except.error.inj h]; rfl
  · split at h
    · rw [← Except.error.inj h]; rfl
    · exact Aead.decryptBlob_error h

/-! ## Content -/

/-- The payload of a compact JSON bytes object gives bytes when it is base64 text; other text is
malformed, and a value that is not text is the wrong type. -/
theorem Content.bytesOfPayload_error {v : Value} {f : Failure}
    (h : Content.bytesOfPayload v = .error f) :
    f.isInvalidValue = true ∨ ∃ t, f = .base64Argument t := by
  unfold Content.bytesOfPayload at h
  split at h
  · split at h
    · cases h
    · rw [← Except.error.inj h]; exact .inl rfl
    · rw [← Except.error.inj h]; exact .inl rfl
  · exact .inr ⟨_, (Except.error.inj h).symm⟩

theorem Content.readJson_error {data : ByteArray} {f : Failure}
    (h : Content.readJson data = .error f) :
    f.isInvalidValue = true ∨ ∃ t, f = .base64Argument t := by
  unfold Content.readJson at h
  split at h
  · rw [← Except.error.inj h]; exact .inl rfl
  · split at h
    · cases hp : Content.bytesOfPayload _ with
      | ok b => rw [hp] at h; cases h
      | error e =>
        rw [hp] at h
        exact (Except.error.inj h) ▸ Content.bytesOfPayload_error hp
    · cases h
  · cases h

/-- Without typed JSON, reading a format fails only as malformed input, or on a compact JSON
bytes object whose payload is not text. -/
theorem Content.read_error {data : ByteArray} {caller : Caller} {fmt : Format} {f : Failure}
    (h : Content.read data false caller fmt = .error f) :
    f.isInvalidValue = true ∨ ∃ t, f = .base64Argument t := by
  cases fmt with
  | json => exact Content.readJson_error h
  | typed =>
    simp only [Content.read, Bool.false_eq_true, if_false, Except.error.injEq] at h
    rw [← h]
    exact .inl rfl
  | text =>
    simp only [Content.read] at h
    cases hd : Text.decode? data with
    | some t => simp only [hd, reduceCtorEq] at h
    | none =>
      simp only [hd, Except.error.injEq] at h
      rw [← h]
      exact .inl rfl
  | binary => cases h

/-- The value a read decodes, as the caller asked: as bytes it cannot fail; by its content type,
typed JSON refused, it fails as an integrity failure, or on a compact JSON bytes object whose
payload is not text, which passes as it is. -/
theorem decodeValue_error {p : ByteArray} {e : Envelope} {reading : Vault.Reading}
    (hr : reading = .raw ∨ reading = .content false) {f : Failure}
    (h : Vault.decodeValue p e reading = .error f) : f.OfRead := by
  rcases hr with rfl | rfl
  · cases h
  · simp only [Vault.decodeValue] at h
    cases hd : Content.deserialize p e.contentType false .vault with
    | ok v => rw [hd] at h; cases h
    | error g =>
      rw [hd] at h
      simp only [Except.mapError, Except.error.injEq] at h
      have hg : g.isInvalidValue = true ∨ ∃ t, g = .base64Argument t := by
        unfold Content.deserialize at hd
        split at hd
        · exact Content.read_error hd
        · cases hd
      split at h
      · rw [← h]
        exact .inl rfl
      · rename_i hkeep
        rcases hg with hg | ⟨t, rfl⟩
        · rw [hg, Bool.true_or] at hkeep
          exact absurd rfl hkeep
        · exact .inr ⟨t, h.symm⟩

/-! ## Reads -/

-- a compact JSON bytes object whose payload is a number
example : Vault.decodeValue "\x7b\"__vault_bytes_b64__\":5\x7d".toUTF8 { data := Text.ofString "" }
    (.content false) = .error (.base64Argument "int") := rfl

namespace Vault

/-! ## Reads

Every layer of a read but the last fails only with a vault failure, so the lemmas below hold for
any property `P` of failures that vault failures have; the last layer, decoding the value, is
left to the caller. -/

theorem failsOnly_checkName {P : Failure → Prop} {key : Value} {k : Text}
    (hk : EntryName.ofValue key = .ok k) : FailsOnly P (checkName key) :=
  FailsOnly.liftExcept fun f h => by
    rw [hk] at h
    cases h

section Reads

variable {α : Type} {P : Failure → Prop} (hP : ∀ f, f.isVaultFailure = true → P f)
include hP

theorem failsOnly_store {m : VaultM α} (hm : FailsOnly Failure.IsStoreFailure m) :
    FailsOnly P m :=
  hm.mono fun _ h => hP _ h.isVaultFailure

theorem failsOnly_loadKeyBlob (key : Text) : FailsOnly P (loadKeyBlob key) := by
  unfold loadKeyBlob
  refine (failsOnly_store hP (failsOnly_storeGet _ _)).bind fun r => ?_
  cases r with
  | none => exact FailsOnly.throw (hP _ rfl)
  | some s =>
    exact FailsOnly.liftExcept fun f h => hP _ (Failure.isVaultFailure_of_integrity (KeyBlob.load_error h))

theorem failsOnly_loadEnvelope (key : Text) (space : Option Text) :
    FailsOnly P (loadEnvelope key space) := by
  unfold loadEnvelope
  refine (failsOnly_store hP (failsOnly_storeGet _ _)).bind fun r => ?_
  cases r with
  | none => exact FailsOnly.throw (hP _ rfl)
  | some s =>
    exact FailsOnly.liftExcept fun f h => hP _ (Failure.isVaultFailure_of_integrity (Envelope.load_error h))

theorem failsOnly_readPair (master : ByteArray) (key : Text) : FailsOnly P (readPair master key) :=
  (failsOnly_loadKeyBlob hP key).bind fun _ =>
    (FailsOnly.liftExcept fun _ h => hP _ (unwrap_error h).isVaultFailure).bind fun _ =>
      (failsOnly_loadEnvelope hP key none).bind fun _ => FailsOnly.pure _

/-- Two reads that disagree twice are an integrity failure. -/
theorem failsOnly_readAgreed (master : ByteArray) (key : Text) :
    FailsOnly P (readAgreed master key) := by
  unfold readAgreed
  refine (failsOnly_readPair hP master key).bind fun ⟨agree, _, _, _⟩ => ?_
  cases agree
  · refine (failsOnly_readPair hP master key).bind fun ⟨agree, _, _, _⟩ => ?_
    cases agree
    · exact FailsOnly.throw (hP _ rfl)
    · exact FailsOnly.pure _
  · exact FailsOnly.pure _

/-- The tail of every read: open the value and decode it. -/
theorem failsOnly_openDecode {ek : ByteArray} {e : Envelope} {reading : Reading}
    (hdecode : ∀ p f, decodeValue p e reading = .error f → P f) {γ : Type}
    (k : ByteArray → Value → VaultM γ) (hk : ∀ p v, FailsOnly P (k p v)) :
    FailsOnly P (do
      let plaintext ← liftExcept (openValue ek e)
      let value ← liftExcept (decodeValue plaintext e reading)
      k plaintext value) :=
  (FailsOnly.liftExcept fun _ h => hP _ (openValue_error h).isVaultFailure).bind fun p =>
    (FailsOnly.liftExcept (hdecode p)).bind fun v => hk p v

theorem failsOnly_getEntry {key : Value} {k : Text} (hk : EntryName.ofValue key = .ok k)
    {reading : Reading} (hdecode : ∀ p e f, decodeValue p e reading = .error f → P f) :
    FailsOnly P (getEntry key reading) :=
  (FailsOnly.requireUnlocked (hP _ rfl)).bind fun _ =>
    (failsOnly_checkName hk).bind fun name => (failsOnly_readAgreed hP _ name).bind fun _ =>
      failsOnly_openDecode hP (fun p f => hdecode p _ f) _ fun _ _ => FailsOnly.pure _

theorem failsOnly_head {key : Value} {k : Text} (hk : EntryName.ofValue key = .ok k) :
    FailsOnly P (head key) :=
  (FailsOnly.requireUnlocked (hP _ rfl)).bind fun _ =>
    (failsOnly_checkName hk).bind fun name =>
      (failsOnly_loadEnvelope hP name none).bind fun _ => FailsOnly.pure _

theorem failsOnly_readText (space path : String) : FailsOnly P (readText space path) := by
  unfold readText
  refine (failsOnly_store hP (failsOnly_storeGetPublic _ _)).bind fun r => ?_
  cases r with
  | none => exact FailsOnly.pure _
  | some s =>
    dsimp only
    split <;> exact FailsOnly.pure _

/-- Finding another principal's vault fails as a missing public key, or as the store fails. -/
theorem failsOnly_resolveVaultSpace (did : Text) : FailsOnly P (resolveVaultSpace did) := by
  unfold resolveVaultSpace
  refine (FailsOnly.liftExcept fun f h => ?_).bind fun p =>
    (failsOnly_readText hP _ _).bind fun _ => FailsOnly.current.bind fun v => ?_
  · cases hp : Principal.parse did with
    | ok p => rw [hp] at h; cases h
    | error e =>
      rw [hp] at h
      simp only [Except.mapError, Except.error.injEq] at h
      rw [← h]
      exact hP _ rfl
  · extract_lets answer
    have hanswer : ∀ u, FailsOnly P (answer u) := fun _ => FailsOnly.pure _
    split
    · split
      · exact (FailsOnly.update _).bind hanswer
      · exact hanswer ()
    · exact hanswer ()

theorem failsOnly_getShared (owner : Text) {key : Value} {k : Text}
    (hk : EntryName.ofValue key = .ok k) {reading : Reading}
    (hdecode : ∀ p e f, decodeValue p e reading = .error f → P f) :
    FailsOnly P (getShared owner key reading) := by
  unfold getShared
  refine (FailsOnly.requireUnlocked (hP _ rfl)).bind fun _ =>
    (failsOnly_checkName hk).bind fun name => ?_
  -- the handler sees vault failures only, and turns a missing public key into a missing grant
  refine (FailsOnly.tryCatch (failsOnly_resolveVaultSpace (fun _ h => h) owner)
    fun f hf => ?_).bind fun space => ?_
  · split
    · exact FailsOnly.throw (hP _ rfl)
    · exact FailsOnly.throw (hP _ hf)
  refine FailsOnly.current.bind fun v => (failsOnly_store hP (failsOnly_storeGet _ _)).bind
    fun stored => ?_
  extract_lets opened
  have hopened : ∀ s, FailsOnly P (opened s) := fun s =>
    (FailsOnly.liftExcept fun _ h =>
      hP _ (Failure.isVaultFailure_of_integrity (GrantRecord.load_error h))).bind fun record =>
    (FailsOnly.liftExcept fun _ h => hP _ (ofOpening_decodeSealed _ h).isVaultFailure).bind
      fun sealed =>
    (FailsOnly.liftExcept fun _ h =>
      hP _ (Failure.isVaultFailure_of_decryption (Grant.open?_error h))).bind fun entryKey =>
    (failsOnly_loadEnvelope hP _ _).bind fun e =>
      failsOnly_openDecode hP (fun p f => hdecode p e f) _ fun _ _ => FailsOnly.pure _
  split
  · exact (FailsOnly.pure _).bind hopened
  · exact (FailsOnly.throw (hP _ rfl)).bind hopened

end Reads

/-- Reading an entry with a valid name, as bytes or by its content type with typed JSON refused,
from any world, whatever its store holds and whatever faults it meets: `get`, `get_shared` and
`head` fail only with a vault failure, or, when the value is read by its content type, with the
type failure of a compact JSON bytes object whose payload is not text. Read as bytes, they fail
only with a vault failure. -/
theorem reads_fail_as_vault_failures {key : Value} {k : Text} (hk : EntryName.ofValue key = .ok k)
    (owner : Text) :
    (∀ reading : Reading, reading = .raw ∨ reading = .content false →
      FailsOnly Failure.OfRead (VaultCall.get key reading).run ∧
      FailsOnly Failure.OfRead (VaultCall.getShared owner key reading).run) ∧
    FailsOnly (fun f => f.isVaultFailure = true) (VaultCall.get key .raw).run ∧
    FailsOnly (fun f => f.isVaultFailure = true) (VaultCall.getShared owner key .raw).run ∧
    FailsOnly (fun f => f.isVaultFailure = true) (VaultCall.head key).run := by
  have hraw : ∀ p e f, decodeValue p e .raw = .error f → f.isVaultFailure = true :=
    fun _ _ _ h => nomatch h
  refine ⟨fun reading hr => ⟨?_, ?_⟩, ?_, ?_, ?_⟩
  · exact FailsOnly.map _ (failsOnly_getEntry (fun _ h => .inl h) hk fun _ _ _ => decodeValue_error hr)
  · exact FailsOnly.map _
      (failsOnly_getShared (fun _ h => .inl h) owner hk fun _ _ _ => decodeValue_error hr)
  · exact FailsOnly.map _ (failsOnly_getEntry (fun _ h => h) hk hraw)
  · exact FailsOnly.map _ (failsOnly_getShared (fun _ h => h) owner hk hraw)
  · exact (failsOnly_head (fun _ h => h) hk).bind fun _ => FailsOnly.pure _

/-- Reads of the entry named "k" fail only as the vault does. -/
theorem reads_fail_as_vault_failures_named_k :
    EntryName.ofValue (.str (Text.ofString "k")) = .ok (Text.ofString "k") ∧
    FailsOnly (fun f => f.isVaultFailure = true) (VaultCall.head (.str (Text.ofString "k"))).run :=
  ⟨rfl, (reads_fail_as_vault_failures (k := Text.ofString "k") rfl (Text.ofString "bob")).2.2.2⟩

end Vault

end Strongbox

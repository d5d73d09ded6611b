import Strongbox.Proofs.Revocation
import Strongbox.Proofs.Wrapping

/-!
# Headers through a rotation

A write stores an envelope whose headers are the caller's, with the six the vault writes laid
over them, and keeps the same headers beside the envelope in its record. A rotation seals the
value again and builds its headers anew from the envelope's cipher, content type and policy and
from the caller's headers, where the caller's headers are those whose names lack the vault's
prefix. So a rotation keeps every header of an envelope a write made except two kinds: the key
id, which now names the fresh key, and a caller's header whose name has the vault's prefix
without being one the vault writes, which is lost (`Envelope.lookup_rebuilt`).

`HeadersWritten` says that every envelope of the vault's space is one a write made; every
call of the owner keeps it, whatever signer and headers it carries, so a revoke in any reachable world rotates the entry that way
(`revoke_keeps_headers`).
-/

namespace Strongbox

namespace Header

/-- The names of the headers a write lays over the caller's. -/
def written : List String := [version, cipher, keyId, contentType, kdf, keyRotation]

/-- A caller's header that a rotation loses: its name has the vault's prefix, yet it is none of
the headers the vault writes. -/
def dropped (n : Text) : Bool :=
  n.startsWith (Text.ofString reservedPrefix) && written.all fun s => n != Text.ofString s

theorem dropped_ofString_written {s : String} (hs : s ∈ written) :
    dropped (Text.ofString s) = false := by
  simp only [dropped, Bool.and_eq_false_iff, List.all_eq_false, bne_iff_ne, ne_eq, not_not]
  exact .inr ⟨s, hs, rfl⟩

end Header

/-! ## Looking headers up -/

namespace Headers

/-- Inserting headers of distinct names, in order, after headers that share none of their names
appends them. -/
theorem foldl_insert_of_nodup : ∀ (h acc : Headers), ((acc ++ h).map Prod.fst).Nodup →
    h.foldl (fun acc p => acc.insert p.1 p.2) acc = acc ++ h
  | [], acc, _ => by simp
  | (a, b) :: h, acc, hnd => by
    have hfresh : acc.any (·.1 == a) = false := by
      rw [List.map_append, List.nodup_append] at hnd
      simp only [List.any_eq_false, beq_iff_eq]
      intro p hp hpa
      exact hnd.2.2 p.1 (List.mem_map_of_mem hp) a (by simp) hpa
    rw [List.foldl_cons, insert, if_neg (by simp [hfresh]),
      foldl_insert_of_nodup h (acc ++ [(a, b)]) (by simpa using hnd)]
    simp

/-- Headers of distinct names, kept as pairs of text values, read back as themselves. -/
theorem ofValues_headerPairs {h : Headers} (hnd : (h.map Prod.fst).Nodup) :
    ofValues (Vault.headerPairs h) = h := by
  unfold ofValues Vault.headerPairs
  rw [List.foldl_map]
  exact foldl_insert_of_nodup h [] hnd

/-- The headers without a prefix hold a name exactly when it lacks the prefix. -/
theorem lookup_filter_prefix (h : Headers) (pre n : Text) :
    (h.filter fun p => !p.1.startsWith pre).lookup n =
      if n.startsWith pre then none else h.lookup n := by
  induction h with
  | nil => simp
  | cons p h ih =>
    obtain ⟨a, b⟩ := p
    rw [List.filter_cons]
    by_cases hn : n = a
    · subst hn
      cases hs : n.startsWith pre <;> simp [hs, ih]
    · have hne : (n == a) = false := beq_false_of_ne hn
      split <;> simp [List.lookup_cons, hne, ih]

theorem nodup_filter {h : Headers} (hnd : (h.map Prod.fst).Nodup) (f : Text × Text → Bool) :
    ((h.filter f).map Prod.fst).Nodup :=
  hnd.sublist ((List.filter_sublist).map _)

end Headers

section Metadata

variable (entryKeyId cipher contentType rotation : Text) (custom : List (Value × Value))

@[simp] theorem buildMetadata_version :
    (buildMetadata entryKeyId cipher contentType rotation custom).get? Header.version =
      some (Text.ofString "1") := by
  simp [buildMetadata, Headers.get?, Header.version, Header.cipher, Header.keyId,
    Header.contentType, Header.kdf, Header.keyRotation]

@[simp] theorem buildMetadata_kdf :
    (buildMetadata entryKeyId cipher contentType rotation custom).get? Header.kdf =
      some (Text.ofString "hkdf-sha256") := by
  simp [buildMetadata, Headers.get?, Header.kdf, Header.keyRotation]

/-- Under a name the vault does not write, the headers hold what the caller gave. -/
theorem lookup_buildMetadata_of_not_written {n : Text}
    (hn : ∀ s ∈ Header.written, n ≠ Text.ofString s) :
    (buildMetadata entryKeyId cipher contentType rotation custom).lookup n =
      (Headers.ofValues custom).lookup n := by
  simp only [Header.written, List.mem_cons, List.mem_nil_iff, or_false, forall_eq_or_imp,
    forall_eq] at hn
  obtain ⟨h₁, h₂, h₃, h₄, h₅, h₆⟩ := hn
  simp [buildMetadata, h₁, h₂, h₃, h₄, h₅, h₆]

end Metadata

/-- The headers a rotation builds again from an envelope a write made: the key id names the new
key, a caller's header with the vault's prefix is gone, and every other header is as it was. -/
theorem Envelope.lookup_rebuilt {e : Envelope} {kid c ct rot : Text} {custom : List (Value × Value)}
    (he : e.metadata = buildMetadata kid c ct rot custom) (kid' n : Text) :
    (buildMetadata kid' e.cipher e.contentType
        ((e.metadata.get? Header.keyRotation).getD (Text.ofString Rotation.perWrite.name))
        (Vault.headerPairs e.customMetadata)).lookup n =
      if n = Text.ofString Header.keyId then some kid'
      else if Header.dropped n then none else e.metadata.lookup n := by
  by_cases hk : n = Text.ofString Header.keyId
  · rw [if_pos hk, hk]
    exact buildMetadata_keyId _ _ _ _ _
  rw [if_neg hk]
  by_cases hw : ∃ s ∈ Header.written, n = Text.ofString s
  · -- the other five written headers: each is rebuilt from the one the envelope has
    obtain ⟨s, hs, rfl⟩ := hw
    rw [Header.dropped_ofString_written hs, if_neg Bool.false_ne_true]
    change Headers.get? _ s = e.metadata.get? s
    simp only [Header.written, List.mem_cons, List.mem_nil_iff, or_false] at hs
    rcases hs with rfl | rfl | rfl | rfl | rfl | rfl
    · simp [he]
    · simp [he, Envelope.cipher]
    · exact absurd rfl hk
    · simp [he, Envelope.contentType]
    · simp [he]
    · simp [he]
  · -- a caller's header: rebuilt from the headers without the vault's prefix
    simp only [not_exists, not_and] at hw
    have hnd : (e.customMetadata.map Prod.fst).Nodup :=
      Headers.nodup_filter (he ▸ nodup_buildMetadata _ _ _ _ _) _
    have hdropped : Header.dropped n = n.startsWith (Text.ofString Header.reservedPrefix) := by
      simp only [Header.dropped, Bool.and_eq_left_iff_imp, List.all_eq_true, bne_iff_ne]
      exact fun _ s hs => hw s hs
    rw [lookup_buildMetadata_of_not_written _ _ _ _ _ hw, Headers.ofValues_headerPairs hnd,
      Envelope.customMetadata, Headers.lookup_filter_prefix, hdropped]

namespace Vault

/-- The headers of the envelope a sealing makes are built over the caller's. -/
theorem SealedRecords.metadata_eq {blobCipher valueCipher : Aead} {mk ek plaintext : ByteArray}
    {ct rotation : Text} {custom : List (Value × Value)} {blob : KeyBlob} {e : Envelope}
    (hs : SealedRecords blobCipher valueCipher mk ek plaintext ct rotation custom blob e) :
    e.metadata = buildMetadata (Text.ofString (keyId ek)) (Text.ofString valueCipher.name) ct
      rotation custom := by
  obtain ⟨nv, -, rfl⟩ := hs.sealed
  rfl

/-! ## Envelopes a write made -/

/-- A record holding an envelope a write made: it reads back with headers of text built over
the caller's, and keeps those headers beside the envelope. -/
def WrittenEnvelope (vr : Stored) : Prop :=
  ∃ e, Envelope.load vr.data.toValue = .ok e ∧ vr.metadata = headerPairs e.metadata ∧
    Headers.AllStrings e.metadata ∧
    ∃ kid c ct rot custom, e.metadata = buildMetadata kid c ct rot custom

/-- An envelope with headers a write builds, stored as its JSON text beside its headers. -/
theorem writtenEnvelope_of_toJson {e : Envelope} {je : String} (hje : e.toJson = .ok je)
    {kid c ct rot : Text} {custom : List (Value × Value)}
    (he : e.metadata = buildMetadata kid c ct rot custom) :
    WrittenEnvelope ⟨.ofString je, headerPairs e.metadata⟩ :=
  ⟨e, Envelope.load_toJson (he ▸ nodup_buildMetadata _ _ _ _ _) hje, rfl,
    ((Envelope.toJson_ok_iff e).mp ⟨je, hje⟩).2, kid, c, ct, rot, custom, he⟩

/-- Issuing grants in turn keeps the key id the report starts with. -/
theorem keyId_reissueAll {key : Text} {ek : ByteArray} :
    ∀ {gs : List Text} {report report' : Rotation.Report} {w w' : World},
      exec (reissueAll key ek gs report) w = (.ok report', w') → report'.keyId = report.keyId
  | [], report, report', w, w', h => by
    rw [reissueAll, exec_pure, Prod.mk.injEq, Except.ok.injEq] at h
    rw [← h.1]
  | g :: rest, report, report', w, w', h => by
    rw [exec_reissueAll_cons] at h
    split at h
    · exact (keyId_reissueAll h).trans rfl
    · split at h
      · exact (keyId_reissueAll h).trans rfl
      · cases h

/-- A revoke that succeeds found the vault unlocked. -/
theorem unlocked_of_revoke {key : Value} {recipient : Text} {report : Rotation.Report}
    {w w' : World} (h : exec (revoke key recipient) w = (.ok report, w')) :
    ∃ mk i, w.vault.masterKey = some mk ∧ w.vault.identity = some i := by
  unfold revoke at h
  obtain ⟨⟨mk, i⟩, w₁, h₁, -⟩ := exec_bind_eq_ok h
  obtain ⟨hmk, hi, -⟩ := exec_requireUnlocked_eq_ok h₁
  exact ⟨mk, i, hmk, hi⟩

/-- An unlocked vault without faults answers the headers of an envelope it reads. -/
theorem exec_head_of {w : World} (hf : w.vault.faults = []) {mk : ByteArray} {i : Keys.Identity}
    (hmk : w.vault.masterKey = some mk) (hi : w.vault.identity = some i) {key : Value} {k : Text}
    (hk : EntryName.ofValue key = .ok k) {vr : Stored} {e : Envelope}
    (hvr : w.store.find? w.vault.session.space (valuesPrefix ++ k) = some vr)
    (he : Envelope.load vr.data.toValue = .ok e) : (exec (head key) w).1 = .ok e.metadata := by
  unfold head
  rw [exec_bind_ok (exec_requireUnlocked_of hmk hi), exec_bind_ok (exec_checkName_of hk _),
    exec_bind_ok (exec_loadEnvelope_of hf hvr he), exec_pure]

/-- The vault stores in `space` without faults, and every envelope there is one a write made. -/
structure HeadersWritten (space : Text) (w : World) : Prop where
  session : w.vault.session.space = space
  faults : w.vault.faults = []
  envelopes : ∀ k vr, w.store.find? space (valuesPrefix ++ k) = some vr → WrittenEnvelope vr

namespace HeadersWritten

variable {space : Text} {w : World}

theorem of_keeps (h : HeadersWritten space w) {w' : World} (hk : KeepsEntries w w') :
    HeadersWritten space w' := by
  refine ⟨by rw [hk.session]; exact h.session, hk.faults.trans h.faults, fun k vr hvr => ?_⟩
  rw [← h.session, hk.values k, h.session] at hvr
  exact h.envelopes k vr hvr

theorem preserves {α : Type} {m : VaultM α} (hm : Frames m) : Preserves (HeadersWritten space) m :=
  fun w h => h.of_keeps (hm w h.faults)

/-- Changing the vault but not its session or faults changes no record. -/
theorem preserves_update {f : Vault → Vault}
    (hf : ∀ v, (f v).session = v.session ∧ (f v).faults = v.faults) :
    Preserves (HeadersWritten space) (update f) := by
  intro w h
  rw [exec_update]
  exact ⟨(hf w.vault).1 ▸ h.session, (hf w.vault).2 ▸ h.faults, h.envelopes⟩

/-- Writing both records of an entry, its envelope one with headers a write builds. -/
theorem written (h : HeadersWritten space w) (k : Text) (kr : Stored) {e : Envelope} {je : String}
    (hje : e.toJson = .ok je) {kid c ct rot : Text} {custom : List (Value × Value)}
    (he : e.metadata = buildMetadata kid c ct rot custom) :
    HeadersWritten space { w with
      store := (w.store.write space (keysPrefix ++ k) kr).write space (valuesPrefix ++ k)
        ⟨.ofString je, headerPairs e.metadata⟩ } := by
  refine ⟨h.session, h.faults, fun k' vr hvr => ?_⟩
  dsimp only at hvr
  rw [find?_values_written] at hvr
  split at hvr
  · cases hvr
    exact writtenEnvelope_of_toJson hje he
  · exact h.envelopes k' vr hvr

/-- Writing a key blob alone changes no envelope. -/
theorem keyWritten (h : HeadersWritten space w) (k : Text) (kr : Stored) :
    HeadersWritten space { w with store := w.store.write space (keysPrefix ++ k) kr } := by
  refine ⟨h.session, h.faults, fun k' vr hvr => h.envelopes k' vr ?_⟩
  dsimp only at hvr
  rwa [Store.find?_write, if_neg fun he => keys_ne_values _ _ he.2.symm] at hvr

theorem erased (h : HeadersWritten space w) (k : Text) :
    HeadersWritten space { w with
      store := (w.store.erase space (valuesPrefix ++ k)).erase space (keysPrefix ++ k) } := by
  refine ⟨h.session, h.faults, fun k' vr hvr => ?_⟩
  dsimp only at hvr
  rw [find?_values_erased] at hvr
  split at hvr
  · cases hvr
  · exact h.envelopes k' vr hvr

/-! ## Each call keeps the envelopes written -/

theorem lock : Preserves (HeadersWritten space) Vault.lock :=
  preserves_update fun _ => ⟨rfl, rfl⟩

theorem unlock (signer : Signer) : Preserves (HeadersWritten space) (Vault.unlock signer) := by
  unfold Vault.unlock
  refine lock.bind fun _ => (preserves frames_current).bind fun v => ?_
  refine Preserves.bind_liftExcept fun _ _ => Preserves.bind_liftExcept fun i _ => ?_
  refine Preserves.bind ?_ fun _ => ?_
  · exact preserves_update fun _ => ⟨rfl, rfl⟩
  -- publishing writes only the directory
  split
  · exact (preserves (frames_publish _ _ _)).bind fun _ => preserves (frames_pure _)
  · exact preserves (frames_pure _)

/-- A write keeps the envelopes written: it stores one with headers a write builds, or, when that
envelope has no JSON text, only its key blob. -/
theorem put (h : HeadersWritten space w) (key value : Value) (contentType : Option Text)
    (custom : List (Value × Value)) (writing : Writing) :
    HeadersWritten space (exec (VaultCall.put key value contentType custom writing).run w).2 := by
  simp only [VaultCall.run]
  rw [exec_bind]
  rcases hs : exec (sealEntry key value contentType custom writing) w with ⟨r, w₁⟩
  have hkeep : KeepsEntries w w₁ := by
    have := frames_sealEntry key value contentType custom writing w h.faults
    rwa [hs] at this
  have h₁ := h.of_keeps hkeep
  cases r with
  | error f =>
    rw [exec_put_of_unsealed hs]
    exact h₁
  | ok res =>
    obtain ⟨k, blob, e⟩ := res
    obtain ⟨mk, ek, p, -, -, -, hsealed, -, -⟩ := exec_sealEntry_eq_ok h.faults hs
    obtain ⟨jb, hjb⟩ := hsealed.blob_toJson
    cases hje : e.toJson with
    | ok je =>
      rw [exec_put_of_sealed h.faults hs hjb hje, h₁.session]
      exact h₁.written k _ hje hsealed.metadata_eq
    | error f =>
      rw [exec_put_of_unwritable h.faults hs hjb hje, h₁.session]
      exact h₁.keyWritten k _

theorem delete (h : HeadersWritten space w) (key : Value) :
    HeadersWritten space (exec (VaultCall.delete key).run w).2 := by
  simp only [VaultCall.run]
  rcases exec_delete_cases h.faults key with ⟨⟨f, hfail⟩, hkeep⟩ | ⟨k, w₁, hk, hkeep, hrun⟩
  · rw [exec_bind_error (Prod.ext hfail rfl)]
    exact h.of_keeps hkeep
  · have h₁ := h.of_keeps hkeep
    rw [exec_bind_ok hrun, exec_pure, h₁.session]
    exact h₁.erased k

/-- A rotation seals again an envelope a write made: the new envelope has JSON text and headers
rebuilt from the old one's under the fresh key's id, and the new key blob names that key. -/
theorem resealed (h : HeadersWritten space w) {key : Text} {cipher : Aead} {prev : Text}
    {nk : ByteArray} {blob' : KeyBlob} {e' : Envelope} {w₁ : World}
    (hs : exec (resealEntry key cipher) w = (.ok (prev, nk, blob', e'), w₁)) :
    ∃ vr e jb je, w.store.find? space (valuesPrefix ++ key) = some vr ∧
      Envelope.load vr.data.toValue = .ok e ∧
      (∃ kid c ct rot custom, e.metadata = buildMetadata kid c ct rot custom) ∧
      nk = (w.entropy.draw 32).1 ∧ blob'.keyId = Text.ofString (keyId nk) ∧
      blob'.toJson = .ok jb ∧ e'.toJson = .ok je ∧
      e'.metadata = buildMetadata (Text.ofString (keyId nk)) e.cipher e.contentType
        ((e.metadata.get? Header.keyRotation).getD (Text.ofString Rotation.perWrite.name))
        (headerPairs e.customMetadata) ∧
      KeepsEntries w w₁ := by
  obtain ⟨mk, kr, vr, b, e, ek, p, c, -, -, -, hvr, he, -, -, -, hnk, hc, hsealed, hkeep⟩ :=
    exec_resealEntry_eq_ok h.faults hs
  rw [h.session] at hvr
  obtain ⟨e₀, he₀, -, hstr, hform⟩ := h.envelopes key vr hvr
  rw [he, Except.ok.injEq] at he₀
  subst he₀
  obtain ⟨jb, je, hjb, hje⟩ := hsealed.toJson_of_resealed hstr
  refine ⟨vr, e, jb, je, hvr, he, hform, hnk, keyId_of_unwrap hsealed.unwrap_eq, hjb, hje, ?_,
    hkeep⟩
  rw [hsealed.metadata_eq, Aead.eq_name_of_ofText hc]

theorem rotate (key : Text) (gs : List Text) (cipher : Aead) :
    Preserves (HeadersWritten space) (Vault.rotate key gs cipher) := by
  intro w h
  unfold Vault.rotate
  rcases hs : exec (resealEntry key cipher) w with ⟨r, w₁⟩
  cases r with
  | error f =>
    rw [exec_bind_error hs]
    have hkeep := frames_resealEntry key cipher w h.faults
    rw [hs] at hkeep
    exact h.of_keeps hkeep
  | ok res =>
    obtain ⟨prev, nk, blob', e'⟩ := res
    rw [exec_bind_ok hs]
    dsimp only
    obtain ⟨vr, e, jb, je, -, -, -, -, -, hjb, hje, he', hkeep⟩ := h.resealed hs
    have h₁ := h.of_keeps hkeep
    rw [exec_bind_ok (exec_storeEntry h₁.faults hjb hje), h₁.session]
    exact preserves (frames_reissueAll _ _ _ _) _ (h₁.written key _ hje he')

theorem revoke (key : Value) (recipient : Text) :
    Preserves (HeadersWritten space) (Vault.revoke key recipient) := by
  unfold Vault.revoke
  refine (preserves frames_requireUnlocked).bind fun _ => ?_
  refine (preserves (frames_checkName key)).bind fun name => ?_
  refine (preserves (frames_listGrants key)).bind fun grantees => ?_
  refine (preserves frames_current).bind fun v => ?_
  split
  · exact preserves (frames_throw _)
  · refine (preserves (frames_storeDelete (offEntries_grantPath _ _) _)).bind fun _ => ?_
    exact (preserves frames_current).bind fun _ => rotate _ _ _

/-- The step lemma: one call of the owner keeps every envelope of the space one a write made,
whatever its outcome. -/
theorem step (h : HeadersWritten space w) {c : VaultCall} (ha : c.OwnerCall) :
    HeadersWritten space (exec c.run w).2 := by
  cases c with
  | unlock signer =>
    exact ((unlock signer).bind fun _ => (preserves frames_current).bind
      fun _ => preserves (frames_pure _)) w h
  | lock => exact (lock.bind fun _ => preserves (frames_pure _)) w h
  | put key value contentType custom writing => exact h.put key value contentType custom writing
  | get key reading => exact h.of_keeps (Frames.map _ (frames_getEntry key reading) w h.faults)
  | delete key => exact h.delete key
  | head key => exact h.of_keeps (((frames_head key).bind fun _ => frames_pure _) w h.faults)
  | list pathPrefix removePrefix =>
    exact h.of_keeps (Frames.map _ (frames_listEntries pathPrefix removePrefix) w h.faults)
  | grant key recipient custom =>
    exact h.of_keeps
      (((frames_grant key recipient custom).bind fun _ => frames_liftExcept _) w h.faults)
  | listGrants key => exact h.of_keeps (Frames.map _ (frames_listGrants key) w h.faults)
  | revoke key recipient =>
    exact ((revoke key recipient).bind fun _ => preserves (frames_pure _)) w h
  | _ => exact ha.elim

/-- The run lemma: calls of the owner in any number keep every envelope one a write made. -/
theorem run (h : HeadersWritten space w) {cs : List VaultCall}
    (ha : ∀ c ∈ cs, c.OwnerCall) (L : Ledger) :
    HeadersWritten space (runCalls cs (w, L)).1 := by
  induction cs generalizing w L with
  | nil => exact h
  | cons c cs ih =>
    exact ih (h.step (ha c List.mem_cons_self))
      (fun c' hc' => ha c' (List.mem_cons_of_mem _ hc')) _

/-- A vault over an empty store, storing in its own space without faults. -/
theorem fresh {v : Vault} (entropy : Entropy) (hspace : v.session.space = v.settings.space)
    (hfaults : v.faults = []) : HeadersWritten v.settings.space ⟨v, {}, entropy⟩ :=
  ⟨hspace, hfaults, fun _ _ hvr => nomatch hvr⟩

/-! ## A revoke rebuilds the headers -/

/-- A rotation of an entry whose envelope a write made stores the envelope rebuilt under the
fresh key beside its headers, and reports that key's id. -/
theorem exec_rotate_headers (h : HeadersWritten space w) {key : Text} {gs : List Text}
    {cipher : Aead} {report : Rotation.Report} {w' : World}
    (hr : exec (Vault.rotate key gs cipher) w = (.ok report, w')) :
    ∃ (vr : Stored) (e e' : Envelope) (je : String),
      w.store.find? space (valuesPrefix ++ key) = some vr ∧
      Envelope.load vr.data.toValue = .ok e ∧
      (∃ kid c ct rot custom, e.metadata = buildMetadata kid c ct rot custom) ∧
      e'.toJson = .ok je ∧
      e'.metadata = buildMetadata report.keyId e.cipher e.contentType
        ((e.metadata.get? Header.keyRotation).getD (Text.ofString Rotation.perWrite.name))
        (headerPairs e.customMetadata) ∧
      w'.store.find? space (valuesPrefix ++ key) = some ⟨.ofString je, headerPairs e'.metadata⟩ ∧
      report.keyId = Text.ofString (keyId (w.entropy.draw 32).1) ∧
      w'.vault.masterKey = w.vault.masterKey ∧ w'.vault.identity = w.vault.identity := by
  unfold Vault.rotate at hr
  obtain ⟨⟨prev, nk, blob', e'⟩, w₁, h₁, c₁⟩ := exec_bind_eq_ok hr
  obtain ⟨vr, e, jb, je, hvr, he, hform, hnk, hkid, hjb, hje, he', hkeep⟩ := h.resealed h₁
  have hw₁ := h.of_keeps hkeep
  obtain ⟨u, w₂, h₂, c₂⟩ := exec_bind_eq_ok c₁
  rw [exec_storeEntry hw₁.faults hjb hje, Prod.mk.injEq] at h₂
  obtain ⟨-, rfl⟩ := h₂
  rw [hw₁.session] at c₂
  -- the grants issued after it leave the entry's records and the keys alone
  have hw₂ := hw₁.written key ⟨.ofString jb, []⟩ hje he'
  have hkeep₂ := frames_reissueAll key nk gs { keyId := blob'.keyId, previousKeyId := prev } _
    hw₂.faults
  rw [c₂] at hkeep₂
  have hid : report.keyId = Text.ofString (keyId nk) := (keyId_reissueAll c₂).trans hkid
  have hvr' := hkeep₂.values key
  dsimp only at hvr'
  rw [hw₁.session, find?_values_written, if_pos rfl] at hvr'
  exact ⟨vr, e, e', je, hvr, he, hform, hje, by rw [he', hid], hvr', by rw [hid, hnk],
    hkeep₂.masterKey.trans hkeep.masterKey, hkeep₂.identity.trans hkeep.identity⟩

/-- A revoke that succeeds from a world whose envelopes writes made rotates the entry: the
headers `head` answers after it are those it answered before, but for the key id, which names
the fresh key, and the caller's headers with the vault's prefix, which are gone. The entry's
record keeps each beside its envelope. -/
theorem revoke_headers (h : HeadersWritten space w) {key : Value} {k : Text}
    (hk : EntryName.ofValue key = .ok k) {recipient : Text} {report : Rotation.Report}
    {w' : World} (hr : exec (Vault.revoke key recipient) w = (.ok report, w')) :
    ∃ before after, (exec (head key) w).1 = .ok before ∧ (exec (head key) w').1 = .ok after ∧
      report.keyId = Text.ofString (keyId (w.entropy.draw 32).1) ∧
      (before.map Prod.fst).Nodup ∧ (after.map Prod.fst).Nodup ∧
      (∀ n, after.lookup n = if n = Text.ofString Header.keyId then some report.keyId
        else if Header.dropped n then none else before.lookup n) ∧
      (∃ d, w.store.find? space (valuesPrefix ++ k) = some ⟨d, headerPairs before⟩) ∧
      (∃ d, w'.store.find? space (valuesPrefix ++ k) = some ⟨d, headerPairs after⟩) := by
  obtain ⟨mk, i, hmk, hi⟩ := unlocked_of_revoke hr
  obtain ⟨k', hk', -, hrot⟩ := exec_revoke_eq_ok h.faults hr
  rw [hk, Except.ok.injEq] at hk'
  subst hk'
  -- the rotation starts from the world with the grant erased, where the entry is as it was
  have hkeep₁ : KeepsEntries w { w with
      store := (w.store.touch w.vault.session.space).erase w.vault.session.space
        (Grant.path recipient k) } :=
    (KeepsEntries.touch w _).trans (KeepsEntries.erase _ _ (offEntries_grantPath recipient k))
  generalize hw₁ : { w with store := _ } = w₁ at hkeep₁ hrot
  have hentropy : w₁.entropy = w.entropy := by rw [← hw₁]
  have h₁ := h.of_keeps hkeep₁
  have h' : HeadersWritten space w' := by
    have := rotate k ((grantees w.store w.vault.session.space k).filter (· != recipient))
      w.vault.settings.cipher w₁ h₁
    rwa [hrot] at this
  obtain ⟨vr, e, e', je, hvr, he, ⟨kid, c, ct, rot, custom, hform⟩, hje, he', hvr', hid, hmk',
    hi'⟩ := h₁.exec_rotate_headers hrot
  have hvr₀ : w.store.find? space (valuesPrefix ++ k) = some vr := by
    have hv := hkeep₁.values k
    rw [h.session] at hv
    rw [← hv]
    exact hvr
  obtain ⟨e₀, he₀, hmd, -, -⟩ := h.envelopes k vr hvr₀
  rw [he, Except.ok.injEq] at he₀
  subst he₀
  have hnd : (e.metadata.map Prod.fst).Nodup := hform ▸ nodup_buildMetadata _ _ _ _ _
  have hnd' : (e'.metadata.map Prod.fst).Nodup := he' ▸ nodup_buildMetadata _ _ _ _ _
  refine ⟨e.metadata, e'.metadata, ?_, ?_, hentropy ▸ hid, hnd, hnd', fun n => ?_,
    ⟨vr.data, by rw [hvr₀, ← hmd]⟩, ⟨_, hvr'⟩⟩
  · exact exec_head_of h.faults hmk hi hk (by rw [h.session]; exact hvr₀) he
  · have hread : w'.store.find? w'.vault.session.space (valuesPrefix ++ k) =
        some ⟨.ofString je, headerPairs e'.metadata⟩ := by
      rw [h'.session]
      exact hvr'
    exact exec_head_of h'.faults (hmk'.trans (hkeep₁.masterKey.trans hmk))
      (hi'.trans (hkeep₁.identity.trans hi)) hk hread (Envelope.load_toJson hnd' hje)
  · rw [he']
    exact Envelope.lookup_rebuilt hform _ n

end HeadersWritten

/-- One owner's vault over a fresh plain store whose default space is the vault's own, after any
run of its calls, with any signers and headers: a revoke of a recipient's grant of an entry fails, or succeeds and
rotates the entry so that `head` answers, as a mapping, the headers it answered before but for
two kinds. The key id becomes the id of the fresh entry key the revoke drew, and a header the
caller gave whose name has the vault's prefix without being one of the six the vault writes is
gone; the content type, cipher, rotation policy and every other header the caller gave are
kept. The entry's record keeps the same headers beside its envelope, before and after. -/
theorem revoke_keeps_headers (v : Vault) (entropy : Entropy)
    (cs : List VaultCall) (hspace : v.session.space = v.settings.space) (hfaults : v.faults = [])
    (hcalls : ∀ c ∈ cs, c.OwnerCall) {key : Value} {k : Text}
    (hk : EntryName.ofValue key = .ok k) (recipient : Text) :
    let w := (runCalls cs (⟨v, {}, entropy⟩, fun _ => none)).1
    (∃ f, (exec (revoke key recipient) w).1 = .error f) ∨
      ∃ report before after, (exec (revoke key recipient) w).1 = .ok report ∧
        (exec (head key) w).1 = .ok before ∧
        (exec (head key) (exec (revoke key recipient) w).2).1 = .ok after ∧
        report.keyId = Text.ofString (keyId (w.entropy.draw 32).1) ∧
        (before.map Prod.fst).Nodup ∧ (after.map Prod.fst).Nodup ∧
        (∀ n, after.lookup n = if n = Text.ofString Header.keyId then some report.keyId
          else if Header.dropped n then none else before.lookup n) ∧
        (∃ d, w.store.find? v.settings.space (valuesPrefix ++ k) = some ⟨d, headerPairs before⟩) ∧
        (∃ d, (exec (revoke key recipient) w).2.store.find? v.settings.space (valuesPrefix ++ k) =
          some ⟨d, headerPairs after⟩) := by
  intro w
  have h : HeadersWritten v.settings.space w :=
    (HeadersWritten.fresh entropy hspace hfaults).run hcalls _
  rcases hres : exec (revoke key recipient) w with ⟨_ | report, w'⟩
  · exact .inl ⟨_, rfl⟩
  obtain ⟨before, after, hb, ha, hid, hnb, hna, hlook, hsb, hsa⟩ := h.revoke_headers hk hres
  exact .inr ⟨report, before, after, rfl, hb, ha, hid, hnb, hna, hlook, hsb, hsa⟩

/-- The owner of the sample run revokes its own grant of `k`, and the revoke succeeds. -/
theorem revoke_keeps_own_headers :
    sampleOwner.session.space = sampleOwner.settings.space ∧ sampleOwner.faults = [] ∧
    (∀ c ∈ selfGrant, c.OwnerCall) ∧ EntryName.ofValue sampleKey = .ok (Text.ofString "k") ∧
    let R := Text.ofString sampleOwner.principal.did
    let w := (runCalls selfGrant (⟨sampleOwner, {}, ⟨ByteArray.empty, 0⟩⟩, fun _ => none)).1
    (∃ report, (exec (revoke sampleKey R) w).1 = .ok report) ∧
    ((∃ f, (exec (revoke sampleKey R) w).1 = .error f) ∨
      ∃ report before after, (exec (revoke sampleKey R) w).1 = .ok report ∧
        (exec (head sampleKey) w).1 = .ok before ∧
        (exec (head sampleKey) (exec (revoke sampleKey R) w).2).1 = .ok after ∧
        report.keyId = Text.ofString (keyId (w.entropy.draw 32).1) ∧
        (before.map Prod.fst).Nodup ∧ (after.map Prod.fst).Nodup ∧
        (∀ n, after.lookup n = if n = Text.ofString Header.keyId then some report.keyId
          else if Header.dropped n then none else before.lookup n) ∧
        (∃ d, w.store.find? sampleOwner.settings.space (valuesPrefix ++ Text.ofString "k") =
          some ⟨d, headerPairs before⟩) ∧
        (∃ d, (exec (revoke sampleKey R) w).2.store.find? sampleOwner.settings.space
          (valuesPrefix ++ Text.ofString "k") = some ⟨d, headerPairs after⟩)) := by
  have hcalls : ∀ c ∈ selfGrant, c.OwnerCall := by
    intro c hc
    simp only [selfGrant, ownerWrite, List.cons_append, List.nil_append, List.mem_cons,
      List.mem_nil_iff, or_false] at hc
    rcases hc with rfl | rfl | rfl <;> trivial
  have hk : EntryName.ofValue sampleKey = .ok (Text.ofString "k") := rfl
  obtain ⟨report, w', hrev⟩ := selfGrant_revoke_succeeds
  exact ⟨rfl, rfl, hcalls, hk, ⟨report, by rw [hrev]⟩,
    revoke_keeps_headers sampleOwner _ selfGrant rfl rfl hcalls hk _⟩

end Vault

end Strongbox

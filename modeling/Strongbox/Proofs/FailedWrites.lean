import Strongbox.Proofs.Entries
import Strongbox.Proofs.Reads

/-!
# Failed writes

A write seals its records before it stores any: it checks the keys and the name, turns the
value into bytes, finds the entry key kept under the per-key policy and draws, and none of this
changes a record. It then stores the key blob, and only afterwards writes the envelope as JSON.
So the one failure that comes after a record is stored is an envelope without JSON text, which
a content type or a header holding a lone surrogate gives: the entry's key blob is then
replaced and its envelope is not.
-/

namespace Strongbox

namespace Envelope

/-- An envelope fails to be written as JSON only on a text holding a lone surrogate. -/
theorem toJson_error {e : Envelope} {f : Failure} (h : e.toJson = .error f) :
    f = .unencodable .surrogate := by
  unfold toJson CompactJson.write at h
  cases hw : Json.writeWith CompactJson.style
      (.record [("data", .str e.data), ("metadata", e.metadata.toJson)]) with
  | ok s => rw [hw] at h; cases h
  | error x => rw [hw] at h; exact (Except.error.inj h).symm

end Envelope

namespace Vault

/-- Worlds whose stores hold the same record at every path of every space. -/
def sameRecords : WorldOrder where
  rel w w' := ∀ n p, w'.store.find? n p = w.store.find? n p
  refl _ _ _ := rfl
  trans h₁ h₂ n p := (h₂ n p).trans (h₁ n p)

/-! ## Sealing changes no record -/

section Sealing

variable {α : Type}

theorem records_meetFaults (op : Operation) (path : Text) : Stays sameRecords (meetFaults op path) := by
  unfold meetFaults
  refine Stays.bind Stays.current fun v => ?_
  split
  · exact Stays.pure _
  · exact Stays.bind (fun _ _ _ => rfl) fun _ => Stays.throw _

theorem records_storeGet (path : Text) (space : Option Text) : Stays sameRecords (storeGet path space) := by
  unfold storeGet
  refine (records_meetFaults _ _).bind fun _ w => ?_
  simp only [exec_bind, exec_get, exec_set, exec_pure]
  exact fun n p => Store.find?_touch _ _ _ _

theorem records_storeList (pathPrefix : Text) : Stays sameRecords (storeList pathPrefix) := by
  unfold storeList
  refine (records_meetFaults _ _).bind fun _ w => ?_
  simp only [exec_bind, exec_get, exec_set, exec_pure]
  exact fun n p => Store.find?_touch _ _ _ _

theorem records_storeGetPublic (space path : Text) :
    Stays sameRecords (storeGetPublic space path) := by
  unfold storeGetPublic
  refine (records_meetFaults _ _).bind fun _ w => ?_
  simp only [exec_bind, exec_get, exec_pure]
  exact sameRecords.refl w

theorem records_drawing (m : Drawing α) : Stays sameRecords (drawing m) := by
  intro w
  rw [exec_drawing]
  exact fun _ _ => rfl

/-- Reading changes no record: reads only touch what they read. -/
theorem records_reads : KeptByReads sameRecords :=
  ⟨records_meetFaults, records_storeGet, records_storeList, records_storeGetPublic, records_drawing⟩

/-- Everything a write does before it stores its records leaves every record as it was, from
any world, faults or not. -/
theorem records_sealEntry (key value : Value) (contentType : Option Text)
    (custom : List (Value × Value)) (writing : Writing) :
    Stays sameRecords (sealEntry key value contentType custom writing) :=
  records_reads.sealEntry key value contentType custom writing

end Sealing

/-- Worlds whose vaults work in the same session. -/
def sameSession : WorldOrder where
  rel w w' := w'.vault.session = w.vault.session
  refl _ := rfl
  trans h₁ h₂ := h₂.trans h₁

section Session

variable {α : Type}

theorem session_meetFaults (op : Operation) (path : Text) : Stays sameSession (meetFaults op path) := by
  unfold meetFaults
  refine Stays.bind Stays.current fun v => ?_
  split
  · exact Stays.pure _
  · exact Stays.bind (fun _ => rfl) fun _ => Stays.throw _

theorem session_storeGet (path : Text) (space : Option Text) : Stays sameSession (storeGet path space) := by
  unfold storeGet
  refine (session_meetFaults _ _).bind fun _ w => ?_
  simp only [exec_bind, exec_get, exec_set, exec_pure]
  rfl

theorem session_storeList (pathPrefix : Text) : Stays sameSession (storeList pathPrefix) := by
  unfold storeList
  refine (session_meetFaults _ _).bind fun _ w => ?_
  simp only [exec_bind, exec_get, exec_set, exec_pure]
  rfl

theorem session_storeGetPublic (space path : Text) :
    Stays sameSession (storeGetPublic space path) := by
  unfold storeGetPublic
  refine (session_meetFaults _ _).bind fun _ w => ?_
  simp only [exec_bind, exec_get, exec_pure]
  rfl

theorem session_drawing (m : Drawing α) : Stays sameSession (drawing m) := by
  intro w
  rw [exec_drawing]
  rfl

/-- Reading keeps the session. -/
theorem session_reads : KeptByReads sameSession :=
  ⟨session_meetFaults, session_storeGet, session_storeList, session_storeGetPublic, session_drawing⟩

end Session

/-! ## Storing under faults -/

section Storing

variable {w : World}

/-- A pending fault that fires on a store call fails it, as a store failure or, for a fault set
so, as an integrity failure; the fault is used up and nothing else changes. -/
theorem exec_meetFaults_fire {op : Operation} {path : Text} {f : Fault} {fs : List Fault}
    (hfire : Fault.fire w.vault.faults op path = some (f, fs)) :
    exec (meetFaults op path) w =
      (.error (if f.integrity then .injectedIntegrity else .storage op.name path),
        { w with vault := { w.vault with faults := fs } }) := by
  simp only [meetFaults, exec_bind, exec_current, hfire, exec_update, exec_throw]

/-- A store call goes ahead in the world as it was, or a fault fires and fails it. -/
theorem exec_meetFaults_cases (op : Operation) (path : Text) (w : World) :
    exec (meetFaults op path) w = (.ok (), w) ∨
      ∃ f fs, Fault.fire w.vault.faults op path = some (f, fs) ∧
        exec (meetFaults op path) w =
          (.error (if f.integrity then .injectedIntegrity else .storage op.name path),
            { w with vault := { w.vault with faults := fs } }) := by
  cases hfire : Fault.fire w.vault.faults op path with
  | none =>
    left
    simp only [meetFaults, exec_bind, exec_current, hfire, exec_pure]
  | some r => exact .inr ⟨r.1, r.2, rfl, exec_meetFaults_fire hfire⟩

/-- A record write that the store refuses keeps the refusal as its result; the fault is used up. -/
theorem exec_attempt_storePut_refused {path : Text} {data : Data}
    {metadata : List (Value × Value)} {f : Fault} {fs : List Fault}
    (hfire : Fault.fire w.vault.faults .put path = some (f, fs)) (hi : f.integrity = false) :
    exec (attempt (storePut path data metadata)) w =
      (.ok (some (.storage Operation.put.name path)),
        { w with vault := { w.vault with faults := fs } }) := by
  unfold attempt storePut
  rw [exec_tryCatch, exec_bind, exec_bind, exec_meetFaults_fire hfire, hi]
  rfl

/-- A record write tried by a write of an entry stores the record, or the store refuses it and
the refusal is kept as the result, or it meets an integrity fault, which ends the write; only a
stored record changes the store. -/
theorem attempt_storePut_cases (path : Text) (data : Data) (metadata : List (Value × Value))
    (w : World) :
    ∃ r w', exec (attempt (storePut path data metadata)) w = (r, w') ∧
      ((r = .ok none ∧ w'.store = w.store.write w.vault.session.space path ⟨data, metadata⟩) ∨
        ((r = .ok (some (.storage Operation.put.name path)) ∨ r = .error .injectedIntegrity) ∧
          w'.store = w.store)) := by
  unfold attempt storePut
  rcases exec_meetFaults_cases .put path w with h | ⟨f, fs, hfire, h⟩
  · refine ⟨_, _, by rw [exec_tryCatch, exec_bind, exec_bind, h]; rfl, .inl ⟨rfl, rfl⟩⟩
  · -- the fault is used up, and the store is as it was
    cases hi : f.integrity with
    | true =>
      refine ⟨.error .injectedIntegrity, { w with vault := { w.vault with faults := fs } }, ?_,
        .inr ⟨.inr rfl, rfl⟩⟩
      rw [exec_tryCatch, exec_bind, exec_bind, h, hi]
      rfl
    | false => exact ⟨_, _, exec_attempt_storePut_refused hfire hi, .inr ⟨.inl rfl, rfl⟩⟩

/-- Storing an entry fails with anything but a store failure either before it has stored a
record, or having stored only the key blob: when the envelope has no JSON text, or when the
store meets the envelope's write with an integrity fault. -/
theorem storeEntry_failure {key : Text} {blob : KeyBlob} {e : Envelope} {jb : String}
    {f : Failure} (hb : blob.toJson = .ok jb) (h : (exec (storeEntry key blob e) w).1 = .error f)
    (hns : f.kind ≠ .storage) :
    (exec (storeEntry key blob e) w).2.store = w.store ∨
      ((e.toJson = .error f ∨ f = .injectedIntegrity) ∧
        (exec (storeEntry key blob e) w).2.store =
          w.store.write w.vault.session.space (keysPrefix ++ key) ⟨.ofString jb, []⟩) := by
  unfold storeEntry at h ⊢
  rw [exec_bind_ok (by rw [exec_liftExcept, hb])] at h ⊢
  obtain ⟨r₁, w₁, hx₁, ⟨rfl, hst₁⟩ | ⟨rfl | rfl, hst₁⟩⟩ :=
    attempt_storePut_cases (keysPrefix ++ key) (.ofString jb) [] w
  · -- the key blob is stored
    rw [exec_bind_ok hx₁] at h ⊢
    revert h
    cases e.toJson with
    | error f' =>
      intro h
      rw [exec_bind_error (by rw [exec_liftExcept])] at h ⊢
      cases h
      exact .inr ⟨.inl rfl, hst₁⟩
    | ok je =>
      intro h
      rw [exec_bind_ok (by rw [exec_liftExcept])] at h ⊢
      obtain ⟨r₂, w₂, hx₂, ⟨rfl, -⟩ | ⟨rfl | rfl, hst₂⟩⟩ :=
        attempt_storePut_cases (valuesPrefix ++ key) (.ofString je) (headerPairs e.metadata) w₁
      · rw [exec_bind_ok hx₂] at h
        cases h
      · rw [exec_bind_ok hx₂] at h
        cases h
        exact absurd rfl hns
      · rw [exec_bind_error hx₂] at h ⊢
        cases h
        exact .inr ⟨.inr rfl, hst₂.trans hst₁⟩
  · -- the store refused the key blob
    rw [exec_bind_ok hx₁] at h ⊢
    revert h
    cases e.toJson with
    | error f' =>
      intro h
      rw [exec_bind_error (by rw [exec_liftExcept])]
      exact .inl hst₁
    | ok je =>
      intro h
      rw [exec_bind_ok (by rw [exec_liftExcept])] at h ⊢
      obtain ⟨r₂, w₂, hx₂, ⟨rfl, -⟩ | ⟨rfl | rfl, hst₂⟩⟩ :=
        attempt_storePut_cases (valuesPrefix ++ key) (.ofString je) (headerPairs e.metadata) w₁
      · rw [exec_bind_ok hx₂] at h
        cases h
        exact absurd rfl hns
      · rw [exec_bind_ok hx₂] at h
        cases h
        exact absurd rfl hns
      · rw [exec_bind_error hx₂]
        exact .inl (hst₂.trans hst₁)
  · -- an integrity fault on the key blob
    rw [exec_bind_error hx₁] at h ⊢
    exact .inl hst₁

/-- A write of an entry whose key blob the store refuses and whose envelope has no JSON text
fails on the envelope, having stored nothing. -/
theorem exec_storeEntry_refused_unwritable {key : Text} {blob : KeyBlob} {e : Envelope}
    {jb : String} {f : Failure} {flt : Fault} {fs : List Fault} (hb : blob.toJson = .ok jb)
    (hfire : Fault.fire w.vault.faults .put (keysPrefix ++ key) = some (flt, fs))
    (hi : flt.integrity = false) (he : e.toJson = .error f) :
    exec (storeEntry key blob e) w = (.error f, { w with vault := { w.vault with faults := fs } }) := by
  unfold storeEntry
  rw [exec_bind_ok (by rw [exec_liftExcept, hb]),
    exec_bind_ok (exec_attempt_storePut_refused hfire hi), exec_bind_error (by rw [exec_liftExcept, he])]

end Storing

/-- A write that fails with anything but a store failure leaves every record of every space as
it was, whatever faults are pending, with two exceptions, both after the key blob is stored: its
envelope cannot be written as JSON, which happens only when the content type or a header holds a
lone surrogate, or the store meets the envelope's write with an integrity fault. Then it has
replaced the entry's key blob, and changed nothing else. -/
theorem put_failure_keeps_records {w : World} {key value : Value} {contentType : Option Text}
    {custom : List (Value × Value)} {writing : Writing} {f : Failure}
    (h : (exec (put key value contentType custom writing) w).1 = .error f)
    (hns : f.kind ≠ .storage) :
    (∀ n p, (exec (put key value contentType custom writing) w).2.store.find? n p =
      w.store.find? n p) ∨
    ((f = .unencodable .surrogate ∧
        ¬((∀ c, contentType = some c → c.IsString) ∧ Headers.AllStrings (Headers.ofValues custom)) ∨
      f = .injectedIntegrity) ∧
      ∃ k kr, EntryName.ofValue key = .ok k ∧
        ∀ n p, (exec (put key value contentType custom writing) w).2.store.find? n p =
          (w.store.write w.vault.session.space (keysPrefix ++ k) kr).find? n p) := by
  rcases hs : exec (sealEntry key value contentType custom writing) w with ⟨r, w₁⟩
  have h₁ : sameRecords.rel w w₁ := by
    have := records_sealEntry key value contentType custom writing w
    rwa [hs] at this
  cases r with
  | error e =>
    rw [exec_put_of_unsealed hs]
    exact .inl h₁
  | ok sealed =>
    obtain ⟨k, blob, e⟩ := sealed
    obtain ⟨_, _, _, _, _, -, hk, -, hsealed, -, -⟩ := exec_sealEntry_sealed hs
    have hses : w₁.vault.session = w.vault.session := by
      have := session_reads.sealEntry key value contentType custom writing w
      rwa [hs] at this
    obtain ⟨jb, hjb⟩ := hsealed.blob_toJson
    have hput : exec (put key value contentType custom writing) w =
        exec (storeEntry k blob e >>= fun _ => pure e.metadata) w₁ := by
      unfold put
      rw [exec_bind_ok hs]
    rcases hst : exec (storeEntry k blob e) w₁ with ⟨r₂, w₂⟩
    cases r₂ with
    | ok u =>
      rw [hput, exec_bind_ok hst] at h
      cases h
    | error f' =>
      rw [hput, exec_bind_error hst] at h ⊢
      cases h
      have hfail := storeEntry_failure hjb (by rw [hst]) hns
      rw [hst] at hfail
      rcases hfail with hsame | ⟨hwhy, hw⟩
      · exact .inl fun n p => by rw [hsame]; exact h₁ n p
      · refine .inr ⟨?_, k, ⟨.ofString jb, []⟩, hk, fun n p => ?_⟩
        · rcases hwhy with he | rfl
          · refine .inl ⟨Envelope.toJson_error he, fun ⟨hct, hcustom⟩ => ?_⟩
            -- text headers give the envelope JSON text
            obtain ⟨je, hje⟩ := hsealed.envelope_toJson (isString_contentTypeOf value hct)
              (Text.isString_ofString _) hcustom
            rw [hje] at he
            cases he
          · exact .inr rfl
        · rw [hw, Store.find?_write, Store.find?_write, h₁ n p, hses]

/-- An unlocked vault whose store refuses the next write. -/
def refusingWorld : World :=
  ⟨{ principal := ⟨"eip155", "1", "0xa1"⟩
     settings := { space := Text.ofString "home" }
     session := ⟨Text.ofString "home"⟩
     faults := [{ operation := some .put, remaining := some 1 }]
     masterKey := some (Bytes.replicate 32 1)
     identity := some (Keys.identityOf ⟨#[1]⟩) }, {}, ⟨ByteArray.empty, 0⟩⟩

/-- A write under a content type holding a lone surrogate, whose key blob the store refuses:
it seals both records, fails on the envelope, and changes no record. -/
theorem put_failure_keeps_records_refused_blob :
    (exec (put (.str (Text.ofString "k")) (.bytes ⟨#[7]⟩) (some ⟨[0xD800]⟩) [] .raw)
      refusingWorld).1 = .error (.unencodable .surrogate) ∧
    (Failure.unencodable .surrogate).kind ≠ .storage ∧
    ((∀ n p, (exec (put (.str (Text.ofString "k")) (.bytes ⟨#[7]⟩) (some ⟨[0xD800]⟩) [] .raw)
        refusingWorld).2.store.find? n p = refusingWorld.store.find? n p) ∨
      ((Failure.unencodable .surrogate = .unencodable .surrogate ∧
          ¬((∀ c, (some ⟨[0xD800]⟩ : Option Text) = some c → c.IsString) ∧
            Headers.AllStrings (Headers.ofValues [])) ∨
        Failure.unencodable .surrogate = .injectedIntegrity) ∧
        ∃ k kr, EntryName.ofValue (.str (Text.ofString "k")) = .ok k ∧
          ∀ n p, (exec (put (.str (Text.ofString "k")) (.bytes ⟨#[7]⟩) (some ⟨[0xD800]⟩) [] .raw)
            refusingWorld).2.store.find? n p =
            (refusingWorld.store.write refusingWorld.vault.session.space (keysPrefix ++ k) kr).find?
              n p)) := by
  have hk : EntryName.ofValue (.str (Text.ofString "k")) = .ok (Text.ofString "k") := rfl
  have hp : plaintextOf (.bytes ⟨#[7]⟩) (contentTypeOf (.bytes ⟨#[7]⟩) (some ⟨[0xD800]⟩)) .raw =
      .ok ⟨#[7]⟩ := rfl
  obtain ⟨blob, e, hsealed, hs⟩ := exec_sealEntry_perWrite (w := refusingWorld) rfl rfl
    (Bytes.size_replicate_eq 32 1) rfl hk hp
  -- the write goes on to store what it sealed
  have hput : exec (put (.str (Text.ofString "k")) (.bytes ⟨#[7]⟩) (some ⟨[0xD800]⟩) [] .raw)
      refusingWorld = exec (storeEntry (Text.ofString "k") blob e >>= fun _ => pure e.metadata)
        { refusingWorld with
          entropy := (((refusingWorld.entropy.draw 32).2.draw nonceSize).2.draw nonceSize).2 } := by
    unfold put
    rw [exec_bind_ok hs]
  obtain ⟨jb, hjb⟩ := hsealed.blob_toJson
  -- the envelope records the content type, which has no JSON text
  have he : e.toJson = .error (.unencodable .surrogate) := by
    obtain ⟨nv, -, rfl⟩ := hsealed.sealed
    cases hj : (Envelope.sealed _ _ _ nv _ _ _).toJson with
    | ok j =>
      refine absurd hj (Envelope.toJson_sealed_ne_of_not_isString (fun h => ?_) j)
      exact absurd (h 0xD800 (List.mem_singleton_self _)).1 (by decide)
    | error f => rw [Envelope.toJson_error hj]
  have hfail : (exec (put (.str (Text.ofString "k")) (.bytes ⟨#[7]⟩) (some ⟨[0xD800]⟩) [] .raw)
      refusingWorld).1 = .error (.unencodable .surrogate) := by
    rw [hput, exec_bind_error (exec_storeEntry_refused_unwritable hjb rfl rfl he)]
  exact ⟨hfail, by decide, put_failure_keeps_records hfail (by decide)⟩

end Vault

end Strongbox

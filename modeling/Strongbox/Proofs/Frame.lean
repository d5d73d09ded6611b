import Strongbox.Proofs.Runs
import Strongbox.Proofs.Layout

/-!
# Operations that leave entries alone

`KeepsEntries w w'` says that `w'` has what the vault's entries depend on in `w`: the settings,
session, keys and faults of the vault, and both records of every entry in its space. An
operation `Frames` when every run of it from a world without faults ends in a world that keeps
entries, whether it succeeds or fails. Frames compose through `bind`, `tryCatch` and loops;
reading, listing, resolving keys, granting and issuing grants all frame, as does every step of
a write before its records are stored.
-/

namespace Strongbox

namespace Vault

/-- `w'` keeps the vault's settings, session, keys and faults, and the records of every entry
of its space. -/
structure KeepsEntries (w w' : World) : Prop where
  settings : w'.vault.settings = w.vault.settings
  session : w'.vault.session = w.vault.session
  masterKey : w'.vault.masterKey = w.vault.masterKey
  identity : w'.vault.identity = w.vault.identity
  faults : w'.vault.faults = w.vault.faults
  keys : ∀ k, w'.store.find? w.vault.session.space (keysPrefix ++ k) =
    w.store.find? w.vault.session.space (keysPrefix ++ k)
  values : ∀ k, w'.store.find? w.vault.session.space (valuesPrefix ++ k) =
    w.store.find? w.vault.session.space (valuesPrefix ++ k)
  distinct : w.store.Distinct w.vault.session.space → w'.store.Distinct w.vault.session.space

namespace KeepsEntries

theorem refl (w : World) : KeepsEntries w w :=
  ⟨rfl, rfl, rfl, rfl, rfl, fun _ => rfl, fun _ => rfl, id⟩

theorem trans {w₁ w₂ w₃ : World} (h₁ : KeepsEntries w₁ w₂) (h₂ : KeepsEntries w₂ w₃) :
    KeepsEntries w₁ w₃ := by
  have hs : w₂.vault.session.space = w₁.vault.session.space := by rw [h₁.session]
  refine ⟨h₂.settings.trans h₁.settings, h₂.session.trans h₁.session,
    h₂.masterKey.trans h₁.masterKey, h₂.identity.trans h₁.identity, h₂.faults.trans h₁.faults,
    fun k => ?_, fun k => ?_, fun hd => ?_⟩
  · rw [← hs, h₂.keys k, hs, h₁.keys k]
  · rw [← hs, h₂.values k, hs, h₁.values k]
  · rw [← hs]
    exact h₂.distinct (hs ▸ h₁.distinct hd)

/-- A change of the entropy alone keeps entries. -/
theorem entropy (w : World) (e : Entropy) : KeepsEntries w { w with entropy := e } :=
  ⟨rfl, rfl, rfl, rfl, rfl, fun _ => rfl, fun _ => rfl, id⟩

/-- Touching a space keeps entries. -/
theorem touch (w : World) (n : Text) : KeepsEntries w { w with store := w.store.touch n } :=
  ⟨rfl, rfl, rfl, rfl, rfl, fun _ => Store.find?_touch _ _ _ _,
    fun _ => Store.find?_touch _ _ _ _, fun hd => Store.distinct_touch hd n⟩

theorem write (w : World) (n : Text) {path : Text} (hp : OffEntries path) (v : Stored) :
    KeepsEntries w { w with store := w.store.write n path v } := by
  refine ⟨rfl, rfl, rfl, rfl, rfl, fun k => ?_, fun k => ?_, fun hd => Store.distinct_write hd n path v⟩
  · rw [Store.find?_write, if_neg]
    exact fun h => (hp k).1 h.2.symm
  · rw [Store.find?_write, if_neg]
    exact fun h => (hp k).2 h.2.symm

theorem erase (w : World) (n : Text) {path : Text} (hp : OffEntries path) :
    KeepsEntries w { w with store := w.store.erase n path } := by
  refine ⟨rfl, rfl, rfl, rfl, rfl, fun k => ?_, fun k => ?_, fun hd => Store.distinct_erase hd n path⟩
  · rw [Store.find?_erase, if_neg]
    exact fun h => (hp k).1 h.2.symm
  · rw [Store.find?_erase, if_neg]
    exact fun h => (hp k).2 h.2.symm

end KeepsEntries

variable {α β : Type}

/-- Every run from a world without faults ends in a world that keeps entries. -/
def Frames (m : VaultM α) : Prop := ∀ w, w.vault.faults = [] → KeepsEntries w (exec m w).2

namespace Frames

theorem bind {m : VaultM α} {f : α → VaultM β} (hm : Frames m) (hf : ∀ a, Frames (f a)) :
    Frames (m >>= f) := by
  intro w hw
  rw [exec_bind]
  rcases h : exec m w with ⟨r, w'⟩
  have h₁ : KeepsEntries w w' := by
    have := hm w hw
    rw [h] at this
    exact this
  cases r with
  | ok a => exact h₁.trans (hf a w' (h₁.faults.trans hw))
  | error e => exact h₁

theorem tryCatch {m : VaultM α} {h : Failure → VaultM α} (hm : Frames m)
    (hh : ∀ e, Frames (h e)) : Frames (tryCatch m h) := by
  intro w hw
  rw [exec_tryCatch]
  rcases hr : exec m w with ⟨r, w'⟩
  have h₁ : KeepsEntries w w' := by
    have := hm w hw
    rw [hr] at this
    exact this
  cases r with
  | ok a => exact h₁
  | error e => exact h₁.trans (hh e w' (h₁.faults.trans hw))

theorem map {m : VaultM α} (g : α → β) (hm : Frames m) : Frames (g <$> m) := by
  intro w hw
  rw [exec_map]
  exact hm w hw

theorem forIn {xs : List α} {init : β} {f : α → β → VaultM (ForInStep β)}
    (hf : ∀ x b, Frames (f x b)) : Frames (forIn xs init f) := by
  induction xs generalizing init with
  | nil => exact fun w _ => by rw [List.forIn_nil]; exact KeepsEntries.refl w
  | cons x xs ih =>
    rw [List.forIn_cons]
    refine bind (hf x init) fun step => ?_
    cases step with
    | done b => exact fun w _ => KeepsEntries.refl w
    | yield b => exact ih

end Frames

/-- A run whose first step frames fails there, keeping entries, or goes on from where the step
left. -/
theorem exec_bind_of_frames {m : VaultM α} {f : α → VaultM β} (hm : Frames m) {w : World}
    (hf : w.vault.faults = []) :
    ((∃ e, (exec (m >>= f) w).1 = .error e) ∧ KeepsEntries w (exec (m >>= f) w).2) ∨
      ∃ a w₁, exec m w = (.ok a, w₁) ∧ KeepsEntries w w₁ ∧ exec (m >>= f) w = exec (f a) w₁ := by
  rcases h : exec m w with ⟨r, w₁⟩
  have h₁ : KeepsEntries w w₁ := by
    have := hm w hf
    rwa [h] at this
  cases r with
  | ok a => exact .inr ⟨a, w₁, rfl, h₁, exec_bind_ok h⟩
  | error e =>
    rw [exec_bind_error h]
    exact .inl ⟨⟨e, rfl⟩, h₁⟩

/-- A loop whose every step succeeds and keeps entries succeeds and keeps entries. -/
theorem exec_forIn_ok (xs : List α) {f : α → β → VaultM (ForInStep β)}
    (hf : ∀ x b w, w.vault.faults = [] → ∃ s w', exec (f x b) w = (.ok s, w') ∧ KeepsEntries w w')
    (b : β) (w : World) (hw : w.vault.faults = []) :
    ∃ b' w', exec (forIn xs b f) w = (.ok b', w') ∧ KeepsEntries w w' := by
  induction xs generalizing b w with
  | nil => exact ⟨b, w, by rw [List.forIn_nil]; rfl, KeepsEntries.refl w⟩
  | cons x xs ih =>
    rw [List.forIn_cons]
    obtain ⟨s, w₁, h₁, k₁⟩ := hf x b w hw
    rw [exec_bind_ok h₁]
    cases s with
    | done b' => exact ⟨b', w₁, rfl, k₁⟩
    | yield b' =>
      obtain ⟨b'', w₂, h₂, k₂⟩ := ih b' w₁ (k₁.faults.trans hw)
      exact ⟨b'', w₂, h₂, k₁.trans k₂⟩


/-! ## Primitives -/

theorem frames_pure (a : α) : Frames (pure a : VaultM α) := fun w _ => KeepsEntries.refl w

theorem frames_throw (e : Failure) : Frames (throw e : VaultM α) := fun w _ => KeepsEntries.refl w

theorem frames_liftExcept (x : Except Failure α) : Frames (liftExcept x) := by
  intro w _
  rw [exec_liftExcept]
  exact KeepsEntries.refl w

theorem frames_current : Frames current := fun w _ => KeepsEntries.refl w

theorem frames_requireUnlocked : Frames requireUnlocked := by
  intro w _
  rw [exec_requireUnlocked]
  cases w.vault.masterKey <;> cases w.vault.identity <;> exact KeepsEntries.refl w

theorem frames_drawing (m : Drawing α) : Frames (drawing m) := by
  intro w _
  rw [exec_drawing]
  exact KeepsEntries.entropy w _

/-- A change of the vault that keeps its settings, session, keys and faults. -/
theorem frames_update {f : Vault → Vault}
    (hf : ∀ v, (f v).settings = v.settings ∧ (f v).session = v.session ∧
      (f v).masterKey = v.masterKey ∧ (f v).identity = v.identity ∧ (f v).faults = v.faults) :
    Frames (update f) := by
  intro w _
  rw [exec_update]
  obtain ⟨h1, h2, h3, h4, h5⟩ := hf w.vault
  exact ⟨h1, h2, h3, h4, h5, fun _ => rfl, fun _ => rfl, id⟩

theorem frames_storeGet (path : Text) (space : Option Text) : Frames (storeGet path space) := by
  intro w hw
  rw [exec_storeGet hw]
  exact KeepsEntries.touch w _

theorem frames_storeList (pathPrefix : Text) : Frames (storeList pathPrefix) := by
  intro w hw
  rw [exec_storeList hw]
  exact KeepsEntries.touch w _

theorem frames_storeGetPublic (space path : Text) : Frames (storeGetPublic space path) := by
  intro w hw
  rw [exec_storeGetPublic hw]
  exact KeepsEntries.refl w

theorem frames_storePut {path : Text} (hp : OffEntries path) (data : Data)
    (metadata : List (Value × Value)) (space : Option Text) :
    Frames (storePut path data metadata space) := by
  intro w hw
  rw [exec_storePut hw]
  exact KeepsEntries.write w _ hp _

theorem frames_storeDelete {path : Text} (hp : OffEntries path) (space : Option Text) :
    Frames (storeDelete path space) := by
  intro w hw
  rw [exec_storeDelete hw]
  exact KeepsEntries.erase w _ hp

/-! ## Operations that frame -/

theorem frames_checkName (key : Value) : Frames (checkName key) := frames_liftExcept _

theorem frames_loadKeyBlob (key : Text) : Frames (loadKeyBlob key) := by
  unfold loadKeyBlob
  refine (frames_storeGet _ _).bind fun r => ?_
  cases r with
  | none => exact frames_throw _
  | some s => exact frames_liftExcept _

theorem frames_loadEnvelope (key : Text) (space : Option Text) :
    Frames (loadEnvelope key space) := by
  unfold loadEnvelope
  refine (frames_storeGet _ _).bind fun r => ?_
  cases r with
  | none => exact frames_throw _
  | some s => exact frames_liftExcept _

theorem frames_readPair (master : ByteArray) (key : Text) : Frames (readPair master key) := by
  unfold readPair
  refine (frames_loadKeyBlob key).bind fun blob => ?_
  refine (frames_liftExcept _).bind fun entryKey => ?_
  refine (frames_loadEnvelope key none).bind fun e => ?_
  exact frames_pure _

theorem frames_readAgreed (master : ByteArray) (key : Text) :
    Frames (readAgreed master key) := by
  unfold readAgreed
  refine (frames_readPair master key).bind fun ⟨agree, blob, entryKey, e⟩ => ?_
  cases agree
  · refine (frames_readPair master key).bind fun ⟨agree, blob, entryKey, e⟩ => ?_
    cases agree
    · exact frames_throw _
    · exact frames_pure _
  · exact frames_pure _

theorem frames_getEntry (key : Value) (reading : Reading) : Frames (getEntry key reading) := by
  unfold getEntry
  refine frames_requireUnlocked.bind fun ⟨master, _⟩ => ?_
  refine (frames_checkName key).bind fun name => ?_
  refine (frames_readAgreed master name).bind fun ⟨blob, entryKey, e⟩ => ?_
  refine (frames_liftExcept _).bind fun plaintext => ?_
  refine (frames_liftExcept _).bind fun value => ?_
  exact frames_pure _

theorem frames_head (key : Value) : Frames (head key) := by
  unfold head
  refine frames_requireUnlocked.bind fun _ => ?_
  refine (frames_checkName key).bind fun name => ?_
  refine (frames_loadEnvelope name none).bind fun e => ?_
  exact frames_pure _

theorem frames_listEntries (pathPrefix : Option Text) (removePrefix : Bool) :
    Frames (listEntries pathPrefix removePrefix) := by
  unfold listEntries
  refine frames_requireUnlocked.bind fun _ => ?_
  refine (frames_storeList _).bind fun names => ?_
  exact frames_pure _

theorem frames_listGrants (key : Value) : Frames (listGrants key) := by
  unfold listGrants
  refine frames_requireUnlocked.bind fun _ => ?_
  refine (frames_checkName key).bind fun name => ?_
  refine (frames_storeList _).bind fun paths => ?_
  exact frames_pure _

theorem frames_readText (space path : String) : Frames (readText space path) := by
  unfold readText
  refine (frames_storeGetPublic _ _).bind fun r => ?_
  cases r with
  | none => exact frames_pure _
  | some s =>
    dsimp only
    split <;> exact frames_pure _

theorem frames_resolve (did : Text) : Frames (resolve did) := by
  unfold resolve
  refine frames_current.bind fun v => ?_
  split
  · exact frames_pure _
  · refine (frames_liftExcept _).bind fun p => ?_
    refine (frames_readText _ _).bind fun t => ?_
    refine (frames_liftExcept _).bind fun key => ?_
    refine (frames_readText _ _).bind fun version => ?_
    refine (frames_readText _ _).bind fun vaultSpace => ?_
    extract_lets pointer record
    refine (frames_update ?_).bind fun _ => frames_pure _
    exact fun _ => ⟨rfl, rfl, rfl, rfl, rfl⟩

theorem frames_resolvePublicKey (did : Text) : Frames (resolvePublicKey did) := by
  unfold resolvePublicKey
  refine (frames_resolve did).bind fun r => ?_
  exact frames_pure _

theorem frames_grant (key : Value) (recipient : Text) (custom : List (Value × Value)) :
    Frames (grant key recipient custom) := by
  unfold grant
  refine frames_requireUnlocked.bind fun ⟨master, _⟩ => ?_
  refine (frames_checkName key).bind fun name => ?_
  refine (frames_resolvePublicKey recipient).bind fun publicKey => ?_
  refine (frames_loadKeyBlob name).bind fun blob => ?_
  refine (Frames.tryCatch (frames_drawing _) fun e => ?_).bind fun sealed => ?_
  · split <;> exact frames_throw _
  refine frames_current.bind fun v => ?_
  refine (frames_liftExcept _).bind fun json => ?_
  refine (frames_storePut (offEntries_grantPath _ _) _ _ _).bind fun _ => ?_
  exact frames_pure _

theorem frames_reissue (key : Text) (entryKey : ByteArray) (recipient : Text) :
    Frames (reissue key entryKey recipient) := by
  unfold reissue
  refine (frames_resolvePublicKey recipient).bind fun publicKey => ?_
  refine (frames_drawing _).bind fun sealed => ?_
  refine frames_current.bind fun v => ?_
  refine (frames_liftExcept _).bind fun json => ?_
  exact frames_storePut (offEntries_grantPath _ _) _ _ _

theorem frames_reissueAll (key : Text) (entryKey : ByteArray) (grantees : List Text)
    (report : Rotation.Report) : Frames (reissueAll key entryKey grantees report) := by
  induction grantees generalizing report with
  | nil => exact frames_pure _
  | cons recipient rest ih =>
    unfold reissueAll
    refine Frames.bind ?_ fun failure => ih _
    refine Frames.tryCatch ((frames_reissue key entryKey recipient).bind fun _ => frames_pure _)
      fun f => ?_
    split
    · exact frames_pure _
    · exact frames_throw _

theorem frames_publish (p : Principal) (publicKey : ByteArray) (vaultSpace : Option Text) :
    Frames (publish p publicKey vaultSpace) := by
  unfold publish
  extract_lets space did record cacheIt rest
  have hcache : ∀ u, Frames (cacheIt u) := fun _ => frames_update fun _ => ⟨rfl, rfl, rfl, rfl, rfl⟩
  -- every path written is a directory path of the public space
  have hrest : ∀ u, Frames (rest u) := by
    intro u
    refine (frames_storePut (offEntries_directory (.inl rfl)) _ _ _).bind fun _ =>
      (frames_storePut (offEntries_directory (.inr (.inl rfl))) _ _ _).bind fun _ => ?_
    split
    · split
      · exact (frames_storePut (offEntries_directory (.inr (.inr rfl))) _ _ _).bind
          fun x => hcache x
      · exact (frames_storeDelete (offEntries_directory (.inr (.inr rfl))) _).bind
          fun x => hcache x
    · exact (frames_storeDelete (offEntries_directory (.inr (.inr rfl))) _).bind fun x => hcache x
  split
  · exact (frames_throw _).bind fun x => hrest x
  · exact hrest ()

theorem frames_keptKey (master : ByteArray) (key : Text) (rotation : Rotation) :
    Frames (keptKey master key rotation) := by
  cases rotation with
  | perKey =>
    refine Frames.tryCatch ?_ fun e => ?_
    · exact (frames_loadKeyBlob key).bind fun _ => (frames_liftExcept _).bind fun _ => frames_pure _
    · split
      · exact frames_pure _
      · exact frames_throw _
  | perWrite => exact frames_pure _

theorem frames_entryKeyOf (kept : Option ByteArray) : Frames (entryKeyOf kept) := by
  cases kept with
  | some k => exact frames_pure _
  | none => exact frames_drawing _

/-- Everything a write does before it stores its records. -/
theorem frames_sealEntry (key value : Value) (contentType : Option Text)
    (custom : List (Value × Value)) (writing : Writing) :
    Frames (sealEntry key value contentType custom writing) := by
  unfold sealEntry
  refine frames_requireUnlocked.bind fun ⟨master, _⟩ => ?_
  refine (frames_checkName key).bind fun name => ?_
  refine frames_current.bind fun v => ?_
  refine (frames_liftExcept _).bind fun plaintext => ?_
  refine (frames_keptKey master name _).bind fun kept => ?_
  refine (frames_entryKeyOf kept).bind fun entryKey => ?_
  refine (frames_drawing _).bind fun blob => ?_
  refine (frames_drawing _).bind fun e => ?_
  exact frames_pure _

/-- Everything a rotation does before it stores the new records. -/
theorem frames_resealEntry (key : Text) (cipher : Aead) : Frames (resealEntry key cipher) := by
  unfold resealEntry
  refine frames_requireUnlocked.bind fun ⟨master, _⟩ => ?_
  refine (frames_loadKeyBlob key).bind fun blob => ?_
  refine (frames_loadEnvelope key none).bind fun e => ?_
  refine (frames_liftExcept _).bind fun oldKey => ?_
  refine (frames_liftExcept _).bind fun plaintext => ?_
  refine (frames_drawing _).bind fun newKey => ?_
  refine (frames_liftExcept _).bind fun valueCipher => ?_
  refine (frames_drawing _).bind fun e' => ?_
  refine (frames_drawing _).bind fun blob' => ?_
  exact frames_pure _

end Vault

end Strongbox

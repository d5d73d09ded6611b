import Strongbox.Proofs.Directory
import Strongbox.Proofs.Revocation
import Strongbox.Proofs.ReadFailures

/-!
# What the owner's calls keep of a share

An owner shares entries with one recipient, whose public key is published in the directory.
`Share.Ready` says what sharing rests on in a world of the owner's vault: the vault meets no
faults, the directory holds no key for the recipient but its own, and the owner's cache of resolved keys holds, for the
recipient, only that key, and only names without `/`, so that a grant path names its recipient.

`keepsShare s P` relates worlds that keep a share ready, keep the recipient's record cached once
it is, and keep the records of the directory and at the paths `P`. Every call of the owner but
an unlock keeps it, for `P` any set of paths the call does not write: the entry records of
other names, the grants of other entries or other recipients.
-/

namespace Strongbox

namespace Vault

/-- What a share of entries rests on: the owner's settings and principal, and the recipient's
principal and public key. -/
structure Share where
  settings : Settings
  owner : Principal
  recipient : Principal
  recipientKey : ByteArray

namespace Share

/-- The recipient's identifier, as grant paths name it. -/
def did (s : Share) : Text := Text.ofString s.recipient.did

/-- The facts of a share that no call changes: the recipient's identifier names the recipient,
the owner's identifier has no `/`, the two publish in different spaces, and the recipient's key
has the size of a key. -/
structure Valid (s : Share) : Prop where
  recipient : Principal.parse s.did = .ok s.recipient
  owner : 47 ∉ (Text.ofString s.owner.did).points
  spaces : s.owner.publicSpaceId ≠ s.recipient.publicSpaceId
  keySize : s.recipientKey.size = 32

/-- A world of the owner's vault from which it can share: the vault is the owner's, with its
settings and session, and meets no faults; the directory holds no key for the recipient but the
recipient's, which it may not hold yet; every name the cache holds has no `/`, and a record
cached for the recipient holds the recipient's key. -/
structure Ready (s : Share) (w : World) : Prop where
  faults : w.vault.faults = []
  principal : w.vault.principal = s.owner
  settings : w.vault.settings = s.settings
  session : w.vault.session.space = s.settings.space
  published : ∀ r, w.store.find? (Text.ofString s.recipient.publicSpaceId)
    (Text.ofString Directory.keyPath) = some r → r = Directory.keyRecord s.recipientKey
  names : ∀ d r, w.vault.cache.lookup d = some r → 47 ∉ d.points
  recipientKey : ∀ r, w.vault.cache.lookup s.did = some r → r.publicKey = s.recipientKey

theorem slash_not_mem_did {s : Share} (hs : s.Valid) : 47 ∉ s.did.points :=
  Principal.slash_not_mem_of_parse hs.recipient

end Share

/-- Worlds that keep a share ready, keep the recipient's record cached once it is, and keep
every record of the directory and at the paths `P`, in every space. -/
def keepsShare (s : Share) (P : Text → Prop) : WorldOrder where
  rel w w' := s.Ready w → s.Ready w' ∧
    ((w.vault.cache.lookup s.did).isSome → (w'.vault.cache.lookup s.did).isSome) ∧
    ∀ m q, (q.points.head? = some 46 ∨ P q) → w'.store.find? m q = w.store.find? m q
  refl _ h := ⟨h, id, fun _ _ _ => rfl⟩
  trans h₁ h₂ h := by
    obtain ⟨hr₁, hc₁, hs₁⟩ := h₁ h
    obtain ⟨hr₂, hc₂, hs₂⟩ := h₂ hr₁
    exact ⟨hr₂, fun hc => hc₂ (hc₁ hc), fun m q hq => (hs₂ m q hq).trans (hs₁ m q hq)⟩

section Steps

variable {s : Share} {P : Text → Prop} {α β : Type}

/-- A step that changes neither the vault nor any record of the directory or at `P` keeps a
share. -/
theorem keepsShare_of_store {w w' : World} (hv : w'.vault = w.vault)
    (hst : ∀ m q, (q.points.head? = some 46 ∨ P q) → w'.store.find? m q = w.store.find? m q) :
    (keepsShare s P).rel w w' := by
  intro hr
  refine ⟨⟨?_, ?_, ?_, ?_, ?_, ?_, ?_⟩, by rw [hv]; exact id, hst⟩
  · rw [hv]; exact hr.faults
  · rw [hv]; exact hr.principal
  · rw [hv]; exact hr.settings
  · rw [hv]; exact hr.session
  · rw [hst _ _ (.inl Directory.head_keyPath)]; exact hr.published
  · rw [hv]; exact hr.names
  · rw [hv]; exact hr.recipientKey

theorem share_meetFaults (op : Operation) (path : Text) : Stays (keepsShare s P) (meetFaults op path) :=
  fun w hr => by
    rw [exec_meetFaults hr.faults]
    exact (keepsShare s P).refl w hr

theorem share_storeGet (path : Text) (space : Option Text) :
    Stays (keepsShare s P) (storeGet path space) := fun w hr => by
  rw [exec_storeGet hr.faults]
  exact keepsShare_of_store rfl (fun _ _ _ => Store.find?_touch _ _ _ _) hr

theorem share_storeList (pathPrefix : Text) : Stays (keepsShare s P) (storeList pathPrefix) :=
  fun w hr => by
    rw [exec_storeList hr.faults]
    exact keepsShare_of_store rfl (fun _ _ _ => Store.find?_touch _ _ _ _) hr

theorem share_storeGetPublic (space path : Text) :
    Stays (keepsShare s P) (storeGetPublic space path) := fun w hr => by
  rw [exec_storeGetPublic hr.faults]
  exact (keepsShare s P).refl w hr

theorem share_drawing (m : Drawing α) : Stays (keepsShare s P) (drawing m) := fun w => by
  rw [exec_drawing]
  exact keepsShare_of_store rfl fun _ _ _ => rfl

/-- Every reading step keeps a share. -/
theorem share_reads : KeptByReads (keepsShare s P) :=
  ⟨share_meetFaults, share_storeGet, share_storeList, share_storeGetPublic, share_drawing⟩

/-- A write off the directory and off `P` keeps a share. -/
theorem share_storePut {path : Text} (hd : path.points.head? ≠ some 46) (hP : ¬ P path)
    (data : Data) (metadata : List (Value × Value)) (space : Option Text) :
    Stays (keepsShare s P) (storePut path data metadata space) := fun w hr => by
  rw [exec_storePut hr.faults]
  refine keepsShare_of_store rfl (fun m q hq => ?_) hr
  rw [Store.find?_write, if_neg]
  rintro ⟨-, rfl⟩
  rcases hq with hq | hq
  · exact hd hq
  · exact hP hq

theorem share_storeDelete {path : Text} (hd : path.points.head? ≠ some 46) (hP : ¬ P path)
    (space : Option Text) : Stays (keepsShare s P) (storeDelete path space) := fun w hr => by
  rw [exec_storeDelete hr.faults]
  refine keepsShare_of_store rfl (fun m q hq => ?_) hr
  rw [Store.find?_erase, if_neg]
  rintro ⟨-, rfl⟩
  rcases hq with hq | hq
  · exact hd hq
  · exact hP hq

/-- Changing only the keys the vault holds keeps a share. -/
theorem share_update {f : Vault → Vault} (hf : ∀ v, (f v).faults = v.faults ∧
    (f v).principal = v.principal ∧ (f v).settings = v.settings ∧ (f v).session = v.session ∧
    (f v).cache = v.cache) : Stays (keepsShare s P) (update f) := fun w hr => by
  rw [exec_update]
  obtain ⟨h₁, h₂, h₃, h₄, h₅⟩ := hf w.vault
  refine ⟨⟨?_, ?_, ?_, ?_, hr.published, ?_, ?_⟩, by simp only [h₅]; exact id,
    fun _ _ _ => rfl⟩
  · rw [h₁]; exact hr.faults
  · rw [h₂]; exact hr.principal
  · rw [h₃]; exact hr.settings
  · rw [h₄]; exact hr.session
  · simp only [h₅]; exact hr.names
  · simp only [h₅]; exact hr.recipientKey

theorem share_lock : Stays (keepsShare s P) lock :=
  share_update fun _ => ⟨rfl, rfl, rfl, rfl, rfl⟩

/-- Caching a record under a name without `/`, the recipient's key when it is the
recipient's, keeps a share. -/
theorem share_cacheInsert {d : Text} {r : KeyRecord} (hd : 47 ∉ d.points)
    (hr : d = s.did → r.publicKey = s.recipientKey) :
    Stays (keepsShare s P) (update fun v => { v with cache := cacheInsert v.cache d r }) :=
  fun w hready => by
    rw [exec_update]
    refine ⟨⟨hready.faults, hready.principal, hready.settings, hready.session, hready.published,
      fun e r' he => ?_, fun r' he => ?_⟩, fun hc => ?_, fun _ _ _ => rfl⟩
    · dsimp only at he
      rw [lookup_cacheInsert] at he
      split at he
      · rename_i hed
        rw [hed]
        exact hd
      · exact hready.names e r' he
    · dsimp only at he
      rw [lookup_cacheInsert] at he
      split at he
      · rename_i hed
        cases he
        exact hr hed.symm
      · exact hready.recipientKey r' he
    · dsimp only
      rw [lookup_cacheInsert]
      split
      · rfl
      · exact hc

/-- The rest of a step runs on a value that the step, run from a ready world, gives only when
`Q` holds of it. -/
theorem share_bind_of {m : VaultM α} {f : α → VaultM β} (Q : α → Prop)
    (hm : Stays (keepsShare s P) m) (hQ : ∀ w a w', s.Ready w → exec m w = (.ok a, w') → Q a)
    (hf : ∀ a, Q a → Stays (keepsShare s P) (f a)) : Stays (keepsShare s P) (m >>= f) := by
  intro w hr
  rw [exec_bind]
  rcases h : exec m w with ⟨_ | a, w₁⟩
  · have := hm w hr
    rwa [h] at this
  · have h₁ := hm w
    rw [h] at h₁
    exact (keepsShare s P).trans h₁ (hf a (hQ w a w₁ hr h) w₁) hr

/-- The rest of a call runs on the name the key checks to. -/
theorem share_checkName_bind {key : Value} {f : Text → VaultM β}
    (hf : ∀ name, EntryName.ofValue key = .ok name → Stays (keepsShare s P) (f name)) :
    Stays (keepsShare s P) (checkName key >>= f) :=
  share_bind_of _ (Stays.liftExcept _) (fun _ _ _ _ h => (exec_checkName_eq_ok h).1) hf

/-- A loop keeps a share when its body does for each element. -/
theorem share_forIn {xs : List α} {init : β} {f : α → β → VaultM (ForInStep β)}
    (hf : ∀ x ∈ xs, ∀ b, Stays (keepsShare s P) (f x b)) :
    Stays (keepsShare s P) (forIn xs init f) := by
  induction xs generalizing init with
  | nil => exact fun w => by rw [List.forIn_nil]; exact (keepsShare s P).refl w
  | cons x xs ih =>
    rw [List.forIn_cons]
    refine Stays.bind (hf x List.mem_cons_self init) fun step => ?_
    cases step with
    | done b => exact Stays.pure b
    | yield b => exact ih fun x' hx' => hf x' (List.mem_cons_of_mem _ hx')

end Steps

/-! ## Resolving keys -/

section Resolving

variable {s : Share} (hs : s.Valid) {P : Text → Prop} {α β : Type}
include hs

/-- Resolving from a ready world fails with the world unchanged, finds the record cached, or
reads it for an identifier that parses and caches it: the recipient's key when it is the
recipient's. -/
theorem exec_resolve_ready {w : World} (hr : s.Ready w) (did : Text) :
    (∃ f, exec (resolve did) w = (.error f, w)) ∨
    (∃ r, w.vault.cache.lookup did = some r ∧ exec (resolve did) w = (.ok r, w)) ∨
    (∃ r p, Principal.parse did = .ok p ∧ (did = s.did → r.publicKey = s.recipientKey) ∧
      exec (resolve did) w =
        (.ok r, { w with vault := { w.vault with cache := cacheInsert w.vault.cache did r } })) := by
  cases hc : w.vault.cache.lookup did with
  | some r =>
    refine .inr (.inl ⟨r, rfl, ?_⟩)
    unfold resolve
    rw [exec_bind, exec_current]
    dsimp only
    rw [hc]
    rfl
  | none =>
    cases hp : Principal.parse did with
    | error e =>
      refine .inl ⟨.publicKeyNotFound did (some (Text.ofString e.message)), ?_⟩
      unfold resolve principalOf
      rw [exec_bind, exec_current]
      dsimp only
      rw [hc]
      dsimp only
      rw [exec_bind, exec_liftExcept, hp]
      rfl
    | ok p =>
      by_cases hd : did = s.did
      · -- the recipient's key is read from its directory, once published
        subst hd
        rw [hs.recipient, Except.ok.injEq] at hp
        subst hp
        cases hpub : w.store.find? (Text.ofString s.recipient.publicSpaceId)
            (Text.ofString Directory.keyPath) with
        | none => exact .inl ⟨_, exec_resolve_of_unpublished hr.faults hs.recipient hc hpub⟩
        | some rec =>
          rw [hr.published rec hpub] at hpub
          obtain ⟨r, hkey, hex⟩ :=
            exec_resolve_of_published hr.faults hs.recipient hc hs.keySize hpub
          exact .inr (.inr ⟨r, _, rfl, fun _ => hkey, hex⟩)
      · rcases exec_resolve hr.faults did with h | ⟨r, hc', -⟩ | ⟨r, h⟩
        · exact .inl h
        · rw [hc] at hc'
          cases hc'
        · exact .inr (.inr ⟨r, p, rfl, fun h' => absurd h' hd, h⟩)

theorem share_resolve (did : Text) : Stays (keepsShare s P) (resolve did) := fun w hr => by
  rcases exec_resolve_ready hs hr did with ⟨f, h⟩ | ⟨r, -, h⟩ | ⟨r, p, hp, hkey, h⟩
  · rw [h]
    exact (keepsShare s P).refl w hr
  · rw [h]
    exact (keepsShare s P).refl w hr
  · have := share_cacheInsert (P := P) (Principal.slash_not_mem_of_parse hp) hkey w hr
    rwa [h]

/-- A key resolved from a ready world is one of a name without `/`. -/
theorem slash_not_mem_of_resolve {w w' : World} (hr : s.Ready w) {did : Text} {r : KeyRecord}
    (h : exec (resolve did) w = (.ok r, w')) : 47 ∉ did.points := by
  rcases exec_resolve_ready hs hr did with ⟨f, h'⟩ | ⟨r', hc, -⟩ | ⟨r', p, hp, -, -⟩
  · rw [h'] at h
    cases h
  · exact hr.names did r' hc
  · exact Principal.slash_not_mem_of_parse hp

/-- What follows a key resolved runs for a name without `/`. -/
theorem share_resolve_bind {g : Text} {rest : KeyRecord → VaultM β}
    (hrest : ∀ r, 47 ∉ g.points → Stays (keepsShare s P) (rest r)) :
    Stays (keepsShare s P) (resolve g >>= rest) :=
  share_bind_of (fun _ => 47 ∉ g.points) (share_resolve hs g)
    (fun _ _ _ hr h => slash_not_mem_of_resolve hs hr h) hrest

end Resolving

/-! ## Calls -/

section Calls

variable {s : Share} {P : Text → Prop}

theorem share_storeEntry {key : Text} (hk : ¬ P (keysPrefix ++ key)) (hv : ¬ P (valuesPrefix ++ key))
    (blob : KeyBlob) (e : Envelope) : Stays (keepsShare s P) (storeEntry key blob e) :=
  Stays.storeEntry (fun _ _ => share_storePut (by rw [head_keys]; decide) hk _ _ _)
    (fun _ _ => share_storePut (by rw [head_values]; decide) hv _ _ _) blob e

/-- A write keeps a share when `P` holds neither record of the name it writes. -/
theorem share_put {key : Value} (hP : ∀ name, EntryName.ofValue key = .ok name →
    ¬ P (keysPrefix ++ name) ∧ ¬ P (valuesPrefix ++ name)) (value : Value)
    (contentType : Option Text) (custom : List (Value × Value)) (writing : Writing) :
    Stays (keepsShare s P) (put key value contentType custom writing) := by
  unfold put
  refine share_bind_of (fun r => EntryName.ofValue key = .ok r.1)
    (share_reads.sealEntry key value contentType custom writing) (fun w r w' hr h => ?_)
    fun r hname => (share_storeEntry (hP _ hname).1 (hP _ hname).2 _ _).bind fun _ => Stays.pure _
  obtain ⟨name, blob, e⟩ := r
  obtain ⟨-, -, -, -, hk, -⟩ := exec_sealEntry_eq_ok hr.faults h
  exact hk

/-- The grantees a listing gives from a ready world have no `/`. -/
theorem slash_not_mem_of_listGrants {w w' : World} (hr : s.Ready w) {key : Value}
    {gs : List Text} (h : exec (listGrants key) w = (.ok gs, w')) : ∀ g ∈ gs, 47 ∉ g.points := by
  obtain ⟨k, -, rfl, -⟩ := exec_listGrants_eq_ok hr.faults h
  exact fun g hg => Grant.noSlash_of_mem_recipients hg

/-- The rest of a call runs on grantees without `/`. -/
theorem share_listGrants_bind {key : Value} {f : List Text → VaultM β}
    (hf : ∀ gs, (∀ g ∈ gs, 47 ∉ g.points) → Stays (keepsShare s P) (f gs)) :
    Stays (keepsShare s P) (listGrants key >>= f) :=
  share_bind_of _ (share_reads.listGrants key) (fun _ _ _ hr h => slash_not_mem_of_listGrants hr h) hf

/-- What `P` must leave to the calls that touch entry `name`: its records and its grants. -/
def FreeEntry (P : Text → Prop) (name : Text) : Prop :=
  ¬ P (keysPrefix ++ name) ∧ ¬ P (valuesPrefix ++ name) ∧ ∀ g, 47 ∉ g.points → ¬ P (Grant.path g name)

/-- A delete keeps a share when `P` holds nothing of the entry it deletes. -/
theorem share_delete {key : Value} (hP : ∀ name, EntryName.ofValue key = .ok name → FreeEntry P name) :
    Stays (keepsShare s P) (delete key) := by
  unfold delete
  refine Stays.requireUnlocked.bind fun _ => share_checkName_bind fun name hname => ?_
  obtain ⟨hk, hv, hg⟩ := hP name hname
  refine share_listGrants_bind fun gs hgs => ?_
  refine (share_forIn fun r hr _ => (share_storeDelete (by rw [head_grantPath]; decide)
    (hg r (hgs r hr)) _).bind fun _ => Stays.pure _).bind fun _ => ?_
  exact (share_storeDelete (by rw [head_values]; decide) hv _).bind fun _ =>
    share_storeDelete (by rw [head_keys]; decide) hk _

variable (hs : s.Valid)
include hs

theorem share_reissue (key : Text) (ek : ByteArray) {g : Text}
    (hP : 47 ∉ g.points → ¬ P (Grant.path g key)) : Stays (keepsShare s P) (reissue key ek g) := by
  unfold reissue
  rw [resolvePublicKey_bind]
  exact share_resolve_bind hs fun r hg => (share_drawing _).bind fun _ => Stays.current.bind
    fun _ => (Stays.liftExcept _).bind fun _ =>
      share_storePut (by rw [head_grantPath]; decide) (hP hg) _ _ _

theorem share_reissueAll (key : Text) (ek : ByteArray) {gs : List Text}
    (hP : ∀ g ∈ gs, 47 ∉ g.points → ¬ P (Grant.path g key)) (report : Rotation.Report) :
    Stays (keepsShare s P) (reissueAll key ek gs report) := by
  induction gs generalizing report with
  | nil => exact Stays.pure _
  | cons g rest ih =>
    unfold reissueAll
    refine Stays.bind ?_ fun _ => ih (fun g' hg' => hP g' (List.mem_cons_of_mem _ hg')) _
    refine Stays.tryCatch ((share_reissue hs key ek (hP g List.mem_cons_self)).bind fun _ =>
      Stays.pure _) fun f => ?_
    split
    · exact Stays.pure _
    · exact Stays.throw _

theorem share_rotate {key : Text} {gs : List Text} (hk : ¬ P (keysPrefix ++ key))
    (hv : ¬ P (valuesPrefix ++ key)) (hP : ∀ g ∈ gs, 47 ∉ g.points → ¬ P (Grant.path g key))
    (cipher : Aead) : Stays (keepsShare s P) (rotate key gs cipher) :=
  (share_reads.resealEntry key cipher).bind fun _ => (share_storeEntry hk hv _ _).bind fun _ =>
    share_reissueAll hs _ _ hP _

/-- A revoke keeps a share when `P` holds nothing of the entry it rotates. -/
theorem share_revoke {key : Value} (recipient : Text)
    (hP : ∀ name, EntryName.ofValue key = .ok name → FreeEntry P name) :
    Stays (keepsShare s P) (revoke key recipient) := by
  unfold revoke
  refine Stays.requireUnlocked.bind fun _ => share_checkName_bind fun name hname => ?_
  obtain ⟨hk, hv, hg⟩ := hP name hname
  refine share_listGrants_bind fun gs hgs => Stays.current.bind fun v => ?_
  split
  · exact Stays.throw _
  · rename_i hmem
    have hrec : recipient ∈ gs := by simpa using hmem
    refine (share_storeDelete (by rw [head_grantPath]; decide) (hg _ (hgs _ hrec)) _).bind
      fun _ => Stays.current.bind fun _ => share_rotate hs hk hv (fun g hg' => hg g) _
    
/-- A grant keeps a share when `P` holds no grant path of its recipient for the entry. -/
theorem share_grant {key : Value} {recipient : Text}
    (hP : ∀ name, EntryName.ofValue key = .ok name → 47 ∉ recipient.points →
      ¬ P (Grant.path recipient name)) (custom : List (Value × Value)) :
    Stays (keepsShare s P) (grant key recipient custom) := by
  unfold grant
  refine Stays.requireUnlocked.bind fun _ => share_checkName_bind fun name hname => ?_
  rw [resolvePublicKey_bind]
  refine share_resolve_bind hs fun r hrec => (share_reads.loadKeyBlob name).bind fun _ =>
    (Stays.tryCatch (share_drawing _) fun e => ?_).bind fun _ => Stays.current.bind fun _ =>
      (Stays.liftExcept _).bind fun _ => (share_storePut (by rw [head_grantPath]; decide)
        (hP name hname hrec) _ _ _).bind fun _ => Stays.pure _
  split <;> exact Stays.throw _

end Calls

end Vault

end Strongbox

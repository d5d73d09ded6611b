import Strongbox.Proofs.Rotation

/-!
# The public key directory

What unlocking publishes, others read back. Publishing writes, in the principal's public
space, the public key in base64, the directory version and the pointer to the vault space,
which is absent when the vault lives in the principal's default space (`Directory.written`).
Reading the key back trims the text and decodes it: base64 holds no blank, so a published key
resolves to itself (`exec_resolve_of_published`), and a pointer to a trimmed space leads back
to that space (`exec_resolveVaultSpace_of_pointer`).

A principal's identifier holds no `/`, so a grant path names its recipient, and two principals
with one public space have one identifier.
-/

namespace Strongbox

/-! ## Identifiers -/

namespace Principal

/-- Each character of a part is of its class, or the line feed it may end in. -/
theorem mem_of_matchesPart {ok : Char → Bool} {lo hi : Nat} {t : Text}
    (h : matchesPart ok lo hi t = true) {c : Nat} (hc : c ∈ t.points) :
    c = 10 ∨ c < 128 ∧ ok (Char.ofNat c) = true := by
  unfold matchesPart at h
  simp only [Bool.and_eq_true, decide_eq_true_eq, List.all_eq_true] at h
  by_cases hl : t.points.getLast? = some 10
  · rw [if_pos hl] at h
    rw [← List.dropLast_append_getLast? _ hl, List.mem_append] at hc
    rcases hc with hc | hc
    · exact .inr (by simpa using h.2 c hc)
    · exact .inl (by simpa using hc)
  · rw [if_neg hl] at h
    exact .inr (by simpa using h.2 c hc)

/-- A part whose characters exclude `/` holds none. -/
theorem slash_not_mem_of_matchesPart {ok : Char → Bool} {lo hi : Nat} {t : Text}
    (hok : ok (Char.ofNat 47) = false) (h : matchesPart ok lo hi t = true) : 47 ∉ t.points := by
  intro hmem
  rcases mem_of_matchesPart h hmem with h10 | ⟨-, h47⟩
  · cases h10
  · rw [hok] at h47
    cases h47

/-- What parsing checks: an identifier that parses is `did:pkh:` and three parts of their
classes joined by `:`, and the principal is made of those parts. -/
theorem parse_eq_ok {did : Text} {p : Principal} (h : parse did = .ok p) :
    ∃ ns chain address : Text,
      did.points = (Text.ofString "did:pkh:").points ++ ns.points ++ 58 :: chain.points ++
        58 :: address.points ∧
      validNamespace ns ∧ validChain chain ∧ validAddress address ∧
      p = ⟨ns.toStringLossy, chain.toStringLossy, address.toStringLossy⟩ := by
  unfold parse at h
  split at h
  · cases h
  split at h
  · rename_i d p' ns chain address hsplit
    split at h
    · cases h
    rename_i hshape
    simp only [Bool.or_eq_true, bne_iff_ne, ne_eq, not_or, not_not] at hshape
    obtain ⟨rfl, rfl⟩ := hshape
    split at h
    · cases h
    rename_i hns
    split at h
    · cases h
    rename_i hchain
    split at h
    · cases h
    rename_i haddr
    split at h
    · cases h
    simp only [Bool.not_eq_true', Bool.not_eq_false] at hns hchain haddr
    have hparts : did.points.splitOn 58 =
        [(Text.ofString "did").points, (Text.ofString "pkh").points, ns.points, chain.points,
          address.points] := by
      have hmap : (did.points.splitOn 58).map Text.mk =
          [Text.ofString "did", Text.ofString "pkh", ns, chain, address] := hsplit
      simpa [List.map_map, Function.comp_def] using congrArg (List.map Text.points) hmap
    have hjoin : [58].intercalate (did.points.splitOn 58) = did.points := List.intercalate_splitOn 58
    refine ⟨ns, chain, address, ?_, hns, hchain, haddr, (Except.ok.inj h).symm⟩
    rw [← hjoin, hparts]
    simp [List.intercalate, Text.ofString]
  · cases h

/-- An identifier that parses holds no `/`: it is five parts joined by `:`, two of them fixed
and three of classes without `/`. -/
theorem slash_not_mem_of_parse {did : Text} {p : Principal} (h : parse did = .ok p) :
    47 ∉ did.points := by
  obtain ⟨ns, chain, address, hdid, hns, hchain, haddr, -⟩ := parse_eq_ok h
  have hns' := slash_not_mem_of_matchesPart (by decide) hns
  have hchain' := slash_not_mem_of_matchesPart (by decide) hchain
  have haddr' := slash_not_mem_of_matchesPart (by decide) haddr
  rw [hdid]
  simp [Text.ofString, hns', hchain', haddr']

/-- The part of an identifier after its scheme: namespace, chain and address. -/
def account (p : Principal) : String := p.chainNamespace ++ ":" ++ p.chainId ++ ":" ++ p.address

theorem did_eq_account (p : Principal) : p.did = "did:pkh:" ++ p.account := by
  simp only [did, account, String.append_assoc]

theorem publicSpaceId_eq_account (p : Principal) :
    p.publicSpaceId = spaceScheme ++ ":pkh:" ++ p.account ++ ":" ++ publicSpaceName := by
  simp only [publicSpaceId, account, String.append_assoc]

/-- Principals with one public space have one identifier. -/
theorem did_eq_of_publicSpaceId_eq {p q : Principal} (h : p.publicSpaceId = q.publicSpaceId) :
    p.did = q.did := by
  rw [publicSpaceId_eq_account, publicSpaceId_eq_account] at h
  have hacc : p.account.toList = q.account.toList := by
    simpa using congrArg String.toList h
  rw [did_eq_account, did_eq_account, String.toList_inj.mp hacc]

theorem isEmpty_publicSpaceId (p : Principal) : (Text.ofString p.publicSpaceId).isEmpty = false := by
  simp [publicSpaceId, spaceScheme, Text.ofString, Text.isEmpty]

end Principal

/-! ## Published keys read back -/

namespace Text

/-- A text without blanks is its own trimmed form. -/
theorem trim_eq_self {t : Text} (h : ∀ c ∈ t.points, isBlank c = false) : t.trim = t := by
  have hdrop : ∀ l : List Nat, (∀ c ∈ l, isBlank c = false) → l.dropWhile isBlank = l := by
    intro l hl
    cases l with
    | nil => rfl
    | cons a l => simp [hl a List.mem_cons_self]
  have hrev : ∀ c ∈ t.points.reverse, isBlank c = false := fun c hc => h c (List.mem_reverse.mp hc)
  unfold trim
  rw [hdrop _ h, hdrop _ hrev, List.reverse_reverse]

end Text

namespace Base64

/-- Every character of an encoding is padding or of the alphabet. -/
theorem mem_encodeList (l : List UInt8) : ∀ c ∈ encodeList l, c = '=' ∨ ∃ n < 64, c = charOf n := by
  induction l using encodeList.induct with
  | case1 => simp [encodeList]
  | case2 a =>
    have ha := a.toNat_lt
    simp only [encodeList, List.mem_cons, List.mem_nil_iff, or_false]
    rintro c (rfl | rfl | rfl | rfl)
    · exact .inr ⟨_, by omega, rfl⟩
    · exact .inr ⟨_, by omega, rfl⟩
    · exact .inl rfl
    · exact .inl rfl
  | case3 a b =>
    have ha := a.toNat_lt
    have hb := b.toNat_lt
    simp only [encodeList, List.mem_cons, List.mem_nil_iff, or_false]
    rintro c (rfl | rfl | rfl | rfl)
    · exact .inr ⟨_, by omega, rfl⟩
    · exact .inr ⟨_, by omega, rfl⟩
    · exact .inr ⟨_, by omega, rfl⟩
    · exact .inl rfl
  | case4 a b c rest ih =>
    have ha := a.toNat_lt
    have hb := b.toNat_lt
    have hc := c.toNat_lt
    simp only [encodeList, List.mem_cons]
    rintro x (rfl | rfl | rfl | rfl | hx)
    any_goals exact .inr ⟨_, by omega, rfl⟩
    exact ih x hx

theorem isBlank_charOf : ∀ n < 64, Text.isBlank (charOf n).toNat = false := by decide +kernel

/-- Base64 text holds no blank. -/
theorem isBlank_encode (b : ByteArray) :
    ∀ c ∈ (Text.ofString (encode b)).points, Text.isBlank c = false := by
  intro c hc
  simp only [Text.ofString, encode, String.toList_ofList, List.mem_map] at hc
  obtain ⟨ch, hch, rfl⟩ := hc
  rcases mem_encodeList _ ch hch with rfl | ⟨n, hn, rfl⟩
  · decide
  · exact isBlank_charOf n hn

theorem encodeList_ne_nil : ∀ {l : List UInt8}, l ≠ [] → encodeList l ≠ []
  | [], h => absurd rfl h
  | [_], _ => List.cons_ne_nil _ _
  | [_, _], _ => List.cons_ne_nil _ _
  | _ :: _ :: _ :: _, _ => List.cons_ne_nil _ _

theorem isEmpty_encode {b : ByteArray} (hb : b.size ≠ 0) :
    (Text.ofString (encode b)).isEmpty = false := by
  have hne : b.data.toList ≠ [] := fun h => hb (by rw [ByteArray.size, ← Array.length_toList, h]; rfl)
  have hpts : (Text.ofString (encode b)).points = (encodeList b.data.toList).map Char.toNat := by
    simp [Text.ofString, encode]
  rw [Text.isEmpty, hpts, List.isEmpty_eq_false_iff, ne_eq, List.map_eq_nil_iff]
  exact encodeList_ne_nil hne

end Base64

theorem Keys.publicKey_of_deriveIdentity {s : Signer} {i : Keys.Identity}
    (h : Keys.deriveIdentity s = .ok i) : i.publicKey = X25519.publicKey i.privateKey := by
  unfold Keys.deriveIdentity at h
  cases hs : Keys.requestSignature s Keys.identityMessage with
  | error f =>
    rw [hs] at h
    cases h
  | ok sig =>
    rw [hs] at h
    cases h
    rfl

/-! ## What publishing writes -/

namespace Directory

/-- The record that publishes a public key. -/
def keyRecord (publicKey : ByteArray) : Stored := ⟨.ofString (Base64.encode publicKey), []⟩

/-- The record that points to a principal's vault space: none when the vault lives in the
principal's default space. -/
def spacePointer (p : Principal) (space : Text) : Option Stored :=
  if !space.isEmpty && space != Text.ofString p.defaultSpaceId then some ⟨.text space, []⟩
  else none

/-- A store with a principal's directory written: its public key, the version and the pointer
to its vault space, in its public space. -/
def written (st : Store) (p : Principal) (publicKey : ByteArray) (space : Text) : Store :=
  let n := Text.ofString p.publicSpaceId
  let st' := (st.write n (Text.ofString keyPath) (keyRecord publicKey)).write n
    (Text.ofString versionPath) ⟨.ofString version, []⟩
  match spacePointer p space with
  | some r => st'.write n (Text.ofString spacePath) r
  | none => st'.erase n (Text.ofString spacePath)

/-- The record a principal caches of its own key when it publishes. -/
def ownRecord (p : Principal) (publicKey : ByteArray) (space : Text) : KeyRecord :=
  ⟨Text.ofString p.did, publicKey, Text.ofString version, some space⟩

theorem head_keyPath : (Text.ofString keyPath).points.head? = some 46 := rfl

theorem head_versionPath : (Text.ofString versionPath).points.head? = some 46 := rfl

theorem head_spacePath : (Text.ofString spacePath).points.head? = some 46 := rfl

theorem find?_written (st : Store) (p : Principal) (publicKey : ByteArray) (space m q : Text) :
    (written st p publicKey space).find? m q =
      if m = Text.ofString p.publicSpaceId ∧ q = Text.ofString spacePath then spacePointer p space
      else if m = Text.ofString p.publicSpaceId ∧ q = Text.ofString versionPath then
        some ⟨.ofString version, []⟩
      else if m = Text.ofString p.publicSpaceId ∧ q = Text.ofString keyPath then
        some (keyRecord publicKey)
      else st.find? m q := by
  unfold written
  cases hp : spacePointer p space with
  | some r => simp only [Store.find?_write]
  | none => simp only [Store.find?_erase, Store.find?_write]

/-- Publishing changes no record off the directory's paths of the principal's public space. -/
theorem find?_written_of_ne {st : Store} {p : Principal} {publicKey : ByteArray} {space m q : Text}
    (h : m ≠ Text.ofString p.publicSpaceId ∨ q.points.head? ≠ some 46) :
    (written st p publicKey space).find? m q = st.find? m q := by
  have hoff : ∀ path, path.points.head? = some 46 → ¬(m = Text.ofString p.publicSpaceId ∧ q = path) :=
    fun path hpath ⟨hm, hq⟩ => h.elim (· hm) (· (hq ▸ hpath))
  rw [find?_written, if_neg (hoff _ head_spacePath), if_neg (hoff _ head_versionPath),
    if_neg (hoff _ head_keyPath)]

/-- Publishing writes the principal's key record. -/
theorem find?_written_key (st : Store) (p : Principal) (publicKey : ByteArray) (space : Text) :
    (written st p publicKey space).find? (Text.ofString p.publicSpaceId) (Text.ofString keyPath) =
      some (keyRecord publicKey) := by
  rw [find?_written, if_neg (by simp [spacePath, keyPath]), if_neg (by simp [versionPath, keyPath]),
    if_pos ⟨rfl, rfl⟩]

end Directory

namespace Vault

section Publishing

variable {w : World} (hf : w.vault.faults = [])
include hf

/-- Publishing a key of the right size with no faults writes the directory and caches the
principal's own record. -/
theorem exec_publish (p : Principal) {publicKey : ByteArray} (hsize : publicKey.size = 32)
    (space : Text) :
    exec (publish p publicKey (some space)) w = (.ok (), { w with
      vault := { w.vault with
        cache := cacheInsert w.vault.cache (Text.ofString p.did) (Directory.ownRecord p publicKey space) },
      store := Directory.written w.store p publicKey space }) := by
  have hres : w.vault.session.resolve (some (Text.ofString p.publicSpaceId)) =
      Text.ofString p.publicSpaceId := by
    simp [Session.resolve, Principal.isEmpty_publicSpaceId]
  -- the writes change only the store, so the faults stay none
  have hput : ∀ (st : Store) path data metadata, exec (storePut path data metadata
      (some (Text.ofString p.publicSpaceId))) { w with store := st } =
      (.ok (), { w with store := st.write (Text.ofString p.publicSpaceId) path ⟨data, metadata⟩ }) :=
    fun st path data metadata => by rw [exec_storePut (w := { w with store := st }) hf, hres]
  have hdelete : ∀ (st : Store) path, exec (storeDelete path
      (some (Text.ofString p.publicSpaceId))) { w with store := st } =
      (.ok (), { w with store := st.erase (Text.ofString p.publicSpaceId) path }) :=
    fun st path => by rw [exec_storeDelete (w := { w with store := st }) hf, hres]
  unfold publish
  rw [if_neg (by simpa using hsize)]
  dsimp only
  rw [exec_bind, hput w.store]
  dsimp only
  rw [exec_bind, hput]
  dsimp only
  unfold Directory.written Directory.spacePointer
  split
  · rw [exec_bind, hput]
    rfl
  · rw [exec_bind, hdelete]
    rfl

/-- Unlocking with keys derived, publishing on unlock with no faults, holds the keys, writes the
directory of the vault's owner and caches the owner's record. -/
theorem exec_unlock_publishing {signer : Signer} {m : ByteArray} {i : Keys.Identity}
    (hpub : w.vault.settings.publishOnUnlock = true)
    (hm : Keys.deriveMasterKey signer w.vault.settings.space = .ok m)
    (hi : Keys.deriveIdentity signer = .ok i) :
    exec (unlock signer) w = (.ok i.publicKey, { w with
      vault := { w.vault with
        masterKey := some m
        identity := some i
        cache := cacheInsert w.vault.cache (Text.ofString w.vault.principal.did)
          (Directory.ownRecord w.vault.principal i.publicKey w.vault.settings.space) },
      store := Directory.written w.store w.vault.principal i.publicKey w.vault.settings.space }) := by
  have hsize : i.publicKey.size = 32 := by
    rw [Keys.publicKey_of_deriveIdentity hi, X25519.size_publicKey]
  unfold unlock
  rw [exec_bind_ok (exec_lock _), exec_bind_ok (exec_current _)]
  rw [exec_bind_ok (by rw [exec_liftExcept]; exact congrArg (·, _) hm),
    exec_bind_ok (by rw [exec_liftExcept]; exact congrArg (·, _) hi), exec_bind_ok (exec_update _ _)]
  dsimp only
  rw [if_pos hpub, exec_bind_ok (exec_publish (w := { w with
    vault := { w.vault with masterKey := some m, identity := some i } }) hf _ hsize _), exec_pure]

end Publishing

/-! ## Reading the directory back -/

section Reading

variable {w : World} (hf : w.vault.faults = [])
include hf

theorem exec_readText_of_text {space path : String} {t : Text} {metadata : List (Value × Value)}
    (h : w.store.find? (Text.ofString space) (Text.ofString path) = some ⟨.text t, metadata⟩) :
    exec (readText space path) w = (.ok (some t.trim), w) := by
  unfold readText
  rw [exec_bind, exec_storeGetPublic hf]
  dsimp only
  rw [h]
  rfl

theorem exec_readText_of_none {space path : String}
    (h : w.store.find? (Text.ofString space) (Text.ofString path) = none) :
    exec (readText space path) w = (.ok none, w) := by
  unfold readText
  rw [exec_bind, exec_storeGetPublic hf]
  dsimp only
  rw [h]
  rfl

omit hf in
/-- A published key of the right size reads back as itself: base64 holds no blank to trim. -/
theorem publishedKey_keyRecord (did : Text) {publicKey : ByteArray} (hsize : publicKey.size = 32) :
    publishedKey did (nonEmpty (some (Text.ofString (Base64.encode publicKey)).trim)) =
      .ok publicKey := by
  rw [Text.trim_eq_self (Base64.isBlank_encode publicKey), nonEmpty,
    if_neg (by rw [Base64.isEmpty_encode (by omega)]; decide), publishedKey,
    Base64.decodePoints_encode]
  exact if_neg (by omega)

/-- Resolving an identifier not cached reads the key its principal published, and caches it. -/
theorem exec_resolve_of_published {did : Text} {p : Principal} (hp : Principal.parse did = .ok p)
    (hc : w.vault.cache.lookup did = none) {publicKey : ByteArray} (hsize : publicKey.size = 32)
    (hkey : w.store.find? (Text.ofString p.publicSpaceId) (Text.ofString Directory.keyPath) =
      some (Directory.keyRecord publicKey)) :
    ∃ r : KeyRecord, r.publicKey = publicKey ∧ exec (resolve did) w =
      (.ok r, { w with vault := { w.vault with cache := cacheInsert w.vault.cache did r } }) := by
  obtain ⟨t₂, h₂⟩ := exec_readText hf p.publicSpaceId Directory.versionPath
  obtain ⟨t₃, h₃⟩ := exec_readText hf p.publicSpaceId Directory.spacePath
  unfold resolve principalOf
  rw [exec_bind, exec_current]
  dsimp only
  rw [hc]
  dsimp only
  rw [exec_bind, exec_liftExcept, hp]
  dsimp only [Except.mapError]
  rw [exec_bind, exec_readText_of_text hf hkey]
  dsimp only
  rw [exec_bind, exec_liftExcept, publishedKey_keyRecord did hsize]
  dsimp only
  rw [exec_bind, h₂]
  dsimp only
  rw [exec_bind, h₃]
  dsimp only
  rw [exec_bind, exec_update]
  exact ⟨_, rfl, exec_pure _ _⟩

/-- Resolving an identifier that parses, not cached, whose principal published no key, fails
as not found and changes nothing. -/
theorem exec_resolve_of_unpublished {did : Text} {p : Principal} (hp : Principal.parse did = .ok p)
    (hc : w.vault.cache.lookup did = none)
    (hkey : w.store.find? (Text.ofString p.publicSpaceId) (Text.ofString Directory.keyPath) = none) :
    exec (resolve did) w = (.error (.publicKeyNotFound did none), w) := by
  unfold resolve principalOf
  rw [exec_bind, exec_current]
  dsimp only
  rw [hc]
  dsimp only
  rw [exec_bind, exec_liftExcept, hp]
  dsimp only [Except.mapError]
  rw [exec_bind, exec_readText_of_none hf hkey]
  rfl

/-- Resolving the vault space of a principal whose pointer is as its publishing left it gives
the space published, when that space is trimmed and not empty: the pointer read back, or the
default space when there is none. Only the cache may change. -/
theorem exec_resolveVaultSpace_of_pointer {did : Text} {p : Principal}
    (hp : Principal.parse did = .ok p) {space : Text} (htrim : space.trim = space)
    (hne : space.isEmpty = false)
    (hptr : w.store.find? (Text.ofString p.publicSpaceId) (Text.ofString Directory.spacePath) =
      Directory.spacePointer p space) :
    ∃ c, exec (resolveVaultSpace did) w =
      (.ok space, { w with vault := { w.vault with cache := c } }) := by
  -- the pointer reads back to the space, or is absent and the space is the default
  obtain ⟨t, hread, hval⟩ : ∃ t, exec (readText p.publicSpaceId Directory.spacePath) w = (.ok t, w) ∧
      (nonEmpty t).getD (Text.ofString p.defaultSpaceId) = space := by
    unfold Directory.spacePointer at hptr
    split at hptr
    · refine ⟨_, exec_readText_of_text hf hptr, ?_⟩
      rw [htrim, nonEmpty, if_neg (by rw [hne]; decide)]
      rfl
    · rename_i hc
      refine ⟨_, exec_readText_of_none hf hptr, ?_⟩
      simp only [hne, Bool.not_false, Bool.true_and, bne_iff_ne, ne_eq, not_not] at hc
      rw [hc]
      rfl
  unfold resolveVaultSpace principalOf
  rw [exec_bind, exec_liftExcept, hp]
  dsimp only [Except.mapError]
  rw [exec_bind, hread]
  dsimp only
  rw [exec_bind, exec_current]
  dsimp only
  rw [hval]
  split
  · split
    · rw [exec_bind, exec_update]
      exact ⟨_, rfl⟩
    · exact ⟨w.vault.cache, rfl⟩
  · exact ⟨w.vault.cache, rfl⟩

end Reading

end Vault

end Strongbox

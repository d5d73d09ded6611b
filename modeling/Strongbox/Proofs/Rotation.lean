import Strongbox.Proofs.Grants
import Strongbox.Proofs.Consistency
import Strongbox.Proofs.FailedWrites

/-!
# Fresh grants

Resolving a principal's key reads the public directory and changes nothing but the vault's
cache of resolved keys, and there only the record cached under that principal. Issuing a fresh
grant of an entry key resolves the grantee's key, seals the entry key to it and writes the
grant record at the grantee's path; a grant that fails leaves every record as it was. Issued to
grantees in turn, each grantee ends with a grant that opens to the entry key under the key its
cached record holds, or is counted as failed with its old grant in place, and no other record
changes.
-/

namespace Strongbox

namespace Vault

theorem lookup_cacheInsert (c : List (Text × KeyRecord)) (did d : Text) (r : KeyRecord) :
    (cacheInsert c did r).lookup d = if d = did then some r else c.lookup d :=
  Store.lookup_replaceOrAppend c did d r

/-! ## Resolving a key -/

section Resolving

variable {w : World} (hf : w.vault.faults = [])
include hf

theorem exec_readText (space path : String) : ∃ t, exec (readText space path) w = (.ok t, w) := by
  unfold readText
  rw [exec_bind, exec_storeGetPublic hf]
  dsimp only
  cases w.store.find? (Text.ofString space) (Text.ofString path) with
  | none => exact ⟨none, exec_pure _ _⟩
  | some s =>
    dsimp only
    split
    · exact ⟨_, exec_pure _ _⟩
    · exact ⟨none, exec_pure _ _⟩

/-- Resolving fails with the world unchanged, finds the record cached, or reads it from the
directory and caches it under the name asked for. -/
theorem exec_resolve (did : Text) :
    (∃ f, exec (resolve did) w = (.error f, w)) ∨
    (∃ r, w.vault.cache.lookup did = some r ∧ exec (resolve did) w = (.ok r, w)) ∨
    (∃ r, exec (resolve did) w =
      (.ok r, { w with vault := { w.vault with cache := cacheInsert w.vault.cache did r } })) := by
  unfold resolve
  rw [exec_bind, exec_current]
  dsimp only
  cases hc : w.vault.cache.lookup did with
  | some r => exact .inr (.inl ⟨r, rfl, exec_pure r w⟩)
  | none =>
    dsimp only
    rw [exec_bind]
    unfold principalOf
    rw [exec_liftExcept]
    cases hp : Principal.parse did with
    | error e => exact .inl ⟨_, rfl⟩
    | ok p =>
      dsimp only [Except.mapError]
      obtain ⟨t₁, h₁⟩ := exec_readText hf p.publicSpaceId Directory.keyPath
      rw [exec_bind, h₁]
      dsimp only
      rw [exec_bind, exec_liftExcept]
      cases hk : publishedKey did (nonEmpty t₁) with
      | error e => exact .inl ⟨_, rfl⟩
      | ok key =>
        obtain ⟨t₂, h₂⟩ := exec_readText hf p.publicSpaceId Directory.versionPath
        obtain ⟨t₃, h₃⟩ := exec_readText hf p.publicSpaceId Directory.spacePath
        dsimp only
        rw [exec_bind, h₂]
        dsimp only
        rw [exec_bind, h₃]
        dsimp only
        rw [exec_bind, exec_update]
        exact .inr (.inr ⟨_, exec_pure _ _⟩)

/-- Whatever its outcome, resolving changes only the vault's cache, and there only the record
cached under the name asked for; a resolved record is cached under that name. -/
theorem resolve_world (did : Text) :
    ∃ c, (exec (resolve did) w).2 = { w with vault := { w.vault with cache := c } } ∧
      (∀ d, d ≠ did → c.lookup d = w.vault.cache.lookup d) ∧
      ∀ r, (exec (resolve did) w).1 = .ok r → c.lookup did = some r := by
  rcases exec_resolve hf did with ⟨f, h⟩ | ⟨r, hc, h⟩ | ⟨r, h⟩
  · refine ⟨w.vault.cache, by rw [h], fun _ _ => rfl, fun r hr => ?_⟩
    rw [h] at hr
    cases hr
  · refine ⟨w.vault.cache, by rw [h], fun _ _ => rfl, fun r' hr => ?_⟩
    rw [h, Except.ok.injEq] at hr
    rw [← hr, hc]
  · refine ⟨cacheInsert w.vault.cache did r, by rw [h], fun d hd => ?_, fun r' hr => ?_⟩
    · rw [lookup_cacheInsert, if_neg hd]
    · rw [h, Except.ok.injEq] at hr
      rw [lookup_cacheInsert, if_pos rfl, hr]

/-- A fresh grant: whatever its outcome the vault changes only in the cached record of the
grantee. It fails with every record as it was, or it resolves a key to the grantee's cached
record, seals the entry key to it, and writes the grant record at the grantee's path. -/
theorem exec_reissue (key : Text) (ek : ByteArray) (g : Text) :
    ∃ c, (exec (reissue key ek g) w).2.vault = { w.vault with cache := c } ∧
      (∀ d, d ≠ g → c.lookup d = w.vault.cache.lookup d) ∧
      ((∃ f, (exec (reissue key ek g) w).1 = .error f ∧
          (exec (reissue key ek g) w).2.store = w.store) ∨
        ((exec (reissue key ek g) w).1 = .ok () ∧ ∃ r eph blob json, c.lookup g = some r ∧
          Grant.SealedTo r.publicKey ek eph blob ∧
          (GrantRecord.build blob w.vault.settings.space (Text.ofString w.vault.did)).toJson =
            .ok json ∧
          (exec (reissue key ek g) w).2.store =
            w.store.write w.vault.session.space (Grant.path g key) ⟨.ofString json, []⟩)) := by
  obtain ⟨c, hw₁, hc, hr⟩ := resolve_world hf g
  unfold reissue resolvePublicKey
  rw [bind_assoc, exec_bind]
  rcases hres : exec (resolve g) w with ⟨_ | r, w₁⟩
  · -- no key resolved
    rw [hres] at hw₁
    refine ⟨c, by rw [hw₁], hc, .inl ⟨_, rfl, by rw [hw₁]⟩⟩
  · rw [hres] at hw₁ hr
    have hcr := hr r rfl
    subst hw₁
    dsimp only
    rw [pure_bind, exec_bind, exec_drawing]
    rcases hs : (Grant.sealEntryKey ek r.publicKey).run.run w.entropy with ⟨_ | blob, e'⟩
    · -- the seal is refused
      exact ⟨c, rfl, hc, .inl ⟨_, rfl, rfl⟩⟩
    · obtain ⟨hsealed, -⟩ := Grant.sealEntryKey_eq_ok hs
      dsimp only
      rw [exec_bind, exec_current]
      dsimp only
      rw [exec_bind, exec_liftExcept,
        show ({ w.vault with cache := c } : Vault).did = w.vault.did from rfl]
      cases hj : (GrantRecord.build blob w.vault.settings.space (Text.ofString w.vault.did)).toJson with
      | error f' => exact ⟨c, rfl, hc, .inl ⟨_, rfl, rfl⟩⟩
      | ok json =>
        dsimp only
        rw [exec_storePut (w := { w with vault := { w.vault with cache := c }, entropy := e' }) hf]
        exact ⟨c, rfl, hc, .inr ⟨rfl, r, _, blob, json, hcr, hsealed, hj, rfl⟩⟩

/-- A fresh grant changes no record off the grantee's grant path. -/
theorem reissue_keeps_other_paths (key : Text) (ek : ByteArray) (g n p : Text)
    (hnp : n = w.vault.session.space → p ≠ Grant.path g key) :
    (exec (reissue key ek g) w).2.store.find? n p = w.store.find? n p := by
  obtain ⟨c, -, -, hout⟩ := exec_reissue hf key ek g
  rcases hout with ⟨f, -, hst⟩ | ⟨-, r, eph, blob, json, -, -, -, hst⟩
  · rw [hst]
  · rw [hst, Store.find?_write, if_neg fun ⟨hn, hp⟩ => hnp hn hp]

end Resolving

/-! ## Grantees in turn -/

/-- One grantee's turn: a fresh grant counted as issued, or a vault failure or invalid key
counted against the grantee; any other failure stops the rest. -/
theorem exec_reissueAll_cons (key : Text) (ek : ByteArray) (g : Text) (rest : List Text)
    (report : Rotation.Report) (w : World) :
    exec (reissueAll key ek (g :: rest) report) w =
      match exec (reissue key ek g) w with
      | (.ok (), w₁) => exec (reissueAll key ek rest { report with reissued := report.reissued + 1 }) w₁
      | (.error f, w₁) =>
        if f.isVaultFailure || f.isInvalidValue then
          exec (reissueAll key ek rest { report with failed := report.failed ++ [g] }) w₁
        else (.error f, w₁) := by
  rw [reissueAll, exec_bind, exec_tryCatch, exec_bind]
  rcases exec (reissue key ek g) w with ⟨f | _, w₁⟩
  · dsimp only
    by_cases hv : (f.isVaultFailure || f.isInvalidValue) = true
    · rw [if_pos hv, if_pos hv, exec_pure]
    · rw [if_neg hv, if_neg hv, exec_throw]
  · rfl

/-- Grantee `g` holds, at world `w`, a grant of entry `key` in `space` that opens to `ek` with
any private key whose public key is the one cached for `g`, when that key agrees with the grant's
ephemeral key. -/
def GrantOpens (space key : Text) (ek : ByteArray) (w : World) (g : Text) : Prop :=
  ∃ r gr rec blob eph, w.vault.cache.lookup g = some r ∧
    w.store.find? space (Grant.path g key) = some gr ∧
    GrantRecord.load gr.data.toValue = .ok rec ∧ rec.blob = .ok blob ∧
    ∀ priv, X25519.publicKey priv = r.publicKey → X25519.Agree priv eph →
      Grant.open? priv blob = .ok ek

/-- An open grant stays open while the grantee's cached record and grant path stay. -/
theorem GrantOpens.keep {space key : Text} {ek : ByteArray} {w w' : World} {g : Text}
    (h : GrantOpens space key ek w g) (hc : w'.vault.cache.lookup g = w.vault.cache.lookup g)
    (hp : w'.store.find? space (Grant.path g key) = w.store.find? space (Grant.path g key)) :
    GrantOpens space key ek w' g := by
  obtain ⟨r, gr, rec, blob, eph, hr, hgr, hrec, hblob, hopen⟩ := h
  exact ⟨r, gr, rec, blob, eph, hc.trans hr, hp.trans hgr, hrec, hblob, hopen⟩

/-- A grant written by a fresh grant opens to its entry key. -/
theorem grantOpens_written {space key : Text} {ek : ByteArray} {w : World} {g : Text}
    {r : KeyRecord} {eph blob : ByteArray} {json : String} {spaceId grantor : Text}
    (hr : w.vault.cache.lookup g = some r) (hsealed : Grant.SealedTo r.publicKey ek eph blob)
    (hj : (GrantRecord.build blob spaceId grantor).toJson = .ok json)
    (hp : w.store.find? space (Grant.path g key) = some ⟨.ofString json, []⟩) :
    GrantOpens space key ek w g := by
  refine ⟨r, _, _, blob, eph, hr, hp, GrantRecord.load_build blob spaceId grantor [] hj,
    GrantRecord.blob_build blob spaceId grantor [], fun priv hpriv ha => ?_⟩
  rw [← hpriv] at hsealed
  exact Grant.open?_of_sealedTo hsealed ha

/-- Grantees in turn: each ends with a grant that opens to the entry key, or is counted as
failed with its grant path as it was, and the count of grants issued is the rest. No record
off the grantees' grant paths changes, and the vault changes only in the records cached for
the grantees. The induction is on the grantees; grant paths of distinct grantees differ, so a
later turn keeps what an earlier one wrote. -/
theorem exec_reissueAll {key : Text} {ek : ByteArray} {gs : List Text} (hnd : gs.Nodup)
    (hslash : ∀ g ∈ gs, 47 ∉ g.points) {report report' : Rotation.Report} {w w' : World}
    (hf : w.vault.faults = []) (h : exec (reissueAll key ek gs report) w = (.ok report', w')) :
    ∃ fs : List Text, fs.Sublist gs ∧
      report' =
        { report with reissued := report.reissued + (gs.length - fs.length)
                      failed := report.failed ++ fs } ∧
      (∀ g ∈ gs, (g ∉ fs ∧ GrantOpens w.vault.session.space key ek w' g) ∨
        (g ∈ fs ∧ w'.store.find? w.vault.session.space (Grant.path g key) =
          w.store.find? w.vault.session.space (Grant.path g key))) ∧
      (∀ n p, (∀ g ∈ gs, n = w.vault.session.space → p ≠ Grant.path g key) →
        w'.store.find? n p = w.store.find? n p) ∧
      ∃ c, w'.vault = { w.vault with cache := c } ∧
        ∀ d, d ∉ gs → c.lookup d = w.vault.cache.lookup d := by
  induction gs generalizing report w with
  | nil =>
    rw [reissueAll, exec_pure, Prod.mk.injEq, Except.ok.injEq] at h
    obtain ⟨rfl, rfl⟩ := h
    refine ⟨[], .slnil, ?_, ?_, fun _ _ _ => rfl, w.vault.cache, rfl, fun _ _ => rfl⟩
    · simp
    · intro g hg
      cases hg
  | cons g rest ih =>
    obtain ⟨hg, hnd'⟩ := List.nodup_cons.mp hnd
    have hslash' : ∀ g' ∈ rest, 47 ∉ g'.points := fun g' hg' => hslash g' (.tail g hg')
    have hne : ∀ g' ∈ rest, Grant.path g key ≠ Grant.path g' key := fun g' hg' he =>
      hg ((Grant.path_inj (hslash g (.head _)) (hslash' g' hg') he).1 ▸ hg')
    have hkeep₁ := reissue_keeps_other_paths hf key ek g
    obtain ⟨c₁, hv₁, hc₁, hout⟩ := exec_reissue hf key ek g
    rw [exec_reissueAll_cons] at h
    generalize exec (reissue key ek g) w = res at h hv₁ hout hkeep₁
    obtain ⟨r₁, w₁⟩ := res
    dsimp only at hv₁ hout hkeep₁
    have hsp : w₁.vault.session = w.vault.session := by rw [hv₁]
    have hf₁ : w₁.vault.faults = [] := by rw [hv₁]; exact hf
    -- what the rest of the turns keep, read back to the world before this one
    have hrest : ∀ {report₁ : Rotation.Report}, exec (reissueAll key ek rest report₁) w₁ = (.ok report', w') →
        ∃ fs : List Text, fs.Sublist rest ∧
          report' =
            { report₁ with reissued := report₁.reissued + (rest.length - fs.length)
                           failed := report₁.failed ++ fs } ∧
          (∀ g' ∈ rest, (g' ∉ fs ∧ GrantOpens w.vault.session.space key ek w' g') ∨
            (g' ∈ fs ∧ w'.store.find? w.vault.session.space (Grant.path g' key) =
              w.store.find? w.vault.session.space (Grant.path g' key))) ∧
          (∀ n p, (∀ g' ∈ g :: rest, n = w.vault.session.space → p ≠ Grant.path g' key) →
            w'.store.find? n p = w.store.find? n p) ∧
          w'.store.find? w.vault.session.space (Grant.path g key) =
            w₁.store.find? w.vault.session.space (Grant.path g key) ∧
          ∃ c, w'.vault = { w.vault with cache := c } ∧
            c.lookup g = c₁.lookup g ∧ ∀ d, d ∉ g :: rest → c.lookup d = w.vault.cache.lookup d := by
      intro report₁ h
      obtain ⟨fs, hsub, hrep, hgs, hframe, c, hv, hc⟩ := ih hnd' hslash' hf₁ h
      rw [hsp] at hgs hframe
      refine ⟨fs, hsub, hrep, fun g' hg' => ?_, fun n p hnp => ?_,
        hframe _ _ fun g' hg' _ => hne g' hg', c, by rw [hv, hv₁], ?_, fun d hd => ?_⟩
      · rcases hgs g' hg' with hl | ⟨hin, hp⟩
        · exact .inl hl
        · refine .inr ⟨hin, ?_⟩
          rw [hp, hkeep₁ _ _ fun _ => (hne g' hg').symm]
      · rw [hframe n p fun g' hg' => hnp g' (.tail g hg'), hkeep₁ n p (hnp g (.head rest))]
      · rw [hc g hg, hv₁]
      · rw [hc d fun h => hd (.tail g h), hv₁]
        exact hc₁ d fun h => hd (h ▸ .head rest)
    cases r₁ with
    | error f =>
      dsimp only at h
      have hst : w₁.store = w.store := by
        rcases hout with ⟨_, _, hst⟩ | ⟨h', _⟩
        · exact hst
        · cases h'
      by_cases hv : (f.isVaultFailure || f.isInvalidValue) = true
      · rw [if_pos hv] at h
        obtain ⟨fs, hsub, hrep, hgs, hframe, hpath, c, hv, -, hc⟩ := hrest h
        refine ⟨g :: fs, hsub.cons_cons g, by rw [hrep]; simp, fun g' hmem => ?_, hframe, c, hv, hc⟩
        rcases List.mem_cons.mp hmem with rfl | hg'
        · exact .inr ⟨.head fs, by rw [hpath, hst]⟩
        · rcases hgs g' hg' with ⟨hout', hopen⟩ | ⟨hin, hp⟩
          · refine .inl ⟨fun hin => ?_, hopen⟩
            rcases List.mem_cons.mp hin with rfl | hin
            · exact hg hg'
            · exact hout' hin
          · exact .inr ⟨.tail g hin, hp⟩
      · rw [if_neg hv] at h
        cases h
    | ok u =>
      dsimp only at h
      obtain ⟨-, r, eph, blob, json, hr, hsealed, hj, hst⟩ := hout.resolve_left
        fun ⟨_, hf', _⟩ => nomatch hf'
      obtain ⟨fs, hsub, hrep, hgs, hframe, hpath, c, hv, hcg, hc⟩ := hrest h
      have hopen₁ : GrantOpens w.vault.session.space key ek w₁ g := by
        refine grantOpens_written (by rw [hv₁]; exact hr) hsealed hj ?_
        rw [hst, Store.find?_write, if_pos ⟨rfl, rfl⟩]
      have hlen := hsub.length_le
      refine ⟨fs, hsub.cons g, ?_, fun g' hg' => ?_, hframe, c, hv, hc⟩
      · rw [hrep, List.length_cons]
        congr 1
        dsimp only
        omega
      · rcases List.mem_cons.mp hg' with rfl | hg'
        · refine .inl ⟨fun hin => hg (hsub.subset hin), hopen₁.keep ?_ hpath⟩
          rw [hv, hcg, hv₁]
        · exact hgs g' hg'

/-! ## Sealing again -/

theorem SealedRecords.unwrap_eq {blobCipher valueCipher : Aead} {mk ek plaintext : ByteArray}
    {ct rotation : Text} {custom : List (Value × Value)} {blob : KeyBlob} {e : Envelope}
    (hs : SealedRecords blobCipher valueCipher mk ek plaintext ct rotation custom blob e) :
    unwrap mk blob = .ok ek := by
  obtain ⟨nb, hnb, rfl⟩ := hs.wrapped
  exact unwrap_wrapped hs.masterKey ek hnb

/-! ## A whole rotation -/

/-- What a rotation of entry `key` in `space` that succeeded did, from `w` to `w'`, for the
plaintext `p` and content type `ct` the entry holds and the grantees `gs`. The entry's records,
holding `p` in `w`, are replaced by records that wrap the fresh entry key (the first key drawn
from `w`'s entropy) and hold `p` sealed under it; the report names the fresh key and the
replaced one; each grantee gets a grant that opens to the fresh key, or is reported failed with
its grant as it was, and the grants issued are counted; no other record of any space changes. -/
structure Rotated (mk : ByteArray) (space key : Text) (p : ByteArray) (ct : Text)
    (gs : List Text) (w : World) (report : Rotation.Report) (w' : World) : Prop where
  before : ∃ kr vr b, w.store.find? space (keysPrefix ++ key) = some kr ∧
    w.store.find? space (valuesPrefix ++ key) = some vr ∧
    KeyBlob.load kr.data.toValue = .ok b ∧ EntryRecords mk kr vr p ct ∧
    report.previousKeyId = b.keyId
  after : ∃ kr vr b, w'.store.find? space (keysPrefix ++ key) = some kr ∧
    w'.store.find? space (valuesPrefix ++ key) = some vr ∧
    KeyBlob.load kr.data.toValue = .ok b ∧ unwrap mk b = .ok (w.entropy.draw 32).1 ∧
    EntryRecords mk kr vr p ct
  keyId : report.keyId = Text.ofString (keyId (w.entropy.draw 32).1)
  failed : report.failed.Sublist gs
  reissued : report.reissued = gs.length - report.failed.length
  grantees : ∀ g ∈ gs,
    (g ∉ report.failed ∧ GrantOpens space key (w.entropy.draw 32).1 w' g) ∨
      (g ∈ report.failed ∧
        w'.store.find? space (Grant.path g key) = w.store.find? space (Grant.path g key))
  frame : ∀ n q,
    (n = space → q ≠ keysPrefix ++ key ∧ q ≠ valuesPrefix ++ key ∧ ∀ g ∈ gs, q ≠ Grant.path g key) →
      w'.store.find? n q = w.store.find? n q

/-- A rotation reads from its start world only records and entropy: from a start world with the
same records and entropy it did the same. -/
theorem Rotated.of_sameRecords {mk : ByteArray} {space key : Text} {p : ByteArray} {ct : Text}
    {gs : List Text} {w w₀ w' : World} {report : Rotation.Report}
    (h : Rotated mk space key p ct gs w report w') (hs : sameRecords.rel w₀ w)
    (he : w₀.entropy = w.entropy) : Rotated mk space key p ct gs w₀ report w' := by
  obtain ⟨hbefore, hafter, hkey, hfailed, hreissued, hgs, hframe⟩ := h
  refine ⟨?_, ?_, ?_, hfailed, hreissued, ?_, fun n q hq => ?_⟩
  · obtain ⟨kr, vr, b, hkr, hvr, hrest⟩ := hbefore
    exact ⟨kr, vr, b, (hs _ _).symm.trans hkr, (hs _ _).symm.trans hvr, hrest⟩
  · rwa [he]
  · rwa [he]
  · intro g hg
    rw [he, ← hs]
    exact hgs g hg
  · rw [← hs]
    exact hframe n q hq


/-- A rotation that succeeds from a consistent world seals the entry's plaintext again under
a fresh key and issues fresh grants to distinct slash-free grantees. -/
theorem exec_rotate_eq_ok {mk : ByteArray} {space : Text} {L : Ledger} {w w' : World}
    (hc : Consistent mk space L w) {key : Text} {gs : List Text} (hnd : gs.Nodup)
    (hslash : ∀ g ∈ gs, 47 ∉ g.points) {cipher : Aead} {report : Rotation.Report}
    (h : exec (rotate key gs cipher) w = (.ok report, w')) :
    ∃ p ct, L key = some (p, ct) ∧ Rotated mk space key p ct gs w report w' := by
  unfold rotate at h
  obtain ⟨⟨prev, nk, blob', e'⟩, w₁, h₁, c₁⟩ := exec_bind_eq_ok h
  have hrec₁ : sameRecords.rel w w₁ := by
    have := records_reads.resealEntry key cipher w
    rwa [h₁] at this
  obtain ⟨mk', kr, vr, b, e, ek, p, valueCipher, hmk, hkr, hb, hvr, he, hu, hp, rfl, rfl, -,
    hsealed, hkeep⟩ := exec_resealEntry_eq_ok hc.faults h₁
  obtain rfl := hc.masterKey mk' hmk
  rw [hc.session] at hkr hvr
  -- what was read is what the ledger has
  obtain ⟨p₀, ct, hL, b₀, ek₀, e₀, hb₀, hu₀, he₀, hid₀, hp₀, hct₀, hnd₀, hstr⟩ :=
    hc.entry_of_stored hkr hvr
  rw [hb, Except.ok.injEq] at hb₀
  subst hb₀
  rw [hu, Except.ok.injEq] at hu₀
  subst hu₀
  rw [he, Except.ok.injEq] at he₀
  subst he₀
  rw [hp, Except.ok.injEq] at hp₀
  subst hp₀
  obtain ⟨jb, je, hjb, hje⟩ := hsealed.toJson_of_resealed hstr
  have hf₁ : w₁.vault.faults = [] := hkeep.faults.trans hc.faults
  have hsp₁ : w₁.vault.session.space = space := by rw [hkeep.session]; exact hc.session
  obtain ⟨u, w₂, h₂, c₂⟩ := exec_bind_eq_ok c₁
  rw [exec_storeEntry hf₁ hjb hje, Prod.mk.injEq] at h₂
  obtain ⟨-, rfl⟩ := h₂
  obtain ⟨fs, hsub, rfl, hgs, hframe, -⟩ := exec_reissueAll hnd hslash (by exact hf₁) c₂
  dsimp only at hgs hframe
  rw [hsp₁] at hgs hframe
  -- the entry's records are written once, off every grant path
  have hwritten : ∀ q, (q ≠ keysPrefix ++ key ∧ q ≠ valuesPrefix ++ key) →
      ((w₁.store.write space (keysPrefix ++ key) ⟨.ofString jb, []⟩).write space
        (valuesPrefix ++ key) ⟨.ofString je, headerPairs e'.metadata⟩).find? space q =
        w.store.find? space q := by
    intro q ⟨hqk, hqv⟩
    rw [Store.find?_write, if_neg fun h => hqv h.2, Store.find?_write, if_neg fun h => hqk h.2,
      hrec₁]
  have hgrant : ∀ g, Grant.path g key ≠ keysPrefix ++ key ∧ Grant.path g key ≠ valuesPrefix ++ key :=
    fun g => offEntries_grantPath g key key
  have hunwrap := hsealed.unwrap_eq
  refine ⟨p, e.contentType, hL.trans (by rw [hct₀]), ⟨⟨kr, vr, b, hkr, hvr, hb,
    ⟨b, ek, e, hb, hu, he, hid₀, hp, rfl, hnd₀, hstr⟩, rfl⟩, ?_, ?_, ?_, ?_, fun g hg => ?_,
    fun n q hq => ?_⟩⟩
  · refine ⟨⟨.ofString jb, []⟩, ⟨.ofString je, headerPairs e'.metadata⟩, blob', ?_, ?_,
      KeyBlob.load_toJson hjb, hunwrap,
      hsealed.entryRecords hjb hje (headerPairs e'.metadata)⟩
    · rw [hframe space _ fun g _ _ => (hgrant g).1.symm, find?_keys_written, if_pos rfl]
    · rw [hframe space _ fun g _ _ => (hgrant g).2.symm, find?_values_written, if_pos rfl]
  · exact keyId_of_unwrap hunwrap
  · simpa using hsub
  · simp
  · rcases hgs g hg with ⟨hout, hopen⟩ | ⟨hin, hpath⟩
    · exact .inl ⟨by simpa using hout, hopen⟩
    · exact .inr ⟨by simpa using hin, by rw [hpath, hwritten _ (hgrant g)]⟩
  · rw [hframe n q fun g hg hn => (hq hn).2.2 g hg]
    by_cases hn : n = space
    · subst hn
      exact hwritten q ⟨(hq rfl).1, (hq rfl).2.1⟩
    · rw [Store.find?_write, if_neg fun h => hn h.1, Store.find?_write, if_neg fun h => hn h.1,
        hrec₁]

end Vault

end Strongbox

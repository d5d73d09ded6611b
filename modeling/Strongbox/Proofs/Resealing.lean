import Strongbox.Proofs.GrantFolder
import Strongbox.Proofs.ReadFailures

/-!
# Grants sealed again

A fresh grant to a grantee whose key is cached, from a vault that meets no faults and whose
space is a string, can fail only where the curve refuses the exchange with the fresh ephemeral
key; where it does not, the grant holds the entry key sealed to the cached key
(`exec_reissue_cached`). The failures a fresh grant can meet at all are the ones issuing grants
in turn counts (`reissue_error_counted`), so issuing them never fails (`exec_reissueAll_ok`), a
rotation of a consistent entry fails only before it writes anything (`exec_rotate_error`), and a
grantee whose exchanges succeed ends with a grant of the fresh entry key
(`rotate_grantHolds`).
-/

namespace Strongbox

theorem X25519.size_of_exchange_eq_ok {a b s : ByteArray} (h : exchange a b = .ok s) :
    a.size = 32 := by
  unfold exchange at h
  by_contra ha
  rw [if_pos ha] at h
  cases h

namespace Vault

/-- The grant of entry `key` to `g`, in `space` of store `st`, holds `ek` sealed to the public
key `pub`. -/
def GrantHolds (st : Store) (space g key : Text) (pub ek : ByteArray) : Prop :=
  ∃ gr rec blob eph, st.find? space (Grant.path g key) = some gr ∧
    GrantRecord.load gr.data.toValue = .ok rec ∧ rec.blob = .ok blob ∧
    Grant.SealedTo pub ek eph blob

theorem GrantHolds.keep {st st' : Store} {space g key : Text} {pub ek : ByteArray}
    (h : GrantHolds st space g key pub ek)
    (hp : st'.find? space (Grant.path g key) = st.find? space (Grant.path g key)) :
    GrantHolds st' space g key pub ek := by
  obtain ⟨gr, rec, blob, eph, hgr, hrest⟩ := h
  exact ⟨gr, rec, blob, eph, hp.trans hgr, hrest⟩

/-- A grant record written for a sealed blob holds what the blob seals. -/
theorem grantHolds_written {st : Store} {space g key : Text} {pub ek eph blob : ByteArray}
    {spaceId grantor : Text} {custom : List (Value × Value)} {json : String}
    (hs : Grant.SealedTo pub ek eph blob)
    (hj : (GrantRecord.build blob spaceId grantor custom).toJson = .ok json)
    (hp : st.find? space (Grant.path g key) = some ⟨.ofString json, []⟩) :
    GrantHolds st space g key pub ek :=
  ⟨_, _, blob, eph, hp, GrantRecord.load_build blob spaceId grantor custom hj,
    GrantRecord.blob_build blob spaceId grantor custom, hs⟩

/-! ## One fresh grant -/

section Reissue

variable {w : World} (hf : w.vault.faults = [])
include hf

omit hf in
theorem exec_resolve_cached {did : Text} {r : KeyRecord} (hc : w.vault.cache.lookup did = some r) :
    exec (resolve did) w = (.ok r, w) := by
  unfold resolve
  rw [exec_bind, exec_current]
  dsimp only
  rw [hc]
  rfl

/-- A fresh grant to a grantee whose key is cached, when the exchange with the drawn ephemeral
key succeeds, writes a grant holding the entry key sealed to that key, and changes nothing else
but the entropy. -/
theorem exec_reissue_cached (hstr : w.vault.settings.space.IsString) (key : Text) (ek : ByteArray)
    {g : Text} {r : KeyRecord} (hc : w.vault.cache.lookup g = some r)
    (hsize : r.publicKey.size = 32) {shared : ByteArray}
    (hx : X25519.exchange (w.entropy.draw 32).1 r.publicKey = .ok shared) :
    ∃ blob json, Grant.SealedTo r.publicKey ek (w.entropy.draw 32).1 blob ∧
      (GrantRecord.build blob w.vault.settings.space (Text.ofString w.vault.did)).toJson =
        .ok json ∧
      exec (reissue key ek g) w = (.ok (), { w with
        entropy := ((w.entropy.draw 32).2.draw nonceSize).2
        store := w.store.write w.vault.session.space (Grant.path g key) ⟨.ofString json, []⟩ }) := by
  obtain ⟨blob, hrun⟩ := @Grant.sealEntryKey_ok ek _ _ _ hsize hx
  obtain ⟨hsealed, -⟩ := Grant.sealEntryKey_eq_ok hrun
  obtain ⟨json, hj⟩ := GrantRecord.toJson_build blob hstr
    (Text.isString_ofString _) (fun p (hp : p ∈ Headers.ofValues []) => nomatch hp)
  refine ⟨blob, json, hsealed, hj, ?_⟩
  unfold reissue
  rw [resolvePublicKey_bind, exec_bind, exec_resolve_cached hc]
  dsimp only
  rw [exec_bind, exec_drawing, hrun]
  dsimp only
  rw [exec_bind, exec_current]
  dsimp only
  rw [exec_bind, exec_liftExcept, hj]
  exact exec_storePut (w := { w with entropy := ((w.entropy.draw 32).2.draw nonceSize).2 }) hf _ _ _ _

end Reissue

/-- A published key the directory cannot give is a missing public key. -/
theorem publishedKey_error {did : Text} {t : Option Text} {f : Failure}
    (h : publishedKey did t = .error f) : f.isVaultFailure = true := by
  unfold publishedKey at h
  split at h
  · cases h
    rfl
  · split at h
    · cases h
      rfl
    · split at h
      · cases h
        rfl
      · cases h

/-- Resolving fails as a missing public key, or as the store fails. -/
theorem failsOnly_resolve {P : Failure → Prop} (hP : ∀ f, f.isVaultFailure = true → P f)
    (did : Text) : FailsOnly P (resolve did) := by
  unfold resolve
  refine FailsOnly.current.bind fun v => ?_
  split
  · exact FailsOnly.pure _
  · unfold principalOf
    refine (FailsOnly.liftExcept fun f h => ?_).bind fun p =>
      (failsOnly_readText hP _ _).bind fun _ =>
        (FailsOnly.liftExcept fun f h => hP f (publishedKey_error h)).bind fun _ =>
          (failsOnly_readText hP _ _).bind fun _ => (failsOnly_readText hP _ _).bind fun _ =>
            (FailsOnly.update _).bind fun _ => FailsOnly.pure _
    cases hp : Principal.parse did with
    | ok p => rw [hp] at h; cases h
    | error e =>
      rw [hp] at h
      simp only [Except.mapError, Except.error.injEq] at h
      rw [← h]
      exact hP _ rfl

/-- A fresh grant from a vault whose space is a string fails only in ways that issuing grants
in turn counts against the grantee. -/
theorem reissue_error_counted {w : World} (hf : w.vault.faults = [])
    (hstr : w.vault.settings.space.IsString) {key : Text} {ek : ByteArray} {g : Text} {f : Failure}
    (h : (exec (reissue key ek g) w).1 = .error f) : (f.isVaultFailure || f.isInvalidValue) = true := by
  unfold reissue at h
  rw [resolvePublicKey_bind, exec_bind] at h
  rcases hres : exec (resolve g) w with ⟨_ | r, w₁⟩
  · rw [hres] at h
    dsimp only at h
    obtain rfl := Except.error.inj h
    exact failsOnly_resolve (P := fun f => (f.isVaultFailure || f.isInvalidValue) = true)
      (fun f hv => by rw [hv]; rfl) g w _ (by rw [hres])
  · rw [hres] at h
    obtain ⟨c, hw₁, -, -⟩ := resolve_world hf g
    rw [hres] at hw₁
    dsimp only at hw₁
    subst hw₁
    dsimp only at h
    rw [exec_bind, exec_drawing] at h
    rcases hs : (Grant.sealEntryKey ek r.publicKey).run.run w.entropy with ⟨_ | blob, e'⟩
    · rw [hs] at h
      cases h
      rw [Grant.sealEntryKey_eq_error hs, Bool.or_true]
    · rw [hs] at h
      dsimp only at h
      obtain ⟨json, hj⟩ := GrantRecord.toJson_build blob hstr
        (Text.isString_ofString _) (fun p (hp : p ∈ Headers.ofValues []) => nomatch hp)
      rw [exec_bind, exec_current] at h
      dsimp only at h
      rw [exec_bind, exec_liftExcept,
        show ({ w.vault with cache := c } : Vault).did = w.vault.did from rfl, hj] at h
      dsimp only at h
      rw [exec_storePut (w := { w with vault := { w.vault with cache := c }, entropy := e' }) hf] at h
      cases h

/-- Issuing grants in turn from a vault whose space is a string never fails. -/
theorem exec_reissueAll_ok {w : World} (hf : w.vault.faults = [])
    (hstr : w.vault.settings.space.IsString) (key : Text) (ek : ByteArray) (gs : List Text)
    (report : Rotation.Report) : ∃ report' w', exec (reissueAll key ek gs report) w = (.ok report', w') := by
  induction gs generalizing report w with
  | nil => exact ⟨report, w, rfl⟩
  | cons g rest ih =>
    obtain ⟨c, hv, -, -⟩ := exec_reissue hf key ek g
    have hf₁ : (exec (reissue key ek g) w).2.vault.faults = [] := by rw [hv]; exact hf
    have hstr₁ : (exec (reissue key ek g) w).2.vault.settings.space.IsString := by rw [hv]; exact hstr
    have hcounted : ∀ f, (exec (reissue key ek g) w).1 = .error f →
        (f.isVaultFailure || f.isInvalidValue) = true :=
      fun f => reissue_error_counted hf hstr
    rw [exec_reissueAll_cons]
    generalize exec (reissue key ek g) w = res at hf₁ hstr₁ hcounted
    obtain ⟨_ | u, w₁⟩ := res
    · rename_i f
      dsimp only
      rw [if_pos (hcounted f rfl)]
      exact ih hf₁ hstr₁ _
    · exact ih hf₁ hstr₁ _

/-- Grantees in turn, `g` among them with its key cached: when every exchange with that key
succeeds, `g` ends with a grant holding the entry key sealed to it. The induction is on the
grantees: a turn before `g`'s keeps `g`'s cached record, and the turns after it write the
later grantees' paths only. -/
theorem reissueAll_grantHolds {key : Text} {ek : ByteArray} {gs : List Text} (hnd : gs.Nodup)
    (hslash : ∀ g ∈ gs, 47 ∉ g.points) {g : Text} (hg : g ∈ gs) {r : KeyRecord}
    (hsize : r.publicKey.size = 32)
    (hx : ∀ e : Entropy, ∃ shared, X25519.exchange (e.draw 32).1 r.publicKey = .ok shared)
    {report report' : Rotation.Report} {w w' : World} (hf : w.vault.faults = [])
    (hstr : w.vault.settings.space.IsString) (hc : w.vault.cache.lookup g = some r)
    (h : exec (reissueAll key ek gs report) w = (.ok report', w')) :
    GrantHolds w'.store w.vault.session.space g key r.publicKey ek := by
  induction gs generalizing report w with
  | nil => cases hg
  | cons g' rest ih =>
    obtain ⟨hout, hnd'⟩ := List.nodup_cons.mp hnd
    have hslash' : ∀ x ∈ rest, 47 ∉ x.points := fun x hx => hslash x (.tail _ hx)
    rw [exec_reissueAll_cons] at h
    by_cases hgg : g' = g
    · -- `g`'s own turn seals the key, and no later turn writes its path
      subst hgg
      obtain ⟨shared, hsh⟩ := hx w.entropy
      obtain ⟨blob, json, hsealed, hj, hex⟩ := exec_reissue_cached hf hstr key ek hc hsize hsh
      rw [hex] at h
      dsimp only at h
      obtain ⟨-, -, -, -, hframe, -⟩ := exec_reissueAll hnd' hslash' (by exact hf) h
      refine grantHolds_written hsealed hj ?_
      rw [hframe _ _ fun x hx _ he =>
        hout ((Grant.path_inj (hslash g' (.head _)) (hslash' x hx) he).1 ▸ hx)]
      exact (Store.find?_write _ _ _ _ _ _).trans (if_pos ⟨rfl, rfl⟩)
    · -- an earlier turn keeps `g`'s cached record, the faults and the settings
      have hg₁ : g ∈ rest := (List.mem_cons.mp hg).resolve_left fun h => hgg h.symm
      obtain ⟨c, hv, hc', -⟩ := exec_reissue hf key ek g'
      have hf₁ : (exec (reissue key ek g') w).2.vault.faults = [] := by rw [hv]; exact hf
      have hstr₁ : (exec (reissue key ek g') w).2.vault.settings.space.IsString := by
        rw [hv]; exact hstr
      have hc₁ : (exec (reissue key ek g') w).2.vault.cache.lookup g = some r := by
        rw [hv]; exact (hc' g fun h => hgg h.symm).trans hc
      have hsp : (exec (reissue key ek g') w).2.vault.session = w.vault.session := by rw [hv]
      have hcounted : ∀ f, (exec (reissue key ek g') w).1 = .error f →
          (f.isVaultFailure || f.isInvalidValue) = true :=
        fun f => reissue_error_counted hf hstr
      generalize exec (reissue key ek g') w = res at h hf₁ hstr₁ hc₁ hsp hcounted
      obtain ⟨_ | u, w₁⟩ := res
      · rename_i f
        dsimp only at h
        rw [if_pos (hcounted f rfl)] at h
        rw [← hsp]
        exact ih hnd' hslash' hg₁ hf₁ hstr₁ hc₁ h
      · rw [← hsp]
        exact ih hnd' hslash' hg₁ hf₁ hstr₁ hc₁ h

/-! ## Rotations -/

/-- Worlds that keep the vault, from a vault that meets no faults. -/
def keepsVault : WorldOrder where
  rel w w' := w.vault.faults = [] → w'.vault = w.vault
  refl _ _ := rfl
  trans h₁ h₂ hf := by
    have hv₁ := h₁ hf
    rw [h₂ (by rw [hv₁]; exact hf), hv₁]

/-- Every reading step keeps the vault of a vault that meets no faults. -/
theorem vault_reads : KeptByReads keepsVault where
  meetFaults _ _ w hf := by rw [exec_meetFaults hf]
  storeGet _ _ w hf := by rw [exec_storeGet hf]
  storeList _ w hf := by rw [exec_storeList hf]
  storeGetPublic _ _ w hf := by rw [exec_storeGetPublic hf]
  drawing _ w _ := by rw [exec_drawing]

section Rotating

variable {mk : ByteArray} {space : Text} {L : Ledger} {w : World} (hc : Consistent mk space L w)
  (hstr : w.vault.settings.space.IsString)
include hc

/-- The records a rotation of a consistent entry seals have JSON text: the envelope it read had
text headers. -/
theorem resealed_toJson {key : Text} {cipher : Aead} {prev : Text} {nk : ByteArray}
    {blob' : KeyBlob} {e' : Envelope} {w₁ : World}
    (h : exec (resealEntry key cipher) w = (.ok (prev, nk, blob', e'), w₁)) :
    ∃ jb je, blob'.toJson = .ok jb ∧ e'.toJson = .ok je := by
  obtain ⟨mk', kr, vr, b, e, ek, p, valueCipher, -, hkr, -, hvr, he, -, -, -, -, -, hsealed, -⟩ :=
    exec_resealEntry_eq_ok hc.faults h
  rw [hc.session] at hkr hvr
  obtain ⟨p₀, ct, -, b₀, ek₀, e₀, -, -, he₀, -, -, -, -, hstrings⟩ := hc.entry_of_stored hkr hvr
  rw [he, Except.ok.injEq] at he₀
  subst he₀
  exact hsealed.toJson_of_resealed hstrings

include hstr in
/-- A rotation of a consistent entry, from a vault whose space is a string, fails only where
sealing the entry again fails, before anything is written. -/
theorem exec_rotate_error {key : Text} {gs : List Text} {cipher : Aead} {f : Failure}
    {w' : World} (h : exec (rotate key gs cipher) w = (.error f, w')) :
    exec (resealEntry key cipher) w = (.error f, w') := by
  unfold rotate at h
  rw [exec_bind] at h
  rcases h₁ : exec (resealEntry key cipher) w with ⟨_ | ⟨prev, nk, blob', e'⟩, w₁⟩
  · rw [h₁] at h
    dsimp only at h
    rw [Prod.mk.injEq, Except.error.injEq] at h
    rw [h.1, h.2]
  · rw [h₁] at h
    dsimp only at h
    -- the records have JSON text, so both are written, and the grants never fail
    obtain ⟨jb, je, hjb, hje⟩ := resealed_toJson hc h₁
    have hv₁ : w₁.vault = w.vault := by
      have := vault_reads.resealEntry key cipher w hc.faults
      rwa [h₁] at this
    have hf₁ : w₁.vault.faults = [] := by rw [hv₁]; exact hc.faults
    rw [exec_bind, exec_storeEntry hf₁ hjb hje] at h
    dsimp only at h
    obtain ⟨report', w'', hok⟩ := exec_reissueAll_ok (w := { w₁ with
      store := (w₁.store.write w₁.vault.session.space (keysPrefix ++ key) ⟨.ofString jb, []⟩).write
        w₁.vault.session.space (valuesPrefix ++ key) ⟨.ofString je, headerPairs e'.metadata⟩ })
      hf₁ (by rw [hv₁]; exact hstr) key nk gs { keyId := blob'.keyId, previousKeyId := prev }
    rw [hok] at h
    cases h

include hstr in
/-- A rotation that succeeds from a consistent world seals the fresh entry key, the first key
drawn, to each grantee whose key is cached and whose exchanges all succeed. -/
theorem rotate_grantHolds {key : Text} {gs : List Text} (hnd : gs.Nodup)
    (hslash : ∀ g ∈ gs, 47 ∉ g.points) {g : Text} (hg : g ∈ gs) {r : KeyRecord}
    (hcg : w.vault.cache.lookup g = some r) (hsize : r.publicKey.size = 32)
    (hx : ∀ e : Entropy, ∃ shared, X25519.exchange (e.draw 32).1 r.publicKey = .ok shared)
    {cipher : Aead} {report : Rotation.Report} {w' : World}
    (h : exec (rotate key gs cipher) w = (.ok report, w')) :
    GrantHolds w'.store space g key r.publicKey (w.entropy.draw 32).1 := by
  unfold rotate at h
  obtain ⟨⟨prev, nk, blob', e'⟩, w₁, h₁, c₁⟩ := exec_bind_eq_ok h
  obtain ⟨-, -, -, -, -, -, -, -, -, -, -, -, -, -, -, -, rfl, -, -, -⟩ :=
    exec_resealEntry_eq_ok hc.faults h₁
  obtain ⟨jb, je, hjb, hje⟩ := resealed_toJson hc h₁
  have hv₁ : w₁.vault = w.vault := by
    have := vault_reads.resealEntry key cipher w hc.faults
    rwa [h₁] at this
  have hf₁ : w₁.vault.faults = [] := by rw [hv₁]; exact hc.faults
  obtain ⟨u, w₂, h₂, c₂⟩ := exec_bind_eq_ok c₁
  rw [exec_storeEntry hf₁ hjb hje, Prod.mk.injEq] at h₂
  obtain ⟨-, rfl⟩ := h₂
  have hholds := reissueAll_grantHolds hnd hslash hg hsize hx (by exact hf₁)
    (by rw [hv₁]; exact hstr) (by rw [hv₁]; exact hcg) c₂
  rwa [hv₁, hc.session] at hholds

end Rotating

end Vault

end Strongbox

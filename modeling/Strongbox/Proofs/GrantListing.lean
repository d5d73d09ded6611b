import Strongbox.Proofs.Resharing

/-!
# Listing and deleting grants

Listing an entry's grants reads the grants folder, names each path relative to it and keeps the
recipient of every path that names one for the entry, once, in the order of the paths. Deleting
an entry erases the grant path of each recipient listed, then the value and the key blob.

Both are exact when nothing lies under a second grants folder (`grants/grants/…`): the recipients
listed are then exactly the non-empty single segments whose grant path for the entry is present,
in the order of their grant paths, and deleting erases exactly those paths and the entry's two
records, so that afterwards no grant of the entry and not the entry itself is listed. A path
under a second folder is read with the folder cut twice, which names the wrong recipient.
-/

namespace Strongbox

namespace Grant

/-! ## Recipients in the order of their paths -/

/-- The recipient a grant path names is not empty. -/
theorem nonempty_of_parsePath? {p r k : Text} (h : parsePath? p = some (r, k)) :
    r.points ≠ [] := by
  unfold parsePath? at h
  dsimp only at h
  split at h
  · split at h
    · cases h
    · rename_i hempty
      rw [Option.some.injEq, Prod.mk.injEq] at h
      rw [← h.1]
      intro hnil
      simp [Text.isEmpty, hnil] at hempty
  · cases h

/-- The recipient a path names for an entry, if it names one. -/
def recipientFor (key p : Text) : Option Text :=
  (parsePath? p).bind fun rk => if rk.2 = key then some rk.1 else none

theorem addRecipient_sublist (key p : Text) {acc pre : List Text} (h : acc.Sublist pre) :
    (addRecipient key acc p).Sublist (pre ++ (recipientFor key p).toList) := by
  unfold addRecipient recipientFor
  cases parsePath? p with
  | none => simpa using h
  | some rk =>
    obtain ⟨r, k⟩ := rk
    by_cases hk : k = key
    · subst hk
      by_cases hr : r ∈ acc
      · simpa [hr] using h.trans (List.sublist_append_left pre [r])
      · simpa [hr] using h.append (List.Sublist.refl [r])
    · simpa [hk] using h

theorem recipients_sublist (key : Text) (paths : List Text) :
    (recipients key paths).Sublist (paths.filterMap (recipientFor key)) := by
  suffices ∀ acc pre, acc.Sublist pre →
      (paths.foldl (addRecipient key) acc).Sublist (pre ++ paths.filterMap (recipientFor key)) from
    this [] [] List.Sublist.slnil
  induction paths with
  | nil => intro acc pre h; simpa using h
  | cons p paths ih =>
    intro acc pre h
    have hrest := ih _ _ (addRecipient_sublist key p h)
    rw [List.foldl_cons]
    cases hf : recipientFor key p <;> simp_all

theorem recipientFor_eq_some {key p r : Text} :
    recipientFor key p = some r ↔ parsePath? p = some (r, key) := by
  unfold recipientFor
  cases parsePath? p with
  | none => simp
  | some rk =>
    obtain ⟨r', k⟩ := rk
    by_cases hk : k = key
    · subst hk
      simp [eq_comm]
    · simp [hk]

/-- Among listed grant paths that read back and are sorted, the recipients of an entry come in
the order of their grant paths. -/
theorem pairwise_recipients {key : Text} {paths : List Text} (hcanon : Canonical paths)
    (hsorted : paths.Pairwise fun a b => Text.lt a b = true) :
    (recipients key paths).Pairwise fun a b => Text.lt (path a key) (path b key) = true := by
  refine List.Pairwise.sublist (recipients_sublist key paths) ?_
  rw [List.pairwise_filterMap]
  refine hsorted.imp_of_mem fun {a b} ha hb hab r hr r' hr' => ?_
  -- each path that names a recipient of the entry is that recipient's listed grant path
  have hpa := hcanon a ha r key (recipientFor_eq_some.mp hr)
  have hpb := hcanon b hb r' key (recipientFor_eq_some.mp hr')
  rw [← path_listed, ← path_listed, Text.lt_append_iff, ← hpa, ← hpb]
  exact hab

end Grant

namespace Vault

/-! ## Listing -/

section Listing

variable {s : Store} {space k : Text}

variable (hfolder : ∀ y, s.find? space
  (Text.ofString Grant.pathPrefix ++ (Text.ofString Grant.pathPrefix ++ y)) = none)
include hfolder

/-- The grantees of an entry are exactly the non-empty single segments `r` whose grant path
for it is present. -/
theorem mem_grantees_iff (hk : k.points ≠ []) (r : Text) :
    r ∈ grantees s space k ↔
      r.points ≠ [] ∧ 47 ∉ r.points ∧ (s.find? space (Grant.path r k)).isSome := by
  constructor
  · intro hr
    obtain ⟨p, hp, hparse⟩ := Grant.mem_recipients.mp hr
    have hlisted := Store.mem_listing.mp (canonical_of_folder hfolder p hp r k hparse ▸ hp)
    rw [Grant.path_listed] at hlisted
    exact ⟨Grant.nonempty_of_parsePath? hparse, Grant.noSlash_of_parsePath? hparse, hlisted⟩
  · rintro ⟨hne, hslash, hpresent⟩
    -- the folder's own name has no grant path here, since it would lie under a second folder
    have hfolderName : r ≠ Text.ofString "grants" := by
      rintro rfl
      rw [← Grant.path_listed, show Text.ofString "grants" ++ Text.ofString "/" ++ k =
        Text.ofString Grant.pathPrefix ++ k from rfl, hfolder k] at hpresent
      cases hpresent
    exact mem_grantees_of_present ⟨hne, hslash, hfolderName⟩ hk hpresent

/-- The grantees of an entry come in the order of their grant paths. -/
theorem pairwise_grantees (hd : s.Distinct space) :
    (grantees s space k).Pairwise fun a b => Text.lt (Grant.path a k) (Grant.path b k) = true :=
  Grant.pairwise_recipients (canonical_of_folder hfolder) (Store.pairwise_listing hd _)

end Listing

/-! ## Deleting -/

/-- Erasing paths one after another erases exactly those paths. -/
theorem find?_foldl_erase (n : Text) (f : Text → Text) (m q : Text) :
    ∀ (rs : List Text) (s : Store), (rs.foldl (fun s r => s.erase n (f r)) s).find? m q =
      if m = n ∧ ∃ r ∈ rs, q = f r then none else s.find? m q
  | [], s => by simp
  | r :: rs, s => by
    rw [List.foldl_cons, find?_foldl_erase n f m q rs, Store.find?_erase]
    by_cases hm : m = n <;> by_cases hq : q = f r <;> simp [hm, hq]

/-- The loop over an entry's grantees erases their grant paths, in turn. -/
theorem exec_forIn_storeDelete (k : Text) :
    ∀ (rs : List Text) (w : World), w.vault.faults = [] →
      exec (forIn rs PUnit.unit fun r _ => do
          storeDelete (Grant.path r k)
          pure (ForInStep.yield PUnit.unit)) w =
        (.ok PUnit.unit, { w with
          store := List.foldl (fun s r => s.erase w.vault.session.space (Grant.path r k))
            w.store rs })
  | [], w, _ => by rw [List.forIn_nil, exec_pure]; rfl
  | r :: rs, w, hf => by
    rw [List.forIn_cons, exec_bind_ok (by rw [exec_bind_ok (exec_storeDelete hf _ _), exec_pure])]
    dsimp only
    rw [exec_forIn_storeDelete k rs _ (by exact hf)]
    rfl

/-- The store after deleting an entry of the session's space whose grantees are `rs`: the
space is touched, the grant paths of `rs` erased, then the value and the key blob. -/
def deletedStore (st : Store) (space k : Text) (rs : List Text) : Store :=
  ((List.foldl (fun s r => s.erase space (Grant.path r k)) (st.touch space) rs).erase space
    (valuesPrefix ++ k)).erase space (keysPrefix ++ k)

theorem find?_deletedStore (st : Store) (space k : Text) (rs : List Text) (n q : Text) :
    (deletedStore st space k rs).find? n q =
      if n = space ∧ (q = keysPrefix ++ k ∨ q = valuesPrefix ++ k ∨ ∃ r ∈ rs, q = Grant.path r k)
      then none else st.find? n q := by
  rw [deletedStore, Store.find?_erase, Store.find?_erase, find?_foldl_erase, Store.find?_touch]
  by_cases hn : n = space <;> simp [hn, ite_or]

section Deleted

variable {st : Store} {space k : Text}

/-- After deleting an entry no grant of it is left, when nothing lies under a second grants
folder. -/
theorem grantees_deletedStore (hk : k.points ≠ [])
    (hfolder : ∀ y, st.find? space
      (Text.ofString Grant.pathPrefix ++ (Text.ofString Grant.pathPrefix ++ y)) = none) :
    grantees (deletedStore st space k (grantees st space k)) space k = [] := by
  have hfolder' : ∀ y, (deletedStore st space k (grantees st space k)).find? space
      (Text.ofString Grant.pathPrefix ++ (Text.ofString Grant.pathPrefix ++ y)) = none := by
    intro y
    rw [find?_deletedStore]
    split
    · rfl
    · exact hfolder y
  rw [List.eq_nil_iff_forall_not_mem]
  intro r hr
  obtain ⟨hne, hslash, hpresent⟩ := (mem_grantees_iff hfolder' hk r).mp hr
  rw [find?_deletedStore] at hpresent
  split at hpresent
  · cases hpresent
  · -- a grant path still present was present before, so its recipient was a grantee
    rename_i hkept
    have hr₀ := (mem_grantees_iff hfolder hk r).mpr ⟨hne, hslash, hpresent⟩
    exact hkept ⟨rfl, .inr (.inr ⟨r, hr₀, rfl⟩)⟩

/-- After deleting an entry its name is no longer listed. -/
theorem not_mem_listing_deletedStore (rs : List Text) :
    k ∉ (deletedStore st space k rs).listing space valuesPrefix true := by
  rw [Store.mem_listing, find?_deletedStore, if_pos ⟨rfl, .inr (.inl rfl)⟩]
  simp

end Deleted

section Deleting

variable {w : World} (hf : w.vault.faults = []) {mk : ByteArray} {i : Keys.Identity}
  (hmk : w.vault.masterKey = some mk) (hi : w.vault.identity = some i)
include hf hmk hi

/-- Deleting an entry of an unlocked vault erases its grantees' grant paths, its value and its
key blob. -/
theorem exec_delete_of {key : Value} {k : Text} (hk : EntryName.ofValue key = .ok k) :
    exec (delete key) w = (.ok (), { w with
      store := (deletedStore w.store w.vault.session.space k
        (grantees w.store w.vault.session.space k)) }) := by
  unfold delete
  rw [exec_bind_ok (exec_requireUnlocked_of hmk hi), exec_bind_ok (exec_checkName_of hk w),
    exec_bind_ok (exec_listGrants_of hf hmk hi hk),
    exec_bind_ok (exec_forIn_storeDelete k _ _ (by exact hf)),
    exec_bind_ok (exec_storeDelete (by exact hf) _ _), exec_storeDelete (by exact hf)]
  rfl

/-- Listing an entry's grants and deleting the entry are exact, when nothing lies under a
second grants folder: the listing gives, once each and in the order of their grant paths, the
non-empty single segments whose grant path for the entry is present; deleting erases exactly
those grant paths, the value and the key blob, and leaves every other path of every space as it
was; after it no grant of the entry is listed and the entry is no longer listed. -/
theorem grants_listed_and_deleted_exactly (hd : w.store.Distinct w.vault.session.space)
    (hfolder : ∀ y, w.store.find? w.vault.session.space
      (Text.ofString Grant.pathPrefix ++ (Text.ofString Grant.pathPrefix ++ y)) = none)
    {key : Value} {k : Text} (hk : EntryName.ofValue key = .ok k) :
    ∃ rs, (exec (listGrants key) w).1 = .ok rs ∧ rs.Nodup ∧
      (∀ r, r ∈ rs ↔ r.points ≠ [] ∧ 47 ∉ r.points ∧
        (w.store.find? w.vault.session.space (Grant.path r k)).isSome) ∧
      rs.Pairwise (fun a b => Text.lt (Grant.path a k) (Grant.path b k) = true) ∧
      ∃ w', exec (delete key) w = (.ok (), w') ∧
        (∀ n q, w'.store.find? n q =
          if n = w.vault.session.space ∧
            (q = keysPrefix ++ k ∨ q = valuesPrefix ++ k ∨ ∃ r ∈ rs, q = Grant.path r k)
          then none else w.store.find? n q) ∧
        (exec (listGrants key) w').1 = .ok [] ∧
        ∃ names, (exec (listEntries none false) w').1 = .ok names ∧ k ∉ names := by
  have hkne := EntryName.points_ne_nil hk
  refine ⟨_, by rw [exec_listGrants_of hf hmk hi hk]; rfl, Grant.nodup_recipients _,
    mem_grantees_iff hfolder hkne, pairwise_grantees hfolder hd, _, exec_delete_of hf hmk hi hk,
    find?_deletedStore _ _ _ _, ?_, _,
    exec_listEntries_all (by exact hf) (by exact hmk) (by exact hi),
    not_mem_listing_deletedStore _⟩
  rw [exec_listGrants_of (by exact hf) (by exact hmk) (by exact hi) hk]
  exact congrArg Except.ok (grantees_deletedStore hkne hfolder)

end Deleting

/-- An unlocked vault whose space holds one grant of `k`, to `did:pkh:x`. -/
theorem grants_listed_and_deleted_one_grant :
    let w : World :=
      ⟨⟨⟨"eip155", "1", "0xa1"⟩, ⟨.ofString "s", .aesGcm, .perWrite, none, false⟩,
        ⟨.ofString "s"⟩, [], some .empty, some ⟨.empty, .empty⟩, []⟩,
      ⟨[(.ofString "s",
        [(Grant.path (.ofString "did:pkh:x") (.ofString "k"), ⟨.ofString "g", []⟩)])]⟩,
      { seed := .empty }⟩
    w.vault.faults = [] ∧ w.vault.masterKey = some .empty ∧
    w.vault.identity = some ⟨.empty, .empty⟩ ∧ w.store.Distinct w.vault.session.space ∧
    (∀ y, w.store.find? w.vault.session.space
      (Text.ofString Grant.pathPrefix ++ (Text.ofString Grant.pathPrefix ++ y)) = none) ∧
    EntryName.ofValue (.ofString "k") = .ok (.ofString "k") ∧
    ∃ rs, (exec (listGrants (.ofString "k")) w).1 = .ok rs ∧ rs.Nodup ∧
      (∀ r, r ∈ rs ↔ r.points ≠ [] ∧ 47 ∉ r.points ∧
        (w.store.find? w.vault.session.space (Grant.path r (.ofString "k"))).isSome) ∧
      rs.Pairwise (fun a b =>
        Text.lt (Grant.path a (.ofString "k")) (Grant.path b (.ofString "k")) = true) ∧
      ∃ w', exec (delete (.ofString "k")) w = (.ok (), w') ∧
        (∀ n q, w'.store.find? n q =
          if n = w.vault.session.space ∧ (q = keysPrefix ++ .ofString "k" ∨
            q = valuesPrefix ++ .ofString "k" ∨ ∃ r ∈ rs, q = Grant.path r (.ofString "k"))
          then none else w.store.find? n q) ∧
        (exec (listGrants (.ofString "k")) w').1 = .ok [] ∧
        ∃ names, (exec (listEntries none false) w').1 = .ok names ∧ .ofString "k" ∉ names := by
  intro w
  have hd : w.store.Distinct w.vault.session.space := by
    simp [w, Store.Distinct, Store.space?]
  have hfolder : ∀ y, w.store.find? w.vault.session.space
      (Text.ofString Grant.pathPrefix ++ (Text.ofString Grant.pathPrefix ++ y)) = none := by
    intro y
    have hoff := beq_false_of_ne
      (grantPath_offFolder (g := .ofString "did:pkh:x") rfl (.ofString "k") y).symm
    simp [w, Store.find?, Store.space?, List.lookup_cons, hoff]
  have hk : EntryName.ofValue (.ofString "k") = .ok (.ofString "k") := by rfl
  exact ⟨rfl, rfl, rfl, hd, hfolder, hk,
    grants_listed_and_deleted_exactly (w := w) rfl rfl rfl hd hfolder hk⟩

/-! ## The sample run, revoked and deleted -/

/-- The sample run continued: after granting `k` to itself, the owner revokes that grant, which
rotates `k`, and then deletes `k`. Every call is admissible; the write, the revoke and the delete
all succeed; the owner ends unlocked, and its entries agree with the ledger of the run. -/
theorem entries_stay_consistent_revoked_and_deleted :
    let R := Text.ofString sampleOwner.principal.did
    let cs := selfGrant ++ [.revoke sampleKey R, .delete sampleKey]
    ∃ mk, Keys.deriveMasterKey ownerSigner sampleOwner.settings.space = .ok mk ∧
      sampleOwner.session.space = sampleOwner.settings.space ∧ sampleOwner.faults = [] ∧
      (∀ m, sampleOwner.masterKey = some m → m = mk) ∧
      (∀ c ∈ cs, c.Admissible mk sampleOwner.settings.space) ∧
      ((runCalls selfGrant (⟨sampleOwner, {}, ⟨ByteArray.empty, 0⟩⟩, fun _ => none)).2
        (Text.ofString "k")).isSome ∧
      (∃ a, (exec (VaultCall.revoke sampleKey R).run
        (runCalls selfGrant (⟨sampleOwner, {}, ⟨ByteArray.empty, 0⟩⟩, fun _ => none)).1).1 =
          .ok a) ∧
      (∃ a, (exec (VaultCall.delete sampleKey).run (runCalls (selfGrant ++ [.revoke sampleKey R])
        (⟨sampleOwner, {}, ⟨ByteArray.empty, 0⟩⟩, fun _ => none)).1).1 = .ok a) ∧
      (runCalls cs (⟨sampleOwner, {}, ⟨ByteArray.empty, 0⟩⟩, fun _ => none)).1.vault.isUnlocked =
        true ∧
      EntriesAgree mk sampleOwner.settings.space
        (runCalls cs (⟨sampleOwner, {}, ⟨ByteArray.empty, 0⟩⟩, fun _ => none)).2
        (runCalls cs (⟨sampleOwner, {}, ⟨ByteArray.empty, 0⟩⟩, fun _ => none)).1 := by
  intro R cs
  obtain ⟨mk, p, ct, hm, hu, hc, hL, -⟩ := selfGrant_run
  have hkey : ∀ m, sampleOwner.masterKey = some m → m = mk := fun _ h => nomatch h
  have hcalls : ∀ c ∈ cs, c.Admissible mk sampleOwner.settings.space := by
    intro c hc
    rcases List.mem_append.mp hc with hc | hc
    · exact selfGrant_admissible hm c hc
    · simp only [List.mem_cons, List.mem_nil_iff, or_false] at hc
      rcases hc with rfl | rfl <;> trivial
  -- the revoke succeeds and leaves the owner's keys as they were
  obtain ⟨report, w', hrev⟩ := selfGrant_revoke_succeeds
  obtain ⟨a, hrevCall⟩ : ∃ a, exec (VaultCall.revoke sampleKey R).run
      (runCalls selfGrant (⟨sampleOwner, {}, ⟨ByteArray.empty, 0⟩⟩, fun _ => none)).1 =
        (.ok a, w') := ⟨_, by rw [VaultCall.run, exec_bind_ok hrev, exec_pure]⟩
  have hsame := stays_revoke sampleKey R
    (runCalls selfGrant (⟨sampleOwner, {}, ⟨ByteArray.empty, 0⟩⟩, fun _ => none)).1
  rw [hrev] at hsame
  simp only [sameSecrets, Vault.secrets, Prod.mk.injEq] at hsame
  obtain ⟨i, hmk, hi⟩ := hc.unlocked hu
  have hc' := hc.step (c := .revoke sampleKey R) trivial
  rw [hrevCall] at hc'
  have hmk' : w'.vault.masterKey = some mk := hsame.2.1.trans hmk
  have hi' : w'.vault.identity = some i := hsame.2.2.trans hi
  -- so does the delete, from the world the revoke left
  have hdelCall := exec_delete_of hc'.faults hmk' hi' (rfl : EntryName.ofValue sampleKey = .ok _)
  refine ⟨mk, hm, rfl, rfl, hkey, hcalls, by rw [hL]; rfl, ⟨_, by rw [hrevCall]⟩, ?_, ?_,
    entries_stay_consistent sampleOwner _ cs rfl rfl hkey hcalls⟩
  · rw [runCalls_append, runCalls_cons_eta, runCalls_nil, hrevCall]
    exact ⟨_, by rw [VaultCall.run, exec_bind_ok hdelCall, exec_pure]⟩
  · rw [runCalls_append, runCalls_cons_eta, hrevCall, runCalls_cons]
    dsimp only
    rw [VaultCall.run, exec_bind_ok hdelCall, exec_pure, runCalls_nil]
    simp [Vault.isUnlocked, hmk', hi']

end Vault

end Strongbox

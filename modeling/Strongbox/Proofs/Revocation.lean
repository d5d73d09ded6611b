import Strongbox.Proofs.Progress

/-!
# Revoking a grant

Revoking a recipient's grant of an entry lists the entry's grantees, erases the recipient's
grant and rotates the entry for the others. From a consistent world whose grant paths read
back, a revoke that succeeds leaves the recipient without a grant and off the entry's grantee
list, keeps the other grantees in their order, and has rotated the entry for them from the world
with the recipient's grant erased (`revoke_outcome_of_canonical`): the entry's plaintext sealed
again under the fresh key, each other grantee given a grant that opens to it or reported failed
with its grant as it was, and no other record of any space changed. Every world the owner's
calls reach from a fresh store is such a world (`revoke_removes_grant_and_rotates`).
-/

namespace Strongbox

namespace Vault

/-- The recipients holding a grant of entry `k` in `space`, as listing the grants finds them. -/
def grantees (s : Store) (space k : Text) : List Text :=
  Grant.recipients k (s.listing space (Text.ofString Grant.pathPrefix) true)

/-- A path under the grants folder holds no entry record. -/
theorem offEntries_listed (x : Text) : OffEntries (Text.ofString Grant.pathPrefix ++ x) := by
  have hhead : (Text.ofString Grant.pathPrefix ++ x).points.head? = some 103 := rfl
  exact offEntries_of_head (by rw [hhead]; decide) (by rw [hhead]; decide)

/-- A recipient whose grant path for an entry is present is among the entry's grantees. -/
theorem mem_grantees_of_present {s : Store} {space k r : Text} (hr : Grant.Recipient r)
    (hk : k.points ≠ []) (hpresent : (s.find? space (Grant.path r k)).isSome) :
    r ∈ grantees s space k := by
  have hlisted : r ++ Text.ofString "/" ++ k ∈
      s.listing space (Text.ofString Grant.pathPrefix) true := by
    rw [Store.mem_listing, Grant.path_listed]
    exact hpresent
  exact Grant.mem_recipients.mpr ⟨_, hlisted, Grant.parsePath?_listed hr hk⟩

/-! ## The steps of a revoke -/

section Steps

variable {w : World} (hf : w.vault.faults = [])
include hf

theorem exec_listGrants_eq_ok {key : Value} {gs : List Text} {w' : World}
    (h : exec (listGrants key) w = (.ok gs, w')) :
    ∃ k, EntryName.ofValue key = .ok k ∧ gs = grantees w.store w.vault.session.space k ∧
      w' = { w with store := w.store.touch w.vault.session.space } := by
  unfold listGrants at h
  obtain ⟨⟨mk, i⟩, w₁, h₁, c₁⟩ := exec_bind_eq_ok h
  obtain ⟨-, -, rfl⟩ := exec_requireUnlocked_eq_ok h₁
  obtain ⟨k, w₂, h₂, c₂⟩ := exec_bind_eq_ok c₁
  obtain ⟨hk, rfl⟩ := exec_checkName_eq_ok h₂
  obtain ⟨paths, w₃, h₃, c₃⟩ := exec_bind_eq_ok c₂
  rw [exec_storeList hf, Prod.mk.injEq, Except.ok.injEq] at h₃
  obtain ⟨rfl, rfl⟩ := h₃
  rw [exec_pure, Prod.mk.injEq, Except.ok.injEq] at c₃
  obtain ⟨rfl, rfl⟩ := c₃
  exact ⟨k, hk, rfl, rfl⟩

theorem exec_listGrants_of {mk : ByteArray} {i : Keys.Identity} (hmk : w.vault.masterKey = some mk)
    (hi : w.vault.identity = some i) {key : Value} {k : Text} (hk : EntryName.ofValue key = .ok k) :
    exec (listGrants key) w = (.ok (grantees w.store w.vault.session.space k),
      { w with store := w.store.touch w.vault.session.space }) := by
  unfold listGrants
  rw [exec_bind_ok (exec_requireUnlocked_of hmk hi), exec_bind_ok (exec_checkName_of hk w),
    exec_bind_ok (exec_storeList hf _), exec_pure]
  rfl

/-- A revoke that succeeds found the recipient among the entry's grantees, erased its grant,
and rotated the entry for the other grantees. -/
theorem exec_revoke_eq_ok {key : Value} {recipient : Text} {report : Rotation.Report}
    {w' : World} (h : exec (revoke key recipient) w = (.ok report, w')) :
    ∃ k, EntryName.ofValue key = .ok k ∧ recipient ∈ grantees w.store w.vault.session.space k ∧
      exec (rotate k ((grantees w.store w.vault.session.space k).filter (· != recipient))
          w.vault.settings.cipher)
        { w with
          store := (w.store.touch w.vault.session.space).erase w.vault.session.space
            (Grant.path recipient k) } = (.ok report, w') := by
  unfold revoke at h
  obtain ⟨⟨mk, i⟩, w₁, h₁, c₁⟩ := exec_bind_eq_ok h
  obtain ⟨-, -, rfl⟩ := exec_requireUnlocked_eq_ok h₁
  obtain ⟨k, w₂, h₂, c₂⟩ := exec_bind_eq_ok c₁
  obtain ⟨hk, rfl⟩ := exec_checkName_eq_ok h₂
  obtain ⟨gs, w₃, h₃, c₃⟩ := exec_bind_eq_ok c₂
  obtain ⟨k', hk', rfl, rfl⟩ := exec_listGrants_eq_ok hf h₃
  rw [hk, Except.ok.injEq] at hk'
  subst hk'
  obtain ⟨v, w₄, h₄, c₄⟩ := exec_bind_eq_ok c₃
  obtain ⟨rfl, rfl⟩ := exec_current_eq_ok h₄
  split at c₄
  · rw [exec_throw] at c₄
    cases c₄
  · rename_i hmem
    refine ⟨k, hk, by simpa using hmem, ?_⟩
    obtain ⟨u, w₅, h₅, c₅⟩ := exec_bind_eq_ok c₄
    rw [exec_storeDelete (by exact hf), Prod.mk.injEq] at h₅
    obtain ⟨-, rfl⟩ := h₅
    obtain ⟨v', w₆, h₆, c₆⟩ := exec_bind_eq_ok c₅
    obtain ⟨rfl, rfl⟩ := exec_current_eq_ok h₆
    exact c₆

end Steps

/-- A revoke of a grantee of an entry the ledger holds, from a consistent world in which the
vault is unlocked with a 32-byte master key and its space is a string, succeeds. -/
theorem revoke_succeeds {mk : ByteArray} {space : Text} {L : Ledger} {w : World}
    (hc : Consistent mk space L w) (hu : w.vault.isUnlocked = true)
    (hstr : w.vault.settings.space.IsString) (hsize : mk.size = 32) {key : Value} {k : Text}
    (hk : EntryName.ofValue key = .ok k) {p : ByteArray} {ct : Text} (hL : L k = some (p, ct))
    {recipient : Text} (hR : recipient ∈ grantees w.store space k) :
    ∃ report w', exec (revoke key recipient) w = (.ok report, w') := by
  obtain ⟨hm, hi⟩ := Bool.and_eq_true_iff.mp hu
  obtain ⟨m, hmk⟩ := Option.isSome_iff_exists.mp hm
  obtain ⟨i, hi⟩ := Option.isSome_iff_exists.mp hi
  obtain rfl := hc.masterKey m hmk
  rw [← hc.session] at hR
  -- the rotation starts from the world with the recipient's grant erased, still consistent
  let w₁ : World := { w with
    store := (w.store.touch w.vault.session.space).erase w.vault.session.space
      (Grant.path recipient k) }
  have hc₁ : Consistent m space L w₁ := hc.of_keeps ((KeepsEntries.touch w _).trans
    (KeepsEntries.erase _ _ (offEntries_grantPath recipient k)))
  have hlisted : (grantees w.store w.vault.session.space k).contains recipient = true :=
    List.elem_iff.mpr hR
  unfold revoke
  rw [exec_bind_ok (exec_requireUnlocked_of hmk hi), exec_bind_ok (exec_checkName_of hk _),
    exec_bind_ok (exec_listGrants_of hc.faults hmk hi hk), exec_bind_ok (exec_current _)]
  rw [hlisted, Bool.not_true, if_neg Bool.false_ne_true,
    exec_bind_ok (exec_storeDelete (by exact hc.faults) _ _), exec_bind_ok (exec_current _)]
  exact exec_rotate_of (by exact hmk) (by exact hi) hc₁ hstr hsize hL _ _

/-! ## After a revoke -/

section After

variable {mk : ByteArray} {space k recipient : Text} {p : ByteArray} {ct : Text} {w w' : World}
  {report : Rotation.Report}

/-- A grantee found by listing grants that read back holds a grant at its own path. -/
theorem grant_present_of_mem {g : Text}
    (hcanon : Grant.Canonical (w.store.listing space (Text.ofString Grant.pathPrefix) true))
    (hg : g ∈ grantees w.store space k) : (w.store.find? space (Grant.path g k)).isSome := by
  obtain ⟨q, hq, hparse⟩ := Grant.mem_recipients.mp hg
  have hlisted := Store.mem_listing.mp (hcanon q hq g k hparse ▸ hq)
  rwa [Grant.path_listed] at hlisted

/-- The other grantees' grant paths are not the revoked recipient's. -/
theorem path_ne_of_mem_filter {g : Text} (hR : recipient ∈ grantees w.store space k)
    (hg : g ∈ (grantees w.store space k).filter (· != recipient)) :
    Grant.path g k ≠ Grant.path recipient k := by
  obtain ⟨hmem, hne⟩ := List.mem_filter.mp hg
  intro he
  have hgr := (Grant.path_inj (Grant.noSlash_of_mem_recipients hmem)
    (Grant.noSlash_of_mem_recipients hR) he).1
  rw [hgr] at hne
  simp at hne

section Rotated

variable (hR : recipient ∈ grantees w.store space k)
  (h : Rotated mk space k p ct ((grantees w.store space k).filter (· != recipient))
    { w with store := w.store.erase space (Grant.path recipient k) } report w')
include hR h

/-- The rotation for the other grantees leaves the revoked recipient without a grant. -/
theorem revoked_grant_absent : w'.store.find? space (Grant.path recipient k) = none := by
  have hoff := offEntries_grantPath recipient k k
  rw [h.frame space _ fun _ => ⟨hoff.1, hoff.2, fun g hg => (path_ne_of_mem_filter hR hg).symm⟩]
  exact (Store.find?_erase _ _ _ _ _).trans (if_pos ⟨rfl, rfl⟩)

/-- Under the grants folder, the names listed after the revoke are those listed before, but
the revoked recipient's: the other grantees' grants are rewritten or kept, and nothing else
under the folder is written. -/
theorem listed_after_revoke
    (hcanon : Grant.Canonical (w.store.listing space (Text.ofString Grant.pathPrefix) true))
    (x : Text) :
    (w'.store.find? space (Text.ofString Grant.pathPrefix ++ x)).isSome ↔
      (w.store.find? space (Text.ofString Grant.pathPrefix ++ x)).isSome ∧
        x ≠ recipient ++ Text.ofString "/" ++ k := by
  by_cases hx : x = recipient ++ Text.ofString "/" ++ k
  · rw [hx, Grant.path_listed, revoked_grant_absent hR h]
    simp
  have hkept : (w.store.erase space (Grant.path recipient k)).find? space
      (Text.ofString Grant.pathPrefix ++ x) = w.store.find? space (Text.ofString Grant.pathPrefix ++ x) :=
    (Store.find?_erase _ _ _ _ _).trans (if_neg fun ⟨_, he⟩ =>
      hx (Text.append_left_cancel (he.trans (Grant.path_listed recipient k).symm)))
  by_cases hg : ∃ g ∈ (grantees w.store space k).filter (· != recipient),
      Text.ofString Grant.pathPrefix ++ x = Grant.path g k
  · -- another grantee's grant: present before, and rewritten or kept
    obtain ⟨g, hg, hq⟩ := hg
    have hbefore := grant_present_of_mem hcanon (List.mem_of_mem_filter hg)
    have hafter : (w'.store.find? space (Grant.path g k)).isSome := by
      rcases h.grantees g hg with ⟨-, r, gr, -, -, -, -, hgr, -⟩ | ⟨-, hpath⟩
      · rw [hgr]
        rfl
      · rw [hpath, ← hq, hkept, hq]
        exact hbefore
    rw [hq]
    simp [hbefore, hafter, hx]
  · push Not at hg
    have hoff := offEntries_listed x k
    rw [h.frame space _ fun _ => ⟨hoff.1, hoff.2, hg⟩, hkept]
    simp [hx]

end Rotated

end After

/-- Revoking a recipient's grant of an entry, from a consistent world whose grant paths read
back, fails, or succeeds having found the recipient among the entry's grantees. Then the
recipient's grant is gone and the entry's grantees are the others in their order, and the entry
was rotated for them from the world with the recipient's grant erased. -/
theorem revoke_outcome_of_canonical {mk : ByteArray} {space : Text} {L : Ledger}
    {w : World} (hc : Consistent mk space L w) {key : Value} {k : Text}
    (hk : EntryName.ofValue key = .ok k)
    (hcanon : Grant.Canonical (w.store.listing space (Text.ofString Grant.pathPrefix) true))
    (recipient : Text) :
    (∃ f, (exec (revoke key recipient) w).1 = .error f) ∨
      ∃ report p ct, (exec (revoke key recipient) w).1 = .ok report ∧ L k = some (p, ct) ∧
        recipient ∈ grantees w.store space k ∧
        (exec (revoke key recipient) w).2.store.find? space (Grant.path recipient k) = none ∧
        grantees (exec (revoke key recipient) w).2.store space k =
          (grantees w.store space k).filter (· != recipient) ∧
        Rotated mk space k p ct ((grantees w.store space k).filter (· != recipient))
          { w with store := w.store.erase space (Grant.path recipient k) } report
          (exec (revoke key recipient) w).2 := by
  rcases hres : exec (revoke key recipient) w with ⟨_ | report, w'⟩
  · exact .inl ⟨_, rfl⟩
  obtain ⟨k', hk', hR, hrot⟩ := exec_revoke_eq_ok hc.faults hres
  rw [hk, Except.ok.injEq] at hk'
  subst hk'
  rw [hc.session] at hR hrot
  have hnd : ((grantees w.store space k).filter (· != recipient)).Nodup :=
    (Grant.nodup_recipients _).filter _
  have hslash : ∀ g ∈ (grantees w.store space k).filter (· != recipient), 47 ∉ g.points :=
    fun g hg => Grant.noSlash_of_mem_recipients (List.mem_of_mem_filter hg)
  -- the rotation starts from the world with the recipient's grant erased, still consistent
  have hc₁ := hc.of_keeps ((KeepsEntries.touch w space).trans
    (KeepsEntries.erase _ space (offEntries_grantPath recipient k)))
  obtain ⟨p, ct, hL, hrotated⟩ := exec_rotate_eq_ok hc₁ hnd hslash hrot
  have hrot₀ : Rotated mk space k p ct ((grantees w.store space k).filter (· != recipient))
      { w with store := w.store.erase space (Grant.path recipient k) } report w' :=
    hrotated.of_sameRecords (fun n q => by
      show ((w.store.touch space).erase space _).find? n q = (w.store.erase space _).find? n q
      rw [Store.find?_erase, Store.find?_erase, Store.find?_touch]) rfl
  have hc' : Consistent mk space L w' := by
    have hrun := hc.revoke key recipient
    simp only [VaultCall.run] at hrun
    rwa [exec_bind_ok hres] at hrun
  refine .inr ⟨report, p, ct, rfl, hL, hR, revoked_grant_absent hR hrot₀, ?_, hrot₀⟩
  unfold grantees
  rw [Store.listing_eq_filter hc.distinct hc'.distinct (listed_after_revoke hR hrot₀ hcanon),
    Grant.recipients_filter_listed hcanon hR]


/-- Revoking a recipient's grant of an entry, in any world that a vault with nothing cached
reaches over a fresh store by admissible calls, fails, or succeeds having found the recipient
among the entry's grantees. Then the recipient's grant is gone and the entry's grantees are the
others in their order, and the entry was rotated for them from the world with the recipient's
grant erased: its plaintext, the one the ledger of the run holds, is sealed again under the
fresh key, each other grantee holds a grant that opens to that key or is reported failed with
its grant as it was, and no other record of any space was written. -/
theorem revoke_removes_grant_and_rotates {mk : ByteArray} (v : Vault) (entropy : Entropy)
    (cs : List VaultCall) (hspace : v.session.space = v.settings.space) (hfaults : v.faults = [])
    (hkey : ∀ m, v.masterKey = some m → m = mk) (hcache : v.cache = [])
    (hcalls : ∀ c ∈ cs, c.Admissible mk v.settings.space) {key : Value} {k : Text}
    (hk : EntryName.ofValue key = .ok k) (recipient : Text) :
    let w := (runCalls cs (⟨v, {}, entropy⟩, fun _ => none)).1
    let L := (runCalls cs (⟨v, {}, entropy⟩, fun _ => none)).2
    (∃ f, (exec (revoke key recipient) w).1 = .error f) ∨
      ∃ report p ct, (exec (revoke key recipient) w).1 = .ok report ∧ L k = some (p, ct) ∧
        recipient ∈ grantees w.store v.settings.space k ∧
        (exec (revoke key recipient) w).2.store.find? v.settings.space (Grant.path recipient k) =
          none ∧
        grantees (exec (revoke key recipient) w).2.store v.settings.space k =
          (grantees w.store v.settings.space k).filter (· != recipient) ∧
        Rotated mk v.settings.space k p ct
          ((grantees w.store v.settings.space k).filter (· != recipient))
          { w with store := w.store.erase v.settings.space (Grant.path recipient k) } report
          (exec (revoke key recipient) w).2 := by
  intro w L
  have hc : Consistent mk v.settings.space L w :=
    (Consistent.fresh entropy hspace hfaults hkey).run cs hcalls
  have htidy : GrantsTidy v.settings.space w := tidy_runCalls hcalls (tidy_fresh hcache entropy)
  exact revoke_outcome_of_canonical hc hk (canonical_of_tidy htidy) recipient

/-- After the sample run, the owner's revoke of its own grant of `k` succeeds. -/
theorem selfGrant_revoke_succeeds : ∃ report w', exec
    (revoke sampleKey (Text.ofString sampleOwner.principal.did))
    (runCalls selfGrant (⟨sampleOwner, {}, ⟨ByteArray.empty, 0⟩⟩, fun _ => none)).1 =
      (.ok report, w') := by
  obtain ⟨mk, p, ct, hm, hu, hc, hL, hgrant, -⟩ := selfGrant_run
  -- the owner's own grant, written by the run, makes it a grantee
  have hR := mem_grantees_of_present
    (⟨by decide, by decide, by decide⟩ : Grant.Recipient (Text.ofString sampleOwner.principal.did))
    (by decide) hgrant
  have hstr : (runCalls selfGrant (⟨sampleOwner, {}, ⟨ByteArray.empty, 0⟩⟩,
      fun _ => none)).1.vault.settings.space.IsString := by
    rw [hc.settings]
    exact Text.isString_ofString "s"
  exact revoke_succeeds hc hu hstr (Keys.size_of_deriveMasterKey hm) rfl hL hR

/-- The owner of the sample run revokes its own grant of `k`, and the revoke succeeds. -/
theorem revoke_removes_own_grant : ∃ mk,
    Keys.deriveMasterKey ownerSigner sampleOwner.settings.space = .ok mk ∧
    sampleOwner.session.space = sampleOwner.settings.space ∧ sampleOwner.faults = [] ∧
    (∀ m, sampleOwner.masterKey = some m → m = mk) ∧ sampleOwner.cache = [] ∧
    (∀ c ∈ selfGrant, c.Admissible mk sampleOwner.settings.space) ∧
    EntryName.ofValue sampleKey = .ok (Text.ofString "k") ∧
    (∃ report, (exec (revoke sampleKey (Text.ofString sampleOwner.principal.did))
      (runCalls selfGrant (⟨sampleOwner, {}, ⟨ByteArray.empty, 0⟩⟩, fun _ => none)).1).1 =
        .ok report) ∧
    let k := Text.ofString "k"
    let R := Text.ofString sampleOwner.principal.did
    let space := sampleOwner.settings.space
    let w := (runCalls selfGrant (⟨sampleOwner, {}, ⟨ByteArray.empty, 0⟩⟩, fun _ => none)).1
    let L := (runCalls selfGrant (⟨sampleOwner, {}, ⟨ByteArray.empty, 0⟩⟩, fun _ => none)).2
    (∃ f, (exec (revoke sampleKey R) w).1 = .error f) ∨
      ∃ report p ct, (exec (revoke sampleKey R) w).1 = .ok report ∧ L k = some (p, ct) ∧
        R ∈ grantees w.store space k ∧
        (exec (revoke sampleKey R) w).2.store.find? space (Grant.path R k) = none ∧
        grantees (exec (revoke sampleKey R) w).2.store space k =
          (grantees w.store space k).filter (· != R) ∧
        Rotated mk space k p ct ((grantees w.store space k).filter (· != R))
          { w with store := w.store.erase space (Grant.path R k) } report
          (exec (revoke sampleKey R) w).2 := by
  obtain ⟨mk, hm⟩ := ownerSigner_derives.imp fun _ h => h.1
  have hcalls := selfGrant_admissible hm
  have hkey : ∀ m, sampleOwner.masterKey = some m → m = mk := fun _ h => nomatch h
  have hk : EntryName.ofValue sampleKey = .ok (Text.ofString "k") := rfl
  obtain ⟨report, w', hrev⟩ := selfGrant_revoke_succeeds
  exact ⟨mk, hm, rfl, rfl, hkey, rfl, hcalls, hk, ⟨report, by rw [hrev]⟩,
    revoke_removes_grant_and_rotates sampleOwner _ selfGrant rfl rfl hkey rfl hcalls hk _⟩

end Vault

end Strongbox

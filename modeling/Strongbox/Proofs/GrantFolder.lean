import Strongbox.Proofs.Directory
import Strongbox.Proofs.Reads

/-!
# The grants folder reads back

Grants live at `grants/{recipient}/{key}`, and listing the folder names them relative to it. A
listed path reads back to the recipient and key it names unless it starts with the folder again
(`Grant.parsePath?_of_not_startsWith`), and no call of the owner writes such a path: the
recipients it writes grants for were resolved just before, so they are cached, and every name
in the cache is an identifier, which starts with `d`. `GrantsTidy` says both, every admissible
call keeps it (`tidy_call`), and so in every world reachable from a fresh store the grants
listed read back (`canonical_of_tidy`).

A step keeps tidiness in the sense of `keepsTidy`: every name cached before stays cached, and a
tidy world stays tidy. A grant is written after its recipient was resolved; `StaysCached` is
keeping tidiness from the worlds that cache the recipient.
-/

namespace Strongbox

namespace Principal

/-- An identifier that parses starts with `did`. -/
theorem head_of_parse {did : Text} {p : Principal} (h : parse did = .ok p) :
    did.points.head? = some 100 := by
  obtain ⟨ns, chain, address, hdid, -⟩ := parse_eq_ok h
  rw [hdid]
  rfl

/-- A principal's identifier starts with `did`. -/
theorem head_did (p : Principal) : (Text.ofString p.did).points.head? = some 100 := by
  simp [did, Text.ofString]

end Principal

namespace Vault

/-- The grants folder of `space` holds nothing under a second grants folder, and every name the
cache of resolved keys holds starts with `d`, as an identifier does. -/
structure GrantsTidy (space : Text) (w : World) : Prop where
  folder : ∀ y, w.store.find? space
    (Text.ofString Grant.pathPrefix ++ (Text.ofString Grant.pathPrefix ++ y)) = none
  cache : ∀ d r, w.vault.cache.lookup d = some r → d.points.head? = some 100

/-- Every grant listed reads back to its recipient and key when nothing lies under a second
grants folder. -/
theorem canonical_of_folder {s : Store} {space : Text}
    (hfolder : ∀ y, s.find? space
      (Text.ofString Grant.pathPrefix ++ (Text.ofString Grant.pathPrefix ++ y)) = none) :
    Grant.Canonical (s.listing space (Text.ofString Grant.pathPrefix) true) := by
  intro p hp r k hparse
  have hfound := Store.mem_listing.mp hp
  refine Grant.parsePath?_of_not_startsWith ?_ hparse
  cases hs : p.startsWith (Text.ofString Grant.pathPrefix) with
  | false => rfl
  | true =>
    obtain ⟨y, rfl⟩ := Store.startsWith_iff.mp hs
    rw [hfolder y] at hfound
    cases hfound

/-- In a tidy world every grant listed reads back to its recipient and key. -/
theorem canonical_of_tidy {space : Text} {w : World} (h : GrantsTidy space w) :
    Grant.Canonical (w.store.listing space (Text.ofString Grant.pathPrefix) true) :=
  canonical_of_folder h.folder

/-- A path whose first code point is not the folder's lies outside it. -/
theorem offFolder_of_head {p : Text} (h : p.points.head? ≠ some 103) (y : Text) :
    p ≠ Text.ofString Grant.pathPrefix ++ (Text.ofString Grant.pathPrefix ++ y) :=
  fun he => h (by rw [he]; rfl)

/-- The grant path of an identifier lies outside the second grants folder. -/
theorem grantPath_offFolder {g : Text} (hg : g.points.head? = some 100) (k y : Text) :
    Grant.path g k ≠ Text.ofString Grant.pathPrefix ++ (Text.ofString Grant.pathPrefix ++ y) := by
  intro he
  rw [← Grant.path_listed] at he
  have hinner := Text.append_left_cancel he
  obtain ⟨t, ht⟩ : ∃ t, g.points = 100 :: t := by
    cases hgp : g.points with
    | nil => rw [hgp] at hg; cases hg
    | cons a t =>
      rw [hgp, List.head?_cons, Option.some.injEq] at hg
      exact ⟨t, by rw [hg]⟩
  have hhead : (g ++ Text.ofString "/" ++ k).points.head? = some 100 := by
    simp [Text.points_append, ht]
  rw [hinner] at hhead
  cases hhead

/-- Worlds in which every name cached before is still cached, and which are tidy when the
first is. -/
def keepsTidy (space : Text) : WorldOrder where
  rel w w' := (∀ d, (w.vault.cache.lookup d).isSome → (w'.vault.cache.lookup d).isSome) ∧
    (GrantsTidy space w → GrantsTidy space w')
  refl _ := ⟨fun _ h => h, id⟩
  trans h₁ h₂ := ⟨fun d h => h₂.1 d (h₁.1 d h), fun h => h₂.2 (h₁.2 h)⟩

/-- Every run of `m` from a world that caches a record for `g` keeps tidiness. -/
def StaysCached {α : Type} (space g : Text) (m : VaultM α) : Prop :=
  ∀ w, (w.vault.cache.lookup g).isSome → (keepsTidy space).rel w (exec m w).2

section Tidy

variable {space : Text} {α β : Type}

/-- A step that changes no record and no cached record keeps tidiness. -/
theorem keepsTidy_of_same {w w' : World} (hs : ∀ n q, w'.store.find? n q = w.store.find? n q)
    (hc : w'.vault.cache = w.vault.cache) : (keepsTidy space).rel w w' := by
  refine ⟨fun d h => by rwa [hc], fun h => ⟨fun y => ?_, fun d r hd => h.cache d r ?_⟩⟩
  · rw [hs]
    exact h.folder y
  · rwa [hc] at hd

theorem Stays.bind_liftExcept {R : WorldOrder} {x : Except Failure α} {f : α → VaultM β}
    (hf : ∀ a, x = .ok a → Stays R (f a)) : Stays R (Vault.liftExcept x >>= f) := by
  intro w
  cases x with
  | ok a => rw [exec_bind_ok (exec_liftExcept _ _)]; exact hf a rfl w
  | error e => rw [exec_bind_error (exec_liftExcept _ _)]; exact R.refl w

/-! ## Steps -/

theorem tidy_update {f : Vault → Vault} (hf : ∀ v, (f v).cache = v.cache) :
    Stays (keepsTidy space) (update f) := fun w => by
  rw [exec_update]
  exact keepsTidy_of_same (fun _ _ => rfl) (hf w.vault)

theorem tidy_meetFaults (op : Operation) (path : Text) :
    Stays (keepsTidy space) (meetFaults op path) := by
  unfold meetFaults
  refine Stays.bind Stays.current fun v => ?_
  split
  · exact Stays.pure _
  · refine Stays.bind (tidy_update ?_) fun _ => Stays.throw _
    exact fun _ => rfl

theorem tidy_storeGet (path : Text) (s : Option Text) : Stays (keepsTidy space) (storeGet path s) := by
  unfold storeGet
  refine (tidy_meetFaults _ _).bind fun _ w => ?_
  simp only [exec_bind, exec_get, exec_set, exec_pure]
  exact keepsTidy_of_same (fun _ _ => Store.find?_touch _ _ _ _) rfl

theorem tidy_storeList (pathPrefix : Text) : Stays (keepsTidy space) (storeList pathPrefix) := by
  unfold storeList
  refine (tidy_meetFaults _ _).bind fun _ w => ?_
  simp only [exec_bind, exec_get, exec_set, exec_pure]
  exact keepsTidy_of_same (fun _ _ => Store.find?_touch _ _ _ _) rfl

theorem tidy_storeGetPublic (s path : Text) : Stays (keepsTidy space) (storeGetPublic s path) := by
  unfold storeGetPublic
  refine (tidy_meetFaults _ _).bind fun _ w => ?_
  simp only [exec_bind, exec_get, exec_pure]
  exact (keepsTidy space).refl w

theorem tidy_drawing (m : Drawing α) : Stays (keepsTidy space) (drawing m) := fun w => by
  rw [exec_drawing]
  exact keepsTidy_of_same (fun _ _ => rfl) rfl

/-- A write outside the second grants folder keeps tidiness. -/
theorem tidy_storePut {path : Text}
    (hp : ∀ y, path ≠ Text.ofString Grant.pathPrefix ++ (Text.ofString Grant.pathPrefix ++ y))
    (data : Data) (metadata : List (Value × Value)) (s : Option Text) :
    Stays (keepsTidy space) (storePut path data metadata s) := by
  unfold storePut
  refine (tidy_meetFaults _ _).bind fun _ w => ?_
  rw [exec_modify]
  refine ⟨fun _ h => h, fun h => ⟨fun y => ?_, h.cache⟩⟩
  show (w.store.write _ path _).find? space _ = none
  rw [Store.find?_write, if_neg fun he => hp y he.2.symm]
  exact h.folder y

theorem tidy_storeDelete (path : Text) (s : Option Text) :
    Stays (keepsTidy space) (storeDelete path s) := by
  unfold storeDelete
  refine (tidy_meetFaults _ _).bind fun _ w => ?_
  rw [exec_modify]
  refine ⟨fun _ h => h, fun h => ⟨fun y => ?_, h.cache⟩⟩
  show (w.store.erase _ path).find? space _ = none
  rw [Store.find?_erase]
  split
  · rfl
  · exact h.folder y

/-- Caching a record under an identifier keeps tidiness. -/
theorem tidy_cacheInsert {d : Text} (hd : d.points.head? = some 100) (r : KeyRecord) :
    Stays (keepsTidy space) (update fun v => { v with cache := cacheInsert v.cache d r }) :=
  fun w => by
    rw [exec_update]
    refine ⟨fun e he => ?_, fun h => ⟨h.folder, fun e r' he => ?_⟩⟩
    · dsimp only
      rw [lookup_cacheInsert]
      split
      · rfl
      · exact he
    · dsimp only at he
      rw [lookup_cacheInsert] at he
      split at he
      · rename_i hed
        rw [hed]
        exact hd
      · exact h.cache e r' he


/-- Every reading step keeps tidiness. -/
theorem tidy_reads : KeptByReads (keepsTidy space) :=
  ⟨tidy_meetFaults, tidy_storeGet, tidy_storeList, tidy_storeGetPublic, tidy_drawing⟩

theorem tidy_lock : Stays (keepsTidy space) lock := tidy_update fun _ => rfl

/-! ## Writing entries -/

/-- The records of an entry lie outside the grants folder. -/
theorem tidy_storeEntry (key : Text) (blob : KeyBlob) (e : Envelope) :
    Stays (keepsTidy space) (storeEntry key blob e) :=
  Stays.storeEntry (fun _ _ => tidy_storePut (offFolder_of_head (by rw [head_keys]; decide)) _ _ _)
    (fun _ _ => tidy_storePut (offFolder_of_head (by rw [head_values]; decide)) _ _ _) blob e

theorem tidy_put (key value : Value) (contentType : Option Text) (custom : List (Value × Value))
    (writing : Writing) : Stays (keepsTidy space) (put key value contentType custom writing) :=
  (tidy_reads.sealEntry key value contentType custom writing).bind fun _ =>
    (tidy_storeEntry _ _ _).bind fun _ => Stays.pure _

/-! ## Resolving keys and writing grants -/

/-- Resolving caches a record only under an identifier that parses. -/
theorem tidy_resolve (did : Text) : Stays (keepsTidy space) (resolve did) := by
  unfold resolve
  refine Stays.current.bind fun v => ?_
  split
  · exact Stays.pure _
  · unfold principalOf
    refine Stays.bind_liftExcept fun p hp => ?_
    have hd : did.points.head? = some 100 := by
      cases hparse : Principal.parse did with
      | error e =>
        rw [hparse] at hp
        cases hp
      | ok p' => exact Principal.head_of_parse hparse
    refine (tidy_reads.readText _ _).bind fun _ => (Stays.liftExcept _).bind fun _ =>
      (tidy_reads.readText _ _).bind fun _ => (tidy_reads.readText _ _).bind fun _ => ?_
    exact (tidy_cacheInsert hd _).bind fun _ => Stays.pure _

/-- A key resolved is cached under the name asked for. -/
theorem resolve_eq_ok_cached {did : Text} {r : KeyRecord} {w w' : World}
    (h : exec (resolve did) w = (.ok r, w')) : w'.vault.cache.lookup did = some r := by
  unfold resolve at h
  obtain ⟨v, w₀, h₀, c₀⟩ := exec_bind_eq_ok h
  obtain ⟨rfl, rfl⟩ := exec_current_eq_ok h₀
  split at c₀
  · rename_i r₀ hr₀
    rw [exec_pure, Prod.mk.injEq, Except.ok.injEq] at c₀
    obtain ⟨rfl, rfl⟩ := c₀
    exact hr₀
  · obtain ⟨p, w₁, -, c₁⟩ := exec_bind_eq_ok c₀
    obtain ⟨t₁, w₂, -, c₂⟩ := exec_bind_eq_ok c₁
    obtain ⟨key, w₃, -, c₃⟩ := exec_bind_eq_ok c₂
    obtain ⟨t₂, w₄, -, c₄⟩ := exec_bind_eq_ok c₃
    obtain ⟨t₃, w₅, -, c₅⟩ := exec_bind_eq_ok c₄
    obtain ⟨u, w₆, h₆, c₆⟩ := exec_bind_eq_ok c₅
    rw [exec_update, Prod.mk.injEq] at h₆
    obtain ⟨-, rfl⟩ := h₆
    rw [exec_pure, Prod.mk.injEq, Except.ok.injEq] at c₆
    obtain ⟨rfl, rfl⟩ := c₆
    rw [lookup_cacheInsert, if_pos rfl]

theorem StaysCached.of_stays {g : Text} {m : VaultM α} (hm : Stays (keepsTidy space) m) :
    StaysCached space g m := fun w _ => hm w

theorem StaysCached.bind {g : Text} {m : VaultM α} {f : α → VaultM β}
    (hm : StaysCached space g m) (hf : ∀ a, StaysCached space g (f a)) :
    StaysCached space g (m >>= f) := by
  intro w hw
  rw [exec_bind]
  rcases h : exec m w with ⟨r, w₁⟩
  have h₁ : (keepsTidy space).rel w w₁ := by
    have := hm w hw
    rwa [h] at this
  cases r with
  | ok a => exact (keepsTidy space).trans h₁ (hf a w₁ (h₁.1 g hw))
  | error e => exact h₁

/-- A grant to a cached recipient lies outside the second grants folder. -/
theorem tidy_storePut_grant (g k : Text) (data : Data) (metadata : List (Value × Value))
    (s : Option Text) : StaysCached space g (storePut (Grant.path g k) data metadata s) := by
  unfold storePut
  refine (StaysCached.of_stays (tidy_meetFaults _ _)).bind fun _ w hg => ?_
  rw [exec_modify]
  refine ⟨fun _ h => h, fun h => ⟨fun y => ?_, h.cache⟩⟩
  obtain ⟨r, hr⟩ := Option.isSome_iff_exists.mp hg
  show (w.store.write _ (Grant.path g k) _).find? space _ = none
  rw [Store.find?_write, if_neg fun he => grantPath_offFolder (h.cache g r hr) k y he.2.symm]
  exact h.folder y

/-- What follows a key resolved runs from a world that caches it. -/
theorem tidy_resolve_bind {g : Text} {rest : KeyRecord → VaultM β}
    (hrest : ∀ r, StaysCached space g (rest r)) : Stays (keepsTidy space) (resolve g >>= rest) := by
  intro w
  have hres : (keepsTidy space).rel w (exec (resolve g) w).2 := tidy_resolve g w
  rw [exec_bind]
  rcases h : exec (resolve g) w with ⟨_ | r, w₁⟩
  · rw [h] at hres
    exact hres
  · rw [h] at hres
    exact (keepsTidy space).trans hres (hrest r w₁ (by rw [resolve_eq_ok_cached h]; rfl))

theorem resolvePublicKey_bind (g : Text) (f : ByteArray → VaultM β) :
    resolvePublicKey g >>= f = resolve g >>= fun r => f r.publicKey := by
  simp only [resolvePublicKey, bind_assoc, pure_bind]

theorem tidy_grant (key : Value) (recipient : Text) (custom : List (Value × Value)) :
    Stays (keepsTidy space) (grant key recipient custom) := by
  unfold grant
  refine Stays.requireUnlocked.bind fun _ => (Stays.liftExcept _).bind fun name => ?_
  rw [resolvePublicKey_bind]
  refine tidy_resolve_bind fun r => (StaysCached.of_stays (tidy_reads.loadKeyBlob name)).bind
    fun _ => (StaysCached.of_stays (Stays.tryCatch (tidy_drawing _) fun e => ?_)).bind fun _ => ?_
  · split <;> exact Stays.throw _
  exact (StaysCached.of_stays Stays.current).bind fun _ =>
    (StaysCached.of_stays (Stays.liftExcept _)).bind fun _ =>
      (tidy_storePut_grant _ _ _ _ _).bind fun _ => StaysCached.of_stays (Stays.pure _)

theorem tidy_reissue (key : Text) (entryKey : ByteArray) (recipient : Text) :
    Stays (keepsTidy space) (reissue key entryKey recipient) := by
  unfold reissue
  rw [resolvePublicKey_bind]
  exact tidy_resolve_bind fun r => (StaysCached.of_stays (tidy_drawing _)).bind fun _ =>
    (StaysCached.of_stays Stays.current).bind fun _ =>
      (StaysCached.of_stays (Stays.liftExcept _)).bind fun _ => tidy_storePut_grant _ _ _ _ _

theorem tidy_reissueAll (key : Text) (entryKey : ByteArray) (grantees : List Text)
    (report : Rotation.Report) : Stays (keepsTidy space) (reissueAll key entryKey grantees report) := by
  induction grantees generalizing report with
  | nil => exact Stays.pure _
  | cons recipient rest ih =>
    unfold reissueAll
    refine Stays.bind ?_ fun _ => ih _
    refine Stays.tryCatch ((tidy_reissue key entryKey recipient).bind fun _ => Stays.pure _)
      fun f => ?_
    split
    · exact Stays.pure _
    · exact Stays.throw _

theorem tidy_rotate (key : Text) (grantees : List Text) (cipher : Aead) :
    Stays (keepsTidy space) (rotate key grantees cipher) :=
  (tidy_reads.resealEntry key cipher).bind fun _ => (tidy_storeEntry _ _ _).bind fun _ =>
    tidy_reissueAll _ _ _ _

theorem tidy_revoke (key : Value) (recipient : Text) :
    Stays (keepsTidy space) (revoke key recipient) := by
  unfold revoke
  refine Stays.requireUnlocked.bind fun _ => (Stays.liftExcept _).bind fun name =>
    (tidy_reads.listGrants key).bind fun grantees => Stays.current.bind fun v => ?_
  split
  · exact Stays.throw _
  · exact (tidy_storeDelete _ _).bind fun _ => Stays.current.bind fun _ => tidy_rotate _ _ _

/-! ## Unlocking -/

/-- Publishing writes the directory's paths and caches the principal's own record. -/
theorem tidy_publish (p : Principal) (publicKey : ByteArray) (vaultSpace : Option Text) :
    Stays (keepsTidy space) (publish p publicKey vaultSpace) := by
  unfold publish
  extract_lets s did record cacheIt rest
  have hcache : ∀ u, Stays (keepsTidy space) (cacheIt u) :=
    fun _ => tidy_cacheInsert (Principal.head_did p) record
  have hoff : ∀ path, path = Directory.keyPath ∨ path = Directory.versionPath ∨
      path = Directory.spacePath → ∀ y, Text.ofString path ≠
        Text.ofString Grant.pathPrefix ++ (Text.ofString Grant.pathPrefix ++ y) := by
    intro path hpath
    apply offFolder_of_head
    rcases hpath with rfl | rfl | rfl <;> decide
  have hrest : ∀ u, Stays (keepsTidy space) (rest u) := by
    intro u
    refine (tidy_storePut (hoff _ (.inl rfl)) _ _ _).bind fun _ =>
      (tidy_storePut (hoff _ (.inr (.inl rfl))) _ _ _).bind fun _ => ?_
    split
    · split
      · exact (tidy_storePut (hoff _ (.inr (.inr rfl))) _ _ _).bind hcache
      · exact (tidy_storeDelete _ _).bind hcache
    · exact (tidy_storeDelete _ _).bind hcache
  split
  · exact (Stays.throw _).bind hrest
  · exact hrest ()

theorem tidy_unlock (signer : Signer) : Stays (keepsTidy space) (unlock signer) := by
  unfold unlock
  refine tidy_lock.bind fun _ => Stays.current.bind fun v => (Stays.liftExcept _).bind
    fun _ => (Stays.liftExcept _).bind fun identity => Stays.bind (tidy_update ?_) fun _ => ?_
  · exact fun _ => rfl
  · split
    · exact (tidy_publish _ _ _).bind fun _ => Stays.pure _
    · exact Stays.pure _

/-! ## Runs of calls -/

/-- Every admissible call keeps tidiness. -/
theorem tidy_call {mk : ByteArray} {sp : Text} {c : VaultCall} (ha : c.Admissible mk sp) :
    Stays (keepsTidy space) c.run := by
  cases c with
  | unlock signer => exact (tidy_unlock signer).bind fun _ => Stays.current.bind fun _ => Stays.pure _
  | lock => exact tidy_lock.bind fun _ => Stays.pure _
  | put => exact (tidy_put _ _ _ _ _).bind fun _ => Stays.pure _
  | get => exact Stays.map _ (tidy_reads.getEntry _ _)
  | delete => exact (tidy_reads.delete tidy_storeDelete _).bind fun _ => Stays.pure _
  | head => exact (tidy_reads.head _).bind fun _ => Stays.pure _
  | list => exact Stays.map _ (tidy_reads.listEntries _ _)
  | grant => exact (tidy_grant _ _ _).bind fun _ => Stays.liftExcept _
  | listGrants => exact Stays.map _ (tidy_reads.listGrants _)
  | revoke => exact (tidy_revoke _ _).bind fun _ => Stays.pure _
  | _ => exact ha.elim

/-- A vault with nothing cached over a fresh store is tidy. -/
theorem tidy_fresh {v : Vault} (hcache : v.cache = []) (entropy : Entropy) :
    GrantsTidy space ⟨v, {}, entropy⟩ :=
  ⟨fun _ => rfl, fun d r h => by rw [hcache] at h; cases h⟩

/-- The run lemma: admissible calls in any number keep a world tidy. -/
theorem tidy_runCalls {mk : ByteArray} {sp : Text} {cs : List VaultCall}
    (ha : ∀ c ∈ cs, c.Admissible mk sp) {w : World} {L : Ledger} (h : GrantsTidy space w) :
    GrantsTidy space (runCalls cs (w, L)).1 := by
  induction cs generalizing w L with
  | nil => exact h
  | cons c cs ih =>
    exact ih (fun c' hc' => ha c' (List.mem_cons_of_mem _ hc'))
      ((tidy_call (ha c List.mem_cons_self) w).2 h)

end Tidy

end Vault

end Strongbox

import Mathlib
import Strongbox.Scenario.Vaults
import Strongbox.Proofs.Identifiers

/-!
# One directory, many instances

Directory instances are vaults over one shared store, each with its own cache of resolved
records. Whatever the instances publish, resolve and forget, in any order, the store holds in
the public space of each principal what its last publication wrote (`Agrees`). So every
instance resolves a principal's vault space to the space last published, or to the default
space, and refreshes its cached record to the pointer published; and an instance that has not
cached a principal resolves the key last published, or fails as not found.

Main statement: `directory_follows_last_publication`.
-/

namespace Strongbox

/-! ## What each call does to one instance -/

namespace Principal

/-- Principals that parse are told apart by their public spaces. -/
theorem eq_of_publicSpaceId_eq {p q : Principal} (hp : p.WellFormed) (hq : q.WellFormed)
    (h : Text.ofString p.publicSpaceId = Text.ofString q.publicSpaceId) : p = q := by
  have hdid : p.did = q.did := did_eq_of_publicSpaceId_eq (Text.ofString_inj.mp h)
  have hparse_p : parse (Text.ofString q.did) = .ok p := parse_eq_ok_iff.2 ⟨hp, by rw [hdid]⟩
  have hparse_q : parse (Text.ofString q.did) = .ok q := parse_eq_ok_iff.2 ⟨hq, rfl⟩
  rw [hparse_p] at hparse_q
  exact Except.ok.inj hparse_q

theorem wellFormed_of_parseValue {did : Value} {p : Principal} (h : parseValue did = .ok p) :
    p.WellFormed := by
  cases did with
  | str d => exact (parse_eq_ok_iff.1 h).1
  | _ => cases h

end Principal

namespace Vault

section Plain

variable {w : World} (hf : w.vault.faults = [])
include hf

theorem exec_storePut_public (p : Principal) (st : Store) (path : Text) (data : Data)
    (metadata : List (Value × Value)) :
    exec (storePut path data metadata (some (Text.ofString p.publicSpaceId))) { w with store := st } =
      (.ok (), { w with store := st.write (Text.ofString p.publicSpaceId) path ⟨data, metadata⟩ }) := by
  rw [exec_storePut (w := { w with store := st }) hf]
  simp [Session.resolve, Principal.isEmpty_publicSpaceId]

theorem exec_storeDelete_public (p : Principal) (st : Store) (path : Text) :
    exec (storeDelete path (some (Text.ofString p.publicSpaceId))) { w with store := st } =
      (.ok (), { w with store := st.erase (Text.ofString p.publicSpaceId) path }) := by
  rw [exec_storeDelete (w := { w with store := st }) hf]
  simp [Session.resolve, Principal.isEmpty_publicSpaceId]

/-- Publishing with no space named writes the directory as publishing the default space does:
the pointer is removed. -/
theorem exec_publish_none (p : Principal) {publicKey : ByteArray} (hsize : publicKey.size = 32) :
    exec (publish p publicKey none) w = (.ok (), { w with
      vault := { w.vault with cache := (cacheInsert w.vault.cache (Text.ofString p.did)
        ⟨Text.ofString p.did, publicKey, Text.ofString Directory.version, none⟩) },
      store := Directory.written w.store p publicKey (Text.ofString p.defaultSpaceId) }) := by
  unfold publish
  rw [if_neg (by simpa using hsize)]
  dsimp only
  rw [exec_bind, exec_storePut_public hf p w.store]
  dsimp only
  rw [exec_bind, exec_storePut_public hf]
  dsimp only
  rw [exec_bind, exec_storeDelete_public hf]
  -- the default space leaves no pointer
  have hnone : Directory.spacePointer p (Text.ofString p.defaultSpaceId) = none := by
    simp [Directory.spacePointer]
  simp only [Directory.written, hnone]
  rfl

/-- Publishing a key of the right size succeeds, changes the instance's cache only, and writes
the directory of the principal for the space named, or the default space. -/
theorem publish_world (p : Principal) {publicKey : ByteArray} (hsize : publicKey.size = 32)
    (vaultSpace : Option Text) :
    ∃ c, exec (publish p publicKey vaultSpace) w = (.ok (), { w with
      vault := { w.vault with cache := c },
      store := Directory.written w.store p publicKey
        (vaultSpace.getD (Text.ofString p.defaultSpaceId)) }) := by
  cases vaultSpace with
  | none => exact ⟨_, exec_publish_none hf p hsize⟩
  | some space => exact ⟨_, exec_publish hf p hsize space⟩

omit hf in
/-- Resolving the vault space of an identifier that parses answers the pointer read, or the
default space, and sets the pointer of the cached record, if any, to the pointer read. -/
theorem exec_resolveVaultSpace_eq {did : Text} {p : Principal} (hp : Principal.parse did = .ok p)
    {t : Option Text} (ht : exec (readText p.publicSpaceId Directory.spacePath) w = (.ok t, w)) :
    ∃ c, exec (resolveVaultSpace did) w =
        (.ok ((nonEmpty t).getD (Text.ofString p.defaultSpaceId)),
          { w with vault := { w.vault with cache := c } }) ∧
      c.lookup did = (w.vault.cache.lookup did).map ({ · with vaultSpace := nonEmpty t }) ∧
      ∀ d, d ≠ did → c.lookup d = w.vault.cache.lookup d := by
  unfold resolveVaultSpace principalOf
  rw [exec_bind, exec_liftExcept, hp]
  dsimp only [Except.mapError]
  rw [exec_bind, ht]
  dsimp only
  rw [exec_bind, exec_current]
  dsimp only
  split
  · rename_i r hr
    split
    · rw [exec_bind, exec_update]
      refine ⟨_, rfl, ?_, fun d hd => ?_⟩
      · rw [lookup_cacheInsert, if_pos rfl, hr]
        rfl
      · rw [lookup_cacheInsert, if_neg hd]
    · rename_i hsame
      have hr' : { r with vaultSpace := nonEmpty t } = r := by
        simp only [bne_iff_ne, ne_eq, Decidable.not_not] at hsame
        rw [← hsame]
      refine ⟨w.vault.cache, rfl, ?_, fun _ _ => rfl⟩
      rw [hr, Option.map_some, hr']
  · rename_i hr
    exact ⟨w.vault.cache, rfl, by rw [hr]; rfl, fun _ _ => rfl⟩

/-- Resolving a vault space changes the instance's cache only. -/
theorem resolveVaultSpace_world (did : Text) :
    ∃ c, (exec (resolveVaultSpace did) w).2 = { w with vault := { w.vault with cache := c } } := by
  cases hp : Principal.parse did with
  | error e =>
    refine ⟨w.vault.cache, ?_⟩
    unfold resolveVaultSpace principalOf
    rw [exec_bind, exec_liftExcept, hp]
    rfl
  | ok p =>
    obtain ⟨t, ht⟩ := exec_readText hf p.publicSpaceId Directory.spacePath
    obtain ⟨c, hrun, -⟩ := exec_resolveVaultSpace_eq hp ht
    exact ⟨c, by rw [hrun]⟩

end Plain

end Vault

/-! ## Publications -/

/-- What a principal publishes: its public key, and the space of its vault if named. -/
structure Publication where
  publicKey : ByteArray
  vaultSpace : Option Text

namespace Publication

/-- The pointer a publication leaves: the space it names, unless that is empty or the
principal's default space. -/
def pointer (p : Principal) (pub : Publication) : Option Text :=
  pub.vaultSpace.filter fun t => !t.isEmpty && t != Text.ofString p.defaultSpaceId

/-- What publishing writes at the pointer's path is the pointer. -/
theorem spacePointer_getD (p : Principal) (pub : Publication) :
    Directory.spacePointer p (pub.vaultSpace.getD (Text.ofString p.defaultSpaceId)) =
      (pub.pointer p).map fun t => ⟨.text t, []⟩ := by
  obtain ⟨k, vs⟩ := pub
  cases vs with
  | none => simp [pointer, Directory.spacePointer]
  | some t =>
    simp only [pointer, Directory.spacePointer, Option.getD_some, Option.filter]
    split <;> rfl

theorem vaultSpace_of_pointer {p : Principal} {pub : Publication} {t : Text}
    (h : pub.pointer p = some t) : pub.vaultSpace = some t ∧ t.isEmpty = false := by
  obtain ⟨k, vs⟩ := pub
  cases vs with
  | none => cases h
  | some u =>
    simp only [pointer, Option.filter] at h
    split at h
    · rename_i hu
      cases h
      simp only [Bool.and_eq_true, Bool.not_eq_true'] at hu
      exact ⟨rfl, hu.1⟩
    · cases h

/-- A pointer is never empty, so reading it back keeps it. -/
theorem nonEmpty_pointer (p : Principal) (last : Option Publication) :
    Vault.nonEmpty (last.bind (·.pointer p)) = last.bind (·.pointer p) := by
  cases h : last.bind (·.pointer p) with
  | none => rfl
  | some t =>
    obtain ⟨pub, -, hpub⟩ := Option.bind_eq_some_iff.mp h
    rw [Vault.nonEmpty, if_neg (by rw [(vaultSpace_of_pointer hpub).2]; decide)]

end Publication

/-! ## Steps of the instances -/

namespace ScenarioStep

/-- The steps instances of the directory take over the shared store: publishing, through an
instance among `names`, a 32-byte key with no space or a space with no blank at either end;
resolving a key or a vault space; forgetting cached records. -/
def OnDirectory (names : List String) : ScenarioStep → Prop
  | .call n (.publish _ publicKey vaultSpace) =>
    n ∈ names ∧ publicKey.size = 32 ∧ ∀ t, vaultSpace = some t → t.trim = t
  | .call _ (.resolve _) | .call _ (.resolveVaultSpace _) | .call _ (.forget _) => True
  | _ => False

/-- The last publication of each principal once a step is taken: publishing for an identifier
that parses replaces its principal's. -/
def lastAfter (last : Principal → Option Publication) :
    ScenarioStep → Principal → Option Publication
  | .call _ (.publish did publicKey vaultSpace) =>
    match Principal.parseValue did with
    | .ok p => Function.update last p (some ⟨publicKey, vaultSpace⟩)
    | .error _ => last
  | _ => last

end ScenarioStep

/-- The last publication of each principal in a sequence of steps; none for a principal that
never published. -/
def lastPublications (steps : List ScenarioStep) : Principal → Option Publication :=
  steps.foldl ScenarioStep.lastAfter fun _ => none

namespace Scene

/-- The scene a sequence of steps leaves, each step taken in the scene the last one left. -/
def runSteps (s : Scene) (steps : List ScenarioStep) : Scene :=
  steps.foldl (fun s step => (step.run s).2) s

theorem onVault_of_lookup {s : Scene} {n : String} {v : Vault} (hv : s.vaults.lookup n = some v)
    (m : VaultM Answer) :
    s.onVault n m = ((Vault.exec m ⟨v, s.store, s.entropy⟩).1,
      { (s.withVault n (Vault.exec m ⟨v, s.store, s.entropy⟩).2.vault) with
        store := (Vault.exec m ⟨v, s.store, s.entropy⟩).2.store,
        entropy := (Vault.exec m ⟨v, s.store, s.entropy⟩).2.entropy }) := by
  unfold onVault
  rw [hv]
  rfl

theorem onVault_of_lookup_none {s : Scene} {n : String} (hv : s.vaults.lookup n = none)
    (m : VaultM Answer) : s.onVault n m = (.error (.unknownVault n), s) := by
  unfold onVault
  rw [hv]

/-- Replacing a present vault keeps the names. -/
theorem names_withVault {s : Scene} {n : String} (hn : (s.vaults.lookup n).isSome) (v : Vault) :
    (s.withVault n v).vaults.map Prod.fst = s.vaults.map Prod.fst := by
  have hany : s.vaults.any (·.1 == n) = true := by
    obtain ⟨e, he, hne⟩ := List.lookup_isSome_iff.mp hn
    refine List.any_eq_true.mpr ⟨e, he, ?_⟩
    simp only [beq_iff_eq] at hne ⊢
    exact hne.symm
  simp only [withVault, hany, if_true, List.map_map]
  refine List.map_congr_left fun e _ => ?_
  by_cases h : e.1 = n <;> simp [h]

theorem mem_withVault {s : Scene} {n : String} {v : Vault} {e : String × Vault}
    (he : e ∈ (s.withVault n v).vaults) : e ∈ s.vaults ∨ e = (n, v) := by
  unfold withVault at he
  split at he
  · obtain ⟨e', he', rfl⟩ := List.mem_map.mp he
    split
    · exact .inr rfl
    · exact .inl he'
  · rcases List.mem_append.mp he with h | h
    · exact .inl h
    · exact .inr (List.mem_singleton.mp h)

theorem mem_of_lookup {s : Scene} {n : String} {v : Vault} (hv : s.vaults.lookup n = some v) :
    (n, v) ∈ s.vaults := by
  obtain ⟨l₁, l₂, hl, -⟩ := List.lookup_eq_some_iff.mp hv
  rw [hl]
  exact List.mem_append_right _ List.mem_cons_self

end Scene

/-! ## The store follows the last publications -/

open Vault

/-- The shared store agrees with the last publication of each principal: in the public space of
every principal that parses, the key record of its last publication and the pointer that
publication left, and nothing for a principal that never published. The instances keep their
names and store without faults, and the publications recorded are of 32-byte keys and of spaces
with no blank at either end. -/
structure Agrees (names : List String) (last : Principal → Option Publication) (s : Scene) :
    Prop where
  names : s.vaults.map Prod.fst = names
  faults : ∀ e ∈ s.vaults, e.2.faults = []
  sized : ∀ p pub, last p = some pub → pub.publicKey.size = 32
  trimmed : ∀ p pub t, last p = some pub → pub.vaultSpace = some t → t.trim = t
  key : ∀ p : Principal, p.WellFormed →
    s.store.find? (Text.ofString p.publicSpaceId) (Text.ofString Directory.keyPath) =
      (last p).map fun pub => Directory.keyRecord pub.publicKey
  pointer : ∀ p : Principal, p.WellFormed →
    s.store.find? (Text.ofString p.publicSpaceId) (Text.ofString Directory.spacePath) =
      ((last p).bind (·.pointer p)).map fun t => ⟨.text t, []⟩

namespace Agrees

variable {names : List String} {last : Principal → Option Publication} {s : Scene}

/-- A fresh store with instances that store without faults. -/
theorem initial (hstore : s.store = {}) (hf : ∀ e ∈ s.vaults, e.2.faults = []) :
    Agrees (s.vaults.map Prod.fst) (fun _ => none) s where
  names := rfl
  faults := hf
  sized := fun _ _ h => by cases h
  trimmed := fun _ _ _ h => by cases h
  key := fun _ _ => by rw [hstore]; rfl
  pointer := fun _ _ => by rw [hstore]; rfl

/-- Replacing a present instance by one that stores without faults keeps the agreement. -/
theorem withVault (h : Agrees names last s) {n : String} (hn : (s.vaults.lookup n).isSome)
    {v : Vault} (hv : v.faults = []) : Agrees names last (s.withVault n v) where
  names := (Scene.names_withVault hn v).trans h.names
  faults := fun e he => (Scene.mem_withVault he).elim (h.faults e) fun he => he ▸ hv
  sized := h.sized
  trimmed := h.trimmed
  key := h.key
  pointer := h.pointer

/-- Publishing a 32-byte key and a space with no blank at either end, for a principal that
parses, makes that publication its last. -/
theorem publish (h : Agrees names last s) {q : Principal} (hq : q.WellFormed)
    {publicKey : ByteArray} (hsize : publicKey.size = 32) {vaultSpace : Option Text}
    (htrim : ∀ t, vaultSpace = some t → t.trim = t) :
    Agrees names (Function.update last q (some ⟨publicKey, vaultSpace⟩))
      { s with store := (Directory.written s.store q publicKey
        (vaultSpace.getD (Text.ofString q.defaultSpaceId))) } where
  names := h.names
  faults := h.faults
  sized := fun p pub hp => by
    by_cases hpq : p = q
    · subst hpq
      rw [Function.update_self, Option.some.injEq] at hp
      rw [← hp]
      exact hsize
    · rw [Function.update_of_ne hpq] at hp
      exact h.sized p pub hp
  trimmed := fun p pub t hp ht => by
    by_cases hpq : p = q
    · subst hpq
      rw [Function.update_self, Option.some.injEq] at hp
      rw [← hp] at ht
      exact htrim t ht
    · rw [Function.update_of_ne hpq] at hp
      exact h.trimmed p pub t hp ht
  key := fun p hp => by
    by_cases hpq : p = q
    · subst hpq
      rw [Directory.find?_written, if_neg (by simp [Directory.spacePath, Directory.keyPath]),
        if_neg (by simp [Directory.versionPath, Directory.keyPath]), if_pos ⟨rfl, rfl⟩,
        Function.update_self]
      rfl
    · rw [Directory.find?_written_of_ne (.inl fun heq => hpq (Principal.eq_of_publicSpaceId_eq hp hq heq)),
        Function.update_of_ne hpq]
      exact h.key p hp
  pointer := fun p hp => by
    by_cases hpq : p = q
    · subst hpq
      rw [Directory.find?_written, if_pos ⟨rfl, rfl⟩, Function.update_self]
      exact Publication.spacePointer_getD p ⟨publicKey, vaultSpace⟩
    · rw [Directory.find?_written_of_ne (.inl fun heq => hpq (Principal.eq_of_publicSpaceId_eq hp hq heq)),
        Function.update_of_ne hpq]
      exact h.pointer p hp

/-- A call that changes only the cache of the instance it runs on keeps the agreement. -/
theorem onVault_cacheOnly (h : Agrees names last s) (n : String) {m : VaultM Answer}
    (hm : ∀ w : World, w.vault.faults = [] →
      ∃ c, (exec m w).2 = { w with vault := { w.vault with cache := c } }) :
    Agrees names last (s.onVault n m).2 := by
  cases hv : s.vaults.lookup n with
  | none =>
    rw [Scene.onVault_of_lookup_none hv]
    exact h
  | some v =>
    have hf : v.faults = [] := h.faults _ (Scene.mem_of_lookup hv)
    obtain ⟨c, hc⟩ := hm ⟨v, s.store, s.entropy⟩ hf
    rw [Scene.onVault_of_lookup hv, hc]
    exact h.withVault (by rw [hv]; rfl) hf

/-- Publishing through a present instance. -/
theorem publishStep (h : Agrees names last s) {n : String} {did : Value} {publicKey : ByteArray}
    {vaultSpace : Option Text}
    (hstep : (ScenarioStep.call n (.publish did publicKey vaultSpace)).OnDirectory names) :
    Agrees names ((ScenarioStep.call n (.publish did publicKey vaultSpace)).lastAfter last)
      ((ScenarioStep.call n (.publish did publicKey vaultSpace)).run s).2 := by
  obtain ⟨hn, hsize, htrim⟩ := hstep
  have hn' : (s.vaults.lookup n).isSome := by
    rw [← h.names, List.mem_map] at hn
    obtain ⟨e, he, rfl⟩ := hn
    exact List.lookup_isSome_iff.mpr ⟨e, he, beq_self_eq_true _⟩
  obtain ⟨v, hv⟩ := Option.isSome_iff_exists.mp hn'
  have hf : v.faults = [] := h.faults _ (Scene.mem_of_lookup hv)
  show Agrees names _ (s.onVault n (VaultCall.publish did publicKey vaultSpace).run).2
  rw [Scene.onVault_of_lookup hv]
  cases hq : Principal.parseValue did with
  | error e =>
    -- an identifier that does not parse publishes nothing
    have hrun : exec (VaultCall.publish did publicKey vaultSpace).run ⟨v, s.store, s.entropy⟩ =
        (.error (.principal e), ⟨v, s.store, s.entropy⟩) := by
      rw [VaultCall.run, exec_bind, exec_liftExcept, hq]
      rfl
    rw [hrun]
    simp only [ScenarioStep.lastAfter, hq]
    exact h.withVault hn' hf
  | ok q =>
    obtain ⟨c, hc⟩ := publish_world (w := ⟨v, s.store, s.entropy⟩) hf q hsize vaultSpace
    have hrun : exec (VaultCall.publish did publicKey vaultSpace).run ⟨v, s.store, s.entropy⟩ =
        (.ok (.value .null), ⟨{ v with cache := c }, Directory.written s.store q publicKey
          (vaultSpace.getD (Text.ofString q.defaultSpaceId)), s.entropy⟩) := by
      rw [VaultCall.run, exec_bind, exec_liftExcept, hq]
      dsimp only [Except.mapError]
      rw [exec_bind, hc]
      rfl
    rw [hrun]
    simp only [ScenarioStep.lastAfter, hq]
    exact (h.withVault hn' (v := { v with cache := c }) hf).publish
      (Principal.wellFormed_of_parseValue hq) hsize htrim

/-- One step of the instances keeps the agreement, with the last publications it leaves. -/
theorem step (h : Agrees names last s) {step : ScenarioStep} (hstep : step.OnDirectory names) :
    Agrees names (step.lastAfter last) (step.run s).2 := by
  cases step with
  | create => exact hstep.elim
  | edit => exact hstep.elim
  | call n c =>
    cases c with
    | publish did publicKey vaultSpace => exact h.publishStep hstep
    | resolve d =>
      refine h.onVault_cacheOnly n fun w hf => ?_
      obtain ⟨c, hc, -⟩ := resolve_world hf d
      exact ⟨c, by rw [VaultCall.run, exec_bind_snd _ (fun _ _ => rfl), hc]⟩
    | resolveVaultSpace d =>
      refine h.onVault_cacheOnly n fun w hf => ?_
      obtain ⟨c, hc⟩ := resolveVaultSpace_world hf d
      exact ⟨c, by rw [VaultCall.run, exec_map, hc]⟩
    | forget d =>
      refine h.onVault_cacheOnly n fun w _ => ?_
      rw [VaultCall.run, exec_bind_snd _ (fun _ _ => rfl), forget, exec_update]
      exact ⟨_, rfl⟩
    | _ => exact hstep.elim

/-- Steps of the instances keep the agreement, each with the last publications it leaves. -/
theorem runSteps (h : Agrees names last s) {steps : List ScenarioStep}
    (hsteps : ∀ step ∈ steps, step.OnDirectory names) :
    Agrees names (steps.foldl ScenarioStep.lastAfter last) (s.runSteps steps) := by
  -- each step is taken in the scene the steps before it left
  induction steps generalizing s last with
  | nil => exact h
  | cons step steps ih =>
    exact ih (h.step (hsteps step List.mem_cons_self))
      fun st hst => hsteps st (List.mem_cons_of_mem _ hst)

/-- Reading back, with the store agreeing, the pointer path of a principal that parses gives the
pointer of its last publication. -/
theorem exec_readText_pointer (h : Agrees names last s) {e : String × Vault} (he : e ∈ s.vaults)
    {p : Principal} (hp : p.WellFormed) :
    exec (readText p.publicSpaceId Directory.spacePath) ⟨e.2, s.store, s.entropy⟩ =
      (.ok ((last p).bind (·.pointer p)), ⟨e.2, s.store, s.entropy⟩) := by
  have hf : e.2.faults = [] := h.faults e he
  have hptr := h.pointer p hp
  cases hpub : (last p).bind (·.pointer p) with
  | none =>
    rw [hpub] at hptr
    exact exec_readText_of_none hf hptr
  | some t =>
    rw [hpub] at hptr
    -- a pointer was published as a space with no blank at either end
    obtain ⟨pub, hlast, hpt⟩ := Option.bind_eq_some_iff.mp hpub
    have htrim : t.trim = t :=
      h.trimmed p pub t hlast (Publication.vaultSpace_of_pointer hpt).1
    rw [exec_readText_of_text hf hptr, htrim]

end Agrees

/-- What an instance answers about a principal whose last publication is `last`. -/
structure AnswersFor (w : World) (p : Principal) (last : Option Publication) : Prop where
  /-- The vault space is the pointer last published, or else the default space; and the
  instance's cached record of the principal, if any, is left with that pointer. -/
  vaultSpace : ∃ c, exec (resolveVaultSpace (Text.ofString p.did)) w =
      (.ok ((last.bind (·.pointer p)).getD (Text.ofString p.defaultSpaceId)),
        { w with vault := { w.vault with cache := c } }) ∧
    ∀ r, c.lookup (Text.ofString p.did) = some r → r.vaultSpace = last.bind (·.pointer p)
  /-- Not cached, the key resolved is the key last published, and it is cached. -/
  published : ∀ pub, last = some pub → w.vault.cache.lookup (Text.ofString p.did) = none →
    ∃ r : KeyRecord, r.publicKey = pub.publicKey ∧ exec (resolve (Text.ofString p.did)) w =
      (.ok r, { w with vault := { w.vault with
        cache := cacheInsert w.vault.cache (Text.ofString p.did) r } })
  /-- Not cached and never published, the key is not found. -/
  unpublished : last = none → w.vault.cache.lookup (Text.ofString p.did) = none →
    exec (resolve (Text.ofString p.did)) w =
      (.error (.publicKeyNotFound (Text.ofString p.did) none), w)

namespace Agrees

variable {names : List String} {last : Principal → Option Publication} {s : Scene}

/-- With the store agreeing, every instance answers about every principal that parses as its
last publication says. -/
theorem answers (h : Agrees names last s) {e : String × Vault} (he : e ∈ s.vaults)
    {p : Principal} (hp : p.WellFormed) :
    AnswersFor ⟨e.2, s.store, s.entropy⟩ p (last p) := by
  have hf : e.2.faults = [] := h.faults e he
  have hparse : Principal.parse (Text.ofString p.did) = .ok p :=
    Principal.parse_eq_ok_iff.2 ⟨hp, rfl⟩
  refine ⟨?_, fun pub hpub hc => ?_, fun hnone hc => ?_⟩
  · obtain ⟨c, hrun, hlookup, -⟩ := exec_resolveVaultSpace_eq hparse (h.exec_readText_pointer he hp)
    rw [Publication.nonEmpty_pointer] at hrun hlookup
    refine ⟨c, hrun, fun r hr => ?_⟩
    rw [hlookup] at hr
    obtain ⟨r₀, -, rfl⟩ := Option.map_eq_some_iff.mp hr
    rfl
  · have hkey := h.key p hp
    rw [hpub] at hkey
    exact exec_resolve_of_published hf hparse hc (h.sized p pub hpub) hkey
  · have hkey := h.key p hp
    rw [hnone] at hkey
    exact exec_resolve_of_unpublished hf hparse hc hkey

end Agrees

/-- Instances of the directory over one fresh store, storing without faults, take any steps
that publish 32-byte keys with no space or a space with no blank at either end, resolve and
forget. Afterwards every instance answers about every principal that parses as the principal's
last publication says: its vault space is the pointer last published, or else its default
space, and resolving it leaves any cached record with that pointer; not cached, its key is the
key last published, or is not found when it never published. -/
theorem directory_follows_last_publication {s : Scene} (hstore : s.store = {})
    (hf : ∀ e ∈ s.vaults, e.2.faults = []) {steps : List ScenarioStep}
    (hsteps : ∀ step ∈ steps, step.OnDirectory (s.vaults.map Prod.fst)) {p : Principal}
    (hp : p.WellFormed) :
    ∀ e ∈ (s.runSteps steps).vaults,
      AnswersFor ⟨e.2, (s.runSteps steps).store, (s.runSteps steps).entropy⟩ p
        (lastPublications steps p) :=
  fun _ he => ((Agrees.initial hstore hf).runSteps hsteps).answers he hp

theorem directory_follows_last_publication_two_instances :
    let v : Vault :=
      { principal := ⟨"abc", "1", "x"⟩, settings := { space := Text.ofString "s" },
        session := ⟨Text.ofString "s"⟩ }
    let s : Scene := { vaults := [("a", v), ("b", v)], entropy := ⟨ByteArray.empty, 0⟩ }
    let did := Text.ofString "did:pkh:abc:1:x"
    let key : ByteArray := ⟨Array.replicate 32 7⟩
    let steps : List ScenarioStep :=
      [.call "a" (.publish (.str did) key (some (Text.ofString "vault"))),
        .call "b" (.resolveVaultSpace did), .call "a" (.forget none),
        .call "b" (.publish (.str did) key none)]
    (∀ step ∈ steps, step.OnDirectory (s.vaults.map Prod.fst)) ∧
      Principal.WellFormed ⟨"abc", "1", "x"⟩ ∧
      ∀ e ∈ (s.runSteps steps).vaults,
        AnswersFor ⟨e.2, (s.runSteps steps).store, (s.runSteps steps).entropy⟩ ⟨"abc", "1", "x"⟩
          (lastPublications steps ⟨"abc", "1", "x"⟩) := by
  intro v s did key steps
  have hsteps : ∀ step ∈ steps, step.OnDirectory (s.vaults.map Prod.fst) := by
    simp [steps, s, ScenarioStep.OnDirectory, key]
    decide
  have hp : Principal.WellFormed ⟨"abc", "1", "x"⟩ :=
    (Principal.parse_eq_ok_iff.1 (by decide +kernel :
      Principal.parse (Text.ofString "did:pkh:abc:1:x") = .ok ⟨"abc", "1", "x"⟩)).1
  exact ⟨hsteps, hp, directory_follows_last_publication rfl (by simp [s, v]) hsteps hp⟩

end Strongbox

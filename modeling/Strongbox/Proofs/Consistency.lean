import Strongbox.Proofs.Entries
import Strongbox.Scenario.Vaults

/-!
# The entries stay consistent

One owner's vault over a plain store whose default space is the vault's own. A ledger says what
each entry name should hold: the plaintext and content type of its last successful write, or
nothing once deleted. `Consistent mk space L w` says that the store agrees with the ledger `L`:
an entry's key blob and value are both present exactly when the ledger has the name, and then
the blob unwraps under the master key `mk` to the key the value is sealed under, and the value
opens to the ledger's plaintext.

Every call the owner makes keeps this, whether it succeeds or fails, as long as unlocking
derives `mk` and every write has text headers: a write whose envelope cannot be written as
JSON has stored its key blob already, and leaves the entry half written.
-/

namespace Strongbox

namespace Vault

/-- What each entry name should hold: the plaintext and content type last written. -/
abbrev Ledger := Text → Option (ByteArray × Text)

/-- The records of one entry as the ledger has it: both absent, or both holding its
plaintext. -/
def EntryState (mk : ByteArray) : Option (ByteArray × Text) → Option Stored → Option Stored → Prop
  | none, none, none => True
  | some (p, ct), some kr, some vr => EntryRecords mk kr vr p ct
  | _, _, _ => False

/-- The vault stores in its own space, meets no faults, holds no master key but `mk`, and the
records of every entry of that space agree with the ledger. -/
structure Consistent (mk : ByteArray) (space : Text) (L : Ledger) (w : World) : Prop where
  intro ::
  settings : w.vault.settings.space = space
  session : w.vault.session.space = space
  faults : w.vault.faults = []
  masterKey : ∀ m, w.vault.masterKey = some m → m = mk
  distinct : w.store.Distinct space
  entries : ∀ k, EntryState mk (L k) (w.store.find? space (keysPrefix ++ k))
    (w.store.find? space (valuesPrefix ++ k))

/-! ## Both records of an entry, written or erased -/

section Records

variable (s : Store) (n k k' : Text)

theorem find?_keys_written (kr vr : Stored) :
    ((s.write n (keysPrefix ++ k) kr).write n (valuesPrefix ++ k) vr).find? n (keysPrefix ++ k') =
      if k' = k then some kr else s.find? n (keysPrefix ++ k') := by
  have hne : ¬(n = n ∧ keysPrefix ++ k' = valuesPrefix ++ k) := fun h => keys_ne_values _ _ h.2
  rw [Store.find?_write, if_neg hne, Store.find?_write]
  simp only [true_and, keys_inj]

theorem find?_values_written (kr vr : Stored) :
    ((s.write n (keysPrefix ++ k) kr).write n (valuesPrefix ++ k) vr).find? n (valuesPrefix ++ k') =
      if k' = k then some vr else s.find? n (valuesPrefix ++ k') := by
  have hne : ¬(n = n ∧ valuesPrefix ++ k' = keysPrefix ++ k) := fun h => keys_ne_values _ _ h.2.symm
  rw [Store.find?_write, Store.find?_write, if_neg hne]
  simp only [true_and, values_inj]

theorem find?_keys_erased :
    ((s.erase n (valuesPrefix ++ k)).erase n (keysPrefix ++ k)).find? n (keysPrefix ++ k') =
      if k' = k then none else s.find? n (keysPrefix ++ k') := by
  have hne : ¬(n = n ∧ keysPrefix ++ k' = valuesPrefix ++ k) := fun h => keys_ne_values _ _ h.2
  rw [Store.find?_erase, Store.find?_erase, if_neg hne]
  simp only [true_and, keys_inj]

theorem find?_values_erased :
    ((s.erase n (valuesPrefix ++ k)).erase n (keysPrefix ++ k)).find? n (valuesPrefix ++ k') =
      if k' = k then none else s.find? n (valuesPrefix ++ k') := by
  have hne : ¬(n = n ∧ valuesPrefix ++ k' = keysPrefix ++ k) := fun h => keys_ne_values _ _ h.2.symm
  rw [Store.find?_erase, if_neg hne, Store.find?_erase]
  simp only [true_and, values_inj]

end Records

namespace Consistent

variable {mk : ByteArray} {space : Text} {L : Ledger} {w : World}

/-- A world that keeps entries stays consistent. -/
theorem of_keeps (hc : Consistent mk space L w) {w' : World} (hk : KeepsEntries w w') :
    Consistent mk space L w' := by
  have hs : w.vault.session.space = space := hc.session
  refine ⟨?_, ?_, ?_, ?_, ?_, fun k => ?_⟩
  · rw [hk.settings]
    exact hc.settings
  · rw [hk.session]
    exact hc.session
  · rw [hk.faults]
    exact hc.faults
  · rw [hk.masterKey]
    exact hc.masterKey
  · rw [← hs]
    exact hk.distinct (hs ▸ hc.distinct)
  · rw [← hs, hk.keys k, hk.values k, hs]
    exact hc.entries k

/-- Setting the keys keeps consistency when the master key set is `mk`. -/
theorem setKeys (hc : Consistent mk space L w) (key : Option ByteArray)
    (hkey : ∀ m, key = some m → m = mk) (i : Option Keys.Identity) :
    Consistent mk space L { w with vault := { w.vault with masterKey := key, identity := i } } :=
  ⟨hc.settings, hc.session, hc.faults, hkey, hc.distinct, hc.entries⟩

/-- Writing both records of an entry, holding a plaintext, records it in the ledger. -/
theorem written (hc : Consistent mk space L w) {k : Text} {kr vr : Stored} {p : ByteArray}
    {ct : Text} (hr : EntryRecords mk kr vr p ct) :
    Consistent mk space (Function.update L k (some (p, ct))) { w with
      store := (w.store.write space (keysPrefix ++ k) kr).write space (valuesPrefix ++ k) vr } := by
  refine ⟨hc.settings, hc.session, hc.faults, hc.masterKey,
    Store.distinct_write (Store.distinct_write hc.distinct _ _ _) _ _ _, fun k' => ?_⟩
  rw [find?_keys_written, find?_values_written, Function.update_apply]
  by_cases hk : k' = k
  · rw [if_pos hk, if_pos hk, if_pos hk]
    exact hr
  · rw [if_neg hk, if_neg hk, if_neg hk]
    exact hc.entries k'

/-- Erasing both records of an entry takes it out of the ledger. -/
theorem erased (hc : Consistent mk space L w) (k : Text) :
    Consistent mk space (Function.update L k none) { w with
      store := (w.store.erase space (valuesPrefix ++ k)).erase space (keysPrefix ++ k) } := by
  refine ⟨hc.settings, hc.session, hc.faults, hc.masterKey,
    Store.distinct_erase (Store.distinct_erase hc.distinct _ _) _ _, fun k' => ?_⟩
  rw [find?_keys_erased, find?_values_erased, Function.update_apply]
  by_cases hk : k' = k
  · rw [if_pos hk, if_pos hk, if_pos hk]
    exact trivial
  · rw [if_neg hk, if_neg hk, if_neg hk]
    exact hc.entries k'

end Consistent

/-! ## Invariants of runs -/

section Preserves

variable {α β : Type}

/-- Every run from a world in `I` ends in a world in `I`, whether it succeeds or fails. -/
def Preserves (I : World → Prop) (m : VaultM α) : Prop := ∀ w, I w → I (exec m w).2

variable {I : World → Prop}

theorem Preserves.bind {m : VaultM α} {f : α → VaultM β} (hm : Preserves I m)
    (hf : ∀ a, Preserves I (f a)) : Preserves I (m >>= f) := by
  intro w hw
  rw [exec_bind]
  rcases h : exec m w with ⟨r, w'⟩
  have h₁ : I w' := by
    have := hm w hw
    rwa [h] at this
  cases r with
  | ok a => exact hf a w' h₁
  | error e => exact h₁

/-- A step that can only give `a` with `x = .ok a` needs the rest only for those. -/
theorem Preserves.bind_liftExcept {x : Except Failure α} {f : α → VaultM β}
    (hf : ∀ a, x = .ok a → Preserves I (f a)) : Preserves I (liftExcept x >>= f) := by
  intro w hw
  cases x with
  | ok a => rw [exec_bind_ok (exec_liftExcept _ _)]; exact hf a rfl w hw
  | error e => rw [exec_bind_error (exec_liftExcept _ _)]; exact hw

theorem Preserves.map {m : VaultM α} (g : α → β) (hm : Preserves I m) : Preserves I (g <$> m) := by
  intro w hw
  rw [exec_map]
  exact hm w hw

theorem Consistent.preserves {mk : ByteArray} {space : Text} {L : Ledger} {m : VaultM α}
    (hm : Frames m) : Preserves (Consistent mk space L) m :=
  fun w hc => hc.of_keeps (hm w hc.faults)

end Preserves

end Vault

/-! ## Calls and the ledger -/

/-- What the ledger records of a call's outcome: a write that succeeded sets the name's
plaintext and content type, a delete that succeeded drops the name, and nothing else changes
it. -/
def Vault.Ledger.after (L : Vault.Ledger) : VaultCall → Except Failure Answer → Vault.Ledger
  | .put key value contentType _ writing, .ok _ =>
    match EntryName.ofValue key, Vault.plaintextOf value (Vault.contentTypeOf value contentType) writing with
    | .ok k, .ok p => Function.update L k (some (p, Vault.contentTypeOf value contentType))
    | _, _ => L
  | .delete key, .ok _ =>
    match EntryName.ofValue key with
    | .ok k => Function.update L k none
    | .error _ => L
  | _, _ => L

namespace VaultCall

/-- The calls of the owner over a plain store: unlocking with a signer that derives the master
key `mk` for the vault's space, writing with a content type and headers free of lone surrogates,
and reading, listing, deleting, granting and revoking. -/
def Admissible (mk : ByteArray) (space : Text) : VaultCall → Prop
  | .unlock signer => ∀ m, Keys.deriveMasterKey signer space = .ok m → m = mk
  | .put _ _ contentType custom _ =>
    (∀ c, contentType = some c → c.IsString) ∧ Headers.AllStrings (Headers.ofValues custom)
  | .lock | .get .. | .head _ | .list .. | .listGrants _ | .delete _ | .grant .. | .revoke .. => True
  | _ => False

/-- The calls of the owner on its own entries, whatever signer, value and headers they carry. -/
def OwnerCall : VaultCall → Prop
  | .unlock _ | .lock | .put .. | .get .. | .head _ | .list .. | .listGrants _ | .delete _
  | .grant .. | .revoke .. => True
  | _ => False

end VaultCall

namespace Vault

/-- Calls run in turn, each from the world the last one left, with the ledger following each
outcome. -/
def runCalls : List VaultCall → World × Ledger → World × Ledger
  | [], s => s
  | c :: cs, (w, L) => runCalls cs ((exec c.run w).2, L.after c (exec c.run w).1)

theorem runCalls_nil (p : World × Ledger) : runCalls [] p = p := rfl

theorem runCalls_cons (c : VaultCall) (cs : List VaultCall) (w : World) (L : Ledger) :
    runCalls (c :: cs) (w, L) = runCalls cs ((exec c.run w).2, L.after c (exec c.run w).1) := rfl

theorem runCalls_cons_eta (c : VaultCall) (cs : List VaultCall) (p : World × Ledger) :
    runCalls (c :: cs) p = runCalls cs ((exec c.run p.1).2, p.2.after c (exec c.run p.1).1) := by
  obtain ⟨w, L⟩ := p
  rfl

theorem runCalls_append (cs cs' : List VaultCall) (p : World × Ledger) :
    runCalls (cs ++ cs') p = runCalls cs' (runCalls cs p) := by
  induction cs generalizing p with
  | nil => rfl
  | cons c cs ih =>
    obtain ⟨w, L⟩ := p
    exact ih _

theorem exec_lock (w : World) :
    exec lock w = (.ok (), { w with vault := { w.vault with masterKey := none, identity := none } }) :=
  rfl

namespace Consistent

variable {mk : ByteArray} {space : Text} {L : Ledger} {w : World}

theorem lock (hc : Consistent mk space L w) : Consistent mk space L (exec (VaultCall.lock).run w).2 :=
  hc.setKeys none (fun _ h => by cases h) none

theorem unlock (hc : Consistent mk space L w) {signer : Signer}
    (hs : ∀ m, Keys.deriveMasterKey signer space = .ok m → m = mk) :
    Consistent mk space L (exec (Vault.unlock signer) w).2 := by
  have hlocked := hc.setKeys none (fun _ h => by cases h) none
  unfold Vault.unlock
  rw [exec_bind_ok (exec_lock _), exec_bind_ok (exec_current _)]
  dsimp only
  rw [hc.settings]
  cases hm : Keys.deriveMasterKey signer space with
  | error f =>
    rw [exec_bind_error (by rw [exec_liftExcept])]
    exact hlocked
  | ok m =>
    rw [exec_bind_ok (by rw [exec_liftExcept])]
    cases hi : Keys.deriveIdentity signer with
    | error f =>
      rw [exec_bind_error (by rw [exec_liftExcept])]
      exact hlocked
    | ok i =>
      rw [exec_bind_ok (by rw [exec_liftExcept]), exec_bind_ok (exec_update _ _)]
      have hunlocked := hc.setKeys (some m) (fun m' h => Option.some.inj h ▸ hs m hm) (some i)
      -- publishing on unlock writes only the directory
      split
      · exact (Preserves.bind (Consistent.preserves (frames_publish _ _ _))
          fun _ => Consistent.preserves (frames_pure _)) _ hunlocked
      · exact hunlocked

/-- A write with text headers either fails before storing anything, or stores both records and
records its plaintext. -/
theorem put (hc : Consistent mk space L w) {key value : Value} {contentType : Option Text}
    {custom : List (Value × Value)} {writing : Writing}
    (hct : ∀ c, contentType = some c → c.IsString)
    (hcustom : Headers.AllStrings (Headers.ofValues custom)) :
    Consistent mk space
      (L.after (.put key value contentType custom writing)
        (exec (VaultCall.put key value contentType custom writing).run w).1)
      (exec (VaultCall.put key value contentType custom writing).run w).2 := by
  simp only [VaultCall.run]
  rw [exec_bind]
  rcases hs : exec (sealEntry key value contentType custom writing) w with ⟨r, w₁⟩
  have hkeep : KeepsEntries w w₁ := by
    have := frames_sealEntry key value contentType custom writing w hc.faults
    rwa [hs] at this
  have hc₁ := hc.of_keeps hkeep
  cases r with
  | error f =>
    rw [exec_put_of_unsealed hs]
    exact hc₁
  | ok res =>
    obtain ⟨k, blob, e⟩ := res
    obtain ⟨mk', ek, p, hmk, hk, hp, hsealed, -, -⟩ := exec_sealEntry_eq_ok hc.faults hs
    obtain rfl := hc.masterKey mk' hmk
    obtain ⟨jb, hjb⟩ := hsealed.blob_toJson
    obtain ⟨je, hje⟩ := hsealed.envelope_toJson (isString_contentTypeOf value hct)
      (Text.isString_ofString _) hcustom
    rw [exec_put_of_sealed hc.faults hs hjb hje]
    have hw := hc₁.written (k := k) (hsealed.entryRecords hjb hje (headerPairs e.metadata))
    simp only [exec_pure, Ledger.after, hk, hp]
    rw [hc₁.session]
    exact hw

end Consistent

/-- Deleting either fails before erasing an entry record, or erases both records of the
entry after the grants. -/
theorem exec_delete_cases {w : World} (hf : w.vault.faults = []) (key : Value) :
    ((∃ f, (exec (delete key) w).1 = .error f) ∧ KeepsEntries w (exec (delete key) w).2) ∨
      ∃ k w₁, EntryName.ofValue key = .ok k ∧ KeepsEntries w w₁ ∧
        exec (delete key) w = (.ok (), { w₁ with
          store := (w₁.store.erase w₁.vault.session.space (valuesPrefix ++ k)).erase
            w₁.vault.session.space (keysPrefix ++ k) }) := by
  unfold delete
  rcases exec_bind_of_frames frames_requireUnlocked hf with hfail | ⟨_, w₁, -, k₁, h₁⟩
  · exact .inl hfail
  rw [h₁]
  have hf₁ : w₁.vault.faults = [] := k₁.faults.trans hf
  rcases exec_bind_of_frames (frames_checkName key) hf₁ with hfail | ⟨k, w₂, h₂, k₂, h₂'⟩
  · exact .inl ⟨hfail.1, k₁.trans hfail.2⟩
  rw [h₂']
  obtain ⟨hk, rfl⟩ := exec_checkName_eq_ok h₂
  rcases exec_bind_of_frames (frames_listGrants key) hf₁ with hfail | ⟨grantees, w₃, -, k₃, h₃⟩
  · exact .inl ⟨hfail.1, k₁.trans hfail.2⟩
  rw [h₃]
  have hf₃ : w₃.vault.faults = [] := k₃.faults.trans hf₁
  -- the grants of the entry go first, each off the entry's own paths
  obtain ⟨u, w₄, h₄, k₄⟩ := exec_forIn_ok grantees
    (f := fun r _ => do storeDelete (Grant.path r k); pure (ForInStep.yield PUnit.unit))
    (fun r _ w hw => ⟨_, _, by rw [exec_bind_ok (exec_storeDelete hw _ _), exec_pure],
      KeepsEntries.erase _ _ (offEntries_grantPath _ _)⟩) PUnit.unit w₃ hf₃
  have hf₄ : w₄.vault.faults = [] := k₄.faults.trans hf₃
  rw [exec_bind_ok h₄, exec_bind_ok (exec_storeDelete hf₄ _ _),
    exec_storeDelete (w := { w₄ with
      store := w₄.store.erase (w₄.vault.session.resolve none) (valuesPrefix ++ k) }) hf₄]
  exact .inr ⟨k, w₄, hk, k₁.trans (k₃.trans k₄), rfl⟩

namespace Consistent

variable {mk : ByteArray} {space : Text} {L : Ledger} {w : World}

theorem delete (hc : Consistent mk space L w) (key : Value) :
    Consistent mk space (L.after (.delete key) (exec (VaultCall.delete key).run w).1)
      (exec (VaultCall.delete key).run w).2 := by
  simp only [VaultCall.run]
  rcases exec_delete_cases hc.faults key with ⟨⟨f, hfail⟩, hkeep⟩ | ⟨k, w₁, hk, hkeep, hrun⟩
  · rw [exec_bind_error (Prod.ext hfail rfl)]
    exact hc.of_keeps hkeep
  · have hc₁ := hc.of_keeps hkeep
    rw [exec_bind_ok hrun, exec_pure]
    simp only [Ledger.after, hk]
    rw [hc₁.session]
    exact hc₁.erased k

/-- An entry the ledger has, with the records the store holds for it. -/
theorem entry_of_stored (hc : Consistent mk space L w) {k : Text} {kr vr : Stored}
    (hkr : w.store.find? space (keysPrefix ++ k) = some kr)
    (hvr : w.store.find? space (valuesPrefix ++ k) = some vr) :
    ∃ p ct, L k = some (p, ct) ∧ EntryRecords mk kr vr p ct := by
  have hst := hc.entries k
  rw [hkr, hvr] at hst
  revert hst
  cases L k with
  | none => exact False.elim
  | some l => exact fun h => ⟨l.1, l.2, rfl, h⟩

/-- Rotating an entry seals the same plaintext again under a fresh key; the grants it issues
are off the entry's records. -/
theorem rotate (hc : Consistent mk space L w) (key : Text) (grantees : List Text) (cipher : Aead) :
    Consistent mk space L (exec (Vault.rotate key grantees cipher) w).2 := by
  unfold Vault.rotate
  rcases hs : exec (resealEntry key cipher) w with ⟨r, w₁⟩
  have hkeep : KeepsEntries w w₁ := by
    have := frames_resealEntry key cipher w hc.faults
    rwa [hs] at this
  have hc₁ := hc.of_keeps hkeep
  cases r with
  | error f =>
    rw [exec_bind_error hs]
    exact hc₁
  | ok res =>
    obtain ⟨prev, nk, blob', e'⟩ := res
    rw [exec_bind_ok hs]
    dsimp only
    obtain ⟨mk', kr, vr, b, e, ek, p, c, hmk, hkr, hb, hvr, he, hu, hp, -, -, -, hsealed, -⟩ :=
      exec_resealEntry_eq_ok hc.faults hs
    obtain rfl := hc.masterKey mk' hmk
    rw [hc.session] at hkr hvr
    -- what was read is what the ledger has: one blob, one key, one envelope, one plaintext
    obtain ⟨p₀, ct₀, hL, b₀, ek₀, e₀, hb₀, hu₀, he₀, -, hp₀, hct₀, -, hstr⟩ :=
      hc.entry_of_stored hkr hvr
    rw [hb, Except.ok.injEq] at hb₀
    subst hb₀
    rw [hu, Except.ok.injEq] at hu₀
    subst hu₀
    rw [he, Except.ok.injEq] at he₀
    subst he₀
    rw [hp, Except.ok.injEq] at hp₀
    subst hp₀
    obtain ⟨jb, je, hjb, hje⟩ := hsealed.toJson_of_resealed hstr
    rw [exec_bind_ok (exec_storeEntry hc₁.faults hjb hje)]
    have hw := hc₁.written (k := key) (hsealed.entryRecords hjb hje (headerPairs e'.metadata))
    rw [hct₀, ← hL, Function.update_eq_self] at hw
    rw [hc₁.session]
    exact hw.of_keeps (frames_reissueAll _ _ _ _ _ hw.faults)

/-- Revoking deletes a grant and rotates the entry; the ledger keeps its plaintext. -/
theorem revoke (hc : Consistent mk space L w) (key : Value) (recipient : Text) :
    Consistent mk space L (exec (VaultCall.revoke key recipient).run w).2 := by
  have hrevoke : Preserves (Consistent mk space L) (Vault.revoke key recipient) := by
    unfold Vault.revoke
    refine (Consistent.preserves frames_requireUnlocked).bind fun _ => ?_
    refine (Consistent.preserves (frames_checkName key)).bind fun name => ?_
    refine (Consistent.preserves (frames_listGrants key)).bind fun grantees => ?_
    refine (Consistent.preserves frames_current).bind fun v => ?_
    split
    · exact Consistent.preserves (frames_throw _)
    · refine (Consistent.preserves (frames_storeDelete (offEntries_grantPath _ _) _)).bind
        fun _ => ?_
      refine (Consistent.preserves frames_current).bind fun v' => ?_
      exact fun w hc => hc.rotate _ _ _
  exact (hrevoke.bind fun _ => Consistent.preserves (frames_pure _)) w hc

/-- One admissible call keeps the store consistent with the ledger, whatever its outcome. -/
theorem step (hc : Consistent mk space L w) {c : VaultCall} (ha : c.Admissible mk space) :
    Consistent mk space (L.after c (exec c.run w).1) (exec c.run w).2 := by
  cases c with
  | unlock signer =>
    have hunlock : Preserves (Consistent mk space L) (Vault.unlock signer) :=
      fun w hc => hc.unlock ha
    exact (hunlock.bind fun _ => (Consistent.preserves frames_current).bind
      fun _ => Consistent.preserves (frames_pure _)) w hc
  | lock => exact hc.lock
  | put key value contentType custom writing => exact hc.put ha.1 ha.2
  | get key reading => exact hc.of_keeps (Frames.map _ (frames_getEntry key reading) w hc.faults)
  | delete key => exact hc.delete key
  | head key => exact hc.of_keeps (((frames_head key).bind fun _ => frames_pure _) w hc.faults)
  | list pathPrefix removePrefix =>
    exact hc.of_keeps (Frames.map _ (frames_listEntries pathPrefix removePrefix) w hc.faults)
  | grant key recipient custom =>
    exact hc.of_keeps
      (((frames_grant key recipient custom).bind fun _ => frames_liftExcept _) w hc.faults)
  | listGrants key => exact hc.of_keeps (Frames.map _ (frames_listGrants key) w hc.faults)
  | revoke key recipient => exact hc.revoke key recipient
  | _ => exact ha.elim

/-- The run lemma: admissible calls in any number keep the store consistent with the ledger. -/
theorem run (hc : Consistent mk space L w) (cs : List VaultCall)
    (ha : ∀ c ∈ cs, c.Admissible mk space) :
    Consistent mk space (runCalls cs (w, L)).2 (runCalls cs (w, L)).1 := by
  induction cs generalizing w L with
  | nil => exact hc
  | cons c cs ih =>
    exact ih (hc.step (ha c List.mem_cons_self)) fun c' h => ha c' (List.mem_cons_of_mem _ h)

end Consistent

/-! ## What the owner reads back -/

theorem EntryState.keys_isSome {mk : ByteArray} {l : Option (ByteArray × Text)}
    {kr vr : Option Stored} (h : EntryState mk l kr vr) : kr.isSome = l.isSome := by
  rcases l with _ | ⟨p, ct⟩ <;> rcases kr with _ | kr <;> rcases vr with _ | vr <;>
    first | rfl | exact h.elim

theorem EntryState.values_isSome {mk : ByteArray} {l : Option (ByteArray × Text)}
    {kr vr : Option Stored} (h : EntryState mk l kr vr) : vr.isSome = l.isSome := by
  rcases l with _ | ⟨p, ct⟩ <;> rcases kr with _ | kr <;> rcases vr with _ | vr <;>
    first | rfl | exact h.elim

section Reading

variable {w : World} (hf : w.vault.faults = [])
include hf

theorem exec_loadEnvelope_of {key : Text} {vr : Stored} {e : Envelope}
    (hr : w.store.find? w.vault.session.space (valuesPrefix ++ key) = some vr)
    (he : Envelope.load vr.data.toValue = .ok e) :
    exec (loadEnvelope key) w =
      (.ok e, { w with store := w.store.touch w.vault.session.space }) := by
  unfold loadEnvelope
  -- the vault's own space is where a read without one goes
  have hr' : w.store.find? (w.vault.session.resolve none) (valuesPrefix ++ key) = some vr := hr
  rw [exec_bind_ok (exec_storeGet hf _ _)]
  simp only [hr', exec_liftExcept, he]
  rfl

theorem exec_readPair_of {mk : ByteArray} {key : Text} {kr vr : Stored} {b : KeyBlob}
    {ek : ByteArray} {e : Envelope}
    (hkr : w.store.find? w.vault.session.space (keysPrefix ++ key) = some kr)
    (hb : KeyBlob.load kr.data.toValue = .ok b) (hu : unwrap mk b = .ok ek)
    (hvr : w.store.find? w.vault.session.space (valuesPrefix ++ key) = some vr)
    (he : Envelope.load vr.data.toValue = .ok e) :
    exec (readPair mk key) w = (.ok (e.keyId? == some b.keyId, b, ek, e), { w with
      store := (w.store.touch w.vault.session.space).touch w.vault.session.space }) := by
  have hvr' : (w.store.touch w.vault.session.space).find? w.vault.session.space
      (valuesPrefix ++ key) = some vr := by
    rw [Store.find?_touch]
    exact hvr
  unfold readPair
  rw [exec_bind_ok (exec_loadKeyBlob_of hf hkr hb), exec_bind_ok (by rw [exec_liftExcept, hu]),
    exec_bind_ok (exec_loadEnvelope_of (w := { w with store := w.store.touch _ }) hf hvr' he),
    exec_pure]

/-- Records that name the same key are read once and agree. -/
theorem exec_readAgreed_of {mk : ByteArray} {key : Text} {kr vr : Stored} {b : KeyBlob}
    {ek : ByteArray} {e : Envelope}
    (hkr : w.store.find? w.vault.session.space (keysPrefix ++ key) = some kr)
    (hb : KeyBlob.load kr.data.toValue = .ok b) (hu : unwrap mk b = .ok ek)
    (hvr : w.store.find? w.vault.session.space (valuesPrefix ++ key) = some vr)
    (he : Envelope.load vr.data.toValue = .ok e) (hagree : e.keyId? = some b.keyId) :
    exec (readAgreed mk key) w = (.ok (b, ek, e), { w with
      store := (w.store.touch w.vault.session.space).touch w.vault.session.space }) := by
  unfold readAgreed
  rw [exec_bind_ok (exec_readPair_of hf hkr hb hu hvr he)]
  have hbeq : (e.keyId? == some b.keyId) = true := by
    rw [hagree]
    exact beq_self_eq_true _
  simp only [hbeq, if_true]
  rfl

/-- An unlocked vault reads an entry whose records agree as its plaintext, decoded as asked,
with the headers and key id recorded. -/
theorem exec_getEntry_of {mk : ByteArray} {i : Keys.Identity} (hmk : w.vault.masterKey = some mk)
    (hi : w.vault.identity = some i) {key : Value} {k : Text} (hk : EntryName.ofValue key = .ok k)
    {kr vr : Stored} {b : KeyBlob} {ek p : ByteArray} {e : Envelope}
    (hkr : w.store.find? w.vault.session.space (keysPrefix ++ k) = some kr)
    (hb : KeyBlob.load kr.data.toValue = .ok b) (hu : unwrap mk b = .ok ek)
    (hvr : w.store.find? w.vault.session.space (valuesPrefix ++ k) = some vr)
    (he : Envelope.load vr.data.toValue = .ok e) (hagree : e.keyId? = some b.keyId)
    (hp : openValue ek e = .ok p) (reading : Reading) :
    (exec (getEntry key reading) w).1 =
      (decodeValue p e reading).map fun v => ⟨v, e.metadata, b.keyId⟩ := by
  unfold getEntry
  rw [exec_bind_ok (exec_requireUnlocked_of hmk hi)]
  dsimp only
  rw [exec_bind_ok (exec_checkName_of hk _),
    exec_bind_ok (exec_readAgreed_of hf hkr hb hu hvr he hagree)]
  dsimp only
  rw [exec_bind_ok (by rw [exec_liftExcept, hp])]
  cases hd : decodeValue p e reading with
  | ok v =>
    rw [exec_bind_ok (exec_liftExcept _ _), exec_pure]
    rfl
  | error f =>
    rw [exec_bind_error (exec_liftExcept _ _)]
    rfl

/-- An unlocked vault lists the names under the value folder of its space. -/
theorem exec_listEntries_all {mk : ByteArray} {i : Keys.Identity}
    (hmk : w.vault.masterKey = some mk) (hi : w.vault.identity = some i) :
    (exec (listEntries none false) w).1 =
      .ok (w.store.listing w.vault.session.space valuesPrefix true) := by
  unfold listEntries
  rw [exec_bind_ok (exec_requireUnlocked_of hmk hi)]
  dsimp only
  rw [Option.getD_none, exec_bind_ok (exec_storeList hf _), exec_pure, Text.append_ofString_empty]
  have hempty : (Text.ofString "").isEmpty = true := by simp [Text.ofString, Text.isEmpty]
  simp only [hempty, Bool.false_or, if_true]

end Reading

/-- What the owner reads of an entry the ledger has: both records, the blob unwrapping under
`mk` to a key whose id the blob and the envelope both name, the value opening under it to the
plaintext with the content type, and, while unlocked, every read of the entry giving that
plaintext decoded as asked. -/
def ReadsBack (mk : ByteArray) (space : Text) (w : World) (k : Text) (p : ByteArray) (ct : Text) :
    Prop :=
  ∃ kr vr b ek e, w.store.find? space (keysPrefix ++ k) = some kr ∧
    w.store.find? space (valuesPrefix ++ k) = some vr ∧
    KeyBlob.load kr.data.toValue = .ok b ∧ unwrap mk b = .ok ek ∧
    b.keyId = Text.ofString (keyId ek) ∧ Envelope.load vr.data.toValue = .ok e ∧
    e.keyId? = some (Text.ofString (keyId ek)) ∧ openValue ek e = .ok p ∧ e.contentType = ct ∧
    (w.vault.isUnlocked = true → ∀ key reading, EntryName.ofValue key = .ok k →
      (exec (getEntry key reading) w).1 =
        (decodeValue p e reading).map fun v => ⟨v, e.metadata, Text.ofString (keyId ek)⟩)

/-- What the owner observes of its entries with ledger `L`: an entry's key blob and value are
present exactly when the ledger has its name, hold the ledger's plaintext, and an unlocked vault
lists the names, sorted, exactly as the ledger has them. -/
structure EntriesAgree (mk : ByteArray) (space : Text) (L : Ledger) (w : World) : Prop where
  keys_present : ∀ k, (w.store.find? space (keysPrefix ++ k)).isSome = (L k).isSome
  values_present : ∀ k, (w.store.find? space (valuesPrefix ++ k)).isSome = (L k).isSome
  reads_back : ∀ k p ct, L k = some (p, ct) → ReadsBack mk space w k p ct
  lists : w.vault.isUnlocked = true → ∃ names, (exec (listEntries none false) w).1 = .ok names ∧
    names.Pairwise (fun a b => Text.lt a b = true) ∧ ∀ k, k ∈ names ↔ (L k).isSome

namespace Consistent

variable {mk : ByteArray} {space : Text} {L : Ledger} {w : World}

theorem unlocked (hc : Consistent mk space L w) (hu : w.vault.isUnlocked = true) :
    ∃ i, w.vault.masterKey = some mk ∧ w.vault.identity = some i := by
  unfold isUnlocked at hu
  cases hm : w.vault.masterKey with
  | none => rw [hm] at hu; cases hu
  | some m =>
    cases hi : w.vault.identity with
    | none => simp [hi] at hu
    | some i => exact ⟨i, by rw [hc.masterKey m hm], rfl⟩

theorem readsBack (hc : Consistent mk space L w) {k : Text} {p : ByteArray} {ct : Text}
    (hL : L k = some (p, ct)) : ReadsBack mk space w k p ct := by
  have hst := hc.entries k
  rw [hL] at hst
  revert hst
  cases hkr : w.store.find? space (keysPrefix ++ k) with
  | none => exact False.elim
  | some kr =>
  cases hvr : w.store.find? space (valuesPrefix ++ k) with
  | none => exact False.elim
  | some vr =>
  rintro ⟨b, ek, e, hb, hu, he, hagree, hp, hct, -, -⟩
  have hid := keyId_of_unwrap hu
  refine ⟨kr, vr, b, ek, e, hkr, hvr, hb, hu, hid, he, hid ▸ hagree, hp, hct, ?_⟩
  intro hunl key reading hk
  obtain ⟨i, hmk, hi⟩ := hc.unlocked hunl
  rw [← hc.session] at hkr hvr
  rw [exec_getEntry_of hc.faults hmk hi hk hkr hb hu hvr he hagree hp reading, hid]

theorem agree (hc : Consistent mk space L w) : EntriesAgree mk space L w where
  keys_present k := (hc.entries k).keys_isSome
  values_present k := (hc.entries k).values_isSome
  reads_back _ _ _ hL := hc.readsBack hL
  lists hu := by
    obtain ⟨i, hmk, hi⟩ := hc.unlocked hu
    refine ⟨_, exec_listEntries_all hc.faults hmk hi, ?_, fun k => ?_⟩
    · rw [hc.session]
      exact Store.pairwise_listing hc.distinct _
    · rw [hc.session, Store.mem_listing]
      exact Bool.eq_iff_iff.mp (hc.entries k).values_isSome

end Consistent


/-- A vault over an empty store, storing in its own space without faults, is consistent with
the empty ledger. -/
theorem Consistent.fresh {mk : ByteArray} {v : Vault} (entropy : Entropy)
    (hspace : v.session.space = v.settings.space) (hfaults : v.faults = [])
    (hkey : ∀ m, v.masterKey = some m → m = mk) :
    Consistent mk v.settings.space (fun _ => none) ⟨v, {}, entropy⟩ :=
  ⟨rfl, hspace, hfaults, hkey, List.nodup_nil, fun _ => trivial⟩

/-- One owner's vault over a fresh plain store whose default space is the vault's own, driven by
any sequence of unlocks that derive the master key `mk`, locks, writes whose content type and
headers are free of lone surrogates, reads, heads, listings, grant listings, deletes, grants
and revokes, each succeeding or failing: after every such run the entries agree with the
ledger of its successful writes and deletes. -/
theorem entries_stay_consistent {mk : ByteArray} (v : Vault) (entropy : Entropy)
    (cs : List VaultCall) (hspace : v.session.space = v.settings.space) (hfaults : v.faults = [])
    (hkey : ∀ m, v.masterKey = some m → m = mk)
    (hcalls : ∀ c ∈ cs, c.Admissible mk v.settings.space) :
    EntriesAgree mk v.settings.space (runCalls cs (⟨v, {}, entropy⟩, fun _ => none)).2
      (runCalls cs (⟨v, {}, entropy⟩, fun _ => none)).1 :=
  ((Consistent.fresh entropy hspace hfaults hkey).run cs hcalls).agree

end Vault

end Strongbox

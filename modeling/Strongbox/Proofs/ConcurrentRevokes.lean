import Strongbox.Proofs.ConcurrentReads
import Strongbox.Proofs.Revocation

/-! # Reading an entry while a grant of it is revoked -/

namespace Strongbox

namespace Vault

/-! ## A revoke cut at its store calls -/

/-- What a revoke does before it writes the entry's records: the checks, the listing and
erasure of grants, and the sealing again. -/
def revokeSealing (key : Value) (recipient : Text) :
    VaultM (Text × List Text × Text × ByteArray × KeyBlob × Envelope) := do
  let _ ← requireUnlocked
  let name ← checkName key
  let grantees ← listGrants key
  let v ← current
  if !grantees.contains recipient then throw (.grantNotFound (Text.ofString v.did) name)
  else do
    storeDelete (Grant.path recipient name)
    let (previous, newKey, blob, e) ← resealEntry name (← current).settings.cipher
    pure (name, grantees.filter (· != recipient), previous, newKey, blob, e)

/-- The fresh grants of a rotation, as one step. -/
def reissueProc (name : Text) (newKey : ByteArray) (others : List Text)
    (report : Rotation.Report) : Proc Rotation.Report :=
  .step (reissueAll name newKey others report) fun report => .done (.ok report)

/-- A revoke cut at the writes of the entry's records. What comes before them reads the records
and writes neither, so a read cannot tell its store calls apart and they are one step; then the
key blob, the envelope and the first store failure, as `storeProc` stores them; then the fresh
grants. -/
def revokeProc (key : Value) (recipient : Text) : Proc Rotation.Report :=
  .step (revokeSealing key recipient) fun (name, others, previous, newKey, blob, e) =>
    (storeProc name blob e).bind fun _ =>
      reissueProc name newKey others { keyId := blob.keyId, previousKeyId := previous }

theorem run_storeProc (name : Text) (blob : KeyBlob) (e : Envelope) :
    (storeProc name blob e).run = storeEntry name blob e >>= fun _ => pure e.metadata := by
  simp only [storeProc, storeEntry, Proc.run, bind_assoc]
  rfl

/-- Run alone, the cut revoke is the revoke. -/
theorem run_revokeProc (key : Value) (recipient : Text) :
    (revokeProc key recipient).run = revoke key recipient := by
  simp only [revokeProc, reissueProc, revokeSealing, revoke, rotate, Proc.run, Proc.run_bind,
    run_storeProc, bind_assoc, pure_bind]
  congr 1; funext _; congr 1; funext name; congr 1; funext grantees; congr 1; funext v
  split
  · rfl
  · simp only [liftExcept, bind_pure, bind_assoc, pure_bind]

theorem within_revokeProc (key : Value) (recipient : Text) : (revokeProc key recipient).Within 5 :=
  .step _ fun ⟨name, _, _, _, blob, e⟩ =>
    (within_storeProc name blob e).bind (n := 1) fun _ => .step _ fun _ => .done _ _

/-! ## The worlds a revoke passes through -/

theorem frames_revokeSealing (key : Value) (recipient : Text) :
    Frames (revokeSealing key recipient) := by
  unfold revokeSealing
  refine frames_requireUnlocked.bind fun _ => (frames_checkName key).bind fun name => ?_
  refine (frames_listGrants key).bind fun grantees => frames_current.bind fun v => ?_
  split
  · exact frames_throw _
  · refine (frames_storeDelete (offEntries_grantPath recipient name) none).bind fun _ => ?_
    refine frames_current.bind fun v' => (frames_resealEntry name _).bind fun x => ?_
    obtain ⟨previous, newKey, blob, e⟩ := x
    exact frames_pure _

/-- A revoke's first step that succeeds found a good name and sealed the entry again, from the
world with the recipient's grant erased. -/
theorem exec_revokeSealing_eq_ok {w : World} (hf : w.vault.faults = []) {key : Value}
    {recipient name previous : Text} {others : List Text} {newKey : ByteArray} {blob : KeyBlob}
    {e : Envelope} {w' : World}
    (h : exec (revokeSealing key recipient) w =
      (.ok (name, others, previous, newKey, blob, e), w')) :
    EntryName.ofValue key = .ok name ∧
      exec (resealEntry name w.vault.settings.cipher) { w with
        store := (w.store.touch w.vault.session.space).erase w.vault.session.space
          (Grant.path recipient name) } = (.ok (previous, newKey, blob, e), w') := by
  unfold revokeSealing at h
  obtain ⟨⟨mk, i⟩, w₁, h₁, c₁⟩ := exec_bind_eq_ok h
  obtain ⟨-, -, rfl⟩ := exec_requireUnlocked_eq_ok h₁
  obtain ⟨k, w₂, h₂, c₂⟩ := exec_bind_eq_ok c₁
  obtain ⟨hk, rfl⟩ := exec_checkName_eq_ok h₂
  obtain ⟨gs, w₃, h₃, c₃⟩ := exec_bind_eq_ok c₂
  obtain ⟨k', -, rfl, rfl⟩ := exec_listGrants_eq_ok hf h₃
  obtain ⟨v, w₄, h₄, c₄⟩ := exec_bind_eq_ok c₃
  obtain ⟨rfl, rfl⟩ := exec_current_eq_ok h₄
  split at c₄
  · rw [exec_throw] at c₄
    cases c₄
  · obtain ⟨u, w₅, h₅, c₅⟩ := exec_bind_eq_ok c₄
    rw [exec_storeDelete (by exact hf), Prod.mk.injEq] at h₅
    obtain ⟨-, rfl⟩ := h₅
    obtain ⟨v', w₆, h₆, c₆⟩ := exec_bind_eq_ok c₅
    obtain ⟨rfl, rfl⟩ := exec_current_eq_ok h₆
    obtain ⟨⟨previous', newKey', blob', e'⟩, w₇, h₇, c₇⟩ := exec_bind_eq_ok c₆
    simp only [exec_pure, Prod.mk.injEq, Except.ok.injEq] at c₇
    obtain ⟨⟨rfl, -, rfl, rfl, rfl, rfl⟩, rfl⟩ := c₇
    exact ⟨hk, h₇⟩

section Worlds

variable {key : Value} {recipient : Text} {w₀ w₁ : World}

theorem runSteps_revokeProc_unsealed {f : Failure}
    (hs : exec (revokeSealing key recipient) w₀ = (.error f, w₁)) (n : ℕ) :
    ((revokeProc key recipient).runSteps w₀ (n + 1)).2 = w₁ := by
  rw [Proc.runSteps_succ, revokeProc, Proc.advance_step_error hs, Proc.runSteps_done]

variable {k previous : Text} {others : List Text} {newKey : ByteArray} {blob : KeyBlob}
  {e : Envelope}
  (hs : exec (revokeSealing key recipient) w₀ =
    (.ok (k, others, previous, newKey, blob, e), w₁))
include hs

theorem runSteps_revokeProc_sealed (n : ℕ) :
    (revokeProc key recipient).runSteps w₀ (n + 1) =
      ((storeProc k blob e).bind fun _ => reissueProc k newKey others
        { keyId := blob.keyId, previousKeyId := previous }).runSteps w₁ n := by
  rw [Proc.runSteps_succ, revokeProc, Proc.advance_step_ok hs]

variable {jb : String} (hf₁ : w₁.vault.faults = []) (hjb : blob.toJson = .ok jb)
include hf₁ hjb

/-- When both records are stored, the worlds of the revoke are those of `storeProc`, and then
one where the fresh grants are issued, which keeps the entries. -/
theorem keeps_revokeProc_written {je : String} (hje : e.toJson = .ok je) (n : ℕ) :
    KeepsEntries ((storeProc k blob e).runSteps w₁ n).2
      ((revokeProc key recipient).runSteps w₀ (n + 1)).2 := by
  obtain ⟨hdone, hnot⟩ := runSteps_storeProc_finished hf₁ hjb hje 0
  rw [Nat.zero_add] at hdone
  rw [runSteps_revokeProc_sealed hs]
  by_cases hn : n ≤ 3
  · rw [Proc.runSteps_bind _ _ _ _ fun j hj a => hnot j (by omega) a]
    exact KeepsEntries.refl _
  obtain ⟨m, rfl⟩ : ∃ m, n = 3 + (m + 1) := ⟨n - 4, by omega⟩
  -- the grants are issued from the world both records were stored in
  have hf₃ : ((storeProc k blob e).runSteps w₁ 3).2.vault.faults = [] := by
    rw [vault_runSteps_storeProc hf₁ hjb]
    exact hf₁
  rw [Proc.runSteps_add ((storeProc k blob e).bind _) w₁ 3, Proc.runSteps_bind _ _ _ _ hnot, hdone,
    Proc.runSteps_add (storeProc k blob e) w₁ 3, hdone, Proc.runSteps_done]
  dsimp only
  rw [Proc.bind, reissueProc, Proc.runSteps_succ _ _ m]
  have hkeep := frames_reissueAll k newKey others
    { keyId := blob.keyId, previousKeyId := previous } _ hf₃
  rcases hr : exec (reissueAll k newKey others { keyId := blob.keyId, previousKeyId := previous })
    ((storeProc k blob e).runSteps w₁ 3).2 with ⟨_ | report, w₄⟩
  · rw [Proc.advance_step_error hr, Proc.runSteps_done]
    rw [hr] at hkeep
    exact hkeep
  · rw [Proc.advance_step_ok hr, Proc.runSteps_done]
    rw [hr] at hkeep
    exact hkeep

/-- When the envelope has no JSON text, the revoke stops where `storeProc` does. -/
theorem runSteps_revokeProc_unwritable {f : Failure} (he : e.toJson = .error f) (n : ℕ) :
    ((revokeProc key recipient).runSteps w₀ (n + 1)).2 = ((storeProc k blob e).runSteps w₁ n).2 := by
  rw [runSteps_revokeProc_sealed hs,
    Proc.runSteps_bind _ _ _ _ fun j _ a => runSteps_storeProc_unfinished hf₁ hjb he j a]

/-- A revoke whose records were sealed leaves the new key blob in place, whether or not the
envelope follows it. -/
theorem find?_keys_revoke_of_sealed :
    (exec (revoke key recipient) w₀).2.store.find? w₁.vault.session.space (keysPrefix ++ k) =
      some ⟨.ofString jb, []⟩ := by
  obtain ⟨r, hr⟩ := (within_revokeProc key recipient).runSteps w₀ (m := 4 + 1) (Nat.le_refl _)
  rw [← run_revokeProc, Proc.exec_run_of_runSteps hr]
  cases hje : e.toJson with
  | ok je =>
    -- the fresh grants keep the key blob `storeProc` wrote
    rw [← vault_runSteps_storeProc hf₁ hjb 4, (keeps_revokeProc_written hs hf₁ hjb hje 4).keys k,
      vault_runSteps_storeProc hf₁ hjb 4]
    exact find?_keys_runSteps_storeProc hf₁ hjb 3
  | error f =>
    rw [runSteps_revokeProc_unwritable hs hf₁ hjb hje 4]
    exact find?_keys_runSteps_storeProc hf₁ hjb 3

end Worlds

/-- A revoke that succeeds got past its first step. -/
theorem exec_revokeSealing_of_revoke {w₀ w : World} {key : Value} {recipient : Text}
    {report : Rotation.Report} (h : exec (revoke key recipient) w₀ = (.ok report, w)) :
    ∃ x w₁, exec (revokeSealing key recipient) w₀ = (.ok x, w₁) := by
  rw [← run_revokeProc, revokeProc, Proc.run] at h
  rcases hs : exec (revokeSealing key recipient) w₀ with ⟨_ | x, w₁⟩
  · rw [exec_bind_error hs] at h
    cases h
  · exact ⟨x, w₁, rfl⟩

/-- The key blob a revoke leaves, once its records are sealed: it wraps the next key drawn. -/
theorem keyBlob_revoke_of_sealed {w₀ w₁ : World} (hf : w₀.vault.faults = []) {key : Value}
    {recipient k previous : Text} {others : List Text} {newKey : ByteArray} {blob : KeyBlob}
    {e : Envelope}
    (hs : exec (revokeSealing key recipient) w₀ =
      (.ok (k, others, previous, newKey, blob, e), w₁)) :
    ∃ jb, (exec (revoke key recipient) w₀).2.store.find? w₀.vault.session.space
        (keysPrefix ++ k) = some ⟨.ofString jb, []⟩ ∧
      KeyBlob.load (Data.ofString jb).toValue = .ok blob ∧
      ∀ mk, w₀.vault.masterKey = some mk → unwrap mk blob = .ok (w₀.entropy.draw 32).1 := by
  have hkeep : KeepsEntries w₀ w₁ := by
    have := frames_revokeSealing key recipient w₀ hf
    rwa [hs] at this
  obtain ⟨-, hseal⟩ := exec_revokeSealing_eq_ok hf hs
  obtain ⟨mk, _, _, _, _, _, _, _, hmk, -, -, -, -, -, -, -, rfl, -, hsealed, -⟩ :=
    exec_resealEntry_eq_ok (by exact hf) hseal
  obtain ⟨jb, hjb⟩ := hsealed.blob_toJson
  have hkeys := find?_keys_revoke_of_sealed hs (hkeep.faults.trans hf) hjb
  rw [hkeep.session] at hkeys
  refine ⟨jb, hkeys, KeyBlob.load_toJson hjb, fun mk' hmk' => ?_⟩
  rw [show w₀.vault.masterKey = some mk from hmk, Option.some.injEq] at hmk'
  rw [← hmk']
  exact hsealed.unwrap_blob

/-! ### Worlds that replace the records as a revoke writes them -/

section Replacing

variable {w₀ w₁ : World} {key : Value} {recipient k : Text} {kr₀ vr₀ : Stored}
  (hf : w₀.vault.faults = [])
  (hkr₀ : w₀.store.find? w₀.vault.session.space (keysPrefix ++ k) = some kr₀)
  (hvr₀ : w₀.store.find? w₀.vault.session.space (valuesPrefix ++ k) = some vr₀)
include hf hkr₀ hvr₀

theorem replaces_revokeProc_unsealed {f : Failure}
    (hs : exec (revokeSealing key recipient) w₀ = (.error f, w₁)) :
    Replaces (fun n => ((revokeProc key recipient).runSteps w₀ n).2) k (kr₀, vr₀) (kr₀, vr₀)
      (fun _ => false) (fun _ => false) := by
  have hkeep : KeepsEntries w₀ w₁ := by
    have := frames_revokeSealing key recipient w₀ hf
    rwa [hs] at this
  exact replaces_of_keeps hf hkr₀ hvr₀ rfl fun n => by
    rw [runSteps_revokeProc_unsealed hs]
    exact hkeep

variable {others : List Text} {previous : Text} {newKey : ByteArray} {blob : KeyBlob}
  {e : Envelope} {jb : String}
  (hs : exec (revokeSealing key recipient) w₀ = (.ok (k, others, previous, newKey, blob, e), w₁))
  (hjb : blob.toJson = .ok jb)
include hs hjb

theorem replaces_revokeProc_written {je : String} (hje : e.toJson = .ok je) :
    Replaces (fun n => ((revokeProc key recipient).runSteps w₀ n).2) k
      (kr₀, vr₀) (⟨.ofString jb, []⟩, ⟨.ofString je, headerPairs e.metadata⟩)
      (fun n => decide (2 ≤ n)) (fun n => decide (3 ≤ n)) := by
  have hkeep : KeepsEntries w₀ w₁ := by
    have := frames_revokeSealing key recipient w₀ hf
    rwa [hs] at this
  exact replaces_of_storing hf hkr₀ hvr₀ rfl hkeep hjb
    (keeps_revokeProc_written hs (hkeep.faults.trans hf) hjb hje) hje

theorem replaces_revokeProc_unwritable {f : Failure} (he : e.toJson = .error f) :
    Replaces (fun n => ((revokeProc key recipient).runSteps w₀ n).2) k
      (kr₀, vr₀) (⟨.ofString jb, []⟩, vr₀) (fun n => decide (2 ≤ n)) (fun _ => false) := by
  have hkeep : KeepsEntries w₀ w₁ := by
    have := frames_revokeSealing key recipient w₀ hf
    rwa [hs] at this
  exact replaces_of_storing_unwritable hf hkr₀ hvr₀ rfl hkeep hjb (fun n => by
    rw [runSteps_revokeProc_unwritable hs (hkeep.faults.trans hf) hjb he]
    exact KeepsEntries.refl _) he

end Replacing

/-! ## Reads that keep the value -/

theorem exec_getEntry_locked {u : World} (hl : u.vault.isUnlocked = false) (key : Value)
    (reading : Reading) : (exec (getEntry key reading) u).1 = .error .locked := by
  have h : (getProc key reading).observe [u] = .done (.error .locked) :=
    observe_getProc_locked hl []
  rw [Proc.observe_cons, Proc.observe_nil] at h
  rw [← run_getProc, Proc.exec_run_of_runSteps (n := 1) (by rw [Proc.runSteps_succ]; exact h)]

/-- Records that open to one plaintext under one content type read as one value. -/
theorem openedEntry_value {reading : Reading} {b b' : KeyBlob} {ek ek' p : ByteArray}
    {e e' : Envelope} (h : openValue ek e = .ok p) (h' : openValue ek' e' = .ok p)
    (hct : e'.contentType = e.contentType) :
    (openedEntry reading (b', ek', e')).map Entry.value =
      (openedEntry reading (b, ek, e)).map Entry.value := by
  have hdec : decodeValue p e' reading = decodeValue p e reading := by
    cases reading <;> simp only [decodeValue, hct]
  simp only [openedEntry, h, h', bind, Except.bind, hdec]
  cases decodeValue p e reading <;> rfl

section Values

variable {T : ℕ → World} {k : Text} {old new : Stored × Stored} {κ ν : ℕ → Bool}

/-- Alone at any step of worlds that replace records opening to one value, a read returns the
value it returns at the start, or fails as records that disagree once the new key blob, with an
id of its own, is in place. -/
theorem Replaces.getEntry_value {o₀ o₁ : KeyBlob × ByteArray × Envelope}
    (hT : Replaces T k old new κ ν)
    (hkey₀ : KeyBlob.load old.1.data.toValue = .ok o₀.1)
    (hopen₀ : ∀ mk, (T 0).vault.masterKey = some mk → unwrap mk o₀.1 = .ok o₀.2.1)
    (hval₀ : Envelope.load old.2.data.toValue = .ok o₀.2.2)
    (hkey₁ : ∀ n, κ n = true → KeyBlob.load new.1.data.toValue = .ok o₁.1)
    (hopen₁ : ∀ mk, (T 0).vault.masterKey = some mk → ∀ n, κ n = true →
      unwrap mk o₁.1 = .ok o₁.2.1)
    (hval₁ : ∀ n, ν n = true → Envelope.load new.2.data.toValue = .ok o₁.2.2)
    (hagree₀ : o₀.2.2.keyId? = some o₀.1.keyId)
    (hagree₁ : ∀ n, ν n = true → o₁.2.2.keyId? = some o₁.1.keyId)
    (hfresh : o₁.1.keyId = o₀.1.keyId → o₁.2.1 = o₀.2.1) {reading : Reading}
    (hsame : ∀ n, ν n = true →
      (openedEntry reading o₁).map Entry.value = (openedEntry reading o₀).map Entry.value)
    {key : Value} (hk : EntryName.ofValue key = .ok k) (n : ℕ) :
    (exec (getEntry key reading) (T n)).1.map Entry.value =
        (exec (getEntry key reading) (T 0)).1.map Entry.value ∨
      ((exec (getEntry key reading) (T n)).1 =
          .error (.envelopeMismatch o₀.2.2.keyId? o₁.1.keyId k) ∧
        o₁.1.keyId ≠ o₀.1.keyId ∧ κ n = true) := by
  cases hu : (T 0).vault.isUnlocked with
  | false =>
    left
    have hl : (T n).vault.isUnlocked = false := by
      unfold Vault.isUnlocked
      rw [hT.masterKey n, hT.identity n]
      exact hu
    rw [exec_getEntry_locked hl, exec_getEntry_locked hu]
  | true =>
    obtain ⟨mk, i, hmk, hi⟩ := exists_of_isUnlocked hu
    have hget : ∀ n, exec (getEntry key reading) (T n) =
        (readOutcome reading k (pairAt o₀ o₁ κ ν n n) (pairAt o₀ o₁ κ ν n n), T n) :=
      hT.exec_getEntry ⟨hkey₀, hopen₀ mk hmk⟩ hval₀ (fun n h => ⟨hkey₁ n h, hopen₁ mk hmk n h⟩)
        hval₁ hk hmk hi
    rw [hget n, hget 0]
    obtain ⟨b₀, ek₀, e₀⟩ := o₀
    obtain ⟨b₁, ek₁, e₁⟩ := o₁
    dsimp only at hagree₀ hagree₁ hfresh hsame ⊢
    have hν₀ : ν 0 = false := by
      cases h : ν 0 with
      | false => rfl
      | true =>
        have h₀ := hT.stages.keys_first 0 h
        rw [hT.stages.start] at h₀
        cases h₀
    simp only [pairAt, hT.stages.start, hν₀, Bool.false_eq_true, if_false]
    rw [readOutcome_of_agree hagree₀]
    -- the stage of step `n`: neither record new, the key blob alone, or both
    cases hx : κ n with
    | false =>
      cases hy : ν n with
      | false =>
        left
        simp only [Bool.false_eq_true, if_false]
        rw [readOutcome_of_agree hagree₀]
      | true =>
        have := hT.stages.keys_first n hy
        rw [hx] at this
        cases this
    | true =>
      cases hy : ν n with
      | true =>
        left
        simp only [if_true]
        rw [readOutcome_of_agree (hagree₁ n hy)]
        exact hsame n hy
      | false =>
        simp only [Bool.false_eq_true, if_false, if_true]
        rw [readOutcome_self]
        by_cases hid : e₀.keyId? = some b₁.keyId
        · left
          have hkid : b₁.keyId = b₀.keyId := by
            rw [hagree₀] at hid
            exact (Option.some.inj hid).symm
          rw [if_pos hid, hfresh hkid, openedEntry_of_keyId hkid]
        · right
          rw [if_neg hid]
          exact ⟨rfl, fun h => hid (by rw [hagree₀, h]), trivial⟩

/-- A read beside an operation whose worlds replace entry `k`'s records by records that open to
the same value: the operation goes as it goes alone, and the read returns the value a read
returns before the operation, or fails as records that disagree once the new key blob is in
place. -/
theorem Replaces.interleave_getProc_value {β : Type} {q : Proc β} {w₀ : World}
    (hT : Replaces (fun n => (q.runSteps w₀ n).2) k old new κ ν)
    (o₀ o₁ : KeyBlob × ByteArray × Envelope)
    (hkey₀ : KeyBlob.load old.1.data.toValue = .ok o₀.1)
    (hopen₀ : ∀ mk, w₀.vault.masterKey = some mk → unwrap mk o₀.1 = .ok o₀.2.1)
    (hval₀ : Envelope.load old.2.data.toValue = .ok o₀.2.2)
    (hkey₁ : ∀ n, κ n = true → KeyBlob.load new.1.data.toValue = .ok o₁.1)
    (hopen₁ : ∀ mk, w₀.vault.masterKey = some mk → ∀ n, κ n = true → unwrap mk o₁.1 = .ok o₁.2.1)
    (hval₁ : ∀ n, ν n = true → Envelope.load new.2.data.toValue = .ok o₁.2.2)
    (hagree₀ : o₀.2.2.keyId? = some o₀.1.keyId)
    (hagree₁ : ∀ n, ν n = true → o₁.2.2.keyId? = some o₁.1.keyId)
    (hfresh : o₁.1.keyId = o₀.1.keyId → o₁.2.1 = o₀.2.1) {reading : Reading}
    (hsame : ∀ n, ν n = true →
      (openedEntry reading o₁).map Entry.value = (openedEntry reading o₀).map Entry.value)
    {key : Value} (hk : EntryName.ofValue key = .ok k) {s : List Bool}
    {r : Except Failure Entry} {r' : Except Failure β} {w : World}
    (hrun : interleave s (getProc key reading) q w₀ = (.done r, .done r', w)) :
    exec q.run w₀ = (r', w) ∧
      (r.map Entry.value = (exec (getEntry key reading) w₀).1.map Entry.value ∨
        (r = .error (.envelopeMismatch o₀.2.2.keyId? o₁.1.keyId k) ∧ o₁.1.keyId ≠ o₀.1.keyId ∧
          w.store.find? w.vault.session.space (keysPrefix ++ k) = some new.1)) := by
  obtain ⟨hq, hr⟩ := hT.interleave_getProc o₀ o₁ hkey₀ hopen₀ hval₀ hkey₁ hopen₁ hval₁ hagree₀
    hagree₁ hfresh hk hrun
  refine ⟨hq, ?_⟩
  -- the reads end in the world the operation ends in
  have hw : (q.runSteps w₀ (s.count false)).2 = w := by
    have hsettled : ∀ n, Settled (q.runSteps w₀ n).2 := fun n =>
      settled_of_find? (hT.faults n) (hT.keys n)
    rw [interleave_eq_observe (keeps_getProc key reading) q w₀ hsettled s, Prod.mk.injEq,
      Prod.mk.injEq] at hrun
    exact hrun.2.2
  rcases hr with h | h | h
  · exact .inl (by rw [h])
  · rcases hT.getEntry_value hkey₀ hopen₀ hval₀ hkey₁ hopen₁ hval₁ hagree₀ hagree₁ hfresh hsame hk
      (s.count false) with h' | ⟨h', hne, hκ⟩
    · rw [hw] at h'
      exact .inl (by rw [h, h']; rfl)
    · rw [hw] at h'
      have hkeys := hT.keys (s.count false)
      rw [if_pos hκ, hw] at hkeys
      exact .inr ⟨h.trans h', hne, hkeys⟩
  · exact .inr h

end Values

/-! ## A read beside a revoke of a grant of the same entry -/

/-- A read of an entry run beside a revoke of a grant of it, under any schedule of their store
calls: the revoke goes as it goes alone, and the read returns the value a read returns before the
revoke, which sealing again under a fresh key keeps, unless it found the new key blob beside the
old envelope on both attempts and fails as records that disagree.

Key ids are taken to name keys: a key blob the revoke leaves with the old id opens to the old
entry key. -/
theorem read_beside_revoke_keeps_value {w₀ : World} (hf : w₀.vault.faults = []) {key : Value}
    {recipient k : Text} (hk : EntryName.ofValue key = .ok k) {b₀ : KeyBlob} {e₀ : Envelope}
    (hold : HoldsEntry w₀ k b₀ e₀)
    (hids : ∀ mk kr b, w₀.vault.masterKey = some mk →
      (exec (revoke key recipient) w₀).2.store.find? w₀.vault.session.space
        (keysPrefix ++ k) = some kr →
      KeyBlob.load kr.data.toValue = .ok b → b.keyId = b₀.keyId → unwrap mk b = unwrap mk b₀)
    {reading : Reading} {s : List Bool} {r : Except Failure Entry}
    {r' : Except Failure Rotation.Report} {w : World}
    (hrun : interleave s (getProc key reading) (revokeProc key recipient) w₀ =
      (.done r, .done r', w)) :
    exec (revoke key recipient) w₀ = (r', w) ∧
      (r.map Entry.value = (exec (getEntry key reading) w₀).1.map Entry.value ∨
        ∃ kr b, w.store.find? w.vault.session.space (keysPrefix ++ k) = some kr ∧
          KeyBlob.load kr.data.toValue = .ok b ∧ b.keyId ≠ b₀.keyId ∧
          r = .error (.envelopeMismatch e₀.keyId? b.keyId k)) := by
  obtain ⟨⟨kr₀, hkr₀, hb₀⟩, ⟨vr₀, hvr₀, he₀⟩, hagree₀, -⟩ := id hold
  obtain ⟨ek₀, hek₀⟩ := hold.entryKey
  rcases hs : exec (revokeSealing key recipient) w₀ with
    ⟨_ | ⟨k', others, previous, newKey, blob, e⟩, w₁⟩
  · -- sealing fails: the revoke replaces nothing
    obtain ⟨hq, hr⟩ := (replaces_revokeProc_unsealed hf hkr₀ hvr₀ hs).interleave_getProc_value
      (b₀, ek₀, e₀) (b₀, ek₀, e₀) hb₀ hek₀ he₀ (fun _ h => absurd h Bool.false_ne_true)
      (fun _ _ _ h => absurd h Bool.false_ne_true) (fun _ h => absurd h Bool.false_ne_true) hagree₀
      (fun _ h => absurd h Bool.false_ne_true) (fun _ => rfl) (fun _ h => absurd h Bool.false_ne_true) hk hrun
    rw [run_revokeProc] at hq
    rcases hr with h | ⟨-, hne, -⟩
    · exact ⟨hq, .inl h⟩
    · exact absurd rfl hne
  obtain ⟨hk', hseal⟩ := exec_revokeSealing_eq_ok hf hs
  obtain rfl : k = k' := by
    rw [hk] at hk'
    exact Except.ok.inj hk'
  have hkeep : KeepsEntries w₀ w₁ := by
    have := frames_revokeSealing key recipient w₀ hf
    rwa [hs] at this
  -- the entry is sealed again from the world with the recipient's grant erased, which holds the
  -- records `w₀` holds
  have hu : KeepsEntries w₀ { w₀ with
      store := (w₀.store.touch w₀.vault.session.space).erase w₀.vault.session.space
        (Grant.path recipient k) } :=
    (KeepsEntries.touch w₀ _).trans (KeepsEntries.erase _ _ (offEntries_grantPath recipient k))
  obtain ⟨mk, kr, vr, b, e₁, ek, p, _, hmk, hkr, hb, hvr, he₁, hek, hp, -, -, -, hsealed, -⟩ :=
    exec_resealEntry_eq_ok (hu.faults.trans hf) hseal
  rw [hu.find?_own_keys, hkr₀, Option.some.injEq] at hkr
  rw [hu.find?_own_values, hvr₀, Option.some.injEq] at hvr
  subst hkr hvr
  obtain rfl : b₀ = b := Except.ok.inj (hb₀.symm.trans hb)
  obtain rfl : e₀ = e₁ := Except.ok.inj (he₀.symm.trans he₁)
  obtain rfl : ek₀ = ek := Except.ok.inj ((hek₀ mk hmk).symm.trans hek)
  obtain ⟨jb, hjb⟩ := hsealed.blob_toJson
  have hblob : KeyBlob.load (Data.ofString jb).toValue = .ok blob := KeyBlob.load_toJson hjb
  have hopen : ∀ mk', w₀.vault.masterKey = some mk' → unwrap mk' blob = .ok newKey := by
    intro mk' hmk'
    rw [hmk, Option.some.injEq] at hmk'
    rw [← hmk']
    exact hsealed.unwrap_blob
  -- a key blob the revoke leaves with the old id opens to the old entry key
  have hfresh (hid : blob.keyId = b₀.keyId) : newKey = ek₀ := by
    have hkeys := find?_keys_revoke_of_sealed hs (hkeep.faults.trans hf) hjb
    rw [hkeep.session] at hkeys
    have := hids mk _ blob hmk hkeys hblob hid
    rw [hopen mk hmk, hek₀ mk hmk] at this
    exact Except.ok.inj this
  cases hje : e.toJson with
  | ok je =>
    obtain ⟨b', ek', e', hb', hu', he', hagree', hp', hct', -, -⟩ :=
      hsealed.entryRecords hjb hje (headerPairs e.metadata)
    obtain rfl : blob = b' := Except.ok.inj (hblob.symm.trans hb')
    obtain rfl : newKey = ek' := Except.ok.inj (hsealed.unwrap_blob.symm.trans hu')
    obtain ⟨hq, hr⟩ := (replaces_revokeProc_written hf hkr₀ hvr₀ hs hjb hje).interleave_getProc_value
      (b₀, ek₀, e₀) (blob, newKey, e') hb₀ hek₀ he₀ (fun _ _ => hblob)
      (fun mk' hmk' _ _ => hopen mk' hmk') (fun _ _ => he') hagree₀ (fun _ _ => hagree') hfresh
      (fun _ _ => openedEntry_value hp hp' hct') hk hrun
    rw [run_revokeProc] at hq
    rcases hr with h | ⟨h, hne, hfind⟩
    · exact ⟨hq, .inl h⟩
    · exact ⟨hq, .inr ⟨_, blob, hfind, hblob, hne, h⟩⟩
  | error f =>
    -- the envelope is not written: the new key blob stands beside the old envelope
    obtain ⟨hq, hr⟩ :=
      (replaces_revokeProc_unwritable hf hkr₀ hvr₀ hs hjb hje).interleave_getProc_value
        (b₀, ek₀, e₀) (blob, newKey, e₀) hb₀ hek₀ he₀ (fun _ _ => hblob)
        (fun mk' hmk' _ _ => hopen mk' hmk') (fun _ h => absurd h Bool.false_ne_true) hagree₀
        (fun _ h => absurd h Bool.false_ne_true) hfresh (fun _ h => absurd h Bool.false_ne_true) hk hrun
    rw [run_revokeProc] at hq
    rcases hr with h | ⟨h, hne, hfind⟩
    · exact ⟨hq, .inl h⟩
    · exact ⟨hq, .inr ⟨_, blob, hfind, hblob, hne, h⟩⟩

/-! ## A read beside a rewrite of the same entry -/

/-- A read of an entry run beside a write of it, or beside a revoke of a grant of it, under any
schedule of their store calls: the other operation goes as it goes alone. Beside a write the read
returns what a read returns before or after it, unless a per-write key with a new id is in
place; beside a revoke it returns the value a read returns before, unless the new key blob is in
place. In both exceptions the read fails as records that disagree. Key ids are taken to name
keys. -/
theorem read_beside_write_or_revoke {w₀ : World} (hf : w₀.vault.faults = []) {key : Value}
    {k : Text} (hk : EntryName.ofValue key = .ok k) {b₀ : KeyBlob} {e₀ : Envelope}
    (hold : HoldsEntry w₀ k b₀ e₀) (reading : Reading) :
    (∀ (value : Value) (contentType : Option Text) (custom : List (Value × Value))
        (writing : Writing) (s : List Bool) (r : Except Failure Entry)
        (r' : Except Failure Headers) (w : World),
      (∀ mk kr b, w₀.vault.masterKey = some mk →
        (exec (put key value contentType custom writing) w₀).2.store.find?
          w₀.vault.session.space (keysPrefix ++ k) = some kr →
        KeyBlob.load kr.data.toValue = .ok b → b.keyId = b₀.keyId →
        unwrap mk b = unwrap mk b₀) →
      interleave s (getProc key reading) (putProc key value contentType custom writing) w₀ =
        (.done r, .done r', w) →
      exec (put key value contentType custom writing) w₀ = (r', w) ∧
        (r = (exec (getEntry key reading) w₀).1 ∨ r = (exec (getEntry key reading) w).1 ∨
          (w₀.vault.settings.rotation = .perWrite ∧ ∃ kr b,
            w.store.find? w.vault.session.space (keysPrefix ++ k) = some kr ∧
            KeyBlob.load kr.data.toValue = .ok b ∧ b.keyId ≠ b₀.keyId ∧
            r = .error (.envelopeMismatch e₀.keyId? b.keyId k)))) ∧
    (∀ (recipient : Text) (s : List Bool) (r : Except Failure Entry)
        (r' : Except Failure Rotation.Report) (w : World),
      (∀ mk kr b, w₀.vault.masterKey = some mk →
        (exec (revoke key recipient) w₀).2.store.find? w₀.vault.session.space
          (keysPrefix ++ k) = some kr →
        KeyBlob.load kr.data.toValue = .ok b → b.keyId = b₀.keyId →
        unwrap mk b = unwrap mk b₀) →
      interleave s (getProc key reading) (revokeProc key recipient) w₀ =
        (.done r, .done r', w) →
      exec (revoke key recipient) w₀ = (r', w) ∧
        (r.map Entry.value = (exec (getEntry key reading) w₀).1.map Entry.value ∨
          ∃ kr b, w.store.find? w.vault.session.space (keysPrefix ++ k) = some kr ∧
            KeyBlob.load kr.data.toValue = .ok b ∧ b.keyId ≠ b₀.keyId ∧
            r = .error (.envelopeMismatch e₀.keyId? b.keyId k))) :=
  ⟨fun _ _ _ _ _ _ _ _ hids hrun => read_beside_write_sees_before_or_after hf hk hold hids hrun,
    fun _ _ _ _ _ hids hrun => read_beside_revoke_keeps_value hf hk hold hids hrun⟩

/-! ## The sample owner, writing and revoking beside a read -/

/-- The sample run: the owner writes `k` and grants it to itself. -/
def selfGrantRun : World × Ledger :=
  runCalls selfGrant (⟨sampleOwner, {}, ⟨ByteArray.empty, 0⟩⟩, fun _ => none)

/-- The first entry key the sample draws and the one drawn after the grant have different ids. -/
theorem sample_keyIds_differ :
    keyId ((⟨ByteArray.empty, 100⟩ : Entropy).draw 32).1 ≠
      keyId ((⟨ByteArray.empty, 0⟩ : Entropy).draw 32).1 := by
  decide +kernel

/-- In the sample's world the vault is unlocked without faults under the per-write policy and
holds `k`, under a key blob whose id is not that of the next key drawn. -/
theorem sampleWorld_holds : ∃ mk i b₀ e₀,
    selfGrantRun.1.vault.faults = [] ∧ selfGrantRun.1.vault.masterKey = some mk ∧
    selfGrantRun.1.vault.identity = some i ∧ mk.size = 32 ∧
    selfGrantRun.1.vault.settings.rotation = .perWrite ∧
    HoldsEntry selfGrantRun.1 (Text.ofString "k") b₀ e₀ ∧
    Text.ofString (keyId (selfGrantRun.1.entropy.draw 32).1) ≠ b₀.keyId := by
  obtain ⟨mk, p, ct, hm, hu, hc, hL, -, hent, hset, kr', b', hkr', hb', hu'⟩ := selfGrant_run
  rw [selfGrantRun]
  obtain ⟨hm', hi'⟩ := Bool.and_eq_true_iff.mp hu
  obtain ⟨m, hmk⟩ := Option.isSome_iff_exists.mp hm'
  obtain ⟨i, hi⟩ := Option.isSome_iff_exists.mp hi'
  obtain rfl := hc.masterKey m hmk
  obtain ⟨kr, vr, b, ek, e, hkr, hvr, hb, hek, hid, he, hagree, -, -, -⟩ := hc.readsBack hL
  -- the key blob read back is the one the sample's write left, wrapping the first key drawn
  rw [hkr', Option.some.injEq] at hkr
  subst hkr
  obtain rfl : b' = b := Except.ok.inj (hb'.symm.trans hb)
  obtain rfl : ((⟨ByteArray.empty, 0⟩ : Entropy).draw 32).1 = ek := Except.ok.inj (hu'.symm.trans hek)
  refine ⟨m, i, b', e, hc.faults, hmk, hi, Keys.size_of_deriveMasterKey hm, by rw [hset]; rfl,
    ⟨⟨kr', by rw [hc.session]; exact hkr', hb'⟩, ⟨vr, by rw [hc.session]; exact hvr, he⟩,
      by rw [hid]; exact hagree, fun m' h => ⟨((⟨ByteArray.empty, 0⟩ : Entropy).draw 32).1, by
        rw [hmk, Option.some.injEq] at h
        rw [← h]
        exact hu'⟩⟩, ?_⟩
  rw [hent, hid]
  exact fun h => sample_keyIds_differ (Text.ofString_inj.mp h)

/-- The sample's next write, under the per-write policy, draws a key with a new id: a read run
whole between its two records fails. -/
theorem read_between_sample_records_fails : ∃ a b,
    (interleave [false, false, true, true, true, true, true, true] (getProc sampleKey .raw)
      (putProc sampleKey (.bytes ⟨#[8]⟩) none [] .raw) selfGrantRun.1).1 =
      .done (.error (.envelopeMismatch a b (Text.ofString "k"))) := by
  obtain ⟨mk, i, b₀, e₀, hf, hmk, hi, hsize, hrot, hold, hfresh⟩ := sampleWorld_holds
  obtain ⟨blob, e, hsealed, hs⟩ : ∃ blob e, _ ∧
      exec (sealEntry sampleKey (.bytes ⟨#[8]⟩) none [] .raw) selfGrantRun.1 = _ :=
    exec_sealEntry_perWrite hmk hi hsize hrot
      (rfl : EntryName.ofValue sampleKey = .ok (Text.ofString "k"))
      (rfl : plaintextOf (.bytes ⟨#[8]⟩) (contentTypeOf (.bytes ⟨#[8]⟩) none) .raw = .ok ⟨#[8]⟩)
  have hne : blob.keyId ≠ b₀.keyId := by
    rw [keyId_of_unwrap hsealed.unwrap_blob]
    exact hfresh
  exact ⟨_, _, read_between_records_fails hf rfl hold (by simp [Vault.isUnlocked, hmk, hi]) hs hne
    .raw⟩

/-- The sample's owner writes `k` again, and revokes its own grant of `k`, each beside a read of
`k` that takes every other store call. -/
theorem read_beside_sample_write_and_revoke : ∃ b₀ e₀,
    selfGrantRun.1.vault.faults = [] ∧ EntryName.ofValue sampleKey = .ok (Text.ofString "k") ∧
    HoldsEntry selfGrantRun.1 (Text.ofString "k") b₀ e₀ ∧
    (∃ r r' w,
      (∀ mk kr b, selfGrantRun.1.vault.masterKey = some mk →
        (exec (put sampleKey (.bytes ⟨#[8]⟩) none [] .raw) selfGrantRun.1).2.store.find?
          selfGrantRun.1.vault.session.space (keysPrefix ++ Text.ofString "k") = some kr →
        KeyBlob.load kr.data.toValue = .ok b → b.keyId = b₀.keyId →
        unwrap mk b = unwrap mk b₀) ∧
      interleave [true, false, true, false, true, false, true, false, true, false, true]
        (getProc sampleKey .raw) (putProc sampleKey (.bytes ⟨#[8]⟩) none [] .raw) selfGrantRun.1 =
        (.done r, .done r', w) ∧
      exec (put sampleKey (.bytes ⟨#[8]⟩) none [] .raw) selfGrantRun.1 = (r', w) ∧
      (r = (exec (getEntry sampleKey .raw) selfGrantRun.1).1 ∨
        r = (exec (getEntry sampleKey .raw) w).1 ∨
        (selfGrantRun.1.vault.settings.rotation = .perWrite ∧ ∃ kr b,
          w.store.find? w.vault.session.space (keysPrefix ++ Text.ofString "k") = some kr ∧
          KeyBlob.load kr.data.toValue = .ok b ∧ b.keyId ≠ b₀.keyId ∧
          r = .error (.envelopeMismatch e₀.keyId? b.keyId (Text.ofString "k"))))) ∧
    (∃ r r' w,
      (∀ mk kr b, selfGrantRun.1.vault.masterKey = some mk →
        (exec (revoke sampleKey (Text.ofString sampleOwner.principal.did)) selfGrantRun.1).2.store.find?
          selfGrantRun.1.vault.session.space (keysPrefix ++ Text.ofString "k") = some kr →
        KeyBlob.load kr.data.toValue = .ok b → b.keyId = b₀.keyId →
        unwrap mk b = unwrap mk b₀) ∧
      interleave [true, false, true, false, true, false, true, false, true, false, true]
        (getProc sampleKey .raw) (revokeProc sampleKey (Text.ofString sampleOwner.principal.did))
        selfGrantRun.1 = (.done r, .done r', w) ∧
      exec (revoke sampleKey (Text.ofString sampleOwner.principal.did)) selfGrantRun.1 = (r', w) ∧
      (r.map Entry.value = (exec (getEntry sampleKey .raw) selfGrantRun.1).1.map Entry.value ∨
        ∃ kr b, w.store.find? w.vault.session.space (keysPrefix ++ Text.ofString "k") = some kr ∧
          KeyBlob.load kr.data.toValue = .ok b ∧ b.keyId ≠ b₀.keyId ∧
          r = .error (.envelopeMismatch e₀.keyId? b.keyId (Text.ofString "k")))) := by
  obtain ⟨mk, i, b₀, e₀, hf, hmk, hi, hsize, hrot, hold, hfresh⟩ := sampleWorld_holds
  have hk : EntryName.ofValue sampleKey = .ok (Text.ofString "k") := rfl
  have hthm := read_beside_write_or_revoke hf hk hold .raw
  refine ⟨b₀, e₀, hf, hk, hold, ?_, ?_⟩
  · -- the write draws the next key, whose id is new
    obtain ⟨h, st, hput, kr₁, b₁, hkr₁, hb₁, hu₁⟩ := exec_put_perWrite hmk hi hf hsize hrot hk
      (rfl : plaintextOf (.bytes ⟨#[8]⟩) (contentTypeOf (.bytes ⟨#[8]⟩) none) .raw = .ok ⟨#[8]⟩)
      (fun _ h => nomatch h) (fun _ h => nomatch h : Headers.AllStrings (Headers.ofValues []))
    have hids : ∀ mk kr b, selfGrantRun.1.vault.masterKey = some mk →
        (exec (put sampleKey (.bytes ⟨#[8]⟩) none [] .raw) selfGrantRun.1).2.store.find?
          selfGrantRun.1.vault.session.space (keysPrefix ++ Text.ofString "k") = some kr →
        KeyBlob.load kr.data.toValue = .ok b → b.keyId = b₀.keyId →
        unwrap mk b = unwrap mk b₀ := by
      intro _ kr b _ hkr hb hid
      rw [hput] at hkr
      dsimp only at hkr
      rw [hkr₁, Option.some.injEq] at hkr
      subst hkr
      obtain rfl : b₁ = b := Except.ok.inj (hb₁.symm.trans hb)
      exact absurd (by rw [← hid, keyId_of_unwrap hu₁]) hfresh
    obtain ⟨r, r', w, hrun⟩ := interleave_finishes (within_getProc sampleKey .raw)
      (within_putProc sampleKey (.bytes ⟨#[8]⟩) none [] .raw)
      [true, false, true, false, true, false, true, false, true, false, true]
      ⟨by decide, by decide⟩ selfGrantRun.1
    exact ⟨r, r', w, hids, hrun, hthm.1 _ _ _ _ _ r r' w hids hrun⟩
  · -- the revoke of the owner's own grant seals `k` again under the next key
    obtain ⟨report, w', hrev⟩ := selfGrant_revoke_succeeds
    have hrev' : exec (revoke sampleKey (Text.ofString sampleOwner.principal.did)) selfGrantRun.1 =
        (.ok report, w') := by
      rw [selfGrantRun]
      exact hrev
    obtain ⟨⟨k', others, previous, newKey, blob, e⟩, w₁, hs⟩ := exec_revokeSealing_of_revoke hrev'
    obtain ⟨hk', -⟩ := exec_revokeSealing_eq_ok hf hs
    obtain rfl : Text.ofString "k" = k' := by
      rw [hk] at hk'
      exact Except.ok.inj hk'
    obtain ⟨jb, hkeys, hload, hunwrap⟩ := keyBlob_revoke_of_sealed hf hs
    have hids : ∀ mk kr b, selfGrantRun.1.vault.masterKey = some mk →
        (exec (revoke sampleKey (Text.ofString sampleOwner.principal.did)) selfGrantRun.1).2.store.find?
          selfGrantRun.1.vault.session.space (keysPrefix ++ Text.ofString "k") = some kr →
        KeyBlob.load kr.data.toValue = .ok b → b.keyId = b₀.keyId →
        unwrap mk b = unwrap mk b₀ := by
      intro _ kr b _ hkr hb hid
      rw [hkeys, Option.some.injEq] at hkr
      subst hkr
      obtain rfl : blob = b := Except.ok.inj (hload.symm.trans hb)
      exact absurd (by rw [← hid, keyId_of_unwrap (hunwrap mk hmk)]) hfresh
    obtain ⟨r, r', w, hrun⟩ := interleave_finishes (within_getProc sampleKey .raw)
      (within_revokeProc sampleKey (Text.ofString sampleOwner.principal.did))
      [true, false, true, false, true, false, true, false, true, false, true]
      ⟨by decide, by decide⟩ selfGrantRun.1
    exact ⟨r, r', w, hids, hrun, hthm.2 _ _ r r' w hids hrun⟩

end Vault

end Strongbox

import Strongbox.Proofs.Interleaving
import Strongbox.Proofs.Effects
import Strongbox.Proofs.Consistency

/-!
# Reading an entry while it is written

A read of an entry and a write of the same entry, by one vault, may run at once: each store
call is one step, and the steps of the two interleave. The read takes the key blob, then the
envelope, and reads both again when their key ids disagree; the write stores the key blob, then
the envelope.

A read in a world with no fault pending and the vault's space present changes nothing, so the
write goes as it goes alone and the read meets the worlds it passes through. What the read
returns is what a read returns before the write or after it, except in one case: when a fresh
entry key is drawn and both its attempts fall between the write's two records, the read
finds the new key blob beside the old envelope twice, and fails as records that disagree.
-/

namespace Strongbox

namespace Vault

/-! ## Reads and writes cut at their store calls -/

section Cut

variable {α : Type}

/-- Reading the key blob and envelope of an entry, each read one step. -/
def readPairProc (master : ByteArray) (key : Text)
    (k : Bool × KeyBlob × ByteArray × Envelope → Proc α) : Proc α :=
  .step (loadKeyBlob key) fun blob =>
  .step (do
    let entryKey ← liftExcept (unwrap master blob)
    let e ← loadEnvelope key
    pure (e.keyId? == some blob.keyId, blob, entryKey, e)) k

/-- Reading an entry's records until they agree, at most twice. -/
def readAgreedProc (master : ByteArray) (key : Text)
    (k : KeyBlob × ByteArray × Envelope → Proc α) : Proc α :=
  readPairProc master key fun (agree, blob, entryKey, e) =>
    if agree then k (blob, entryKey, e)
    else readPairProc master key fun (agree, blob, entryKey, e) =>
      if agree then k (blob, entryKey, e)
      else .done (.error (.envelopeMismatch e.keyId? blob.keyId key))

/-- The entry a read returns from the key blob, entry key and envelope that agreed. -/
def openedEntry (reading : Reading) : KeyBlob × ByteArray × Envelope → Except Failure Entry
  | (blob, entryKey, e) => do
    let plaintext ← openValue entryKey e
    let value ← decodeValue plaintext e reading
    pure ⟨value, e.metadata, blob.keyId⟩

/-- A read of an entry, cut at its store calls. -/
def getProc (key : Value) (reading : Reading) : Proc Entry :=
  .step requireUnlocked fun (master, _) =>
  .step (checkName key) fun name =>
  readAgreedProc master name fun x => .done (openedEntry reading x)

/-- Storing an entry's sealed records, cut at its store calls: the key blob, then the envelope,
then the first store failure if there was one. -/
def storeProc (name : Text) (blob : KeyBlob) (e : Envelope) : Proc Headers :=
  .step (do
    let blobJson ← liftExcept blob.toJson
    attempt (storePut (keysPrefix ++ name) (.ofString blobJson))) fun first =>
  .step (do
    let envelopeJson ← liftExcept e.toJson
    attempt (storePut (valuesPrefix ++ name) (.ofString envelopeJson) (headerPairs e.metadata)))
    fun second =>
  .step (match first, second with
    | some f, _ => throw f
    | none, some f => throw f
    | none, none => pure ()) fun _ =>
  .done (.ok e.metadata)

/-- A write of an entry, cut at its store calls: sealing, which reads the key blob under the
per-key policy, then storing. -/
def putProc (key value : Value) (contentType : Option Text) (custom : List (Value × Value))
    (writing : Writing) : Proc Headers :=
  .step (sealEntry key value contentType custom writing) fun (name, blob, e) =>
    storeProc name blob e

theorem liftExcept_bind {β : Type} (x : Except Failure α) (f : α → Except Failure β) :
    liftExcept (x >>= f) = liftExcept x >>= fun a => liftExcept (f a) := by
  cases x <;> rfl

theorem run_readPairProc (master : ByteArray) (key : Text)
    (k : Bool × KeyBlob × ByteArray × Envelope → Proc α) :
    (readPairProc master key k).run = readPair master key >>= fun x => (k x).run := by
  simp only [readPairProc, readPair, Proc.run, bind_assoc, pure_bind]

theorem run_readAgreedProc (master : ByteArray) (key : Text)
    (k : KeyBlob × ByteArray × Envelope → Proc α) :
    (readAgreedProc master key k).run = readAgreed master key >>= fun x => (k x).run := by
  unfold readAgreedProc readAgreed
  rw [run_readPairProc, bind_assoc]
  congr 1
  funext ⟨agree, blob, entryKey, e⟩
  cases agree
  · simp only [Bool.false_eq_true, if_false, run_readPairProc, bind_assoc]
    congr 1
    funext ⟨agree, blob, entryKey, e⟩
    cases agree
    · simp [Proc.run, liftExcept]
    · simp
  · simp

/-- Run alone, the cut read is the read. -/
theorem run_getProc (key : Value) (reading : Reading) :
    (getProc key reading).run = getEntry key reading := by
  simp only [getProc, getEntry, Proc.run, run_readAgreedProc, openedEntry, liftExcept_bind]
  rfl

/-- Run alone, the cut write is the write. -/
theorem run_putProc (key value : Value) (contentType : Option Text) (custom : List (Value × Value))
    (writing : Writing) :
    (putProc key value contentType custom writing).run =
      put key value contentType custom writing := by
  simp only [putProc, storeProc, put, storeEntry, Proc.run, bind_assoc]
  rfl

theorem within_readPairProc {n : ℕ} {master : ByteArray} {key : Text}
    {k : Bool × KeyBlob × ByteArray × Envelope → Proc α} (hk : ∀ x, (k x).Within n) :
    (readPairProc master key k).Within (n + 2) :=
  .step _ fun _ => .step _ hk

theorem within_readAgreedProc {n : ℕ} {master : ByteArray} {key : Text}
    {k : KeyBlob × ByteArray × Envelope → Proc α} (hk : ∀ x, (k x).Within n) :
    (readAgreedProc master key k).Within (n + 4) := by
  unfold readAgreedProc
  refine within_readPairProc fun ⟨agree, blob, entryKey, e⟩ => ?_
  cases agree
  · exact within_readPairProc fun ⟨agree, _, _, _⟩ => by
      cases agree
      · exact .done _ _
      · exact hk _
  · exact (hk _).mono (by omega)

/-- A read makes at most six store calls: the lock check and name, then two attempts of two. -/
theorem within_getProc (key : Value) (reading : Reading) : (getProc key reading).Within 6 :=
  .step _ fun _ => .step _ fun _ => within_readAgreedProc fun _ => .done 0 _

theorem within_storeProc (name : Text) (blob : KeyBlob) (e : Envelope) :
    (storeProc name blob e).Within 3 :=
  .step _ fun _ => .step _ fun _ => .step _ fun _ => .done _ _

theorem within_putProc (key value : Value) (contentType : Option Text)
    (custom : List (Value × Value)) (writing : Writing) :
    (putProc key value contentType custom writing).Within 4 :=
  .step _ fun ⟨name, blob, e⟩ => within_storeProc name blob e

end Cut

/-! ## A read changes nothing -/

/-- A world that a read leaves as it found it: no fault pending, and the vault's space present. -/
def Settled (w : World) : Prop :=
  w.vault.faults = [] ∧ (w.store.space? w.vault.session.space).isSome = true

theorem Store.touch_of_isSome {s : Store} {n : Text} (h : (s.space? n).isSome = true) :
    s.touch n = s := by
  unfold Store.touch
  rw [if_pos h]

theorem settled_of_find? {w : World} (hf : w.vault.faults = []) {path : Text} {r : Stored}
    (h : w.store.find? w.vault.session.space path = some r) : Settled w := by
  unfold Store.find? at h
  cases hs : w.store.space? w.vault.session.space with
  | none => rw [hs] at h; cases h
  | some b => exact ⟨hf, by rw [hs]; rfl⟩

/-- The later world is the earlier one, when the earlier is settled. -/
def sameIfSettled : WorldOrder where
  rel w w' := Settled w → w' = w
  refl _ _ := rfl
  trans h₁ h₂ ha := by
    obtain rfl := h₁ ha
    exact h₂ ha

theorem settled_storeGet_own (path : Text) : Stays sameIfSettled (storeGet path) := by
  intro w hw
  rw [exec_storeGet hw.1]
  show { w with store := w.store.touch w.vault.session.space } = w
  rw [Store.touch_of_isSome hw.2]

theorem settled_loadKeyBlob (key : Text) : Stays sameIfSettled (loadKeyBlob key) := by
  unfold loadKeyBlob
  refine (settled_storeGet_own _).bind fun r => ?_
  cases r with
  | none => exact Stays.throw _
  | some s => exact Stays.liftExcept _

theorem settled_loadEnvelope (key : Text) : Stays sameIfSettled (loadEnvelope key) := by
  unfold loadEnvelope
  refine (settled_storeGet_own _).bind fun r => ?_
  cases r with
  | none => exact Stays.throw _
  | some s => exact Stays.liftExcept _

section Keeping

variable {α : Type}

theorem keeps_readPairProc (master : ByteArray) (key : Text)
    {k : Bool × KeyBlob × ByteArray × Envelope → Proc α} (hk : ∀ x, (k x).Keeps Settled) :
    (readPairProc master key k).Keeps Settled :=
  .step (settled_loadKeyBlob key) fun _ =>
    .step ((Stays.liftExcept _).bind fun _ => (settled_loadEnvelope key).bind fun _ => Stays.pure _)
      hk

theorem keeps_readAgreedProc (master : ByteArray) (key : Text)
    {k : KeyBlob × ByteArray × Envelope → Proc α} (hk : ∀ x, (k x).Keeps Settled) :
    (readAgreedProc master key k).Keeps Settled := by
  refine keeps_readPairProc master key fun ⟨agree, blob, entryKey, e⟩ => ?_
  cases agree
  · refine keeps_readPairProc master key fun ⟨agree, blob, entryKey, e⟩ => ?_
    cases agree
    · exact .done _
    · exact hk _
  · exact hk _

/-- Every step of a read leaves a settled world as it found it. -/
theorem keeps_getProc (key : Value) (reading : Reading) : (getProc key reading).Keeps Settled :=
  .step (Stays.requireUnlocked (R := sameIfSettled)) fun _ =>
    .step (Stays.liftExcept (R := sameIfSettled) _) fun _ =>
      keeps_readAgreedProc _ _ fun _ => .done _

end Keeping

/-! ## What a read finds -/

/-- In world `u`, with no fault pending, entry `k` has the key blob `b`, which opens under `mk`
to the entry key `ek`. -/
def FindsKey (mk : ByteArray) (k : Text) (u : World) (b : KeyBlob) (ek : ByteArray) : Prop :=
  u.vault.faults = [] ∧ ∃ kr, u.store.find? u.vault.session.space (keysPrefix ++ k) = some kr ∧
    KeyBlob.load kr.data.toValue = .ok b ∧ unwrap mk b = .ok ek

/-- In world `u`, with no fault pending, entry `k` has the envelope `e`. -/
def FindsValue (k : Text) (u : World) (e : Envelope) : Prop :=
  u.vault.faults = [] ∧ ∃ vr, u.store.find? u.vault.session.space (valuesPrefix ++ k) = some vr ∧
    Envelope.load vr.data.toValue = .ok e

/-- What a read returns from the records its two attempts found: the first pair whose key ids
agree, opened, or else records that disagree. -/
def readOutcome (reading : Reading) (k : Text) (first second : KeyBlob × ByteArray × Envelope) :
    Except Failure Entry :=
  if first.2.2.keyId? == some first.1.keyId then openedEntry reading first
  else if second.2.2.keyId? == some second.1.keyId then openedEntry reading second
  else .error (.envelopeMismatch second.2.2.keyId? second.1.keyId k)

section Finding

variable {α : Type} {mk : ByteArray} {k : Text}

theorem observe_readPairProc {u u' : World} {b : KeyBlob} {ek : ByteArray} {e : Envelope}
    (hkey : FindsKey mk k u b ek) (hval : FindsValue k u' e)
    (c : Bool × KeyBlob × ByteArray × Envelope → Proc α) (us : List World) :
    (readPairProc mk k c).observe (u :: u' :: us) =
      (c (e.keyId? == some b.keyId, b, ek, e)).observe us := by
  obtain ⟨hu, kr, hkr, hb, hek⟩ := hkey
  obtain ⟨hu', vr, hvr, he⟩ := hval
  have h₂ : exec (do
      let entryKey ← liftExcept (unwrap mk b)
      let e ← loadEnvelope k
      pure (e.keyId? == some b.keyId, b, entryKey, e)) u' =
      (.ok (e.keyId? == some b.keyId, b, ek, e),
        { u' with store := u'.store.touch u'.vault.session.space }) := by
    rw [exec_bind_ok (by rw [exec_liftExcept, hek]), exec_bind_ok (exec_loadEnvelope_of hu' hvr he),
      exec_pure]
  rw [readPairProc, Proc.observe_cons, Proc.advance_step_ok (exec_loadKeyBlob_of hu hkr hb),
    Proc.observe_cons, Proc.advance_step_ok h₂]

variable {reading : Reading} {key : Value}

/-- A read handed six worlds: it checks the lock and the name in the first two, and each of
its attempts reads the key blob and the envelope in the next two. -/
theorem observe_getProc (hk : EntryName.ofValue key = .ok k) {u₀ u₁ u₂ u₃ u₄ u₅ : World}
    {i : Keys.Identity} (hmk : u₀.vault.masterKey = some mk) (hi : u₀.vault.identity = some i)
    {b b' : KeyBlob} {ek ek' : ByteArray} {e e' : Envelope}
    (hkey : FindsKey mk k u₂ b ek) (hval : FindsValue k u₃ e)
    (hkey' : FindsKey mk k u₄ b' ek') (hval' : FindsValue k u₅ e') (us : List World) :
    (getProc key reading).observe (u₀ :: u₁ :: u₂ :: u₃ :: u₄ :: u₅ :: us) =
      .done (readOutcome reading k (b, ek, e) (b', ek', e')) := by
  rw [getProc, Proc.observe_cons, Proc.advance_step_ok (exec_requireUnlocked_of hmk hi),
    Proc.observe_cons, Proc.advance_step_ok (exec_checkName_of hk _)]
  dsimp only
  rw [readAgreedProc, observe_readPairProc hkey hval]
  unfold readOutcome
  cases (e.keyId? == some b.keyId)
  · simp only [Bool.false_eq_true, if_false]
    rw [observe_readPairProc hkey' hval']
    cases (e'.keyId? == some b'.keyId) <;> simp
  · simp

theorem observe_getProc_locked {u : World} (hl : u.vault.isUnlocked = false) (us : List World) :
    (getProc key reading).observe (u :: us) = .done (.error .locked) := by
  have hu : exec requireUnlocked u = (.error .locked, u) := by
    rw [exec_requireUnlocked]
    unfold Vault.isUnlocked at hl
    cases hm : u.vault.masterKey <;> cases hi : u.vault.identity <;> simp_all
  rw [getProc, Proc.observe_cons, Proc.advance_step_error hu, Proc.observe_done]

/-- A read run alone in a world where it finds agreeing records opens them; where the records
disagree, it fails after reading them twice. -/
theorem exec_getEntry_of_finds (hk : EntryName.ofValue key = .ok k) {u : World} {i : Keys.Identity}
    (hmk : u.vault.masterKey = some mk) (hi : u.vault.identity = some i) {b : KeyBlob}
    {ek : ByteArray} {e : Envelope} (hkey : FindsKey mk k u b ek) (hval : FindsValue k u e) :
    exec (getEntry key reading) u = (readOutcome reading k (b, ek, e) (b, ek, e), u) := by
  obtain ⟨hf, kr, hkr, -⟩ := id hkey
  rw [← run_getProc]
  exact (keeps_getProc key reading).exec_run (settled_of_find? hf hkr) (n := 6)
    (observe_getProc hk hmk hi hkey hval hkey hval [])

end Finding

/-! ## Two attempts against a write

A write replaces an entry's key blob, then its envelope. Along the steps of the write, `κ n`
says whether the key blob is the new one at step `n`, and `ν n` whether the envelope is. A read
whose first attempt reads at steps `i ≤ j` and second at `i' ≤ j'`, after the first, meets the
records `pairAt old new κ ν i j` and `pairAt old new κ ν i' j'`. -/

/-- The stages of a write as a reader sees them: each record is replaced once and stays, the
key blob first, and nothing is replaced at the start. -/
structure Stages (κ ν : ℕ → Bool) : Prop where
  keys_stay : ∀ m n, m ≤ n → κ m = true → κ n = true
  values_stay : ∀ m n, m ≤ n → ν m = true → ν n = true
  keys_first : ∀ n, ν n = true → κ n = true
  start : κ 0 = false

/-- The key blob, entry key and envelope a read meets when it reads the key blob at step `i` of
the write and the envelope at step `j`. -/
def pairAt (old new : KeyBlob × ByteArray × Envelope) (κ ν : ℕ → Bool) (i j : ℕ) :
    KeyBlob × ByteArray × Envelope :=
  (if κ i then new.1 else old.1, if κ i then new.2.1 else old.2.1, if ν j then new.2.2 else old.2.2)

section Attempts

variable {reading : Reading} {k : Text} {b b' : KeyBlob} {ek : ByteArray} {e : Envelope}
  {second : KeyBlob × ByteArray × Envelope}

theorem openedEntry_of_keyId (h : b.keyId = b'.keyId) :
    openedEntry reading (b, ek, e) = openedEntry reading (b', ek, e) := by
  simp only [openedEntry, h]

theorem readOutcome_of_agree (h : e.keyId? = some b.keyId) :
    readOutcome reading k (b, ek, e) second = openedEntry reading (b, ek, e) := by
  simp only [readOutcome, h, beq_self_eq_true, if_true]

theorem readOutcome_of_disagree (h : e.keyId? ≠ some b.keyId) :
    readOutcome reading k (b, ek, e) second =
      if second.2.2.keyId? = some second.1.keyId then openedEntry reading second
      else .error (.envelopeMismatch second.2.2.keyId? second.1.keyId k) := by
  have hb : (e.keyId? == some b.keyId) = false := beq_false_of_ne h
  simp only [readOutcome, hb, Bool.false_eq_true, if_false, beq_iff_eq]

theorem readOutcome_self :
    readOutcome reading k (b, ek, e) (b, ek, e) =
      if e.keyId? = some b.keyId then openedEntry reading (b, ek, e)
      else .error (.envelopeMismatch e.keyId? b.keyId k) := by
  by_cases h : e.keyId? = some b.keyId
  · rw [readOutcome_of_agree h, if_pos h]
  · rw [readOutcome_of_disagree h, if_neg h]

end Attempts

section Between

variable {reading : Reading} {k : Text} {old new : KeyBlob × ByteArray × Envelope}
  {κ ν : ℕ → Bool} (hs : Stages κ ν) (hagree₀ : old.2.2.keyId? = some old.1.keyId)
  (hagree₁ : ∀ n, ν n = true → new.2.2.keyId? = some new.1.keyId)
  (hfresh : new.1.keyId = old.1.keyId → new.2.1 = old.2.1)
include hs hagree₀ hagree₁ hfresh

/-- A read beside a write returns what a read returns before the write or after it, or fails
as records that disagree: the new key blob, with an id of its own, found twice beside the old
envelope. The cases follow the stage of the first attempt's two reads. -/
theorem readOutcome_pairAt {i j i' j' N : ℕ} (hij : i ≤ j) (hji' : j ≤ i') (hij' : i' ≤ j')
    (hN : j' ≤ N) :
    readOutcome reading k (pairAt old new κ ν i j) (pairAt old new κ ν i' j') =
        readOutcome reading k (pairAt old new κ ν 0 0) (pairAt old new κ ν 0 0) ∨
      readOutcome reading k (pairAt old new κ ν i j) (pairAt old new κ ν i' j') =
        readOutcome reading k (pairAt old new κ ν N N) (pairAt old new κ ν N N) ∨
      (readOutcome reading k (pairAt old new κ ν i j) (pairAt old new κ ν i' j') =
        .error (.envelopeMismatch old.2.2.keyId? new.1.keyId k) ∧ new.1.keyId ≠ old.1.keyId ∧
        κ N = true) := by
  obtain ⟨b₀, ek₀, e₀⟩ := old
  obtain ⟨b₁, ek₁, e₁⟩ := new
  dsimp only at hagree₀ hagree₁ hfresh ⊢
  have hstart : ν 0 = false := by
    cases h : ν 0 with
    | false => rfl
    | true =>
      have h₀ := hs.keys_first 0 h
      rw [hs.start] at h₀
      cases h₀
  -- before the write, a read opens the old records
  have hbefore : readOutcome reading k (pairAt (b₀, ek₀, e₀) (b₁, ek₁, e₁) κ ν 0 0)
      (pairAt (b₀, ek₀, e₀) (b₁, ek₁, e₁) κ ν 0 0) = openedEntry reading (b₀, ek₀, e₀) := by
    simp only [pairAt, hs.start, hstart, Bool.false_eq_true, if_false]
    exact readOutcome_of_agree hagree₀
  -- once the envelope is new, a read at the end opens the new records
  have hafter (m : ℕ) (hm : m ≤ N) (hν : ν m = true) :
      readOutcome reading k (pairAt (b₀, ek₀, e₀) (b₁, ek₁, e₁) κ ν N N)
        (pairAt (b₀, ek₀, e₀) (b₁, ek₁, e₁) κ ν N N) = openedEntry reading (b₁, ek₁, e₁) := by
    have hνN := hs.values_stay m N hm hν
    simp only [pairAt, hs.keys_first N hνN, hνN, if_true]
    exact readOutcome_of_agree (hagree₁ m hν)
  cases hx : κ i with
  | false =>
    cases hy : ν j with
    | false =>
      left
      rw [hbefore]
      simp only [pairAt, hx, hy, Bool.false_eq_true, if_false]
      exact readOutcome_of_agree hagree₀
    | true =>
      -- the old key blob beside the new envelope: they agree only if the ids do
      right; left
      have hx' : κ i' = true := hs.keys_stay j i' hji' (hs.keys_first j hy)
      have hy' : ν j' = true := hs.values_stay j j' (Nat.le_trans hji' hij') hy
      rw [hafter j (Nat.le_trans (Nat.le_trans hji' hij') hN) hy]
      simp only [pairAt, hx, hy, hx', hy', Bool.false_eq_true, if_false, if_true]
      by_cases hid : e₁.keyId? = some b₀.keyId
      · have hkid : b₁.keyId = b₀.keyId := by
          rw [hagree₁ j hy] at hid
          exact Option.some.inj hid
        rw [readOutcome_of_agree hid, hfresh hkid, openedEntry_of_keyId hkid.symm]
      · rw [readOutcome_of_disagree hid, if_pos (hagree₁ j hy)]
  | true =>
    cases hy : ν j with
    | false =>
      -- the new key blob beside the old envelope: they agree only if the ids do
      have hx' : κ i' = true := hs.keys_stay i i' (Nat.le_trans hij hji') hx
      by_cases hid : b₁.keyId = b₀.keyId
      · left
        rw [hbefore]
        simp only [pairAt, hx, hy, Bool.false_eq_true, if_false, if_true]
        rw [readOutcome_of_agree (by rw [hagree₀, hid]), hfresh hid, openedEntry_of_keyId hid]
      · have hdis : e₀.keyId? ≠ some b₁.keyId := by
          rw [hagree₀]
          exact fun h => hid (Option.some.inj h).symm
        cases hy' : ν j' with
        | false =>
          right; right
          simp only [pairAt, hx, hy, hx', hy', Bool.false_eq_true, if_false, if_true]
          rw [readOutcome_of_disagree hdis, if_neg hdis]
          exact ⟨rfl, hid, hs.keys_stay i N (by omega) hx⟩
        | true =>
          right; left
          rw [hafter j' hN hy']
          simp only [pairAt, hx, hy, hx', hy', Bool.false_eq_true, if_false, if_true]
          rw [readOutcome_of_disagree hdis, if_pos (hagree₁ j' hy')]
    | true =>
      right; left
      rw [hafter j (Nat.le_trans (Nat.le_trans hji' hij') hN) hy]
      simp only [pairAt, hx, hy, if_true]
      exact readOutcome_of_agree (hagree₁ j hy)

end Between

/-! ## A read beside a write, world by world -/

/-- How the worlds `T n` that a write of entry `k` passes through look to a reader: no fault is
pending, the secrets stay, and at step `n` the entry holds the old or the new key blob and
envelope, as `κ n` and `ν n` say. -/
structure Replaces (T : ℕ → World) (k : Text) (old new : Stored × Stored) (κ ν : ℕ → Bool) :
    Prop where
  stages : Stages κ ν
  keys : ∀ n, (T n).store.find? (T n).vault.session.space (keysPrefix ++ k) =
    some (if κ n then new.1 else old.1)
  values : ∀ n, (T n).store.find? (T n).vault.session.space (valuesPrefix ++ k) =
    some (if ν n then new.2 else old.2)
  faults : ∀ n, (T n).vault.faults = []
  masterKey : ∀ n, (T n).vault.masterKey = (T 0).vault.masterKey
  identity : ∀ n, (T n).vault.identity = (T 0).vault.identity

theorem exists_six_of_length {L : List ℕ} (h : 6 ≤ L.length) :
    ∃ a₀ a₁ a₂ a₃ a₄ a₅ rest, L = a₀ :: a₁ :: a₂ :: a₃ :: a₄ :: a₅ :: rest := by
  match L, h with
  | a₀ :: a₁ :: a₂ :: a₃ :: a₄ :: a₅ :: rest, _ => exact ⟨a₀, a₁, a₂, a₃, a₄, a₅, rest, rfl⟩
  | [], h | [_], h | [_, _], h | [_, _, _], h | [_, _, _, _], h | [_, _, _, _, _], h => simp at h

section Worlds

variable {T : ℕ → World} {k : Text} {old new : Stored × Stored} {κ ν : ℕ → Bool}
  {mk : ByteArray} {o₀ o₁ : KeyBlob × ByteArray × Envelope} (hT : Replaces T k old new κ ν)
  (hkey₀ : KeyBlob.load old.1.data.toValue = .ok o₀.1 ∧ unwrap mk o₀.1 = .ok o₀.2.1)
  (hval₀ : Envelope.load old.2.data.toValue = .ok o₀.2.2)
  (hkey₁ : ∀ n, κ n = true →
    KeyBlob.load new.1.data.toValue = .ok o₁.1 ∧ unwrap mk o₁.1 = .ok o₁.2.1)
  (hval₁ : ∀ n, ν n = true → Envelope.load new.2.data.toValue = .ok o₁.2.2)
include hT hkey₀ hval₀ hkey₁ hval₁

omit hval₀ hval₁ in
theorem Replaces.findsKey (n : ℕ) :
    FindsKey mk k (T n) (pairAt o₀ o₁ κ ν n n).1 (pairAt o₀ o₁ κ ν n n).2.1 := by
  refine ⟨hT.faults n, _, hT.keys n, ?_⟩
  cases h : κ n with
  | false => simpa only [pairAt, h, Bool.false_eq_true, if_false] using hkey₀
  | true => simpa only [pairAt, h, if_true] using hkey₁ n h

omit hkey₀ hkey₁ in
theorem Replaces.findsValue (n : ℕ) : FindsValue k (T n) (pairAt o₀ o₁ κ ν n n).2.2 := by
  refine ⟨hT.faults n, _, hT.values n, ?_⟩
  cases h : ν n with
  | false => simpa only [pairAt, h, Bool.false_eq_true, if_false] using hval₀
  | true => simpa only [pairAt, h, if_true] using hval₁ n h

variable {reading : Reading} {key : Value} (hk : EntryName.ofValue key = .ok k)
  {i : Keys.Identity} (hmk : (T 0).vault.masterKey = some mk) (hi : (T 0).vault.identity = some i)
include hk hmk hi

theorem Replaces.exec_getEntry (n : ℕ) :
    exec (getEntry key reading) (T n) =
      (readOutcome reading k (pairAt o₀ o₁ κ ν n n) (pairAt o₀ o₁ κ ν n n), T n) :=
  exec_getEntry_of_finds hk (by rw [hT.masterKey n, hmk]) (by rw [hT.identity n, hi])
    (hT.findsKey hkey₀ hkey₁ n) (hT.findsValue hval₀ hval₁ n)

theorem Replaces.observe_getProc {a₀ a₁ a₂ a₃ a₄ a₅ : ℕ} (rest : List ℕ) :
    (getProc key reading).observe ((a₀ :: a₁ :: a₂ :: a₃ :: a₄ :: a₅ :: rest).map T) =
      .done (readOutcome reading k (pairAt o₀ o₁ κ ν a₂ a₃) (pairAt o₀ o₁ κ ν a₄ a₅)) :=
  Vault.observe_getProc hk (by rw [hT.masterKey a₀, hmk]) (by rw [hT.identity a₀, hi])
    (hT.findsKey hkey₀ hkey₁ a₂) (hT.findsValue hval₀ hval₁ a₃)
    (hT.findsKey hkey₀ hkey₁ a₄) (hT.findsValue hval₀ hval₁ a₅) _

/-- A read handed, in order, worlds of the write up to step `N` returns what a read returns
before the write or at step `N`, or fails as records that disagree, the new key blob having an
id of its own and being in place at step `N`. -/
theorem Replaces.observe_getProc_eq (hagree₀ : o₀.2.2.keyId? = some o₀.1.keyId)
    (hagree₁ : ∀ n, ν n = true → o₁.2.2.keyId? = some o₁.1.keyId)
    (hfresh : o₁.1.keyId = o₀.1.keyId → o₁.2.1 = o₀.2.1) {js : List ℕ} {N : ℕ}
    (hjs : js.Pairwise (· ≤ ·)) (hN : ∀ j ∈ js, j ≤ N) {r : Except Failure Entry}
    (hr : (getProc key reading).observe (js.map T) = .done r) :
    r = (exec (getEntry key reading) (T 0)).1 ∨ r = (exec (getEntry key reading) (T N)).1 ∨
      (r = .error (.envelopeMismatch o₀.2.2.keyId? o₁.1.keyId k) ∧ o₁.1.keyId ≠ o₀.1.keyId ∧
        κ N = true) := by
  -- once the read is done, more worlds change nothing: hand it six more of the last one
  have hpad : (getProc key reading).observe ((js ++ List.replicate 6 N).map T) = .done r := by
    rw [List.map_append, Proc.observe_append, hr, Proc.observe_done]
  have hsorted : (js ++ List.replicate 6 N).Pairwise (· ≤ ·) :=
    List.pairwise_append.mpr ⟨hjs, List.pairwise_replicate.mpr (.inr (Nat.le_refl N)),
      fun a ha b hb => (List.eq_of_mem_replicate hb).symm ▸ hN a ha⟩
  have hbound : ∀ a ∈ js ++ List.replicate 6 N, a ≤ N := fun a ha => by
    rcases List.mem_append.mp ha with ha | ha
    · exact hN a ha
    · exact Nat.le_of_eq (List.eq_of_mem_replicate ha)
  obtain ⟨a₀, a₁, a₂, a₃, a₄, a₅, rest, hL⟩ :=
    exists_six_of_length (L := js ++ List.replicate 6 N) (by simp)
  rw [hL] at hpad hsorted hbound
  simp only [List.pairwise_cons, List.mem_cons] at hsorted
  obtain ⟨-, -, h₂, h₃, h₄, -⟩ := hsorted
  rw [hT.observe_getProc hkey₀ hval₀ hkey₁ hval₁ hk hmk hi, Proc.done.injEq] at hpad
  rw [← hpad, hT.exec_getEntry hkey₀ hval₀ hkey₁ hval₁ hk hmk hi 0,
    hT.exec_getEntry hkey₀ hval₀ hkey₁ hval₁ hk hmk hi N]
  exact readOutcome_pairAt hT.stages hagree₀ hagree₁ hfresh (h₂ a₃ (by simp)) (h₃ a₄ (by simp))
    (h₄ a₅ (by simp)) (hbound a₅ (by simp))

end Worlds

/-! ## A read and another operation run together -/

theorem exists_of_isUnlocked {v : Vault} (h : v.isUnlocked = true) :
    ∃ mk i, v.masterKey = some mk ∧ v.identity = some i := by
  unfold Vault.isUnlocked at h
  cases hm : v.masterKey with
  | none => rw [hm] at h; cases h
  | some mk =>
    cases hi : v.identity with
    | none => rw [hm, hi] at h; cases h
    | some i => exact ⟨mk, i, rfl, rfl⟩

/-- A read beside an operation whose worlds replace entry `k`'s records in order: the operation
goes as it goes alone, and the read returns what a read returns before the operation or after
it, or fails as records that disagree once the new key blob is in place. -/
theorem Replaces.interleave_getProc {β : Type} {q : Proc β} {w₀ : World} {k : Text}
    {old new : Stored × Stored} {κ ν : ℕ → Bool}
    (hT : Replaces (fun n => (q.runSteps w₀ n).2) k old new κ ν)
    (o₀ o₁ : KeyBlob × ByteArray × Envelope)
    (hkey₀ : KeyBlob.load old.1.data.toValue = .ok o₀.1)
    (hopen₀ : ∀ mk, w₀.vault.masterKey = some mk → unwrap mk o₀.1 = .ok o₀.2.1)
    (hval₀ : Envelope.load old.2.data.toValue = .ok o₀.2.2)
    (hkey₁ : ∀ n, κ n = true → KeyBlob.load new.1.data.toValue = .ok o₁.1)
    (hopen₁ : ∀ mk, w₀.vault.masterKey = some mk → ∀ n, κ n = true → unwrap mk o₁.1 = .ok o₁.2.1)
    (hval₁ : ∀ n, ν n = true → Envelope.load new.2.data.toValue = .ok o₁.2.2)
    (hagree₀ : o₀.2.2.keyId? = some o₀.1.keyId)
    (hagree₁ : ∀ n, ν n = true → o₁.2.2.keyId? = some o₁.1.keyId)
    (hfresh : o₁.1.keyId = o₀.1.keyId → o₁.2.1 = o₀.2.1)
    {key : Value} (hk : EntryName.ofValue key = .ok k) {reading : Reading} {s : List Bool}
    {r : Except Failure Entry} {r' : Except Failure β} {w : World}
    (hrun : interleave s (getProc key reading) q w₀ = (.done r, .done r', w)) :
    exec q.run w₀ = (r', w) ∧
      (r = (exec (getEntry key reading) w₀).1 ∨ r = (exec (getEntry key reading) w).1 ∨
        (r = .error (.envelopeMismatch o₀.2.2.keyId? o₁.1.keyId k) ∧ o₁.1.keyId ≠ o₀.1.keyId ∧
          w.store.find? w.vault.session.space (keysPrefix ++ k) = some new.1)) := by
  have hsettled : ∀ n, Settled (q.runSteps w₀ n).2 := fun n =>
    settled_of_find? (hT.faults n) (hT.keys n)
  rw [interleave_eq_observe (keeps_getProc key reading) q w₀ hsettled s, Prod.mk.injEq,
    Prod.mk.injEq] at hrun
  obtain ⟨hr, hq, hw⟩ := hrun
  refine ⟨by rw [Proc.exec_run_of_runSteps hq, hw], ?_⟩
  subst hw
  cases hu : w₀.vault.isUnlocked with
  | false =>
    -- locked throughout: the read fails at its first step, as it does alone
    left
    have hlocked : ∀ n, (q.runSteps w₀ n).2.vault.isUnlocked = false := fun n => by
      unfold Vault.isUnlocked
      rw [hT.masterKey n, hT.identity n]
      exact hu
    have hpad : (getProc key reading).observe
        (((firstTurns s).map fun n => (q.runSteps w₀ n).2) ++ [w₀]) = .done r := by
      rw [Proc.observe_append, hr, Proc.observe_done]
    have halone : exec (getEntry key reading) w₀ = (.error .locked, w₀) := by
      rw [← run_getProc]
      exact (keeps_getProc key reading).exec_run (hsettled 0) (n := 1)
        (observe_getProc_locked hu [])
    rw [halone]
    cases h : firstTurns s with
    | nil =>
      rw [h, List.map_nil, List.nil_append, observe_getProc_locked hu, Proc.done.injEq] at hpad
      exact hpad.symm
    | cons a as =>
      rw [h, List.map_cons, List.cons_append, observe_getProc_locked (hlocked a),
        Proc.done.injEq] at hpad
      exact hpad.symm
  | true =>
    obtain ⟨mk, i, hmk, hi⟩ := exists_of_isUnlocked hu
    rcases hT.observe_getProc_eq ⟨hkey₀, hopen₀ mk hmk⟩ hval₀
      (fun n h => ⟨hkey₁ n h, hopen₁ mk hmk n h⟩) hval₁ hk hmk hi hagree₀ hagree₁ hfresh
      (pairwise_firstTurns s) (fun _ => le_of_mem_firstTurns) hr with h | h | ⟨h, hne, hκ⟩
    · exact .inl h
    · exact .inr (.inl h)
    · -- the new key blob is in place at the read's last step, and stays to the end
      have hkeys := hT.keys (s.count false)
      rw [if_pos hκ] at hkeys
      exact .inr (.inr ⟨h, hne, hkeys⟩)

/-- The window two attempts cannot cover: a read run whole once the other operation has taken
two steps, when by then it has replaced the key blob and not the envelope, finds the new key blob
beside the old envelope on both attempts, and fails if their ids differ. -/
theorem Replaces.interleave_getProc_between {β : Type} {q : Proc β} {w₀ : World} {k : Text}
    {old new : Stored × Stored} {κ ν : ℕ → Bool}
    (hT : Replaces (fun n => (q.runSteps w₀ n).2) k old new κ ν) (hκ : κ 2 = true)
    (hν : ν 2 = false) {key : Value} (hk : EntryName.ofValue key = .ok k) {mk : ByteArray}
    {i : Keys.Identity} (hmk : w₀.vault.masterKey = some mk) (hi : w₀.vault.identity = some i)
    {b : KeyBlob} {ek : ByteArray} {e : Envelope}
    (hkey : KeyBlob.load new.1.data.toValue = .ok b ∧ unwrap mk b = .ok ek)
    (hval : Envelope.load old.2.data.toValue = .ok e) (hne : e.keyId? ≠ some b.keyId)
    (reading : Reading) :
    (interleave [false, false, true, true, true, true, true, true] (getProc key reading) q w₀).1 =
      .done (.error (.envelopeMismatch e.keyId? b.keyId k)) := by
  have hsettled : ∀ n, Settled (q.runSteps w₀ n).2 := fun n =>
    settled_of_find? (hT.faults n) (hT.keys n)
  have hfinds : FindsKey mk k (q.runSteps w₀ 2).2 b ek := by
    have hkeys := hT.keys 2
    rw [if_pos hκ] at hkeys
    exact ⟨hT.faults 2, _, hkeys, hkey⟩
  have hfindsValue : FindsValue k (q.runSteps w₀ 2).2 e := by
    have hvalues := hT.values 2
    rw [if_neg (by rw [hν]; exact Bool.false_ne_true)] at hvalues
    exact ⟨hT.faults 2, _, hvalues, hval⟩
  have hturns :
      firstTurns [false, false, true, true, true, true, true, true] = [2, 2, 2, 2, 2, 2] := rfl
  rw [interleave_eq_observe (keeps_getProc key reading) q w₀ hsettled, hturns]
  simp only [List.map_cons, List.map_nil]
  rw [Vault.observe_getProc hk (by rw [hT.masterKey 2]; exact hmk) (by rw [hT.identity 2]; exact hi)
    hfinds hfindsValue hfinds hfindsValue [], readOutcome_self, if_neg hne]

/-! ## The worlds a write passes through -/

theorem exec_storeEnvelope {k : Text} {e : Envelope} {je : String} (hje : e.toJson = .ok je)
    {u : World} (hf : u.vault.faults = []) :
    exec (do
      let envelopeJson ← liftExcept e.toJson
      attempt (storePut (valuesPrefix ++ k) (.ofString envelopeJson) (headerPairs e.metadata))) u =
      (.ok none, { u with
        store := u.store.write u.vault.session.space (valuesPrefix ++ k)
          ⟨.ofString je, headerPairs e.metadata⟩ }) := by
  rw [exec_bind_ok (by rw [exec_liftExcept, hje]), exec_attempt_storePut hf]

section Storing

variable {k : Text} {blob : KeyBlob} {e : Envelope} {jb : String} {w₁ : World}
  (hf : w₁.vault.faults = []) (hjb : blob.toJson = .ok jb)
include hf hjb

theorem exec_storeKeyBlob :
    exec (do
      let blobJson ← liftExcept blob.toJson
      attempt (storePut (keysPrefix ++ k) (.ofString blobJson))) w₁ =
      (.ok none, { w₁ with
        store := w₁.store.write w₁.vault.session.space (keysPrefix ++ k) ⟨.ofString jb, []⟩ }) := by
  rw [exec_bind_ok (by rw [exec_liftExcept, hjb]), exec_attempt_storePut hf]

theorem runSteps_storeProc_one :
    ((storeProc k blob e).runSteps w₁ 1).2 = { w₁ with
      store := w₁.store.write w₁.vault.session.space (keysPrefix ++ k) ⟨.ofString jb, []⟩ } := by
  rw [Proc.runSteps_succ, storeProc, Proc.advance_step_ok (exec_storeKeyBlob hf hjb)]
  rfl

theorem runSteps_storeProc_written {je : String} (hje : e.toJson = .ok je) (n : ℕ) :
    ((storeProc k blob e).runSteps w₁ (n + 2)).2 = { w₁ with
      store := (w₁.store.write w₁.vault.session.space (keysPrefix ++ k) ⟨.ofString jb, []⟩).write
        w₁.vault.session.space (valuesPrefix ++ k) ⟨.ofString je, headerPairs e.metadata⟩ } := by
  have h₂ := exec_storeEnvelope (k := k) (u := { w₁ with
    store := w₁.store.write w₁.vault.session.space (keysPrefix ++ k) ⟨.ofString jb, []⟩ }) hje hf
  rw [Proc.runSteps_succ, storeProc, Proc.advance_step_ok (exec_storeKeyBlob hf hjb),
    Proc.runSteps_succ, Proc.advance_step_ok h₂]
  cases n with
  | zero => rfl
  | succ n => rw [Proc.runSteps_succ, Proc.advance_step_ok (exec_pure () _), Proc.runSteps_done]

/-- Storing both records takes three steps, and only then finishes with a result. -/
theorem runSteps_storeProc_finished {je : String} (hje : e.toJson = .ok je) (n : ℕ) :
    ((storeProc k blob e).runSteps w₁ (n + 3)).1 = .done (.ok e.metadata) ∧
      ∀ j < 3, ∀ a, ((storeProc k blob e).runSteps w₁ j).1 ≠ .done (.ok a) := by
  have h₂ := exec_storeEnvelope (k := k) (u := { w₁ with
    store := w₁.store.write w₁.vault.session.space (keysPrefix ++ k) ⟨.ofString jb, []⟩ }) hje hf
  refine ⟨?_, fun j hj a => ?_⟩
  · rw [Proc.runSteps_succ, storeProc, Proc.advance_step_ok (exec_storeKeyBlob hf hjb),
      Proc.runSteps_succ, Proc.advance_step_ok h₂, Proc.runSteps_succ,
      Proc.advance_step_ok (exec_pure () _), Proc.runSteps_done]
  · match j, hj with
    | 0, _ => exact fun h => nomatch h
    | 1, _ =>
      rw [Proc.runSteps_succ, storeProc, Proc.advance_step_ok (exec_storeKeyBlob hf hjb)]
      exact fun h => nomatch h
    | 2, _ =>
      rw [Proc.runSteps_succ, storeProc, Proc.advance_step_ok (exec_storeKeyBlob hf hjb),
        Proc.runSteps_succ, Proc.advance_step_ok h₂]
      exact fun h => nomatch h

theorem runSteps_storeProc_unwritable {f : Failure} (he : e.toJson = .error f) (n : ℕ) :
    ((storeProc k blob e).runSteps w₁ (n + 1)).2 = { w₁ with
      store := w₁.store.write w₁.vault.session.space (keysPrefix ++ k) ⟨.ofString jb, []⟩ } := by
  rw [Proc.runSteps_succ, storeProc, Proc.advance_step_ok (exec_storeKeyBlob hf hjb)]
  cases n with
  | zero => rfl
  | succ n =>
    rw [Proc.runSteps_succ, Proc.advance_step_error (exec_bind_error (by rw [exec_liftExcept, he])),
      Proc.runSteps_done]

/-- An envelope without JSON text stops the store at its second step, which fails. -/
theorem runSteps_storeProc_unfinished {f : Failure} (he : e.toJson = .error f) (j : ℕ) (a : Headers) :
    ((storeProc k blob e).runSteps w₁ j).1 ≠ .done (.ok a) := by
  match j with
  | 0 => exact fun h => nomatch h
  | j + 1 =>
    rw [Proc.runSteps_succ, storeProc, Proc.advance_step_ok (exec_storeKeyBlob hf hjb)]
    cases j with
    | zero => exact fun h => nomatch h
    | succ j =>
      rw [Proc.runSteps_succ, Proc.advance_step_error (exec_bind_error (by rw [exec_liftExcept, he])),
        Proc.runSteps_done]
      exact fun h => nomatch h

theorem vault_runSteps_storeProc (n : ℕ) :
    ((storeProc k blob e).runSteps w₁ n).2.vault = w₁.vault := by
  cases n with
  | zero => rfl
  | succ n =>
    cases he : e.toJson with
    | error f => rw [runSteps_storeProc_unwritable hf hjb he]
    | ok je =>
      cases n with
      | zero => rw [runSteps_storeProc_one hf hjb]
      | succ n => rw [runSteps_storeProc_written hf hjb he]

theorem find?_keys_runSteps_storeProc (n : ℕ) :
    ((storeProc k blob e).runSteps w₁ (n + 1)).2.store.find? w₁.vault.session.space
      (keysPrefix ++ k) = some ⟨.ofString jb, []⟩ := by
  have hwritten : (w₁.store.write w₁.vault.session.space (keysPrefix ++ k)
      ⟨.ofString jb, []⟩).find? w₁.vault.session.space (keysPrefix ++ k) =
        some ⟨.ofString jb, []⟩ := by
    rw [Store.find?_write, if_pos ⟨rfl, rfl⟩]
  cases he : e.toJson with
  | error f => rw [runSteps_storeProc_unwritable hf hjb he]; exact hwritten
  | ok je =>
    cases n with
    | zero => rw [runSteps_storeProc_one hf hjb]; exact hwritten
    | succ n =>
      rw [runSteps_storeProc_written hf hjb he]
      exact (find?_keys_written _ _ _ _ _ _).trans (if_pos rfl)

end Storing

section Writing

variable {key value : Value} {contentType : Option Text} {custom : List (Value × Value)}
  {writing : Writing} {w₀ w₁ : World} {k : Text}

theorem KeepsEntries.find?_own_keys {w w' : World} (h : KeepsEntries w w') (k : Text) :
    w'.store.find? w'.vault.session.space (keysPrefix ++ k) =
      w.store.find? w.vault.session.space (keysPrefix ++ k) := by
  rw [h.session, h.keys]

theorem KeepsEntries.find?_own_values {w w' : World} (h : KeepsEntries w w') (k : Text) :
    w'.store.find? w'.vault.session.space (valuesPrefix ++ k) =
      w.store.find? w.vault.session.space (valuesPrefix ++ k) := by
  rw [h.session, h.values]

/-! ### Worlds that replace the records as `storeProc` writes them -/

section Replacing

variable {T : ℕ → World} {kr₀ vr₀ : Stored} (hf : w₀.vault.faults = [])
  (hkr₀ : w₀.store.find? w₀.vault.session.space (keysPrefix ++ k) = some kr₀)
  (hvr₀ : w₀.store.find? w₀.vault.session.space (valuesPrefix ++ k) = some vr₀)
  (h₀ : T 0 = w₀)
include hf hkr₀ hvr₀ h₀

/-- Worlds that all keep the entries of the first replace nothing. -/
theorem replaces_of_keeps (hT : ∀ n, KeepsEntries w₀ (T (n + 1))) :
    Replaces T k (kr₀, vr₀) (kr₀, vr₀) (fun _ => false) (fun _ => false) := by
  have hT' (n : ℕ) : KeepsEntries w₀ (T n) := by
    cases n with
    | zero => rw [h₀]; exact KeepsEntries.refl w₀
    | succ n => exact hT n
  refine ⟨⟨fun _ _ _ h => h, fun _ _ _ h => h, fun _ h => h, rfl⟩, fun n => ?_, fun n => ?_,
    fun n => ?_, fun n => ?_, fun n => ?_⟩
  · rw [(hT' n).find?_own_keys, hkr₀]; rfl
  · rw [(hT' n).find?_own_values, hvr₀]; rfl
  · rw [(hT' n).faults, hf]
  · rw [(hT' n).masterKey, (hT' 0).masterKey]
  · rw [(hT' n).identity, (hT' 0).identity]

variable (hkeep : KeepsEntries w₀ w₁) {blob : KeyBlob} {e : Envelope} {jb : String}
  (hjb : blob.toJson = .ok jb)
  (hT : ∀ n, KeepsEntries ((storeProc k blob e).runSteps w₁ n).2 (T (n + 1)))
include hkeep hjb hT

omit hkr₀ hvr₀ in
/-- After the first step the vault is as `storeProc` leaves it: no fault, the same keys and
session. -/
theorem vault_of_storing (n : ℕ) :
    (T (n + 1)).vault.faults = [] ∧ (T (n + 1)).vault.masterKey = (T 0).vault.masterKey ∧
      (T (n + 1)).vault.identity = (T 0).vault.identity ∧
      (T (n + 1)).vault.session = (T 0).vault.session := by
  have hf₁ : w₁.vault.faults = [] := hkeep.faults.trans hf
  have hv := vault_runSteps_storeProc (k := k) (e := e) hf₁ hjb n
  refine ⟨?_, ?_, ?_, ?_⟩
  · rw [(hT n).faults, hv, hf₁]
  · rw [(hT n).masterKey, hv, hkeep.masterKey, h₀]
  · rw [(hT n).identity, hv, hkeep.identity, h₀]
  · rw [(hT n).session, hv, hkeep.session, h₀]

omit hvr₀ in
/-- The key blob is the old one up to the first step and the new one from the second on. -/
theorem find?_keys_of_storing (n : ℕ) :
    (T n).store.find? (T n).vault.session.space (keysPrefix ++ k) =
      some (if decide (2 ≤ n) then ⟨.ofString jb, []⟩ else kr₀) := by
  have hf₁ : w₁.vault.faults = [] := hkeep.faults.trans hf
  match n with
  | 0 => rw [h₀, hkr₀]; rfl
  | 1 =>
    rw [(hT 0).find?_own_keys, Proc.runSteps_zero, hkeep.find?_own_keys, hkr₀]
    rfl
  | n + 2 =>
    rw [(hT (n + 1)).find?_own_keys, vault_runSteps_storeProc hf₁ hjb,
      find?_keys_runSteps_storeProc hf₁ hjb, if_pos (decide_eq_true (by omega))]

/-- Worlds that follow, after a first step keeping the entries, the worlds `storeProc` passes
through replace the key blob at their second step and the envelope at their third. -/
theorem replaces_of_storing {je : String} (hje : e.toJson = .ok je) :
    Replaces T k (kr₀, vr₀) (⟨.ofString jb, []⟩, ⟨.ofString je, headerPairs e.metadata⟩)
      (fun n => decide (2 ≤ n)) (fun n => decide (3 ≤ n)) := by
  have hf₁ : w₁.vault.faults = [] := hkeep.faults.trans hf
  have hvault (n : ℕ) := vault_of_storing hf h₀ hkeep hjb hT n
  refine ⟨⟨?_, ?_, ?_, rfl⟩, find?_keys_of_storing hf hkr₀ h₀ hkeep hjb hT, fun n => ?_,
    fun n => ?_, fun n => ?_, fun n => ?_⟩
  · intro m n hmn h
    simp only [decide_eq_true_eq] at h ⊢
    omega
  · intro m n hmn h
    simp only [decide_eq_true_eq] at h ⊢
    omega
  · intro n h
    simp only [decide_eq_true_eq] at h ⊢
    omega
  · -- the envelope: old before the third step, new from then on
    match n with
    | 0 => rw [h₀, hvr₀]; rfl
    | 1 =>
      rw [(hT 0).find?_own_values, Proc.runSteps_zero, hkeep.find?_own_values, hvr₀]
      rfl
    | 2 =>
      rw [(hT 1).find?_own_values, runSteps_storeProc_one hf₁ hjb]
      dsimp only
      rw [Store.find?_write, if_neg fun h => keys_ne_values k k h.2.symm, hkeep.find?_own_values,
        hvr₀]
      rfl
    | n + 3 =>
      rw [(hT (n + 2)).find?_own_values, runSteps_storeProc_written hf₁ hjb hje]
      dsimp only
      rw [find?_values_written, if_pos rfl, if_pos (decide_eq_true (by omega))]
  · cases n with
    | zero => rw [h₀]; exact hf
    | succ n => exact (hvault n).1
  · cases n with
    | zero => rfl
    | succ n => exact (hvault n).2.1
  · cases n with
    | zero => rfl
    | succ n => exact (hvault n).2.2.1

/-- When the envelope has no JSON text, the worlds replace the key blob and keep the old
envelope. -/
theorem replaces_of_storing_unwritable {f : Failure} (he : e.toJson = .error f) :
    Replaces T k (kr₀, vr₀) (⟨.ofString jb, []⟩, vr₀) (fun n => decide (2 ≤ n)) (fun _ => false) := by
  have hf₁ : w₁.vault.faults = [] := hkeep.faults.trans hf
  have hvault (n : ℕ) := vault_of_storing hf h₀ hkeep hjb hT n
  refine ⟨⟨?_, fun _ _ _ h => h, fun _ h => absurd h Bool.false_ne_true, rfl⟩,
    find?_keys_of_storing hf hkr₀ h₀ hkeep hjb hT, fun n => ?_, fun n => ?_, fun n => ?_,
    fun n => ?_⟩
  · intro m n hmn h
    simp only [decide_eq_true_eq] at h ⊢
    omega
  · match n with
    | 0 => rw [h₀, hvr₀]; rfl
    | 1 =>
      rw [(hT 0).find?_own_values, Proc.runSteps_zero, hkeep.find?_own_values, hvr₀]
      rfl
    | n + 2 =>
      rw [(hT (n + 1)).find?_own_values, runSteps_storeProc_unwritable hf₁ hjb he]
      dsimp only
      rw [Store.find?_write, if_neg fun h => keys_ne_values k k h.2.symm, hkeep.find?_own_values,
        hvr₀]
      rfl
  · cases n with
    | zero => rw [h₀]; exact hf
    | succ n => exact (hvault n).1
  · cases n with
    | zero => rfl
    | succ n => exact (hvault n).2.1
  · cases n with
    | zero => rfl
    | succ n => exact (hvault n).2.2.1

end Replacing

theorem runSteps_putProc_unsealed {f : Failure}
    (hs : exec (sealEntry key value contentType custom writing) w₀ = (.error f, w₁)) (n : ℕ) :
    ((putProc key value contentType custom writing).runSteps w₀ (n + 1)).2 = w₁ := by
  rw [Proc.runSteps_succ, putProc, Proc.advance_step_error hs, Proc.runSteps_done]

theorem runSteps_putProc_sealed {blob : KeyBlob} {e : Envelope}
    (hs : exec (sealEntry key value contentType custom writing) w₀ = (.ok (k, blob, e), w₁))
    (n : ℕ) :
    (putProc key value contentType custom writing).runSteps w₀ (n + 1) =
      (storeProc k blob e).runSteps w₁ n := by
  rw [Proc.runSteps_succ, putProc, Proc.advance_step_ok hs]

variable {kr₀ vr₀ : Stored} (hf : w₀.vault.faults = [])
  (hkr₀ : w₀.store.find? w₀.vault.session.space (keysPrefix ++ k) = some kr₀)
  (hvr₀ : w₀.store.find? w₀.vault.session.space (valuesPrefix ++ k) = some vr₀)
include hf hkr₀ hvr₀

theorem replaces_putProc_unsealed {f : Failure}
    (hs : exec (sealEntry key value contentType custom writing) w₀ = (.error f, w₁)) :
    Replaces (fun n => ((putProc key value contentType custom writing).runSteps w₀ n).2) k
      (kr₀, vr₀) (kr₀, vr₀) (fun _ => false) (fun _ => false) := by
  have hkeep : KeepsEntries w₀ w₁ := by
    have := frames_sealEntry key value contentType custom writing w₀ hf
    rwa [hs] at this
  exact replaces_of_keeps hf hkr₀ hvr₀ rfl fun n => by rw [runSteps_putProc_unsealed hs]; exact hkeep

/-- A write that stores both records replaces the key blob at its second step and the envelope
at its third. -/
theorem replaces_putProc_written {blob : KeyBlob} {e : Envelope} {jb je : String}
    (hs : exec (sealEntry key value contentType custom writing) w₀ = (.ok (k, blob, e), w₁))
    (hjb : blob.toJson = .ok jb) (hje : e.toJson = .ok je) :
    Replaces (fun n => ((putProc key value contentType custom writing).runSteps w₀ n).2) k
      (kr₀, vr₀) (⟨.ofString jb, []⟩, ⟨.ofString je, headerPairs e.metadata⟩)
      (fun n => decide (2 ≤ n)) (fun n => decide (3 ≤ n)) := by
  obtain ⟨-, -, -, -, -, -, -, -, hkeep⟩ := exec_sealEntry_eq_ok hf hs
  exact replaces_of_storing hf hkr₀ hvr₀ rfl hkeep hjb
    (fun n => by rw [runSteps_putProc_sealed hs]; exact KeepsEntries.refl _) hje

theorem replaces_putProc_unwritable {blob : KeyBlob} {e : Envelope} {jb : String} {f : Failure}
    (hs : exec (sealEntry key value contentType custom writing) w₀ = (.ok (k, blob, e), w₁))
    (hjb : blob.toJson = .ok jb) (he : e.toJson = .error f) :
    Replaces (fun n => ((putProc key value contentType custom writing).runSteps w₀ n).2) k
      (kr₀, vr₀) (⟨.ofString jb, []⟩, vr₀) (fun n => decide (2 ≤ n)) (fun _ => false) := by
  obtain ⟨-, -, -, -, -, -, -, -, hkeep⟩ := exec_sealEntry_eq_ok hf hs
  exact replaces_of_storing_unwritable hf hkr₀ hvr₀ rfl hkeep hjb
    (fun n => by rw [runSteps_putProc_sealed hs]; exact KeepsEntries.refl _) he

/-- A write whose records were sealed puts its key blob in place at its second step and keeps
it there, whether or not the envelope follows; an envelope that follows agrees with it. -/
theorem replaces_putProc_sealed {blob : KeyBlob} {e : Envelope} {jb : String}
    (hs : exec (sealEntry key value contentType custom writing) w₀ = (.ok (k, blob, e), w₁))
    (hjb : blob.toJson = .ok jb) :
    ∃ (new : Stored × Stored) (κ ν : ℕ → Bool) (e' : Envelope),
      Replaces (fun n => ((putProc key value contentType custom writing).runSteps w₀ n).2) k
        (kr₀, vr₀) new κ ν ∧ new.1 = ⟨.ofString jb, []⟩ ∧
      (∀ n, ν n = true →
        Envelope.load new.2.data.toValue = .ok e' ∧ e'.keyId? = some blob.keyId) ∧
      (exec (put key value contentType custom writing) w₀).2.store.find?
        w₁.vault.session.space (keysPrefix ++ k) = some ⟨.ofString jb, []⟩ := by
  obtain ⟨mk, ek, p, -, -, -, hsealed, -, -⟩ := exec_sealEntry_eq_ok hf hs
  cases he : e.toJson with
  | ok je =>
    obtain ⟨b', -, e', hb', -, he', hagree', -⟩ :=
      hsealed.entryRecords hjb he (headerPairs e.metadata)
    obtain rfl : blob = b' := by
      have hblob : KeyBlob.load (Data.ofString jb).toValue = .ok blob := KeyBlob.load_toJson hjb
      exact Except.ok.inj (hblob.symm.trans hb')
    refine ⟨_, _, _, e', replaces_putProc_written hf hkr₀ hvr₀ hs hjb he, rfl,
      fun _ _ => ⟨he', hagree'⟩, ?_⟩
    rw [exec_put_of_sealed hf hs hjb he]
    exact (find?_keys_written _ _ _ _ _ _).trans (if_pos rfl)
  | error f =>
    refine ⟨_, _, _, ⟨Text.ofString "", []⟩, replaces_putProc_unwritable hf hkr₀ hvr₀ hs hjb he,
      rfl, fun _ h => absurd h Bool.false_ne_true, ?_⟩
    rw [exec_put_of_unwritable hf hs hjb he]
    exact (Store.find?_write _ _ _ _ _ _).trans (if_pos ⟨rfl, rfl⟩)

omit hvr₀ in
/-- Under the per-key policy a write seals with the entry key the old key blob opens to, so a
key blob with a new id comes only from the per-write policy. -/
theorem perWrite_of_keyId_ne {blob : KeyBlob} {e : Envelope} {b₀ : KeyBlob} {mk ek₀ : ByteArray}
    (hs : exec (sealEntry key value contentType custom writing) w₀ = (.ok (k, blob, e), w₁))
    (hb₀ : KeyBlob.load kr₀.data.toValue = .ok b₀) (hmk : w₀.vault.masterKey = some mk)
    (hek₀ : unwrap mk b₀ = .ok ek₀) (hne : blob.keyId ≠ b₀.keyId) :
    w₀.vault.settings.rotation = .perWrite := by
  obtain ⟨mk', ek, p, hmk', -, -, hsealed, hperKey, -⟩ := exec_sealEntry_eq_ok hf hs
  obtain rfl : mk = mk' := Option.some.inj (hmk.symm.trans hmk')
  cases hr : w₀.vault.settings.rotation with
  | perWrite => rfl
  | perKey =>
    have hsame := hperKey hr kr₀ b₀ ek₀ hkr₀ hb₀ hek₀
    exact absurd (by rw [keyId_of_unwrap hsealed.unwrap_blob, keyId_of_unwrap hek₀, hsame]) hne

end Writing

/-! ## A read beside a write of the same entry -/

/-- Entry `k` of world `w` as a read finds it: a key blob and an envelope whose key ids agree,
the key blob opening under the master key whenever the vault holds one. -/
structure HoldsEntry (w : World) (k : Text) (b : KeyBlob) (e : Envelope) : Prop where
  keys : ∃ kr, w.store.find? w.vault.session.space (keysPrefix ++ k) = some kr ∧
    KeyBlob.load kr.data.toValue = .ok b
  values : ∃ vr, w.store.find? w.vault.session.space (valuesPrefix ++ k) = some vr ∧
    Envelope.load vr.data.toValue = .ok e
  agree : e.keyId? = some b.keyId
  opens : ∀ mk, w.vault.masterKey = some mk → ∃ ek, unwrap mk b = .ok ek

theorem HoldsEntry.entryKey {w : World} {k : Text} {b : KeyBlob} {e : Envelope}
    (h : HoldsEntry w k b e) : ∃ ek, ∀ mk, w.vault.masterKey = some mk → unwrap mk b = .ok ek := by
  cases hm : w.vault.masterKey with
  | none => exact ⟨ByteArray.empty, fun _ h' => by cases h'⟩
  | some mk =>
    obtain ⟨ek, hek⟩ := h.opens mk hm
    exact ⟨ek, fun mk' h' => by cases h'; exact hek⟩

/-- A read of an entry run beside a write of it, under any schedule of their store calls: the
write goes as it goes alone, and the read returns what a read returns before the write or after
it, unless the write draws a fresh entry key. Then the read can fail as records that disagree,
having found the new key blob beside the old envelope on both its attempts.

Key ids are taken to name keys: a key blob the write leaves with the old id opens to the old
entry key. -/
theorem read_beside_write_sees_before_or_after {w₀ : World} (hf : w₀.vault.faults = [])
    {key value : Value} {contentType : Option Text} {custom : List (Value × Value)}
    {writing : Writing} {k : Text} (hk : EntryName.ofValue key = .ok k) {b₀ : KeyBlob}
    {e₀ : Envelope} (hold : HoldsEntry w₀ k b₀ e₀)
    (hids : ∀ mk kr b, w₀.vault.masterKey = some mk →
      (exec (put key value contentType custom writing) w₀).2.store.find? w₀.vault.session.space
        (keysPrefix ++ k) = some kr →
      KeyBlob.load kr.data.toValue = .ok b → b.keyId = b₀.keyId → unwrap mk b = unwrap mk b₀)
    {reading : Reading} {s : List Bool} {r : Except Failure Entry} {r' : Except Failure Headers}
    {w : World}
    (hrun : interleave s (getProc key reading) (putProc key value contentType custom writing) w₀ =
      (.done r, .done r', w)) :
    exec (put key value contentType custom writing) w₀ = (r', w) ∧
      (r = (exec (getEntry key reading) w₀).1 ∨ r = (exec (getEntry key reading) w).1 ∨
        (w₀.vault.settings.rotation = .perWrite ∧ ∃ kr b,
          w.store.find? w.vault.session.space (keysPrefix ++ k) = some kr ∧
          KeyBlob.load kr.data.toValue = .ok b ∧ b.keyId ≠ b₀.keyId ∧
          r = .error (.envelopeMismatch e₀.keyId? b.keyId k))) := by
  obtain ⟨⟨kr₀, hkr₀, hb₀⟩, ⟨vr₀, hvr₀, he₀⟩, hagree₀, -⟩ := id hold
  obtain ⟨ek₀, hek₀⟩ := hold.entryKey
  rcases hs : exec (sealEntry key value contentType custom writing) w₀ with ⟨_ | ⟨k', blob, e⟩, w₁⟩
  · -- sealing fails: the write replaces nothing
    obtain ⟨hq, hr⟩ := (replaces_putProc_unsealed hf hkr₀ hvr₀ hs).interleave_getProc
      (b₀, ek₀, e₀) (b₀, ek₀, e₀) hb₀ hek₀ he₀ (fun _ h => absurd h Bool.false_ne_true)
      (fun _ _ _ h => absurd h Bool.false_ne_true) (fun _ h => absurd h Bool.false_ne_true) hagree₀
      (fun _ h => absurd h Bool.false_ne_true) (fun _ => rfl) hk hrun
    rw [run_putProc] at hq
    rcases hr with h | h | ⟨-, hne, -⟩
    · exact ⟨hq, .inl h⟩
    · exact ⟨hq, .inr (.inl h)⟩
    · exact absurd rfl hne
  · obtain ⟨mk, ek, p, hmk, hk', -, hsealed, -, hkeep⟩ := exec_sealEntry_eq_ok hf hs
    obtain rfl : k = k' := by
      rw [hk] at hk'
      exact Except.ok.inj hk'
    obtain ⟨jb, hjb⟩ := hsealed.blob_toJson
    have hblob : KeyBlob.load (Data.ofString jb).toValue = .ok blob := KeyBlob.load_toJson hjb
    have hopen : ∀ mk', w₀.vault.masterKey = some mk' → unwrap mk' blob = .ok ek := by
      intro mk' hmk'
      rw [hmk, Option.some.injEq] at hmk'
      rw [← hmk']
      exact hsealed.unwrap_blob
    -- whether or not the envelope follows it, the new key blob is put in place and stays
    obtain ⟨new, κ, ν, e', hT, hnew, hval₁, hkeys⟩ := replaces_putProc_sealed hf hkr₀ hvr₀ hs hjb
    have hload : KeyBlob.load new.1.data.toValue = .ok blob := by
      rw [hnew]
      exact hblob
    -- a key blob the write leaves with the old id opens to the old entry key
    have hfresh (hid : blob.keyId = b₀.keyId) : ek = ek₀ := by
      have := hids mk _ blob hmk (by rw [← hkeep.session]; exact hkeys) hblob hid
      rw [hopen mk hmk, hek₀ mk hmk] at this
      exact Except.ok.inj this
    obtain ⟨hq, hr⟩ := hT.interleave_getProc (b₀, ek₀, e₀) (blob, ek, e') hb₀ hek₀ he₀
      (fun _ _ => hload) (fun mk' hmk' _ _ => hopen mk' hmk') (fun n h => (hval₁ n h).1) hagree₀
      (fun n h => (hval₁ n h).2) hfresh hk hrun
    rw [run_putProc] at hq
    rcases hr with h | h | ⟨h, hne, hfind⟩
    · exact ⟨hq, .inl h⟩
    · exact ⟨hq, .inr (.inl h)⟩
    · exact ⟨hq, .inr (.inr ⟨perWrite_of_keyId_ne hf hkr₀ hs hb₀ hmk (hek₀ mk hmk) hne, new.1, blob,
        hfind, hload, hne, h⟩)⟩

/-- The failure is reached: once a write has sealed its records under a key with a new id, a
read run whole between the write's two records fails, whichever way the read decodes. -/
theorem read_between_records_fails {w₀ w₁ : World} (hf : w₀.vault.faults = [])
    {key value : Value} {contentType : Option Text} {custom : List (Value × Value)}
    {writing : Writing} {k : Text} (hk : EntryName.ofValue key = .ok k) {b₀ : KeyBlob}
    {e₀ : Envelope} (hold : HoldsEntry w₀ k b₀ e₀) (hu : w₀.vault.isUnlocked = true)
    {blob : KeyBlob} {e : Envelope}
    (hs : exec (sealEntry key value contentType custom writing) w₀ = (.ok (k, blob, e), w₁))
    (hne : blob.keyId ≠ b₀.keyId) (reading : Reading) :
    (interleave [false, false, true, true, true, true, true, true] (getProc key reading)
      (putProc key value contentType custom writing) w₀).1 =
      .done (.error (.envelopeMismatch e₀.keyId? blob.keyId k)) := by
  obtain ⟨⟨kr₀, hkr₀, -⟩, ⟨vr₀, hvr₀, he₀⟩, hagree₀, -⟩ := hold
  obtain ⟨mk, i, hmk, hi⟩ := exists_of_isUnlocked hu
  obtain ⟨mk', ek, p, hmk', -, -, hsealed, -, -⟩ := exec_sealEntry_eq_ok hf hs
  obtain rfl : mk = mk' := Option.some.inj (hmk.symm.trans hmk')
  obtain ⟨jb, hjb⟩ := hsealed.blob_toJson
  have hkey : KeyBlob.load (Data.ofString jb).toValue = .ok blob ∧ unwrap mk blob = .ok ek :=
    ⟨KeyBlob.load_toJson hjb, hsealed.unwrap_blob⟩
  have hdis : e₀.keyId? ≠ some blob.keyId := by
    rw [hagree₀]
    exact fun h => hne (Option.some.inj h).symm
  cases he : e.toJson with
  | ok je =>
    exact (replaces_putProc_written hf hkr₀ hvr₀ hs hjb he).interleave_getProc_between rfl rfl hk
      hmk hi hkey he₀ hdis reading
  | error f =>
    exact (replaces_putProc_unwritable hf hkr₀ hvr₀ hs hjb he).interleave_getProc_between rfl rfl
      hk hmk hi hkey he₀ hdis reading

end Vault

end Strongbox

import Strongbox.Proofs.Records
import Strongbox.Proofs.Layout

/-!
# Grant blobs, grant records and grant paths

A grant blob is the ephemeral public key followed by the entry key sealed under the key of the
shared secret; `Grant.SealedTo` names that shape. Sealing draws the ephemeral key and a nonce
and builds it, and fails only on a recipient key of the wrong size or an exchange the curve
refuses. The recipient's private key opens the blob whenever the curve agrees on that key and
the ephemeral one (`X25519.Agree`): agreement is the one property of the curve these proofs
assume, and it is stated for a given pair of keys, so that it can be checked on any pair.

A grant is stored at `grants/{recipient}/{key}`. For a recipient that is one path segment the
path reads back to the recipient and the key, and two such paths differ whenever their
recipients or keys do.
-/

namespace Strongbox

open Bytes

namespace X25519

@[simp] theorem size_publicKey (k : ByteArray) : (publicKey k).size = 32 := by
  simp [publicKey, scalarMult]

/-- Two private keys agree when the exchange of each with the other's public key succeeds and
gives the same secret. -/
def Agree (a b : ByteArray) : Prop :=
  (exchange a (publicKey b)).isOk ∧ exchange a (publicKey b) = exchange b (publicKey a)

instance (a b : ByteArray) : Decidable (Agree a b) := inferInstanceAs (Decidable (_ ∧ _))

theorem Agree.exchange_ok {a b : ByteArray} (h : Agree a b) :
    ∃ s, exchange b (publicKey a) = .ok s := by
  obtain ⟨hok, heq⟩ := h
  rw [heq] at hok
  cases hx : exchange b (publicKey a) with
  | ok s => exact ⟨s, rfl⟩
  | error e => rw [hx] at hok; cases hok

end X25519

/-- An HMAC-SHA256 tag is 32 bytes. -/
theorem Hmac.size_mac_sha256 (key msg : ByteArray) : (Hmac.mac Hmac.sha256 key msg).size = 32 :=
  Sha256.size_hash _

namespace Grant

/-- The key that seals an entry key is 32 bytes, whatever the secret. -/
theorem size_keyOf (shared : ByteArray) : (keyOf shared).size = 32 := by
  simp [keyOf, Hkdf.derive?, Hkdf.maxLength, Hkdf.expandBlocks, Hmac.size_mac_sha256]

theorem checkKey_keyOf (shared : ByteArray) : Aead.aesGcm.checkKey (keyOf shared) = .ok () :=
  Aead.checkKey_of_size (size_keyOf shared)

/-! ## Sealing and opening -/

/-- `blob` seals `entryKey` to the public key `recipient` with the ephemeral private key
`ephemeral`: the ephemeral public key, a nonce, and the entry key sealed under the key of the
secret the two keys share. -/
def SealedTo (recipient entryKey ephemeral blob : ByteArray) : Prop :=
  ∃ shared nonce, X25519.exchange ephemeral recipient = .ok shared ∧ nonce.size = nonceSize ∧
    blob = X25519.publicKey ephemeral ++
      (nonce ++ Aead.aesGcm.encryptChecked (keyOf shared) nonce entryKey .empty)

/-- Sealing draws the ephemeral key, then the nonce. -/
theorem sealEntryKey_run (entryKey recipient : ByteArray) (e : Entropy) :
    (sealEntryKey entryKey recipient).run.run e =
      if recipient.size ≠ 32 then (.error (.recipientKeySize recipient.size), e)
      else match X25519.exchange (e.draw 32).1 recipient with
        | .error x => (.error (.exchange x), (e.draw 32).2)
        | .ok shared =>
          (.ok (X25519.publicKey (e.draw 32).1 ++ (((e.draw 32).2.draw nonceSize).1 ++
              Aead.aesGcm.encryptChecked (keyOf shared) ((e.draw 32).2.draw nonceSize).1
                entryKey .empty)),
            ((e.draw 32).2.draw nonceSize).2) := by
  by_cases hr : recipient.size = 32
  · rw [if_neg (not_not.mpr hr)]
    cases hx : X25519.exchange (e.draw 32).1 recipient with
    | error x => simp [sealEntryKey, hr, drawBytes, hx]; rfl
    | ok shared =>
      have hrun := Aead.encryptBlob_run (checkKey_keyOf shared) entryKey (e.draw 32).2
      simp [sealEntryKey, hr, drawBytes, hx]
      rw [hrun]
      rfl
  · rw [if_pos hr]
    simp [sealEntryKey, hr]
    rfl

theorem sealEntryKey_eq_ok {entryKey recipient blob : ByteArray} {e e' : Entropy}
    (h : (sealEntryKey entryKey recipient).run.run e = (.ok blob, e')) :
    SealedTo recipient entryKey (e.draw 32).1 blob ∧ e' = ((e.draw 32).2.draw nonceSize).2 := by
  rw [sealEntryKey_run] at h
  by_cases hr : recipient.size = 32
  · rw [if_neg (not_not.mpr hr)] at h
    cases hx : X25519.exchange (e.draw 32).1 recipient with
    | error x => rw [hx] at h; cases h
    | ok shared =>
      rw [hx, Prod.mk.injEq, Except.ok.injEq] at h
      exact ⟨⟨shared, _, hx, Entropy.size_draw _ _, h.1.symm⟩, h.2.symm⟩
  · rw [if_pos hr] at h
    cases h

/-- A refused seal is an invalid value: a recipient key of the wrong size, or an exchange the
curve refuses. -/
theorem sealEntryKey_eq_error {entryKey recipient : ByteArray} {e e' : Entropy} {f : Failure}
    (h : (sealEntryKey entryKey recipient).run.run e = (.error f, e')) :
    f.isInvalidValue = true := by
  rw [sealEntryKey_run] at h
  by_cases hr : recipient.size = 32
  · rw [if_neg (not_not.mpr hr)] at h
    cases hx : X25519.exchange (e.draw 32).1 recipient with
    | error x =>
      rw [hx, Prod.mk.injEq, Except.error.injEq] at h
      rw [← h.1]
      rfl
    | ok shared => rw [hx] at h; cases h
  · rw [if_pos hr, Prod.mk.injEq, Except.error.injEq] at h
    rw [← h.1]
    rfl

/-- Sealing to a 32-byte key the ephemeral key can exchange with succeeds. -/
theorem sealEntryKey_ok {entryKey recipient shared : ByteArray} {e : Entropy}
    (hr : recipient.size = 32) (hx : X25519.exchange (e.draw 32).1 recipient = .ok shared) :
    ∃ blob, (sealEntryKey entryKey recipient).run.run e =
      (.ok blob, ((e.draw 32).2.draw nonceSize).2) := by
  rw [sealEntryKey_run, if_neg (not_not.mpr hr), hx]
  exact ⟨_, rfl⟩

/-- The private key of the recipient opens a sealed blob to the entry key, when it agrees with
the ephemeral key. -/
theorem open?_of_sealedTo {g entryKey ephemeral blob : ByteArray}
    (h : SealedTo (X25519.publicKey g) entryKey ephemeral blob) (ha : X25519.Agree g ephemeral) :
    open? g blob = .ok entryKey := by
  obtain ⟨shared, nonce, hx, hn, rfl⟩ := h
  have hk := checkKey_keyOf shared
  have hsealed := Aead.size_encryptChecked hk nonce entryKey .empty
  have hpub := X25519.size_publicKey ephemeral
  have hhead : slice (X25519.publicKey ephemeral ++
      (nonce ++ Aead.aesGcm.encryptChecked (keyOf shared) nonce entryKey .empty)) 0 32 =
      X25519.publicKey ephemeral :=
    ByteArray.extract_append_eq_left (by rw [hpub])
  have htail : dropBytes (X25519.publicKey ephemeral ++
      (nonce ++ Aead.aesGcm.encryptChecked (keyOf shared) nonce entryKey .empty)) 32 =
      nonce ++ Aead.aesGcm.encryptChecked (keyOf shared) nonce entryKey .empty :=
    ByteArray.extract_append_eq_right hpub.symm (by rw [ByteArray.size_append])
  have hsize : ¬ (X25519.publicKey ephemeral ++
      (nonce ++ Aead.aesGcm.encryptChecked (keyOf shared) nonce entryKey .empty)).size <
      minimumSize := by
    simp only [ByteArray.size_append, hpub, hn, hsealed, minimumSize, nonceSize, tagSize]
    omega
  rw [open?, if_neg hsize, hhead, ha.2, hx, htail]
  exact Aead.decryptBlob_seal hk hn entryKey

end Grant

/-! ## Grant records -/

namespace GrantRecord

variable (blob : ByteArray) (spaceId grantor : Text) (custom : List (Value × Value))

theorem nodup_build : ((build blob spaceId grantor custom).metadata.map Prod.fst).Nodup :=
  Headers.nodup_insert (Headers.nodup_insert (Headers.nodup_ofValues custom) _ _) _ _

theorem blob_build : (build blob spaceId grantor custom).blob = .ok blob :=
  decodeSealed_encode blob

/-- A grant record has JSON when its space, its grantor and the caller's headers are strings. -/
theorem toJson_build {spaceId grantor : Text} {custom : List (Value × Value)}
    (hs : spaceId.IsString) (hg : grantor.IsString)
    (hc : Headers.AllStrings (Headers.ofValues custom)) :
    ∃ s, (build blob spaceId grantor custom).toJson = .ok s := by
  refine (toJson_ok_iff _).mpr ⟨Text.isString_ofString _, hs, ?_⟩
  exact Headers.allStrings_insert (Headers.allStrings_insert hc (Text.isString_ofString _)
    (Text.isString_ofString _)) (Text.isString_ofString _) hg

/-- A written grant record reads back, with its blob. -/
theorem load_build {s : String} (hw : (build blob spaceId grantor custom).toJson = .ok s) :
    load (Value.ofString s) = .ok (build blob spaceId grantor custom) :=
  load_toJson (nodup_build blob spaceId grantor custom) hw

end GrantRecord

/-! ## Grant paths -/

namespace Grant

/-- A recipient whose grant paths read back: one non-empty path segment, other than the
folder's own name. -/
structure Recipient (r : Text) : Prop where
  nonempty : r.points ≠ []
  noSlash : 47 ∉ r.points
  notFolder : r ≠ Text.ofString "grants"

theorem ofString_slash : (Text.ofString "/").points = [47] := rfl

theorem ofString_pathPrefix : (Text.ofString pathPrefix).points = (Text.ofString "grants").points ++ [47] :=
  rfl

theorem path_points (r k : Text) :
    (path r k).points = (Text.ofString "grants").points ++ 47 :: (r.points ++ 47 :: k.points) := by
  simp [path, Text.points_append, ofString_pathPrefix, ofString_slash]

/-- Cutting at the first slash: two texts that agree after a slash-free head and a slash agree
in the heads and in the rests. -/
theorem heads_eq {a b s t : List Nat} (ha : 47 ∉ a) (hb : 47 ∉ b)
    (h : a ++ 47 :: s = b ++ 47 :: t) : a = b ∧ s = t := by
  have hsplit := congrArg (List.splitOn 47) h
  rw [List.splitOn_append_cons_self_of_not_mem ha, List.splitOn_append_cons_self_of_not_mem hb,
    List.cons.injEq] at hsplit
  have e : [47].intercalate (s.splitOn 47) = s := List.intercalate_splitOn 47
  have e' : [47].intercalate (t.splitOn 47) = t := List.intercalate_splitOn 47
  exact ⟨hsplit.1, by rw [← e, ← e', hsplit.2]⟩

/-- Two grant paths of slash-free recipients are equal only for one recipient and one key. -/
theorem path_inj {r r' k k' : Text} (hr : 47 ∉ r.points) (hr' : 47 ∉ r'.points)
    (h : path r k = path r' k') : r = r' ∧ k = k' := by
  have hp := congrArg Text.points h
  rw [path_points, path_points] at hp
  have htail : r.points ++ 47 :: k.points = r'.points ++ 47 :: k'.points :=
    (List.cons.inj (List.append_cancel_left hp)).2
  obtain ⟨hrr, hkk⟩ := heads_eq hr hr' htail
  exact ⟨Text.ext_points hrr, Text.ext_points hkk⟩

theorem points_listed (r k : Text) :
    (r ++ Text.ofString "/" ++ k).points = r.points ++ 47 :: k.points := by
  simp [Text.points_append, ofString_slash]

/-- A listed grant path, its folder removed, starts with the folder again only for the
recipient named like the folder. -/
theorem listed_not_startsWith {r k : Text} (hr : Recipient r) :
    (r ++ Text.ofString "/" ++ k).startsWith (Text.ofString pathPrefix) = false := by
  cases hs : (r ++ Text.ofString "/" ++ k).startsWith (Text.ofString pathPrefix) with
  | false => rfl
  | true =>
    obtain ⟨u, hu⟩ := Store.startsWith_iff.mp hs
    have hp := congrArg Text.points hu
    rw [points_listed, Text.points_append, ofString_pathPrefix, List.append_assoc] at hp
    have hfolder : 47 ∉ (Text.ofString "grants").points := by decide
    exact absurd (Text.ext_points (heads_eq hr.noSlash hfolder hp).1) hr.notFolder

/-- The pieces of a split, joined again with the separator, are the text. -/
theorem join_splitOn (t : Text) : Text.join (Text.ofString "/") (t.splitOn '/') = t := by
  have hjoin : ∀ xs : List (List Nat),
      Text.join (Text.ofString "/") (xs.map Text.mk) = ⟨[47].intercalate xs⟩ := by
    intro xs
    induction xs with
    | nil => rfl
    | cons x xs ih =>
      cases xs with
      | nil => simp [Text.join]
      | cons y ys =>
        have hstep : Text.join (Text.ofString "/") (Text.mk x :: Text.mk y :: ys.map Text.mk) =
            Text.mk x ++ Text.ofString "/" ++ Text.join (Text.ofString "/")
              (Text.mk y :: ys.map Text.mk) := rfl
        rw [List.map_cons, List.map_cons, hstep, ← List.map_cons, ih]
        apply Text.ext_points
        simp [Text.points_append, ofString_slash]
  rw [Text.splitOn, hjoin]
  exact Text.ext_points (List.intercalate_splitOn 47)

/-- A grant path listed under the folder reads back to its recipient and key. -/
theorem parsePath?_listed {r k : Text} (hr : Recipient r) (hk : k.points ≠ []) :
    parsePath? (r ++ Text.ofString "/" ++ k) = some (r, k) := by
  have hrest : ((r ++ Text.ofString "/" ++ k).dropPrefix? (Text.ofString pathPrefix)).getD
      (r ++ Text.ofString "/" ++ k) = r ++ Text.ofString "/" ++ k := by
    rw [Text.dropPrefix?, listed_not_startsWith hr]
    rfl
  have hsplit : (r ++ Text.ofString "/" ++ k).splitOn '/' = r :: k.splitOn '/' := by
    rw [Text.splitOn, points_listed]
    rw [show ('/' : Char).toNat = 47 from rfl, List.splitOn_append_cons_self_of_not_mem hr.noSlash]
    rfl
  obtain ⟨k₀, ks, hks⟩ := List.exists_cons_of_ne_nil (List.splitOn_ne_nil 47 k.points)
  have hpieces : k.splitOn '/' = Text.mk k₀ :: ks.map Text.mk := by
    rw [Text.splitOn, show ('/' : Char).toNat = 47 from rfl, hks, List.map_cons]
  have hkey := join_splitOn k
  rw [hpieces] at hkey
  have hr₀ : r.isEmpty = false := by simp [Text.isEmpty, hr.nonempty]
  have hk₀ : k.isEmpty = false := by simp [Text.isEmpty, hk]
  unfold parsePath?
  dsimp only
  rw [hrest, hsplit, hpieces]
  simp only [hkey, hr₀, hk₀, Bool.or_false, Bool.false_eq_true, if_false]

/-- Split pieces hold no separator. -/
theorem not_mem_of_mem_splitOn {a : Nat} {xs l : List Nat} (hl : l ∈ xs.splitOn a) : a ∉ l := by
  induction xs generalizing l with
  | nil => simp at hl; rw [hl]; simp
  | cons x xs ih =>
    rw [List.splitOn_cons_eq_if_modifyHead] at hl
    split at hl
    · rcases List.mem_cons.mp hl with rfl | hl
      · simp
      · exact ih hl
    · obtain ⟨l₀, ls, hls⟩ := List.exists_cons_of_ne_nil (List.splitOn_ne_nil a xs)
      rw [hls, List.modifyHead_cons] at hl
      rcases List.mem_cons.mp hl with rfl | hl
      · rename_i hx
        have h₀ : a ∉ l₀ := ih (by rw [hls]; exact List.mem_cons_self)
        simp only [List.mem_cons, not_or]
        exact ⟨fun h => hx (by rw [h]; exact beq_self_eq_true x), h₀⟩
      · exact ih (by rw [hls]; exact List.mem_cons_of_mem _ hl)

/-- The recipient a grant path names is one path segment. -/
theorem noSlash_of_parsePath? {p r k : Text} (h : parsePath? p = some (r, k)) : 47 ∉ r.points := by
  unfold parsePath? at h
  dsimp only at h
  split at h
  · rename_i recipient k₀ ks hsplit
    split at h
    · cases h
    · rw [Option.some.injEq, Prod.mk.injEq] at h
      rw [← h.1]
      have hmem : recipient.points ∈
          (((p.dropPrefix? (Text.ofString pathPrefix)).getD p).points.splitOn 47) := by
        have := congrArg (List.map Text.points) hsplit
        simp only [Text.splitOn, List.map_map] at this
        have hid : Text.points ∘ Text.mk = id := rfl
        rw [hid, List.map_id] at this
        rw [show (47 : Nat) = ('/' : Char).toNat from rfl, this]
        exact List.mem_cons_self
      exact not_mem_of_mem_splitOn hmem
  · cases h

/-! ## Recipients of an entry -/

section Recipients

variable {key : Text}

theorem mem_addRecipient {acc : List Text} {x path : Text} :
    x ∈ addRecipient key acc path ↔ x ∈ acc ∨ parsePath? path = some (x, key) := by
  unfold addRecipient
  cases hp : parsePath? path with
  | none => simp
  | some rk =>
    obtain ⟨r', k⟩ := rk
    simp only [Option.some.injEq, Prod.mk.injEq]
    by_cases hk : k = key
    · subst hk
      by_cases hc : r' ∈ acc
      · simp only [beq_self_eq_true, List.contains_iff_mem.mpr hc, Bool.not_true,
          Bool.and_false, Bool.false_eq_true, if_false, and_true]
        exact ⟨Or.inl, fun h => h.elim id fun h => h ▸ hc⟩
      · have hc' : acc.contains r' = false := by simpa using hc
        simp only [beq_self_eq_true, hc', Bool.not_false, Bool.and_self, if_true,
          List.mem_append, List.mem_singleton, and_true]
        exact or_congr_right eq_comm
    · have hk' : (k == key) = false := beq_false_of_ne hk
      simp only [hk', Bool.false_and, Bool.false_eq_true, if_false]
      exact ⟨Or.inl, fun h => h.elim id fun h => absurd h.2 hk⟩

theorem mem_foldl_addRecipient {x : Text} (paths acc : List Text) :
    x ∈ paths.foldl (addRecipient key) acc ↔ x ∈ acc ∨ ∃ p ∈ paths, parsePath? p = some (x, key) := by
  induction paths generalizing acc with
  | nil => simp
  | cons p paths ih =>
    rw [List.foldl_cons, ih, mem_addRecipient]
    simp only [List.mem_cons, exists_eq_or_imp]
    tauto

/-- A recipient of an entry is one that a grant path names for it. -/
theorem mem_recipients {x : Text} {paths : List Text} :
    x ∈ recipients key paths ↔ ∃ p ∈ paths, parsePath? p = some (x, key) := by
  rw [recipients, mem_foldl_addRecipient]
  simp

/-- Grant paths that read back: each path that names a recipient and a key is the path of
that recipient and key. -/
def Canonical (paths : List Text) : Prop :=
  ∀ p ∈ paths, ∀ r k, parsePath? p = some (r, k) → p = r ++ Text.ofString "/" ++ k

/-- A listed grant path that does not start with the folder again reads back: it is the
recipient and key it names. -/
theorem parsePath?_of_not_startsWith {p r k : Text}
    (hp : p.startsWith (Text.ofString pathPrefix) = false) (h : parsePath? p = some (r, k)) :
    p = r ++ Text.ofString "/" ++ k := by
  have hrest : (p.dropPrefix? (Text.ofString pathPrefix)).getD p = p := by
    rw [Text.dropPrefix?, hp]
    rfl
  unfold parsePath? at h
  dsimp only at h
  rw [hrest] at h
  split at h
  · rename_i r₀ k₀ ks hsplit
    split at h
    · cases h
    · cases h
      have hjoin := join_splitOn p
      rw [hsplit] at hjoin
      exact hjoin.symm
  · cases h

/-- A grant path is its recipient and key listed under the folder. -/
theorem path_listed (r k : Text) : Text.ofString pathPrefix ++ (r ++ Text.ofString "/" ++ k) = path r k :=
  Text.ext_points (by simp [path, Text.points_append])

theorem noSlash_of_mem_recipients {x : Text} {paths : List Text} (h : x ∈ recipients key paths) :
    47 ∉ x.points := by
  obtain ⟨p, -, hp⟩ := mem_recipients.mp h
  exact noSlash_of_parsePath? hp

theorem nodup_foldl_addRecipient (paths : List Text) {acc : List Text} (h : acc.Nodup) :
    (paths.foldl (addRecipient key) acc).Nodup := by
  induction paths generalizing acc with
  | nil => exact h
  | cons p paths ih =>
    rw [List.foldl_cons]
    apply ih
    unfold addRecipient
    split
    · split
      · rename_i r k _ hnew
        have hr : r ∉ acc := by simp at hnew; exact hnew.2
        exact List.nodup_append.mpr ⟨h, List.nodup_singleton _, fun a ha b hb => by
          rw [List.mem_singleton] at hb
          exact fun hab => hr (hb ▸ hab ▸ ha)⟩
      · exact h
    · exact h

/-- Each recipient is found once. -/
theorem nodup_recipients (paths : List Text) : (recipients key paths).Nodup :=
  nodup_foldl_addRecipient paths List.nodup_nil

/-- A path that names another recipient, or another entry, adds the same recipient whether or
not `r` was dropped from those found so far. -/
theorem addRecipient_filter {r p : Text} (hp : parsePath? p ≠ some (r, key)) (acc : List Text) :
    addRecipient key (acc.filter (· != r)) p = (addRecipient key acc p).filter (· != r) := by
  unfold addRecipient
  cases h : parsePath? p with
  | none => rfl
  | some rk =>
    obtain ⟨r', k⟩ := rk
    dsimp only
    by_cases hk : k = key
    · subst hk
      have hr : r' ≠ r := fun e => hp (by rw [h, e])
      have hc : (acc.filter (· != r)).contains r' = acc.contains r' := by
        simp [hr]
      rw [hc]
      split
      · rw [List.filter_append]
        simp [hr]
      · rfl
    · have hk' : (k == key) = false := beq_false_of_ne hk
      simp only [hk', Bool.false_and, Bool.false_eq_true, if_false]

theorem foldl_addRecipient_filter (r : Text) (paths acc : List Text) :
    (paths.filter fun p => parsePath? p != some (r, key)).foldl (addRecipient key)
        (acc.filter (· != r)) =
      (paths.foldl (addRecipient key) acc).filter (· != r) := by
  induction paths generalizing acc with
  | nil => rfl
  | cons p paths ih =>
    by_cases hp : parsePath? p = some (r, key)
    · -- the dropped recipient's own path adds it or nothing, and it is filtered out either way
      rw [List.filter_cons_of_neg (by simp [hp]), List.foldl_cons, ← ih]
      congr 1
      unfold addRecipient
      rw [hp]
      dsimp only
      split
      · rw [List.filter_append]
        simp
      · rfl
    · rw [List.filter_cons_of_pos (by simpa using hp), List.foldl_cons, List.foldl_cons, ← ih,
        addRecipient_filter hp]

/-- Among paths that read back, dropping a recipient's path for the entry drops that recipient
from the entry's recipients and keeps the others in order. -/
theorem recipients_filter_listed {r : Text} {paths : List Text} (hcanon : Canonical paths)
    (hr : r ∈ recipients key paths) :
    recipients key (paths.filter (· != r ++ Text.ofString "/" ++ key)) =
      (recipients key paths).filter (· != r) := by
  obtain ⟨p₀, hp₀, hparse₀⟩ := mem_recipients.mp hr
  have hlisted : parsePath? (r ++ Text.ofString "/" ++ key) = some (r, key) := by
    rw [← hcanon p₀ hp₀ r key hparse₀]
    exact hparse₀
  have hfilter : paths.filter (· != r ++ Text.ofString "/" ++ key) =
      paths.filter fun p => parsePath? p != some (r, key) := by
    refine List.filter_congr fun p hp => ?_
    by_cases heq : p = r ++ Text.ofString "/" ++ key
    · simp [heq, hlisted]
    · have hne : parsePath? p ≠ some (r, key) := fun h => heq (hcanon p hp r key h)
      rw [bne_iff_ne.mpr heq, bne_iff_ne.mpr hne]
  rw [hfilter, recipients, recipients, ← foldl_addRecipient_filter]
  rfl

end Recipients

end Grant

end Strongbox

import Strongbox.Remote
import Strongbox.Proofs.Utf8
import Strongbox.Proofs.Directory
import Mathlib.Data.List.ModifyLast

/-!
# Remote addresses

Quoting writes a text point by point (`escape`): an unreserved point as itself, any other as
`%` and two uppercase digits per byte of its UTF-8. Reading the escapes back gives the UTF-8,
which decodes to the text, so on text free of surrogates quoting is injective (`escape_inj`).
It keeps every `/` and adds none, so it works segment by segment (`splitOn_escape`) and makes
no `.` or `..` segment of its own.

A URL is the base followed by a route: `/public` for the public root, `/`, the quoted space,
`/kv`, and `/` and the quoted path when there is one. Two requests meet at one URL only through
a space with a `/` in it or named `public`, and every record and grant of an entry has an
address in every space of a principal that parses (`addresses_confined_and_injective`).
-/

namespace Strongbox

namespace Text

theorem toNat_charOfNat (c : Nat) : (Char.ofNat c).toNat = if c.isValidChar then c else 0 := by
  by_cases h : c.isValidChar
  · rw [Char.ofNat, dif_pos h, if_pos h]
    rfl
  · rw [Char.ofNat, dif_neg h, if_neg h]
    rfl

theorem slash_not_mem_ofString_toStringLossy {t : Text} (h : 47 ∉ t.points) :
    47 ∉ (ofString t.toStringLossy).points := by
  simp only [ofString, toStringLossy, String.toList_ofList, List.map_map, List.mem_map,
    Function.comp_apply, not_exists, not_and]
  intro c hc
  split
  · decide
  · rw [toNat_charOfNat]
    split
    · rintro rfl; exact h hc
    · decide

end Text

namespace Endpoint

/-! ## Quoting point by point -/

/-- Above ASCII, a number names no ASCII character but the null. -/
theorem charOfNat_ne {c : Nat} (hc : 128 ≤ c) {ch : Char} (hch : ch.toNat < 128) (h0 : ch.toNat ≠ 0) :
    Char.ofNat c ≠ ch := by
  intro heq
  have := congrArg Char.toNat heq
  rw [Text.toNat_charOfNat] at this
  split_ifs at this <;> omega

theorem lt_of_unreserved {c : Nat} (h : unreserved c = true) : c < 128 := by
  by_contra hc
  simp [unreserved] at h
  rcases h with ((h | h) | h) | h
  · omega
  · omega
  · omega
  · rcases h with h | h | h | h | h | h | h <;>
      exact charOfNat_ne (by omega) (by decide) (by decide) h

/-- No `/`-separated segment is `.` or `..`. -/
def DotFree (l : List Nat) : Prop := ∀ seg ∈ l.splitOn 47, seg ≠ [46] ∧ seg ≠ [46, 46]

instance : DecidablePred DotFree := fun l =>
  inferInstanceAs (Decidable (∀ seg ∈ l.splitOn 47, seg ≠ [46] ∧ seg ≠ [46, 46]))

/-- What a point is written as: itself when unreserved, otherwise `%` and two uppercase digits
for each byte of its UTF-8 form. -/
def pointCode (c : Nat) : List Nat :=
  if unreserved c then [c]
  else (Text.utf8Point c).flatMap fun b =>
    [37, (Hex.digitUpper (b.toNat / 16)).toNat, (Hex.digitUpper (b.toNat % 16)).toNat]

/-- Points as written in a URL. -/
def escape (l : List Nat) : List Nat := l.flatMap pointCode

theorem dotFree_iff (t : Text) : DotFree t.points ↔
    ((t.splitOn '/').any fun p => p == Text.ofString "." || p == Text.ofString "..") = false := by
  simp [Text.splitOn, DotFree, Text.ofString]

theorem toList_percent (b : UInt8) :
    (percent b).toList = ['%', Hex.digitUpper (b.toNat / 16), Hex.digitUpper (b.toNat % 16)] := by
  simp [percent, Hex.toHexUpper]

theorem pointCode_eq (c : Nat) : pointCode c =
    (if unreserved c then (Char.ofNat c).toString
      else String.join ((Text.utf8Point c).map percent)).toList.map Char.toNat := by
  unfold pointCode
  split_ifs with hu
  · have := lt_of_unreserved hu
    simp [Text.toNat_charOfNat, Nat.isValidChar]
    omega
  · simp [String.toList_join, List.map_flatMap, List.flatMap_map, toList_percent]

/-- What quoting accepts: no dot segment and no surrogate. -/
def Quotable (t : Text) : Prop := DotFree t.points ∧ ∀ c ∈ t.points, Text.isSurrogate c = false

/-- Quoting succeeds exactly on what it accepts, and then writes the text point by point. -/
theorem quote_eq_ok_iff {t q : Text} : quote t = .ok q ↔ Quotable t ∧ q = ⟨escape t.points⟩ := by
  rw [Quotable, and_assoc]
  unfold quote
  split_ifs with hd hs
  · have : ¬ DotFree t.points := fun h => by simp [(dotFree_iff t).mp h] at hd
    simp [this]
  · obtain ⟨c, hc, hsc⟩ := List.any_eq_true.mp hs
    simp only [false_iff, not_and]
    intro _ hall
    simp [hall c hc] at hsc
  · have hdot : DotFree t.points := (dotFree_iff t).mpr (by simpa using hd)
    have hscalar : ∀ c ∈ t.points, Text.isSurrogate c = false := by simpa using hs
    have hwritten : Text.ofString (String.join (t.points.map fun c =>
        if unreserved c then (Char.ofNat c).toString
        else String.join ((Text.utf8Point c).map percent))) = ⟨escape t.points⟩ := by
      simp only [Text.ofString, String.toList_join, List.map_flatMap, List.flatMap_map, escape,
        ← pointCode_eq]
    rw [hwritten, Except.ok.injEq]
    exact ⟨fun h => ⟨hdot, hscalar, h.symm⟩, fun h => h.2.2.symm⟩

example : escape (Text.ofString "a b/é").points = (Text.ofString "a%20b/%C3%A9").points := by
  decide

/-! ## Reading escapes back -/

/-- Percent escapes read back into bytes: `%` and two hexadecimal digits give one byte, and any
other point stands for its own byte. -/
def unescape : List Nat → Option (List UInt8)
  | [] => some []
  | c :: rest =>
    if c = 37 then
      match rest with
      | h :: l :: rest' => do
        let hi ← Hex.digitValue? (Char.ofNat h)
        let lo ← Hex.digitValue? (Char.ofNat l)
        ((hi * 16 + lo).toUInt8 :: ·) <$> unescape rest'
      | _ => none
    else (c.toUInt8 :: ·) <$> unescape rest

theorem digitValue_digitUpper :
    ∀ n < 16, Hex.digitValue? (Char.ofNat (Hex.digitUpper n).toNat) = some n := by
  decide +kernel

theorem unescape_percent (b : UInt8) (rest : List Nat) :
    unescape ([37, (Hex.digitUpper (b.toNat / 16)).toNat, (Hex.digitUpper (b.toNat % 16)).toNat] ++
      rest) = (unescape rest).map (b :: ·) := by
  have hb := b.toNat_lt
  have hv : (b.toNat / 16 * 16 + b.toNat % 16).toUInt8 = b := by
    rw [show b.toNat / 16 * 16 + b.toNat % 16 = b.toNat by omega]
    exact UInt8.ofNat_toNat
  simp only [List.cons_append, List.nil_append, unescape, if_pos,
    digitValue_digitUpper _ (by omega : b.toNat / 16 < 16),
    digitValue_digitUpper _ (Nat.mod_lt _ (by decide) : b.toNat % 16 < 16), Option.bind_eq_bind,
    Option.bind_some, Option.map_eq_map, hv]

theorem unescape_cons_of_ne {c : Nat} (h : c ≠ 37) (rest : List Nat) :
    unescape (c :: rest) = (unescape rest).map (c.toUInt8 :: ·) := by
  rw [unescape.eq_def]
  simp [h, Option.map_eq_map]

theorem unescape_pointCode (c : Nat) (rest : List Nat) :
    unescape (pointCode c ++ rest) = (unescape rest).map (Text.utf8Point c ++ ·) := by
  unfold pointCode
  split_ifs with hu
  · -- an unreserved point is ASCII and not `%`, so it reads as its one byte
    have hc := lt_of_unreserved hu
    have h37 : c ≠ 37 := by rintro rfl; revert hu; decide
    simp [unescape_cons_of_ne h37, Text.utf8Point, hc]
  · generalize Text.utf8Point c = bs
    induction bs with
    | nil => simp
    | cons b bs ih =>
      rw [List.flatMap_cons, List.append_assoc, unescape_percent, ih, Option.map_map]
      rfl

theorem unescape_escape (l : List Nat) :
    unescape (escape l) = some (l.flatMap Text.utf8Point) := by
  induction l with
  | nil => rfl
  | cons c l ih => rw [escape, List.flatMap_cons, unescape_pointCode, ← escape, ih]; rfl

/-- Two texts free of surrogates are written alike only if they are equal. -/
theorem escape_inj {l l' : List Nat} (hl : ∀ c ∈ l, Text.isSurrogate c = false ∧ c < 0x110000)
    (hl' : ∀ c ∈ l', Text.isSurrogate c = false ∧ c < 0x110000) (h : escape l = escape l') :
    l = l' := by
  have hbytes : l.flatMap Text.utf8Point = l'.flatMap Text.utf8Point := by
    simpa [unescape_escape] using congrArg unescape h
  have hdecode := congrArg Text.decodeList hbytes
  rw [Text.decodeList_flatMap_utf8Point hl, Text.decodeList_flatMap_utf8Point hl'] at hdecode
  exact Option.some.inj hdecode

/-! ## Segments -/

theorem digitUpper_ne_slash (n : Nat) : (Hex.digitUpper n).toNat ≠ 47 := by
  by_cases hn : n < 16
  · have key : ∀ n < 16, (Hex.digitUpper n).toNat ≠ 47 := by decide
    exact key n hn
  · unfold Hex.digitUpper
    rw [List.getD_eq_getElem?_getD, List.getElem?_eq_none (by simp; omega)]
    decide

theorem pointCode_slash : pointCode 47 = [47] := by
  simp [pointCode, show unreserved 47 = true by decide]

theorem slash_not_mem_pointCode {c : Nat} (hc : c ≠ 47) : 47 ∉ pointCode c := by
  unfold pointCode
  split_ifs
  · simpa [eq_comm] using hc
  · simp only [List.mem_flatMap, List.mem_cons, List.not_mem_nil, or_false, not_exists, not_and]
    intro b _
    have := digitUpper_ne_slash (b.toNat / 16)
    have := digitUpper_ne_slash (b.toNat % 16)
    omega

/-- Splitting after a slash-free start splits the rest, the start joining its first piece. -/
theorem splitOn_append_of_not_mem {xs : List Nat} (h : 47 ∉ xs) (ys : List Nat) :
    (xs ++ ys).splitOn 47 = (ys.splitOn 47).modifyHead (xs ++ ·) := by
  induction xs with
  | nil => exact (congrFun List.modifyHead_id _).symm
  | cons x xs ih =>
    have hx : x ≠ 47 := fun hx => h (hx ▸ List.mem_cons_self)
    rw [List.cons_append, List.splitOn_cons_eq_if_modifyHead, if_neg (by simpa using hx),
      ih fun h' => h (List.mem_cons_of_mem _ h'), List.modifyHead_modifyHead]
    rfl

/-- Escaping keeps every `/` and adds none, so it works segment by segment. -/
theorem splitOn_escape (l : List Nat) : (escape l).splitOn 47 = (l.splitOn 47).map escape := by
  induction l with
  | nil => rfl
  | cons c l ih =>
    rw [escape, List.flatMap_cons, ← escape]
    by_cases hc : c = 47
    · subst hc
      rw [pointCode_slash, List.singleton_append, List.splitOn_cons_eq_if_modifyHead,
        List.splitOn_cons_eq_if_modifyHead, if_pos (by simp), if_pos (by simp), ih]
      rfl
    · rw [splitOn_append_of_not_mem (slash_not_mem_pointCode hc), ih,
        List.splitOn_cons_eq_if_modifyHead, if_neg (by simpa using hc)]
      cases l.splitOn 47 with
      | nil => rfl
      | cons seg segs => simp [escape]

/-- Every piece of a split is made of points of the whole. -/
theorem subset_of_mem_splitOn {l seg : List Nat} (hseg : seg ∈ l.splitOn 47) : seg ⊆ l := by
  induction l generalizing seg with
  | nil =>
    rw [List.splitOn_nil, List.mem_singleton] at hseg
    exact hseg ▸ List.Subset.refl _
  | cons x l ih =>
    rw [List.splitOn_cons_eq_if_modifyHead] at hseg
    split at hseg
    · rcases List.mem_cons.mp hseg with rfl | h
      · exact List.nil_subset _
      · exact List.Subset.trans (ih h) (List.subset_cons_self _ _)
    · cases hL : l.splitOn 47 with
      | nil => exact absurd hL (List.splitOn_ne_nil _ _)
      | cons first rest =>
        rw [hL, List.modifyHead_cons] at hseg
        rcases List.mem_cons.mp hseg with rfl | hm
        · exact List.cons_subset_cons _ (ih (hL ▸ List.mem_cons_self))
        · exact List.Subset.trans (ih (hL ▸ List.mem_cons_of_mem _ hm)) (List.subset_cons_self _ _)

/-- On text free of surrogates, escaping makes no dot segment. -/
theorem dotFree_escape {l : List Nat} (hl : ∀ c ∈ l, Text.isSurrogate c = false ∧ c < 0x110000)
    (hd : DotFree l) : DotFree (escape l) := by
  intro seg' hseg'
  rw [splitOn_escape, List.mem_map] at hseg'
  obtain ⟨seg, hseg, rfl⟩ := hseg'
  have hs : ∀ c ∈ seg, Text.isSurrogate c = false ∧ c < 0x110000 :=
    fun c hc => hl c (subset_of_mem_splitOn hseg hc)
  have hdot : escape [46] = [46] := by decide
  have hdots : escape [46, 46] = [46, 46] := by decide
  refine ⟨fun h => (hd seg hseg).1 (escape_inj hs (by decide) (h.trans hdot.symm)),
    fun h => (hd seg hseg).2 (escape_inj hs (by decide) (h.trans hdots.symm))⟩

theorem dotFree_append_slash {xs ys : List Nat} :
    DotFree (xs ++ 47 :: ys) ↔ DotFree xs ∧ DotFree ys := by
  simp only [DotFree, List.splitOn_append_cons_self, List.forall_mem_append]

theorem modifyLast_cons_of_ne_nil {l : List (List Nat)} (hl : l ≠ []) (f : List Nat → List Nat)
    (x : List Nat) : (x :: l).modifyLast f = x :: l.modifyLast f :=
  List.modifyLast_append_of_right_ne_nil f [x] l hl

/-- Splitting before a slash-free end splits the start, the end joining its last piece. -/
theorem splitOn_append_of_not_mem_right {ys : List Nat} (h : 47 ∉ ys) (xs : List Nat) :
    (xs ++ ys).splitOn 47 = (xs.splitOn 47).modifyLast (· ++ ys) := by
  induction xs with
  | nil => rw [List.nil_append, List.splitOn_eq_singleton h]; rfl
  | cons x xs ih =>
    rw [List.cons_append, List.splitOn_cons_eq_if_modifyHead, List.splitOn_cons_eq_if_modifyHead, ih]
    have hne := List.splitOn_ne_nil 47 xs
    split
    · rw [modifyLast_cons_of_ne_nil hne]
    · -- the first piece gains `x` and the last gains `ys`; they differ unless there is one piece
      cases hL : xs.splitOn 47 with
      | nil => exact absurd hL hne
      | cons l L =>
        cases L with
        | nil => rfl
        | cons l' L =>
          rw [modifyLast_cons_of_ne_nil (List.cons_ne_nil _ _), List.modifyHead_cons,
            List.modifyHead_cons, modifyLast_cons_of_ne_nil (List.cons_ne_nil _ _)]

/-- A slash-free end holding `:` is no dot segment, whatever it follows. -/
theorem dotFree_append_colon {xs ys : List Nat} (hxs : DotFree xs) (hys : 47 ∉ ys)
    (hcolon : 58 ∈ ys) : DotFree (xs ++ ys) := by
  unfold DotFree at hxs ⊢
  rw [splitOn_append_of_not_mem_right hys]
  rcases List.eq_nil_or_concat (xs.splitOn 47) with hnil | ⟨L, l, hL⟩
  · exact absurd hnil (List.splitOn_ne_nil _ _)
  rw [hL, List.concat_eq_append] at hxs ⊢
  rw [List.modifyLast_concat]
  intro seg hseg
  rcases List.mem_append.mp hseg with hseg | hseg
  · exact hxs seg (List.mem_append_left _ hseg)
  · rw [List.mem_singleton.mp hseg]
    have : 58 ∈ l ++ ys := List.mem_append_right _ hcolon
    constructor <;> rintro h <;> rw [h] at this <;> simp at this

/-! ## Routes -/

/-- The part of a URL after its base: `/public` for the public root, then `/`, the escaped
space and `/kv`, then `/` and the escaped path when there is a path. -/
def route (space path : Text) (publicRoot : Bool) : Text :=
  (if publicRoot then Text.ofString "/public" else Text.ofString "") ++ Text.ofString "/" ++
    ⟨escape space.points⟩ ++ Text.ofString "/kv" ++
    (if path.isEmpty then Text.ofString "" else Text.ofString "/" ++ ⟨escape path.points⟩)

theorem url_eq_ok_iff (e : Endpoint) {s : Text} (hs : s.isEmpty = false) (p : Text)
    (publicRoot : Bool) {u : Text} :
    url e (some s) p publicRoot = .ok u ↔
      Quotable s ∧ (p.isEmpty = true ∨ Quotable p) ∧ u = e.baseUrl ++ route s p publicRoot := by
  unfold url
  simp only [hs, Bool.false_eq_true, if_false]
  cases hq : quote s with
  | error err =>
    have : ¬ Quotable s := fun h => by simp [(quote_eq_ok_iff.mpr ⟨h, rfl⟩)] at hq
    simp [this]
  | ok q =>
    obtain ⟨hqs, rfl⟩ := quote_eq_ok_iff.mp hq
    have hroot : (if publicRoot then e.baseUrl ++ Text.ofString "/public/" ++ ⟨escape s.points⟩ ++
          Text.ofString "/kv"
        else e.baseUrl ++ Text.ofString "/" ++ ⟨escape s.points⟩ ++ Text.ofString "/kv") =
        e.baseUrl ++ ((if publicRoot then Text.ofString "/public" else Text.ofString "") ++
          Text.ofString "/" ++ ⟨escape s.points⟩ ++ Text.ofString "/kv") := by
      cases publicRoot <;> exact Text.ext_points (by simp [Text.points_append, Text.ofString])
    simp only [except_ok_bind, hroot]
    cases hp : p.isEmpty
    · cases hqp : quote p with
      | error err =>
        have : ¬ Quotable p := fun h => by simp [(quote_eq_ok_iff.mpr ⟨h, rfl⟩)] at hqp
        simp [this]
      | ok qp =>
        obtain ⟨hqp', rfl⟩ := quote_eq_ok_iff.mp hqp
        simp only [hqs, hqp', route, hp, except_ok_bind, pure, Except.pure, Except.ok.injEq,
          Bool.false_eq_true, if_false, or_true, true_and]
        rw [eq_comm]
        constructor <;> rintro rfl <;> exact Text.ext_points (by simp [Text.points_append])
    · simp only [hqs, route, hp, if_true, pure, Except.pure, Except.ok.injEq, true_or, true_and,
        Text.append_ofString_empty]
      exact eq_comm

theorem points_route (s p : Text) (publicRoot : Bool) :
    (route s p publicRoot).points =
      (if publicRoot then [47, 112, 117, 98, 108, 105, 99] else []) ++
        47 :: (escape s.points ++ 47 :: 107 :: 118 :: (if p.isEmpty then [] else 47 :: escape p.points)) := by
  cases publicRoot <;> cases hp : p.isEmpty <;> simp [route, hp, Text.points_append, Text.ofString]

theorem dotFree_cons_slash {ys : List Nat} : DotFree (47 :: ys) ↔ DotFree ys := by
  rw [← List.nil_append (47 :: ys), dotFree_append_slash]
  exact ⟨fun h => h.2, fun h => ⟨by decide, h⟩⟩

/-- No segment after the base is `.` or `..`: the fixed segments are neither, and escaping a
space or path that quoting accepts makes none. -/
theorem dotFree_route {s p : Text} (hs : Quotable s) (hss : s.IsString) (hp : p.isEmpty = true ∨ Quotable p)
    (hps : p.IsString) (publicRoot : Bool) : DotFree (route s p publicRoot).points := by
  have htail : DotFree (107 :: 118 :: (if p.isEmpty then [] else 47 :: escape p.points)) := by
    split
    · decide
    · rename_i hne
      rw [show 107 :: 118 :: 47 :: escape p.points = [107, 118] ++ 47 :: escape p.points from rfl,
        dotFree_append_slash]
      exact ⟨by decide, dotFree_escape hps (hp.resolve_left hne).1⟩
  have hspace : DotFree (escape s.points ++ 47 :: 107 :: 118 ::
      (if p.isEmpty then [] else 47 :: escape p.points)) :=
    dotFree_append_slash.mpr ⟨dotFree_escape hss hs.1, htail⟩
  rw [points_route]
  cases publicRoot
  · rw [if_neg (by decide), List.nil_append]
    exact dotFree_cons_slash.mpr hspace
  · rw [if_pos rfl, show ∀ l : List Nat, [47, 112, 117, 98, 108, 105, 99] ++ 47 :: l =
      47 :: ([112, 117, 98, 108, 105, 99] ++ 47 :: l) from fun _ => rfl, dotFree_cons_slash,
      dotFree_append_slash]
    exact ⟨by decide, hspace⟩

theorem slash_not_mem_escape {l : List Nat} (h : 47 ∉ l) : 47 ∉ escape l := by
  simp only [escape, List.mem_flatMap, not_exists, not_and]
  intro c hc
  exact slash_not_mem_pointCode fun hc' => h (hc' ▸ hc)

theorem escape_inj_text {a b : Text} (ha : a.IsString) (hb : b.IsString)
    (h : escape a.points = escape b.points) : a = b :=
  Text.ext_points (escape_inj ha hb h)

/-- A space other than `public` and free of `/` is one segment, and not the public root's: the
address it starts tells the root, the space, the path and whether there is one. -/
theorem route_inj {s s' p p' : Text} {pub pub' : Bool} (hs : s.IsString) (hs' : s'.IsString)
    (hp : p.IsString) (hp' : p'.IsString) (hslash : 47 ∉ s.points) (hslash' : 47 ∉ s'.points)
    (hpublic : s ≠ Text.ofString "public") (hpublic' : s' ≠ Text.ofString "public")
    (h : route s p pub = route s' p' pub') : s = s' ∧ p = p' ∧ pub = pub' := by
  have hpoints := congrArg Text.points h
  rw [points_route, points_route] at hpoints
  have hpub : escape (Text.ofString "public").points = [112, 117, 98, 108, 105, 99] := by decide
  have hstr : (Text.ofString "public").IsString := Text.isString_ofString _
  -- after the root, the space and the rest stand on either side of the first `/`
  have hrest : ∀ {a b : Text} {t t' : List Nat}, 47 ∉ a.points → 47 ∉ b.points → a.IsString →
      b.IsString → escape a.points ++ 47 :: t = escape b.points ++ 47 :: t' → a = b ∧ t = t' :=
    fun ha hb hsa hsb he =>
      have hh := Grant.heads_eq (slash_not_mem_escape ha) (slash_not_mem_escape hb) he
      ⟨escape_inj_text hsa hsb hh.1, hh.2⟩
  obtain ⟨rfl, htail, rfl⟩ : s = s' ∧ (107 :: 118 :: (if p.isEmpty then [] else 47 :: escape p.points)) =
      107 :: 118 :: (if p'.isEmpty then [] else 47 :: escape p'.points) ∧ pub = pub' := by
    have hF : ¬ (false = true) := Bool.false_ne_true
    have hT : true = true := rfl
    cases pub <;> cases pub'
    · rw [if_neg hF, List.nil_append, List.nil_append, List.cons.injEq] at hpoints
      exact (hrest hslash hslash' hs hs' hpoints.2).imp_right fun h => ⟨h, rfl⟩
    · rw [if_neg hF, if_pos hT, List.nil_append, List.cons_append, List.cons.injEq,
        show ∀ l : List Nat, [112, 117, 98, 108, 105, 99] ++ l =
          escape (Text.ofString "public").points ++ l from fun l => by rw [hpub]] at hpoints
      exact absurd (hrest hslash (by decide) hs hstr hpoints.2).1 hpublic
    · rw [if_pos hT, if_neg hF, List.nil_append, List.cons_append, List.cons.injEq,
        show ∀ l : List Nat, [112, 117, 98, 108, 105, 99] ++ l =
          escape (Text.ofString "public").points ++ l from fun l => by rw [hpub]] at hpoints
      exact absurd (hrest hslash' (by decide) hs' hstr hpoints.2.symm).1 hpublic'
    · rw [if_pos hT, List.append_cancel_left_eq, List.cons.injEq] at hpoints
      exact (hrest hslash hslash' hs hs' hpoints.2).imp_right fun h => ⟨h, rfl⟩
  refine ⟨rfl, ?_, rfl⟩
  -- the path is there on both sides or on neither, and then it is the same
  simp only [List.cons.injEq, true_and] at htail
  cases hpe : p.isEmpty <;> cases hpe' : p'.isEmpty <;> simp only [hpe, hpe', if_true, if_false,
    Bool.false_eq_true, List.cons.injEq, true_and, reduceCtorEq] at htail
  · exact escape_inj_text hp hp' htail
  · exact Text.ext_points ((List.isEmpty_iff.mp hpe).trans (List.isEmpty_iff.mp hpe').symm)

/-! ## The vault's addresses -/

theorem url_ok_of_quotable (e : Endpoint) {s : Text} (hs : s.isEmpty = false) (hq : Quotable s)
    {p : Text} (hp : Quotable p) (publicRoot : Bool) :
    ∃ u, url e (some s) p publicRoot = .ok u :=
  ⟨_, (url_eq_ok_iff e hs p publicRoot).mpr ⟨hq, .inr hp, rfl⟩⟩

theorem dotFree_of_check {k k' : Text} (h : EntryName.check k = .ok k') : DotFree k.points := by
  unfold EntryName.check at h
  split_ifs at h with h₁ h₂ h₃ h₄
  exact (dotFree_iff k).mpr (by simpa using h₄)

theorem quotable_slash_append {a b : Text} (ha : Quotable a) (hb : Quotable b) :
    Quotable (a ++ Text.ofString "/" ++ b) := by
  have hslash : (Text.ofString "/").points = [47] := by simp [Text.ofString]
  have hpoints : (a ++ Text.ofString "/" ++ b).points = a.points ++ 47 :: b.points := by
    simp [Text.points_append, hslash]
  refine ⟨hpoints ▸ dotFree_append_slash.mpr ⟨ha.1, hb.1⟩, ?_⟩
  rw [hpoints]
  intro c hc
  rcases List.mem_append.mp hc with hc | hc
  · exact ha.2 c hc
  · rcases List.mem_cons.mp hc with rfl | hc
    · decide
    · exact hb.2 c hc

theorem not_surrogate_of_lt {c : Nat} (h : c < 128) : Text.isSurrogate c = false := by
  simp [Text.isSurrogate]
  omega

/-- A part of an identifier has no surrogate: its characters are ASCII. -/
theorem not_surrogate_of_matchesPart {ok : Char → Bool} {lo hi : Nat} {t : Text}
    (h : Principal.matchesPart ok lo hi t = true) : ∀ c ∈ t.points, Text.isSurrogate c = false :=
  fun _ hc => not_surrogate_of_lt <| by
    rcases Principal.mem_of_matchesPart h hc with rfl | h' <;> omega

/-- An identifier that parses is quoted as it is: one segment holding `:`, all ASCII. -/
theorem quotable_of_parse {r : Text} {p : Principal} (h : Principal.parse r = .ok p) :
    Quotable r := by
  obtain ⟨ns, chain, address, hr, hns, hchain, haddr, -⟩ := Principal.parse_eq_ok h
  have hcolon : 58 ∈ r.points := by rw [hr]; simp [Text.ofString]
  have hdot : DotFree ([] ++ r.points) :=
    dotFree_append_colon (by decide) (Principal.slash_not_mem_of_parse h) hcolon
  refine ⟨by rwa [List.nil_append] at hdot, ?_⟩
  rw [hr]
  intro c hc
  simp only [List.mem_append, List.mem_cons] at hc
  rcases hc with ((hc | hc) | rfl | hc) | rfl | hc
  · exact not_surrogate_of_lt (by revert c; decide)
  · exact not_surrogate_of_matchesPart hns c hc
  · decide
  · exact not_surrogate_of_matchesPart hchain c hc
  · decide
  · exact not_surrogate_of_matchesPart haddr c hc

theorem quotable_append_colon {a b : Text} (ha : Quotable a) (hb : 47 ∉ b.points)
    (hcolon : 58 ∈ b.points) (hbs : ∀ c ∈ b.points, Text.isSurrogate c = false) :
    Quotable (a ++ b) := by
  refine ⟨dotFree_append_colon ha.1 hb hcolon, ?_⟩
  intro c hc
  rcases List.mem_append.mp hc with hc | hc
  · exact ha.2 c hc
  · exact hbs c hc

/-- A space id of a principal that parses, under a scheme that quoting accepts, is accepted
too: what follows the scheme holds `:` and no `/`, so it only lengthens the scheme's last
segment. -/
theorem quotable_spaceId {d : Text} {p : Principal} (hd : Principal.parse d = .ok p)
    {name scheme sp : Text} (hscheme : Quotable scheme) (h : p.spaceId name scheme = .ok sp) :
    Quotable sp := by
  obtain ⟨ns, chain, address, -, hns, hchain, haddr, rfl⟩ := Principal.parse_eq_ok hd
  unfold Principal.spaceId at h
  split_ifs at h with hname
  cases h
  have hslash : ∀ t : Text, 47 ∉ t.points → 47 ∉ (Text.ofString t.toStringLossy).points :=
    fun _ => Text.slash_not_mem_ofString_toStringLossy
  have hns' := hslash ns (Principal.slash_not_mem_of_matchesPart (by decide) hns)
  have hchain' := hslash chain (Principal.slash_not_mem_of_matchesPart (by decide) hchain)
  have haddr' := hslash address (Principal.slash_not_mem_of_matchesPart (by decide) haddr)
  have hname' := Principal.slash_not_mem_of_matchesPart (by decide) hname
  -- what follows the scheme: the owner's parts between colons, and the name
  have hpoints : ∀ a b c : String, (Text.ofString (":pkh:" ++ a ++ ":" ++ b ++ ":" ++ c ++ ":")).points =
      [58, 112, 107, 104, 58] ++ (Text.ofString a).points ++ 58 :: (Text.ofString b).points ++
        58 :: (Text.ofString c).points ++ [58] := by
    intro a b c
    simp [Text.ofString]
  rw [show ∀ mid : Text, scheme ++ mid ++ name = scheme ++ (mid ++ name) from
    fun _ => Text.ext_points (by simp [Text.points_append])]
  refine quotable_append_colon hscheme ?_ ?_ ?_
  · simp [Text.points_append, hpoints, hns', hchain', haddr', hname']
  · simp [Text.points_append, hpoints]
  · intro c hc
    simp only [Text.points_append, List.mem_append] at hc
    rcases hc with hc | hc
    · exact (Text.isString_ofString _ c hc).1
    · exact not_surrogate_of_matchesPart hname c hc

theorem isEmpty_spaceId {p : Principal} {name scheme sp : Text}
    (h : p.spaceId name scheme = .ok sp) : sp.isEmpty = false := by
  unfold Principal.spaceId at h
  split_ifs at h
  cases h
  simp [Text.isEmpty, Text.points_append, Text.ofString]

/-- A fixed folder name of neither `.` nor `/` is quoted as it is. -/
theorem quotable_folder {f : String} (hf : ∀ c ∈ (Text.ofString f).points, c ≠ 46 ∧ c ≠ 47) :
    Quotable (Text.ofString f) := by
  have hslash : 47 ∉ (Text.ofString f).points := fun h => (hf 47 h).2 rfl
  refine ⟨?_, fun c hc => (Text.isString_ofString f c hc).1⟩
  intro seg hseg
  rw [List.splitOn_eq_singleton hslash, List.mem_singleton] at hseg
  subst hseg
  exact ⟨fun h => (hf 46 (h ▸ List.mem_singleton_self _)).1 rfl,
    fun h => (hf 46 (h ▸ List.mem_cons_self)).1 rfl⟩

/-- Every record of an entry, and every grant of it, has an address in every space of a
principal, under a scheme that quoting accepts. -/
theorem url_ok_of_entry (e : Endpoint) {k r d name scheme sp : Text} {recipient owner : Principal}
    (hk : EntryName.check k = .ok k) (hks : k.IsString) (hr : Principal.parse r = .ok recipient)
    (hd : Principal.parse d = .ok owner) (hscheme : Quotable scheme)
    (hsp : owner.spaceId name scheme = .ok sp) (publicRoot : Bool) :
    ∀ path ∈ [Vault.keysPrefix ++ k, Vault.valuesPrefix ++ k, Grant.path r k],
      ∃ u, url e (some sp) path publicRoot = .ok u := by
  have hspace := quotable_spaceId hd hscheme hsp
  have hne := isEmpty_spaceId hsp
  have hkq : Quotable k := ⟨dotFree_of_check hk, fun c hc => (hks c hc).1⟩
  intro path hpath
  simp only [List.mem_cons, List.mem_nil_iff, or_false] at hpath
  refine url_ok_of_quotable e hne hspace ?_ publicRoot
  rcases hpath with rfl | rfl | rfl
  · rw [show Vault.keysPrefix ++ k = Text.ofString "keys" ++ Text.ofString "/" ++ k from
      Text.ext_points (by simp [Vault.keysPrefix, Text.points_append, Text.ofString])]
    exact quotable_slash_append (quotable_folder (by simp [Text.ofString])) hkq
  · rw [show Vault.valuesPrefix ++ k = Text.ofString "vault" ++ Text.ofString "/" ++ k from
      Text.ext_points (by simp [Vault.valuesPrefix, Text.points_append, Text.ofString])]
    exact quotable_slash_append (quotable_folder (by simp [Text.ofString])) hkq
  · rw [show Grant.path r k = Text.ofString "grants" ++ Text.ofString "/" ++ r ++
        Text.ofString "/" ++ k from
      Text.ext_points (by simp [Grant.path, Grant.pathPrefix, Text.points_append, Text.ofString])]
    exact quotable_slash_append (quotable_slash_append (quotable_folder (by simp [Text.ofString]))
      (quotable_of_parse hr)) hkq

/-! ## Confinement and injectivity -/

/-- A URL that is built is the base and the route of the quoted space and path, and no segment
after the base is `.` or `..`. -/
theorem url_confined (e : Endpoint) {s p : Text} {publicRoot : Bool} {u : Text}
    (hs : s.isEmpty = false) (hss : s.IsString) (hps : p.IsString)
    (h : url e (some s) p publicRoot = .ok u) :
    quote s = .ok ⟨escape s.points⟩ ∧ (p.isEmpty = false → quote p = .ok ⟨escape p.points⟩) ∧
      u = e.baseUrl ++ route s p publicRoot ∧ DotFree (route s p publicRoot).points := by
  obtain ⟨hq, hp, rfl⟩ := (url_eq_ok_iff e hs p publicRoot).mp h
  refine ⟨quote_eq_ok_iff.mpr ⟨hq, rfl⟩, fun hne => quote_eq_ok_iff.mpr ⟨?_, rfl⟩, rfl,
    dotFree_route hq hss hp hps publicRoot⟩
  simpa [hne] using hp

/-- Spaces of one segment other than `public` give distinct URLs to distinct requests. -/
theorem url_inj (e : Endpoint) {s s' p p' : Text} {pub pub' : Bool} {u : Text}
    (hs : s.isEmpty = false) (hss : s.IsString) (hslash : 47 ∉ s.points)
    (hpublic : s ≠ Text.ofString "public")
    (hs' : s'.isEmpty = false) (hss' : s'.IsString) (hslash' : 47 ∉ s'.points)
    (hpublic' : s' ≠ Text.ofString "public") (hp : p.IsString) (hp' : p'.IsString)
    (h : url e (some s) p pub = .ok u) (h' : url e (some s') p' pub' = .ok u) :
    s = s' ∧ p = p' ∧ pub = pub' := by
  obtain ⟨-, -, rfl⟩ := (url_eq_ok_iff e hs p pub).mp h
  obtain ⟨-, -, hu⟩ := (url_eq_ok_iff e hs' p' pub').mp h'
  exact route_inj hss hss' hp hp' hslash hslash' hpublic hpublic' (Text.append_left_cancel hu)

end Endpoint

/-- Addressing over HTTP. A URL that is built is the base followed by the route of the quoted
space and path, with no `.` or `..` segment after the base. Spaces of one segment other than
`public` give distinct URLs to distinct requests. Every record and grant of an entry has an
address in every space of a principal that parses, under a scheme that quoting accepts. -/
theorem addresses_confined_and_injective (e : Endpoint) :
    (∀ {s p : Text} {publicRoot : Bool} {u : Text}, s.isEmpty = false → s.IsString →
      p.IsString → e.url (some s) p publicRoot = .ok u →
        Endpoint.quote s = .ok ⟨Endpoint.escape s.points⟩ ∧
        (p.isEmpty = false → Endpoint.quote p = .ok ⟨Endpoint.escape p.points⟩) ∧
        u = e.baseUrl ++ Endpoint.route s p publicRoot ∧
        Endpoint.DotFree (Endpoint.route s p publicRoot).points) ∧
    (∀ {s s' p p' : Text} {pub pub' : Bool} {u : Text},
      s.isEmpty = false → s.IsString → 47 ∉ s.points → s ≠ Text.ofString "public" →
      s'.isEmpty = false → s'.IsString → 47 ∉ s'.points → s' ≠ Text.ofString "public" →
      p.IsString → p'.IsString →
      e.url (some s) p pub = .ok u → e.url (some s') p' pub' = .ok u →
        s = s' ∧ p = p' ∧ pub = pub') ∧
    (∀ {k r d name scheme sp : Text} {recipient owner : Principal},
      EntryName.check k = .ok k → k.IsString → Principal.parse r = .ok recipient →
      Principal.parse d = .ok owner → Endpoint.Quotable scheme →
      owner.spaceId name scheme = .ok sp →
      ∀ publicRoot, ∀ path ∈ [Vault.keysPrefix ++ k, Vault.valuesPrefix ++ k, Grant.path r k],
        ∃ u, e.url (some sp) path publicRoot = .ok u) :=
  ⟨Endpoint.url_confined e, Endpoint.url_inj e, Endpoint.url_ok_of_entry e⟩

/-- Every record and grant of an entry named `notes/2024` has an address in the default space
of `did:pkh:abc:1:bob`, and a route of a plain space and path has no dot segment. -/
theorem addresses_of_notes :
    (∀ path ∈ [Vault.keysPrefix ++ Text.ofString "notes/2024",
        Vault.valuesPrefix ++ Text.ofString "notes/2024",
        Grant.path (Text.ofString "did:pkh:abc:1:bob") (Text.ofString "notes/2024")],
      ∃ u, (⟨Text.ofString "https://h", Text.ofString "s"⟩ : Endpoint).url
        (some (Text.ofString "tinycloud:pkh:abc:1:bob:default")) path true = .ok u) ∧
    Endpoint.DotFree (Endpoint.route (Text.ofString "a") (Text.ofString "b c") true).points :=
  ⟨(addresses_confined_and_injective _).2.2 (by decide) (Text.isString_ofString _)
      (show Principal.parse (Text.ofString "did:pkh:abc:1:bob") = .ok ⟨"abc", "1", "bob"⟩ by decide)
      (show Principal.parse (Text.ofString "did:pkh:abc:1:bob") = .ok ⟨"abc", "1", "bob"⟩ by decide)
      (Endpoint.quotable_folder (f := "tinycloud") (by simp [Text.ofString]))
      (show (⟨"abc", "1", "bob"⟩ : Principal).spaceId (Text.ofString "default")
        (Text.ofString "tinycloud") = .ok (Text.ofString "tinycloud:pkh:abc:1:bob:default") by decide)
      true,
    ((addresses_confined_and_injective ⟨Text.ofString "https://h", Text.ofString "s"⟩).1 rfl
      (Text.isString_ofString _) (Text.isString_ofString _)
      ((Endpoint.url_eq_ok_iff _ rfl _ true).mpr ⟨Endpoint.quotable_folder (by simp [Text.ofString]),
        .inr (Endpoint.quotable_folder (by simp [Text.ofString])), rfl⟩)).2.2.2⟩

/-- Spaces with a `/`, or named `public`, let two requests meet at one URL: the private root of
`public/x` is the public root of `x`, and the private path `kv` of `public` is the public root
of `kv`. A scheme with a `..` segment, or a principal built with one, gives space ids that have
no address at all. -/
theorem addresses_collide_or_fail :
    let e : Endpoint := ⟨Text.ofString "https://h", Text.ofString "s"⟩
    e.url (some (Text.ofString "public/x")) (Text.ofString "") false =
        e.url (some (Text.ofString "x")) (Text.ofString "") true ∧
      (∃ u, e.url (some (Text.ofString "x")) (Text.ofString "") true = .ok u) ∧
      e.url (some (Text.ofString "public")) (Text.ofString "kv") false =
        e.url (some (Text.ofString "kv")) (Text.ofString "") true ∧
      (∃ u, e.url (some (Text.ofString "kv")) (Text.ofString "") true = .ok u) ∧
      (∃ owner sp, Principal.parse (Text.ofString "did:pkh:abc:1:bob") = .ok owner ∧
        owner.spaceId (Text.ofString "default") (Text.ofString "../x") = .ok sp ∧
        EntryName.check (Text.ofString "k") = .ok (Text.ofString "k") ∧
        ∀ u, e.url (some sp) (Vault.keysPrefix ++ Text.ofString "k") false ≠ .ok u) ∧
      (∃ sp, (⟨"x/../y", "1", "a"⟩ : Principal).spaceId (Text.ofString "default") = .ok sp ∧
        ∀ u, e.url (some sp) (Vault.keysPrefix ++ Text.ofString "k") false ≠ .ok u) := by
  refine ⟨rfl, ⟨_, rfl⟩, rfl, ⟨_, rfl⟩, ⟨_, _, rfl, rfl, by decide, ?_⟩, ⟨_, rfl, ?_⟩⟩
  · intro u h
    exact absurd ((Endpoint.url_eq_ok_iff _ rfl _ false).mp h).1.1 (by decide)
  · intro u h
    exact absurd ((Endpoint.url_eq_ok_iff _ rfl _ false).mp h).1.1 (by decide)

end Strongbox

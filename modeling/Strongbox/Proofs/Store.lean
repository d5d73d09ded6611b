import Strongbox.Store
import Mathlib.Data.List.Sort

/-!
# Stores: reads after writes, and sorted listings

What `find?` sees after `touch`, `write` and `erase`: a write or an erase changes one path of
one space and nothing else, and a touch changes no read. Paths stay distinct within a space.
A listing under a prefix is strictly increasing in code-point order and holds exactly the
names whose path is present.
-/

namespace Strongbox

namespace Store

/-! ## Looking up a space -/

section Lookup

variable {κ β : Type} [DecidableEq κ]

theorem lookup_cons_eq (l : List (κ × β)) (k : κ) (b : β) :
    ((k, b) :: l).lookup k = some b := by
  simp

theorem lookup_cons_ne (l : List (κ × β)) {a k : κ} (b : β) (h : a ≠ k) :
    ((k, b) :: l).lookup a = l.lookup a := by
  simp [List.lookup_cons, beq_eq_false_iff_ne.mpr h]

/-- A lookup in a list of pairs after the values under one name are mapped. -/
theorem lookup_map_at (l : List (κ × β)) (n m : κ) (f : β → β) :
    (l.map fun e => if e.1 == n then (e.1, f e.2) else e).lookup m =
      if m = n then (l.lookup m).map f else l.lookup m := by
  induction l with
  | nil => split <;> rfl
  | cons e l ih =>
    obtain ⟨a, b⟩ := e
    by_cases hm : m = a
    · subst hm
      by_cases hn : m = n
      · subst hn
        simp
      · simp [hn]
    · by_cases ha : a = n
      · subst ha
        simp only [List.map_cons, beq_self_eq_true, if_true]
        rw [lookup_cons_ne _ _ hm, lookup_cons_ne _ _ hm, ih]
      · simp only [List.map_cons, beq_eq_false_iff_ne.mpr ha, Bool.false_eq_true, if_false]
        rw [lookup_cons_ne _ _ hm, lookup_cons_ne _ _ hm, ih]

theorem lookup_append_single (l : List (κ × β)) (k m : κ) (b : β) :
    (l ++ [(k, b)]).lookup m = if m = k ∧ l.lookup m = none then some b else l.lookup m := by
  rw [List.lookup_append]
  cases h : l.lookup m with
  | some x => simp
  | none =>
    by_cases hm : m = k
    · subst hm
      simp
    · simp [lookup_cons_ne _ _ hm, hm]

/-- A lookup after the value under a name is replaced, or appended when the name is new. -/
theorem lookup_replaceOrAppend (l : List (κ × β)) (n q : κ) (v : β) :
    (if l.any (·.1 == n) then l.map (fun e => if e.1 == n then (n, v) else e)
      else l ++ [(n, v)]).lookup q = if q = n then some v else l.lookup q := by
  split
  · rename_i hany
    have h := lookup_map_at l n q (fun _ => v)
    have hmap : (l.map fun e => if e.1 == n then (n, v) else e) =
        l.map fun e => if e.1 == n then (e.1, v) else e := by
      apply List.map_congr_left
      intro e _
      by_cases he : e.1 = n
      · simp [he]
      · simp [he]
    rw [hmap, h]
    split
    · rename_i hq
      subst hq
      obtain ⟨e, he, hk⟩ := List.any_eq_true.mp hany
      have hsome : (l.lookup q).isSome :=
        List.lookup_isSome_iff.mpr ⟨e, he, by simpa using (beq_iff_eq.mp hk).symm⟩
      obtain ⟨x, hx⟩ := Option.isSome_iff_exists.mp hsome
      simp [hx]
    · rfl
  · rename_i hany
    rw [lookup_append_single]
    have hnone : l.lookup n = none := by
      rw [List.lookup_eq_none_iff]
      intro p hp
      simp only [bne_iff_ne, ne_eq]
      rintro rfl
      exact hany (List.any_eq_true.mpr ⟨p, hp, by simp⟩)
    by_cases hq : q = n
    · subst hq
      simp [hnone]
    · simp [hq]


end Lookup

theorem space?_touch (s : Store) (n m : Text) :
    (s.touch n).space? m = if m = n then some ((s.space? n).getD []) else s.space? m := by
  unfold touch
  split
  · rename_i h
    split
    · subst m
      obtain ⟨b, hb⟩ := Option.isSome_iff_exists.mp h
      simp [hb]
    · rfl
  · rename_i h
    simp only [space?, Option.isSome_iff_ne_none, ne_eq, Decidable.not_not] at h ⊢
    rw [lookup_append_single]
    by_cases hm : m = n
    · subst m
      simp [h]
    · simp [hm]

theorem space?_modifySpace (s : Store) (n m : Text)
    (f : List (Text × Stored) → List (Text × Stored)) :
    (s.modifySpace n f).space? m =
      if m = n then some (f ((s.space? n).getD [])) else s.space? m := by
  have h := lookup_map_at (s.touch n).spaces n m f
  simp only [modifySpace, space?] at h ⊢
  rw [h]
  have ht := space?_touch s n m
  simp only [space?] at ht
  rw [ht]
  split <;> rfl

/-! ## Reads after changes -/

@[simp] theorem find?_touch (s : Store) (n m p : Text) : (s.touch n).find? m p = s.find? m p := by
  unfold find?
  rw [space?_touch]
  split
  · subst m
    cases h : s.space? n <;> simp
  · rfl

/-- The bindings of a space after a write at `path`. -/
def writeAt (path : Text) (v : Stored) (b : List (Text × Stored)) : List (Text × Stored) :=
  if b.any (·.1 == path) then b.map (fun e => if e.1 == path then (path, v) else e)
  else b ++ [(path, v)]

theorem lookup_writeAt (b : List (Text × Stored)) (path q : Text) (v : Stored) :
    (writeAt path v b).lookup q = if q = path then some v else b.lookup q :=
  lookup_replaceOrAppend b path q v

theorem write_eq (s : Store) (n path : Text) (v : Stored) :
    s.write n path v = s.modifySpace n (writeAt path v) := rfl

theorem find?_write (s : Store) (n path m q : Text) (v : Stored) :
    (s.write n path v).find? m q = if m = n ∧ q = path then some v else s.find? m q := by
  rw [write_eq]
  unfold find?
  rw [space?_modifySpace]
  split
  · subst m
    simp only [Option.bind_some, lookup_writeAt, true_and]
    split
    · rfl
    · cases s.space? n <;> simp
  · rename_i hm
    simp [hm]

theorem lookup_filter_ne (b : List (Text × Stored)) (path q : Text) :
    (b.filter (·.1 != path)).lookup q = if q = path then none else b.lookup q := by
  induction b with
  | nil => split <;> rfl
  | cons e b ih =>
    obtain ⟨a, x⟩ := e
    by_cases ha : a = path
    · subst ha
      simp only [List.filter_cons, bne_self_eq_false, Bool.false_eq_true, if_false, ih]
      split
      · rfl
      · rename_i hq
        rw [lookup_cons_ne _ _ hq]
    · simp only [List.filter_cons, bne_iff_ne, ne_eq, ha, not_false_eq_true, if_true]
      by_cases hq : q = a
      · subst hq
        simp [ha]
      · rw [lookup_cons_ne _ _ hq, lookup_cons_ne _ _ hq, ih]

theorem find?_erase (s : Store) (n path m q : Text) :
    (s.erase n path).find? m q = if m = n ∧ q = path then none else s.find? m q := by
  unfold erase find?
  rw [space?_modifySpace]
  split
  · subst m
    simp only [Option.bind_some, lookup_filter_ne, true_and]
    split
    · rfl
    · cases s.space? n <;> simp
  · rename_i hm
    simp [hm]

/-! ## Distinct paths -/

/-- Every path of the space is bound once. -/
def Distinct (s : Store) (n : Text) : Prop := (((s.space? n).getD []).map Prod.fst).Nodup

theorem distinct_touch {s : Store} {n : Text} (h : s.Distinct n) (m : Text) :
    (s.touch m).Distinct n := by
  unfold Distinct at h ⊢
  rw [space?_touch]
  split
  · subst m
    simpa using h
  · exact h

theorem nodup_writeAt {b : List (Text × Stored)} (h : (b.map Prod.fst).Nodup) (path : Text)
    (v : Stored) : ((writeAt path v b).map Prod.fst).Nodup := by
  unfold writeAt
  split
  · have hkeys : ((b.map fun e => if e.1 == path then (path, v) else e).map Prod.fst) =
        b.map Prod.fst := by
      simp only [List.map_map]
      apply List.map_congr_left
      intro e _
      by_cases he : e.1 = path
      · simp [he]
      · simp [he]
    rw [hkeys]
    exact h
  · rename_i hany
    rw [List.map_append, List.nodup_append]
    refine ⟨h, List.nodup_singleton _, ?_⟩
    intro a ha b hb
    simp only [List.map_cons, List.map_nil, List.mem_singleton] at hb
    subst hb
    rintro rfl
    obtain ⟨e, he, rfl⟩ := List.mem_map.mp ha
    exact hany (List.any_eq_true.mpr ⟨e, he, by simp⟩)

theorem distinct_write {s : Store} {n : Text} (h : s.Distinct n) (m path : Text) (v : Stored) :
    (s.write m path v).Distinct n := by
  unfold Distinct at h ⊢
  rw [write_eq, space?_modifySpace]
  split
  · subst m
    exact nodup_writeAt h path v
  · exact h

theorem distinct_erase {s : Store} {n : Text} (h : s.Distinct n) (m path : Text) :
    (s.erase m path).Distinct n := by
  unfold Distinct at h ⊢
  unfold erase
  rw [space?_modifySpace]
  split
  · subst m
    exact h.sublist (List.filter_sublist.map _)
  · exact h

/-! ## Listings -/

theorem mem_paths {s : Store} {n p : Text} : p ∈ s.paths n ↔ (s.find? n p).isSome := by
  unfold paths sortTexts find?
  rw [(List.mergeSort_perm _ _).mem_iff]
  cases s.space? n with
  | none => simp
  | some b =>
    simp only [Option.getD_some, Option.bind_some, List.lookup_isSome_iff, List.mem_map]
    constructor
    · rintro ⟨e, he, rfl⟩
      exact ⟨e, he, by simp⟩
    · rintro ⟨e, he, hk⟩
      exact ⟨e, he, (beq_iff_eq.mp hk).symm⟩

theorem startsWith_iff {t pre : Text} : t.startsWith pre = true ↔ ∃ r, t = pre ++ r := by
  obtain ⟨tp⟩ := t
  obtain ⟨pp⟩ := pre
  simp only [Text.startsWith, List.isPrefixOf_iff_prefix]
  constructor
  · rintro ⟨r, hr⟩
    exact ⟨⟨r⟩, by rw [← hr]; rfl⟩
  · rintro ⟨⟨r⟩, hr⟩
    exact ⟨r, by cases hr; rfl⟩

theorem drop_append_length (pre r : Text) : (pre ++ r).drop pre.length = r := by
  obtain ⟨pp⟩ := pre
  obtain ⟨rp⟩ := r
  show Text.mk ((pp ++ rp).drop pp.length) = _
  rw [List.drop_left]

theorem mem_listing {s : Store} {n pre k : Text} :
    k ∈ s.listing n pre true ↔ (s.find? n (pre ++ k)).isSome := by
  simp only [listing, if_true, List.mem_map, List.mem_filter]
  constructor
  · rintro ⟨p, ⟨hp, hpre⟩, rfl⟩
    obtain ⟨r, rfl⟩ := startsWith_iff.mp hpre
    rw [drop_append_length]
    exact mem_paths.mp hp
  · intro h
    exact ⟨pre ++ k, ⟨mem_paths.mpr h, startsWith_iff.mpr ⟨k, rfl⟩⟩, drop_append_length pre k⟩

end Store

namespace Text

theorem lt_iff (a b : Text) : Text.lt a b = true ↔ a.points < b.points := by
  simp [Text.lt]

theorem ext_points {a b : Text} (h : a.points = b.points) : a = b := by
  cases a
  cases b
  cases h
  rfl

/-- Code-point order: text after a common prefix compares as what follows it. -/
theorem lt_append_iff (pre a b : Text) : Text.lt (pre ++ a) (pre ++ b) = Text.lt a b := by
  apply Bool.eq_iff_iff.mpr
  rw [lt_iff, lt_iff]
  show pre.points ++ a.points < pre.points ++ b.points ↔ _
  induction pre.points with
  | nil => rfl
  | cons x l ih => rw [List.cons_append, List.cons_append, List.cons_lt_cons_self, ih]

-- list order is stated through `<` alone: the whole of Mathlib brings a second `≤` on lists
theorem lt_of_not_lt_of_ne {a b : Text} (h : Text.lt b a = false) (hne : a ≠ b) :
    Text.lt a b = true := by
  rw [lt_iff]
  have hnot : ¬ b.points < a.points := by
    intro hlt
    rw [← lt_iff] at hlt
    rw [hlt] at h
    exact Bool.noConfusion h
  rcases List.le_iff_lt_or_eq.mp hnot with hlt | heq
  · exact hlt
  · exact absurd (ext_points heq) hne

theorem not_lt_trans {a b c : Text} (hab : Text.lt b a = false) (hbc : Text.lt c b = false) :
    Text.lt c a = false := by
  have hab' : ¬ b.points < a.points := by
    rw [← lt_iff]
    simp [hab]
  have hbc' : ¬ c.points < b.points := by
    rw [← lt_iff]
    simp [hbc]
  have hac : ¬ c.points < a.points := List.le_trans hab' hbc'
  rw [← lt_iff] at hac
  simpa using hac

end Text

namespace Store

theorem pairwise_sortTexts {xs : List Text} (h : xs.Nodup) :
    (sortTexts xs).Pairwise fun a b => Text.lt a b = true := by
  have hsorted : (sortTexts xs).Pairwise fun a b => (!(Text.lt b a)) = true :=
    List.pairwise_mergeSort
    (fun a b c hab hbc => by simpa using Text.not_lt_trans (by simpa using hab) (by simpa using hbc))
    (fun a b => by
      by_cases hab : Text.lt b a = true
      · have hba : Text.lt a b = false := by
          rw [Text.lt_iff] at hab
          rw [Bool.eq_false_iff, ne_eq, Text.lt_iff]
          exact List.lt_asymm hab
        simp [hba]
      · simp [hab])
    xs
  have hnodup : (sortTexts xs).Nodup := (List.mergeSort_perm _ _).nodup_iff.mpr h
  refine (hsorted.and hnodup).imp ?_
  rintro a b ⟨hle, hne⟩
  exact Text.lt_of_not_lt_of_ne (by simpa using hle) hne

/-- A listing under a prefix, the prefix removed, is strictly increasing. -/
theorem pairwise_listing {s : Store} {n : Text} (h : s.Distinct n) (pre : Text) :
    (s.listing n pre true).Pairwise fun a b => Text.lt a b = true := by
  have hpaths : (sortTexts (((s.space? n).getD []).map Prod.fst)).Pairwise
      fun a b => Text.lt a b = true := pairwise_sortTexts h
  simp only [listing, if_true]
  rw [List.pairwise_map]
  refine (hpaths.filter _).imp_of_mem ?_
  intro a b ha hb hab
  obtain ⟨ra, rfl⟩ := startsWith_iff.mp (List.mem_filter.mp ha).2
  obtain ⟨rb, rfl⟩ := startsWith_iff.mp (List.mem_filter.mp hb).2
  rw [drop_append_length, drop_append_length, ← Text.lt_append_iff pre]
  exact hab

/-- Two lists in strictly increasing code-point order with the same members are equal. -/
theorem eq_of_pairwise_lt {l₁ l₂ : List Text} (h₁ : l₁.Pairwise fun a b => Text.lt a b = true)
    (h₂ : l₂.Pairwise fun a b => Text.lt a b = true) (h : ∀ a, a ∈ l₁ ↔ a ∈ l₂) : l₁ = l₂ := by
  have : Std.Irrefl fun a b : Text => Text.lt a b = true :=
    ⟨fun a ha => List.lt_irrefl a.points ((Text.lt_iff a a).mp ha)⟩
  have : Std.Antisymm fun a b : Text => Text.lt a b = true :=
    ⟨fun a b hab hba => absurd ((Text.lt_iff b a).mp hba) (List.lt_asymm ((Text.lt_iff a b).mp hab))⟩
  exact h₁.eq_of_mem_iff h₂ h

/-- A listing that lost one name and kept the others is the old listing without that name. -/
theorem listing_eq_filter {s s' : Store} {n pre q : Text} (hd : s.Distinct n) (hd' : s'.Distinct n)
    (h : ∀ x, (s'.find? n (pre ++ x)).isSome ↔ (s.find? n (pre ++ x)).isSome ∧ x ≠ q) :
    s'.listing n pre true = (s.listing n pre true).filter (· != q) := by
  refine eq_of_pairwise_lt (pairwise_listing hd' pre) ((pairwise_listing hd pre).filter _)
    fun x => ?_
  rw [List.mem_filter, mem_listing, mem_listing, bne_iff_ne]
  exact h x

end Store

end Strongbox

import Mathlib
import Strongbox.Proofs.Encoding

/-!
# Compact documents read back

Every document compact JSON writes is read back as itself by the strict reader, as long as its
integers are in the reader's range, the names of each object are distinct, and it nests no
deeper than the reader allows (`Json.Readable`): null, truth values, integers, strings, arrays
and objects. What follows a value in a document is its end, a comma or a closing bracket or
brace, and none of these extends a number (`Json.Follows`).
-/

namespace Strongbox

namespace Json

open Reader Writer

/-! ## Digits -/

namespace Reader

theorem isDigit_follows {rest : List Nat} (h : Follows rest) : ∀ c ∈ rest.head?, isDigit c = false := by
  intro c hc
  rcases h c hc with rfl | rfl | rfl <;> rfl

/-- A run of digits is read up to the first character that is not one. -/
theorem digits_append {ds rest : List Nat} (hds : ∀ c ∈ ds, isDigit c = true)
    (hrest : ∀ c ∈ rest.head?, isDigit c = false) : digits (ds ++ rest) = (ds, rest) := by
  induction ds with
  | nil =>
    cases rest with
    | nil => rfl
    | cons c rest => simp [digits, hrest c rfl]
  | cons c ds ih =>
    have hc := hds c List.mem_cons_self
    have ih' := ih fun x hx => hds x (List.mem_cons_of_mem _ hx)
    simp only [digits, Prod.mk.injEq] at ih'
    simp [digits, hc, ih']

/-- The value of digits read from their characters. -/
theorem digitsValue_map (cs : List Char) :
    digitsValue (cs.map Char.toNat) = Nat.ofDigitChars 10 cs 0 := by
  simp [digitsValue, Nat.ofDigitChars, List.foldl_map]

end Reader

/-- The decimal digits of a number, as code points. -/
abbrev decimalPoints (n : Nat) : List Nat := (Nat.toDigits 10 n).map Char.toNat

theorem isDigit_decimalPoints (n : Nat) : ∀ c ∈ decimalPoints n, isDigit c = true := by
  intro c hc
  obtain ⟨ch, hch, rfl⟩ := List.mem_map.mp hc
  have hdig := Nat.isDigit_of_mem_toDigits (by decide) (by decide) hch
  simp only [Char.isDigit, Bool.and_eq_true, decide_eq_true_eq] at hdig
  simp only [isDigit, Bool.and_eq_true, decide_eq_true_eq]
  exact ⟨hdig.1, hdig.2⟩

theorem digitsValue_decimalPoints (n : Nat) : digitsValue (decimalPoints n) = n := by
  rw [Reader.digitsValue_map, Nat.ofDigitChars_ten_toDigits]

theorem decimalPoints_ne_nil (n : Nat) : decimalPoints n ≠ [] := by
  simp [decimalPoints]

/-- A positive number's digits do not begin with zero. -/
theorem head_decimalPoints {n : Nat} (hn : 0 < n) : (decimalPoints n).head? ≠ some 0x30 := by
  induction n using Nat.strong_induction_on with
  | _ n ih =>
    rw [decimalPoints, Nat.toDigits_eq_if (by decide)]
    split
    · have hne : n.digitChar ≠ '0' := fun h => by
        rw [Nat.digitChar_eq_zero] at h
        omega
      simp only [List.map_cons, List.map_nil, List.head?_cons, ne_eq, Option.some.injEq]
      exact fun h => hne (Char.toNat_inj.mp h)
    · have hpos : 0 < n / 10 := by omega
      have hhead := ih (n / 10) (by omega) hpos
      obtain ⟨c, cs, hcs⟩ := List.exists_cons_of_ne_nil (decimalPoints_ne_nil (n / 10))
      rw [decimalPoints, List.map_eq_cons_iff] at hcs
      obtain ⟨ch, chs, hch, rfl, -⟩ := hcs
      rw [decimalPoints, hch] at hhead
      rw [hch]
      simpa using hhead

/-! ## Integers -/

theorem pointsOf_intText (n : Int) :
    pointsOf (intText n) =
      if n < 0 then 0x2D :: decimalPoints n.natAbs else decimalPoints n.natAbs := by
  unfold intText
  split <;> simp [pointsOf, Nat.toList_repr]

namespace Reader

theorem signPart_decimalPoints (k : Nat) (rest : List Nat) :
    signPart (decimalPoints k ++ rest) = (false, decimalPoints k ++ rest) := by
  obtain ⟨c, cs, hcs⟩ := List.exists_cons_of_ne_nil (decimalPoints_ne_nil k)
  have hc : isDigit c = true := isDigit_decimalPoints k c (by rw [hcs]; exact List.mem_cons_self)
  rw [hcs, List.cons_append, signPart.eq_2]
  intro r hr
  rw [List.cons.injEq] at hr
  simp [isDigit, hr.1] at hc

/-- The digits of an integer part: a lone zero, or digits not beginning with zero. -/
theorem intPart_decimalPoints (k : Nat) {rest : List Nat} (hrest : Follows rest) :
    intPart (decimalPoints k ++ rest) = (decimalPoints k, rest) := by
  rcases Nat.eq_zero_or_pos k with rfl | hk
  · rfl
  · unfold intPart
    split
    · rename_i r heq
      obtain ⟨c, cs, hcs⟩ := List.exists_cons_of_ne_nil (decimalPoints_ne_nil k)
      rw [hcs, List.cons_append, List.cons.injEq] at heq
      exact absurd (by rw [hcs, heq.1]; rfl) (head_decimalPoints hk)
    · exact digits_append (isDigit_decimalPoints k) (isDigit_follows hrest)

/-- Nothing that may follow a value begins a fraction. -/
theorem fracPart_follows {rest : List Nat} (hrest : Follows rest) : fracPart rest = ([], rest) := by
  match rest, hrest with
  | [], _ => rfl
  | c :: more, h =>
    rcases h c rfl with rfl | rfl | rfl <;> rfl

/-- Nothing that may follow a value begins an exponent. -/
theorem expPart_follows {rest : List Nat} (hrest : Follows rest) : expPart rest = (none, rest) := by
  match rest, hrest with
  | [], _ => rfl
  | c :: more, h =>
    rcases h c rfl with rfl | rfl | rfl <;> rfl

/-- An integer in range, written in decimal, is read back as itself. -/
theorem number_intText {n : Int} (hn : CompactJson.inRange n = true) {rest : List Nat}
    (hrest : Follows rest) :
    number CompactJson.dialect (pointsOf (intText n) ++ rest) = .ok (.int n, rest) := by
  have hsign : signPart (pointsOf (intText n) ++ rest) =
      (decide (n < 0), decimalPoints n.natAbs ++ rest) := by
    rw [pointsOf_intText]
    by_cases hneg : n < 0
    · simp only [hneg, if_true, decide_true, List.cons_append]
      rfl
    · simp only [hneg, if_false, decide_false, signPart_decimalPoints]
  have hvalue : (if decide (n < 0) = true then -(digitsValue (decimalPoints n.natAbs) : Int)
      else (digitsValue (decimalPoints n.natAbs) : Int)) = n := by
    rw [digitsValue_decimalPoints, Int.natCast_natAbs]
    by_cases hneg : n < 0
    · simp [hneg, abs_of_neg hneg]
    · simp [hneg, abs_of_nonneg (not_lt.mp hneg)]
  have hrange : -Int.pow 2 63 ≤ n ∧ n ≤ Int.pow 2 64 - 1 := by
    simpa only [CompactJson.inRange, Bool.and_eq_true, decide_eq_true_eq] using hn
  unfold number
  simp only [hsign, intPart_decimalPoints _ hrest, fracPart_follows hrest, expPart_follows hrest,
    List.isEmpty_iff, decimalPoints_ne_nil, if_false]
  simp only [CompactJson.dialect, Option.any_none, Bool.false_eq_true, if_false,
    Option.isNone_none, and_self, if_true, hvalue]
  rw [if_pos hrange]

/-! ## Literals -/

theorem value_null (d : Dialect) (fuel depth : Nat) (rest : List Nat) :
    value d (fuel + 1) depth (pointsOf "null" ++ rest) = .ok (.null, rest) := by
  rfl

theorem value_true (d : Dialect) (fuel depth : Nat) (rest : List Nat) :
    value d (fuel + 1) depth (pointsOf "true" ++ rest) = .ok (.bool true, rest) := by
  rfl

theorem value_false (d : Dialect) (fuel depth : Nat) (rest : List Nat) :
    value d (fuel + 1) depth (pointsOf "false" ++ rest) = .ok (.bool false, rest) := by
  rfl

/-- A sign or a digit begins a number: it is no blank, and opens no string, array or object. -/
theorem numberHead {c : Nat} (hc : c = 0x2D ∨ isDigit c = true) :
    isSpace c = false ∧ (c == 0x22) = false ∧ (c == 0x5B) = false ∧ (c == 0x7B) = false := by
  rcases hc with rfl | hc
  · decide
  · simp only [isDigit, Bool.and_eq_true, decide_eq_true_eq] at hc
    simp only [isSpace, Bool.or_eq_false_iff, beq_eq_false_iff_ne]
    omega

/-- What begins with a sign or a digit, and is not negative infinity, is read as a number. -/
theorem value_number (d : Dialect) {c : Nat} (hc : c = 0x2D ∨ isDigit c = true) {more : List Nat}
    (hinf : afterWord "-Infinity" (c :: more) = none) (fuel depth : Nat) :
    value d (fuel + 1) depth (c :: more) = number d (c :: more) := by
  obtain ⟨hspace, hquote, hbracket, hbrace⟩ := numberHead hc
  have hnum : (c == 0x2D || isDigit c) = true := by
    rcases hc with rfl | hc
    · rfl
    · simp [hc]
  rw [value, skipSpace_cons hspace]
  simp only [hquote, hbracket, hbrace, hnum, Bool.false_eq_true, if_false, if_true, hinf]

theorem afterWord_minusInfinity_digit {c : Nat} (hc : isDigit c = true) (more : List Nat) :
    afterWord "-Infinity" (c :: more) = none ∧ afterWord "-Infinity" (0x2D :: c :: more) = none := by
  simp only [isDigit, Bool.and_eq_true, decide_eq_true_eq] at hc
  have hw : word "-Infinity" = [0x2D, 0x49, 0x6E, 0x66, 0x69, 0x6E, 0x69, 0x74, 0x79] := rfl
  simp only [afterWord, hw, List.isPrefixOf, Bool.and_eq_true, beq_iff_eq]
  constructor <;> split <;> simp_all <;> omega

/-- An integer in range is read back from its decimal text whatever may follow it. -/
theorem value_intText {n : Int} (hn : CompactJson.inRange n = true) (fuel depth : Nat)
    {rest : List Nat} (hrest : Follows rest) :
    value CompactJson.dialect (fuel + 1) depth (pointsOf (intText n) ++ rest) =
      .ok (.int n, rest) := by
  obtain ⟨c, cs, hcs⟩ := List.exists_cons_of_ne_nil (decimalPoints_ne_nil n.natAbs)
  have hc : isDigit c = true := isDigit_decimalPoints n.natAbs c (by rw [hcs]; exact List.mem_cons_self)
  have hinf := afterWord_minusInfinity_digit hc (cs ++ rest)
  rw [← number_intText hn hrest, pointsOf_intText]
  split
  · rw [hcs, List.cons_append, List.cons_append]
    exact value_number _ (.inl rfl) hinf.2 fuel depth
  · rw [hcs, List.cons_append]
    exact value_number _ (.inr hc) hinf.1 fuel depth

end Reader

/-! ## Documents read back -/

/-- Documents the strict reader reads back from their compact text: null, truth values,
integers in range, strings, and arrays and objects of distinct names nested at most `height`
deep. -/
inductive Readable : Nat → Json → Prop
  | null {h : Nat} : Readable h .null
  | bool {h : Nat} {b : Bool} : Readable h (.bool b)
  | int {h : Nat} {n : Int} : CompactJson.inRange n = true → Readable h (.int n)
  | str {h : Nat} {t : Text} : Readable h (.str t)
  | arr {h : Nat} {items : List Json} : (∀ j ∈ items, Readable h j) → Readable (h + 1) (.arr items)
  | obj {h : Nat} {fields : List (Text × Json)} : (fields.map Prod.fst).Nodup →
      (∀ f ∈ fields, Readable h f.2) → Readable (h + 1) (.obj fields)

/-- The text of a document opens with a point that is no blank and closes no array. -/
def Opens (j : Json) : Prop :=
  ∀ s, write CompactJson.style j = .ok s →
    ∃ c more, pointsOf s = c :: more ∧ isSpace c = false ∧ c ≠ 0x5D

theorem pointsOf_items (a c : String) (cs : List Nat) :
    pointsOf (a ++ CompactJson.style.itemSeparator ++ c) ++ cs =
      pointsOf a ++ 0x2C :: (pointsOf c ++ cs) := by
  simp [pointsOf, CompactJson.style]

theorem pointsOf_array (body : String) (cs : List Nat) :
    pointsOf ("[" ++ body ++ "]") ++ cs = 0x5B :: (pointsOf body ++ 0x5D :: cs) := by
  simp [pointsOf]

theorem opens_of_readable {h : Nat} {j : Json} (hj : Readable h j) : Opens j := by
  intro s hw
  cases hj with
  | null =>
    cases hw
    exact ⟨_, _, rfl, rfl, by decide⟩
  | bool =>
    rename_i b
    cases b <;> cases hw <;> exact ⟨_, _, rfl, rfl, by decide⟩
  | int =>
    rename_i n _
    cases hw
    obtain ⟨c, cs, hcs⟩ := List.exists_cons_of_ne_nil (decimalPoints_ne_nil n.natAbs)
    have hc := isDigit_decimalPoints n.natAbs c (by rw [hcs]; exact List.mem_cons_self)
    obtain ⟨hspace, -⟩ := numberHead (.inr hc)
    rw [pointsOf_intText]
    split
    · exact ⟨_, _, rfl, rfl, by decide⟩
    · refine ⟨c, cs, hcs, hspace, fun h => ?_⟩
      simp [h, isDigit] at hc
  | str =>
    obtain ⟨body, hbody⟩ := quote_head hw
    exact ⟨_, _, hbody, rfl, by decide⟩
  | arr =>
    rename_i items _
    cases hb : writeItems CompactJson.style items with
    | error e => simp [write, hb] at hw
    | ok body =>
      simp only [write, hb, except_ok_bind, except_pure, Except.ok.injEq] at hw
      subst hw
      exact ⟨_, _, by simpa using pointsOf_array body [], rfl, by decide⟩
  | obj =>
    rename_i fields _ _
    cases hb : writeFields CompactJson.style fields with
    | error e => simp [write, hb] at hw
    | ok body =>
      simp only [write, hb, except_ok_bind, except_pure, Except.ok.injEq] at hw
      subst hw
      exact ⟨_, _, by simpa using pointsOf_object body [], rfl, by decide⟩

/-- Written items open with the text of the first. -/
theorem writeItems_head {js : List Json} (hjs : js ≠ []) (hopen : ∀ j ∈ js, Opens j)
    {body : String} (hw : writeItems CompactJson.style js = .ok body) (cs : List Nat) :
    ∃ c more, pointsOf body ++ cs = c :: more ∧ isSpace c = false ∧ c ≠ 0x5D := by
  obtain ⟨j, js, rfl⟩ := List.exists_cons_of_ne_nil hjs
  cases hj : write CompactJson.style j with
  | error e => cases js <;> simp [writeItems, hj] at hw
  | ok a =>
    obtain ⟨c, more, hc, hspace, hclose⟩ := hopen j List.mem_cons_self a hj
    cases js with
    | nil =>
      simp only [writeItems, hj, Except.ok.injEq] at hw
      subst hw
      exact ⟨c, more ++ cs, by rw [hc, List.cons_append], hspace, hclose⟩
    | cons j' js =>
      cases hrest : writeItems CompactJson.style (j' :: js) with
      | error e => simp [writeItems, hj, hrest] at hw
      | ok b =>
        simp only [writeItems, hj, hrest, except_ok_bind, except_pure, Except.ok.injEq] at hw
        subst hw
        exact ⟨c, _, by rw [pointsOf_items, hc, List.cons_append], hspace, hclose⟩

/-- The items of an array, written and followed by the closing bracket, are read back after
those already read. -/
theorem items_writeItems (d : Dialect) (depth : Nat) :
    ∀ (js acc : List Json) (body : String) (fuel : Nat) (rest : List Nat),
      js ≠ [] → (∀ j ∈ js, ReadsBack d depth j) →
      writeItems CompactJson.style js = .ok body → body.length < fuel →
      items d fuel depth acc (pointsOf body ++ 0x5D :: rest) = .ok (.arr (acc.reverse ++ js), rest)
  | [], _, _, _, _, hne, _, _, _ => absurd rfl hne
  | _ :: _, _, _, 0, _, _, _, _, hfuel => absurd hfuel (Nat.not_lt_zero _)
  | j :: js, acc, body, fuel + 1, rest, _, hvals, hw, hfuel => by
    have hread : ReadsBack d depth j := hvals j List.mem_cons_self
    cases hj : write CompactJson.style j with
    | error e => cases js <;> simp [writeItems, hj] at hw
    | ok a =>
    cases js with
    | nil =>
      -- the last item: the closing bracket follows it
      simp only [writeItems, hj, Except.ok.injEq] at hw
      subst hw
      rw [items, hread a hj fuel _ (by omega) (follows_bracket rest)]
      simp [skipSpace_cons (c := 0x5D) (by decide)]
    | cons j' js =>
      -- an item followed by more: a comma, then the rest read with this one recorded
      cases hc : writeItems CompactJson.style (j' :: js) with
      | error e => simp [writeItems, hj, hc] at hw
      | ok c =>
      simp only [writeItems, hj, hc, except_ok_bind, except_pure, Except.ok.injEq] at hw
      subst hw
      have hlen : a.length ≤ fuel ∧ c.length < fuel := by
        simp only [CompactJson.style, String.length_append] at hfuel
        have : ",".length = 1 := rfl
        omega
      rw [pointsOf_items, items, hread a hj fuel _ hlen.1 (follows_comma _)]
      simp only [skipSpace_cons (c := 0x2C) (by decide)]
      rw [items_writeItems d depth (j' :: js) (j :: acc) c fuel rest (List.cons_ne_nil _ _)
        (fun g hg => hvals g (List.mem_cons_of_mem _ hg)) hc hlen.2]
      simp

/-- An array below the deepest nesting is read back when its items are, one level deeper. -/
theorem readsBack_arr (d : Dialect) {depth : Nat} (hdepth : depth < d.maxDepth)
    {js : List Json} (hopen : ∀ j ∈ js, Opens j) (hitems : ∀ j ∈ js, ReadsBack d (depth + 1) j) :
    ReadsBack d depth (.arr js) := by
  intro s hw fuel rest hfuel _
  cases hb : writeItems CompactJson.style js with
  | error e => simp [write, hb] at hw
  | ok body =>
  simp only [write, hb, except_ok_bind, except_pure, Except.ok.injEq] at hw
  subst hw
  have hlen : body.length + 2 = ("[" ++ body ++ "]").length := by
    have h1 : "[".length = 1 := rfl
    have h2 : "]".length = 1 := rfl
    simp only [String.length_append, h1, h2]
    omega
  obtain ⟨fuel, rfl⟩ : ∃ f, fuel = f + 1 := ⟨fuel - 1, by omega⟩
  rw [pointsOf_array, value, skipSpace_cons (by decide)]
  simp only [show ((0x5B : Nat) == 0x22) = false from rfl, beq_self_eq_true, if_true,
    Bool.false_eq_true, if_false, if_neg (show ¬ depth ≥ d.maxDepth by omega)]
  cases js with
  | nil =>
    simp only [writeItems, Except.ok.injEq] at hb
    subst hb
    rfl
  | cons j js =>
    obtain ⟨c, more, hmore, hspace, hclose⟩ :=
      writeItems_head (List.cons_ne_nil j js) hopen hb (0x5D :: rest)
    rw [hmore, skipSpace_cons hspace]
    split
    · -- the items open with a value, not a closing bracket
      rename_i heq
      exact absurd (List.cons.inj heq).1 hclose
    · rw [← hmore, items_writeItems d (depth + 1) (j :: js) [] body fuel rest
        (List.cons_ne_nil j js) hitems hb (by omega)]
      rfl

/-- A document whose text is read back at any fuel, whatever may follow it, reads back. -/
theorem readsBack_of_value {d : Dialect} {depth : Nat} {j : Json} {s : String}
    (hw : write CompactJson.style j = .ok s) (hs : pointsOf s ≠ [])
    (hread : ∀ fuel rest, Follows rest → value d (fuel + 1) depth (pointsOf s ++ rest) = .ok (j, rest)) :
    ReadsBack d depth j := by
  intro s' hw' fuel rest hfuel hrest
  rw [hw, Except.ok.injEq] at hw'
  subst hw'
  have hlen : (pointsOf s).length = s.length := by simp [pointsOf, String.length_toList]
  obtain ⟨fuel, rfl⟩ : ∃ f, fuel = f + 1 :=
    ⟨fuel - 1, by have := List.length_pos_of_ne_nil hs; omega⟩
  exact hread fuel rest hrest

/-- A readable document nested `h` deep is read back at any depth that leaves room for `h`
more levels. -/
theorem readsBack_of_readable {h : Nat} {j : Json} (hj : Readable h j) :
    ∀ depth, depth + h < CompactJson.dialect.maxDepth → ReadsBack CompactJson.dialect depth j := by
  induction hj with
  | null => exact fun _ _ => readsBack_of_value rfl (by decide) fun _ _ _ => value_null ..
  | bool =>
    rename_i b
    cases b
    · exact fun _ _ => readsBack_of_value rfl (by decide) fun _ _ _ => value_false ..
    · exact fun _ _ => readsBack_of_value rfl (by decide) fun _ _ _ => value_true ..
  | int hn =>
    exact fun _ _ => readsBack_of_value rfl
      (by rw [pointsOf_intText]; split <;> simp)
      fun fuel _ hrest => value_intText hn fuel _ hrest
  | str => exact fun depth _ => readsBack_str _ depth _
  | arr hitems ih =>
    exact fun depth hdepth => readsBack_arr _ (by omega)
      (fun g hg => opens_of_readable (hitems g hg)) fun g hg => ih g hg (depth + 1) (by omega)
  | obj hnd _ ih =>
    exact fun depth hdepth => readsBack_obj _ (by omega) hnd fun g hg => ih g hg (depth + 1) (by omega)

end Json

namespace CompactJson

open Json

/-- A readable document nested less than 1024 deep is read back from its compact text. -/
theorem decodeText_readable {h : Nat} {j : Json} (hj : Readable h j) (hh : h < 1024) {s : String}
    (hw : write j = .ok s) : decodeText (Text.ofString s) = .ok (ofJson j) :=
  decodeText_of_readsBack (readsBack_of_readable hj 0 (by simp [dialect]; omega)) hw

end CompactJson

end Strongbox

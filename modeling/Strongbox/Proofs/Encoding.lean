import Strongbox.Entry.Record
import Mathlib.Tactic.SplitIfs

/-!
# Encodings read back what they write

Records are stored as compact JSON whose fields hold base64 text, so every record the vault
writes must be read back as itself. Here: strict base64 decoding inverts encoding, and the
reader, given any dialect that allows the nesting, reads back a compactly written document made
of strings and objects with distinct names (`Json.Textual`), as long as every text in it is a
string, free of lone surrogates (`Text.IsString`).
-/

namespace Strongbox

/-! ## Steps of computations that may fail -/

section ExceptSteps

variable {ε α β : Type}

@[simp] theorem except_ok_bind (a : α) (f : α → Except ε β) : (Except.ok a >>= f) = f a := rfl

@[simp] theorem except_error_bind (e : ε) (f : α → Except ε β) :
    (Except.error e >>= f : Except ε β) = .error e := rfl

@[simp] theorem except_map_ok (f : α → β) (a : α) :
    (f <$> (Except.ok a : Except ε α)) = .ok (f a) := rfl

@[simp] theorem except_map_error (f : α → β) (e : ε) :
    (f <$> (Except.error e : Except ε α)) = .error e := rfl

@[simp] theorem except_pure (a : α) : (pure a : Except ε α) = .ok a := rfl

end ExceptSteps

namespace Text

/-- Every code point is a Unicode scalar value: the text is a string, with a UTF-8 form. -/
def IsString (t : Text) : Prop := ∀ c ∈ t.points, isSurrogate c = false ∧ c < 0x110000

instance (t : Text) : Decidable t.IsString :=
  inferInstanceAs (Decidable (∀ c ∈ t.points, _))

theorem isString_iff_toString? {t : Text} : t.IsString ↔ t.toString?.isSome := by
  simp [IsString, toString?]

/-- The code point of a character is never a surrogate. -/
theorem isSurrogate_toNat (c : Char) : isSurrogate c.toNat = false := by
  have := c.valid
  simp [Nat.isValidChar, UInt32.isValidChar] at this
  simp [isSurrogate]
  omega

theorem toNat_lt (c : Char) : c.toNat < 0x110000 := by
  have := c.valid
  simp [Nat.isValidChar, UInt32.isValidChar] at this
  omega

theorem isString_ofString (s : String) : (ofString s).IsString := by
  intro c hc
  simp only [ofString, List.mem_map] at hc
  obtain ⟨ch, -, rfl⟩ := hc
  exact ⟨isSurrogate_toNat ch, toNat_lt ch⟩

end Text

namespace Base64

/-! ## Base64 -/

theorem valueOf_charOf : ∀ n < 64, valueOf (charOf n).toNat = some n := by decide +kernel

theorem charOf_ne_pad : ∀ n < 64, (charOf n).toNat ≠ 0x3D := by decide +kernel

theorem charOf_lt_128 : ∀ n < 64, (charOf n).toNat < 128 := by decide +kernel

/-- An alphabet character goes into the group. -/
theorem run_charOf {strict : Bool} {n : Nat} (hn : n < 64) {s : State} (hp : s.padding = false)
    (rest : List Nat) : run strict s ((charOf n).toNat :: rest) = run strict (s.push n) rest := by
  simp [run, charOf_ne_pad n hn, valueOf_charOf n hn, hp]

/-- Decoding, strict or not, reads each group of four back into its bytes; the state carries
only the bytes so far between groups. -/
theorem run_encodeList (strict : Bool) (l : List UInt8) (s : State) (hq : s.quad = 0)
    (hp : s.padding = false) :
    run strict s ((encodeList l).map Char.toNat) = .ok ⟨(s.out.reverse ++ l).toArray⟩ := by
  induction l using encodeList.induct generalizing s with
  | case1 => simp [encodeList, run, State.finish, hq]
  | case2 a =>
    have ha := a.toNat_lt
    simp only [encodeList, List.map_cons, List.map_nil]
    rw [run_charOf (by omega) hp, run_charOf (by omega) (by simp [State.push, hq, hp])]
    simp [run, State.push, hq]
    apply UInt8.toNat_inj.mp
    simp
    omega
  | case3 a b =>
    have ha := a.toNat_lt
    have hb := b.toNat_lt
    simp only [encodeList, List.map_cons, List.map_nil]
    rw [run_charOf (by omega) hp, run_charOf (by omega) (by simp [State.push, hq, hp]),
      run_charOf (by omega) (by simp [State.push, hq, hp])]
    simp [run, State.push, hq]
    constructor
    all_goals
      apply UInt8.toNat_inj.mp
      simp
      omega
  | case4 a b c rest ih =>
    have ha := a.toNat_lt
    have hb := b.toNat_lt
    have hc := c.toNat_lt
    simp only [encodeList, List.map_cons]
    rw [run_charOf (by omega) hp, run_charOf (by omega) (by simp [State.push, hq, hp]),
      run_charOf (by omega) (by simp [State.push, hq, hp]),
      run_charOf (by omega) (by simp [State.push, hq, hp]), ih _ (by simp [State.push, hq])
      (by simp [State.push, hq, hp])]
    simp [State.push, hq]
    refine ⟨?_, ?_, ?_⟩
    all_goals
      apply UInt8.toNat_inj.mp
      simp
      omega

theorem encodeList_ascii (l : List UInt8) : ∀ c ∈ encodeList l, c.toNat < 128 := by
  induction l using encodeList.induct with
  | case1 => simp [encodeList]
  | case2 a =>
    have ha := a.toNat_lt
    simp only [encodeList, List.mem_cons, List.mem_nil_iff, or_false]
    rintro c (rfl | rfl | rfl | rfl) <;> first | decide | exact charOf_lt_128 _ (by omega)
  | case3 a b =>
    have ha := a.toNat_lt
    have hb := b.toNat_lt
    simp only [encodeList, List.mem_cons, List.mem_nil_iff, or_false]
    rintro c (rfl | rfl | rfl | rfl) <;> first | decide | exact charOf_lt_128 _ (by omega)
  | case4 a b c rest ih =>
    have ha := a.toNat_lt
    have hb := b.toNat_lt
    have hc := c.toNat_lt
    simp only [encodeList, List.mem_cons]
    rintro x (rfl | rfl | rfl | rfl | hx)
    any_goals exact charOf_lt_128 _ (by omega)
    exact ih x hx

/-- Encoded text never begins with padding. -/
theorem head_encodeList (l : List UInt8) :
    ((encodeList l).map Char.toNat).head? ≠ some 0x3D := by
  induction l using encodeList.induct with
  | case1 => simp [encodeList]
  | case2 a =>
    have ha := a.toNat_lt
    simp [encodeList, charOf_ne_pad _ (by omega : a.toNat * 65536 / 262144 < 64)]
  | case3 a b =>
    have ha := a.toNat_lt
    have hb := b.toNat_lt
    simp [encodeList, charOf_ne_pad _ (by omega : (a.toNat * 65536 + b.toNat * 256) / 262144 < 64)]
  | case4 a b c rest =>
    have ha := a.toNat_lt
    have hb := b.toNat_lt
    have hc := c.toNat_lt
    simp [encodeList, charOf_ne_pad _
      (by omega : (a.toNat * 65536 + b.toNat * 256 + c.toNat) / 262144 < 64)]

/-- Decoding, strict or not, inverts encoding. -/
theorem decodePoints_encode (strict : Bool) (b : ByteArray) :
    decodePoints strict (Text.ofString (encode b)).points = .ok b := by
  have hpts : (Text.ofString (encode b)).points = (encodeList b.data.toList).map Char.toNat := by
    simp [Text.ofString, encode]
  have hascii : ((encodeList b.data.toList).map Char.toNat).any (· ≥ 128) = false := by
    simp only [List.any_map, List.any_eq_false, Function.comp_apply, decide_eq_true_eq]
    intro c hc
    have := encodeList_ascii _ c hc
    omega
  rw [decodePoints, hpts, if_neg (by simp [hascii]), if_neg (fun h => head_encodeList _ h.2),
    run_encodeList strict _ {} rfl rfl]
  simp

end Base64

namespace Json

/-! ## Strings -/

/-- A scalar code point: not a surrogate and within Unicode. -/
theorem toNat_ofNat_scalar {c : Nat} (hs : Text.isSurrogate c = false) (hc : c < 0x110000) :
    (Char.ofNat c).toNat = c := by
  have hvalid : c.isValidChar := by
    simp [Text.isSurrogate] at hs
    simp [Nat.isValidChar]
    omega
  rw [Char.ofNat, dif_pos hvalid]
  rfl

theorem digitValue_digit : ∀ n < 16, Hex.digitValue? (Char.ofNat (Hex.digit n).toNat) = some n := by
  decide +kernel

namespace Reader

theorem hex4_unicodeEscape {c : Nat} (hc : c < 0x10000) (rest : List Nat) :
    hex4 (((List.range 4).reverse.map fun i => Hex.digit (c / Nat.pow 16 i % 16)).map Char.toNat ++ rest) =
      some (c, rest) := by
  simp only [List.range_succ, List.range_zero, List.nil_append, List.reverse_cons,
    List.reverse_nil, List.map_cons, List.map_nil, List.cons_append]
  simp only [hex4, digitValue_digit _ (Nat.mod_lt _ (by decide : 0 < 16)), Option.bind_some,
    Option.pure_def, bind, Option.some.injEq, Prod.mk.injEq, and_true, Nat.pow_eq]
  omega

theorem escape_unicodeEscape (d : Dialect) {c : Nat} (hc : c < 0x20) (rest : List Nat) :
    escape d (((Writer.unicodeEscape c).map Char.toNat).drop 1 ++ rest) = .ok (c, rest) := by
  simp only [Writer.unicodeEscape, List.map_cons, List.drop_succ_cons, List.drop_zero,
    List.cons_append]
  rw [escape]
  simp only [show (Char.toNat 'u') = 0x75 from rfl, hex4_unicodeEscape (by omega : c < 0x10000)]
  simp
  rw [if_neg (by omega), if_neg (by omega)]

/-- Each written code point is read back as itself, for one unit of fuel. -/
theorem stringBody_escapePoint (d : Dialect) {c : Nat} (hs : Text.isSurrogate c = false)
    (hc : c < 0x110000) (fuel : Nat) (acc rest : List Nat) :
    stringBody d (fuel + 1) acc ((Writer.escapePoint false c).map Char.toNat ++ rest) =
      stringBody d fuel (c :: acc) rest := by
  -- escaping beyond ASCII is off
  simp only [Writer.escapePoint, Bool.false_eq_true, false_and, if_false]
  split_ifs with h1 h2 h3 h4 h5 h6 h7 h8
  -- the short escapes
  any_goals (subst c; rfl)
  · -- the other control characters, as four hexadecimal digits
    have hlead : (Writer.unicodeEscape c).map Char.toNat =
        0x5C :: ((Writer.unicodeEscape c).map Char.toNat).drop 1 := rfl
    rw [hlead, List.cons_append, stringBody, if_neg (by decide), if_pos (by decide),
      escape_unicodeEscape d h8]
  · -- a character that stands for itself
    simp only [List.map_cons, List.map_nil, toNat_ofNat_scalar hs hc, List.cons_append,
      List.nil_append]
    rw [stringBody, if_neg (by simpa using h1), if_neg (by simpa using h2), if_neg h8]

theorem length_escapePoint_pos (a : Bool) (c : Nat) : 0 < (Writer.escapePoint a c).length := by
  unfold Writer.escapePoint
  split_ifs <;> simp [Writer.unicodeEscape]

theorem length_le_flatMap_escapePoint (a : Bool) (pts : List Nat) :
    pts.length ≤ (pts.flatMap (Writer.escapePoint a)).length := by
  induction pts with
  | nil => simp
  | cons c pts ih =>
    have := length_escapePoint_pos a c
    rw [List.flatMap_cons, List.length_append, List.length_cons]
    omega

/-- A text's written body, then the closing quote, is read back as the text. -/
theorem stringBody_points (d : Dialect) (pts : List Nat)
    (hpts : ∀ c ∈ pts, Text.isSurrogate c = false ∧ c < 0x110000) (fuel : Nat) (acc rest : List Nat)
    (hfuel : pts.length < fuel) :
    stringBody d fuel acc
      ((pts.flatMap (Writer.escapePoint false)).map Char.toNat ++ 0x22 :: rest) =
      .ok (⟨acc.reverse ++ pts⟩, rest) := by
  induction pts generalizing fuel acc with
  | nil =>
    obtain ⟨fuel, rfl⟩ : ∃ f, fuel = f + 1 := ⟨fuel - 1, by simp at hfuel; omega⟩
    simp [stringBody]
  | cons c pts ih =>
    obtain ⟨fuel, rfl⟩ : ∃ f, fuel = f + 1 := ⟨fuel - 1, by simp at hfuel; omega⟩
    obtain ⟨hs, hc⟩ := hpts c (by simp)
    rw [List.flatMap_cons, List.map_append, List.append_assoc, stringBody_escapePoint d hs hc,
      ih (fun c h => hpts c (by simp [h])) _ _ (by simp at hfuel; omega)]
    simp

theorem skipSpace_cons {c : Nat} (h : isSpace c = false) (cs : List Nat) :
    skipSpace (c :: cs) = c :: cs := by
  simp [skipSpace, h]

end Reader

/-! ## Documents of text -/

/-- Documents made of text: strings, and objects of distinct names nested at most `height`
deep. Records are written as such documents. -/
inductive Textual : Nat → Json → Prop
  | str {h : Nat} {t : Text} : Textual h (.str t)
  | obj {h : Nat} {fields : List (Text × Json)} : (fields.map Prod.fst).Nodup →
      (∀ f ∈ fields, Textual h f.2) → Textual (h + 1) (.obj fields)

open Reader Writer

/-- The code points of a written string. -/
abbrev pointsOf (s : String) : List Nat := s.toList.map Char.toNat

/-- Compactly written text is a string, written with its quotes. -/
theorem quote_compact {t : Text} {s : String} (hq : quote CompactJson.style t = .ok s) :
    t.IsString ∧ s = String.ofList ('"' :: t.points.flatMap (escapePoint false) ++ ['"']) := by
  unfold quote at hq
  split at hq
  · cases hq
  · rename_i hno
    cases hq
    refine ⟨fun c hc => ?_, rfl⟩
    simp only [CompactJson.style, Bool.not_false, Bool.true_and, List.any_eq_true, Bool.or_eq_true,
      decide_eq_true_eq, not_exists, not_and, not_or] at hno
    have := hno c hc
    exact ⟨by simpa using this.1, by omega⟩

/-- A written string begins with a quote, and its body with the closing quote is read back as
the text, whatever follows. -/
theorem quote_read (d : Dialect) {t : Text} {s : String}
    (hw : quote CompactJson.style t = .ok s) (rest : List Nat) :
    ∃ body, pointsOf s ++ rest = 0x22 :: body ∧ t.points.length < body.length ∧
      stringBody d (body.length + 1) [] body = .ok (t, rest) := by
  obtain ⟨ht, rfl⟩ := quote_compact hw
  have hlen := length_le_flatMap_escapePoint false t.points
  refine ⟨(t.points.flatMap (escapePoint false)).map Char.toNat ++ 0x22 :: rest, ?_, ?_, ?_⟩
  · simp [pointsOf]
  · simp only [List.length_append, List.length_cons, List.length_map]
    omega
  · rw [stringBody_points d t.points ht _ _ _
      (by simp only [List.length_append, List.length_cons, List.length_map]; omega)]
    rfl

/-- A written string is read back as its text, whatever follows it. -/
theorem value_quote (d : Dialect) {t : Text} {s : String}
    (hw : quote CompactJson.style t = .ok s) (fuel depth : Nat) (rest : List Nat) :
    value d (fuel + 1) depth (pointsOf s ++ rest) = .ok (.str t, rest) := by
  obtain ⟨body, hs, -, hread⟩ := quote_read d hw rest
  rw [hs, value, skipSpace_cons (by decide)]
  simp only [beq_self_eq_true, if_true, hread]
  rfl

/-- What may follow a value in a compact document: the end, a comma, or the closing bracket or
brace of what holds it. -/
def Follows (rest : List Nat) : Prop := ∀ c ∈ rest.head?, c = 0x2C ∨ c = 0x5D ∨ c = 0x7D

theorem follows_nil : Follows [] := fun _ h => by cases h

theorem follows_comma (cs : List Nat) : Follows (0x2C :: cs) := fun _ h => by
  cases h
  exact .inl rfl

theorem follows_bracket (cs : List Nat) : Follows (0x5D :: cs) := fun _ h => by
  cases h
  exact .inr (.inl rfl)

theorem follows_brace (cs : List Nat) : Follows (0x7D :: cs) := fun _ h => by
  cases h
  exact .inr (.inr rfl)

/-- What the items of a document need of themselves: written, each is read back before
whatever may follow it, given fuel as long as its text. -/
def ReadsBack (d : Dialect) (depth : Nat) (j : Json) : Prop :=
  ∀ s, write CompactJson.style j = .ok s → ∀ fuel rest, s.length ≤ fuel → Follows rest →
    value d fuel depth (pointsOf s ++ rest) = .ok (j, rest)

theorem setField_fresh {fs : List (Text × Json)} {k : Text} (hk : k ∉ fs.map Prod.fst)
    (v : Json) : setField fs k v = fs ++ [(k, v)] := by
  rw [setField, if_neg]
  simpa using hk

/-- One field of an object: its name is read, then after the colon its value. -/
theorem fields_name (d : Dialect) {k : Text} {a : String}
    (hq : quote CompactJson.style k = .ok a) (fuel depth : Nat) (acc : List (Text × Json))
    (cs : List Nat) :
    fields d (fuel + 1) depth acc (pointsOf a ++ 0x3A :: cs) =
      match value d fuel depth cs with
      | .error e => .error e
      | .ok (v, rest) =>
        match skipSpace rest with
        | 0x2C :: more => fields d fuel depth (setField acc k v) more
        | 0x7D :: more => .ok (.obj (setField acc k v), more)
        | c :: _ => .error (.unexpected c)
        | [] => .error .unexpectedEnd := by
  obtain ⟨body, hs, -, hread⟩ := quote_read d hq (0x3A :: cs)
  rw [fields, hs, skipSpace_cons (by decide)]
  simp only [hread]
  rfl

theorem pointsOf_field (a b : String) (cs : List Nat) :
    pointsOf (a ++ CompactJson.style.nameSeparator ++ b) ++ cs =
      pointsOf a ++ 0x3A :: (pointsOf b ++ cs) := by
  simp [pointsOf, CompactJson.style]

theorem pointsOf_fields (a b c : String) (cs : List Nat) :
    pointsOf (a ++ CompactJson.style.nameSeparator ++ b ++ CompactJson.style.itemSeparator ++ c) ++
      cs = pointsOf a ++ 0x3A :: (pointsOf b ++ 0x2C :: (pointsOf c ++ cs)) := by
  simp [pointsOf, CompactJson.style]

/-- The fields of an object, written and followed by the closing brace, are read back after
those already read, each name new. -/
theorem fields_writeFields (d : Dialect) (depth : Nat) :
    ∀ (fs acc : List (Text × Json)) (body : String) (fuel : Nat) (rest : List Nat),
      fs ≠ [] → (fs.map Prod.fst).Nodup →
      (∀ f ∈ fs, f.1 ∉ acc.map Prod.fst) → (∀ f ∈ fs, ReadsBack d depth f.2) →
      writeFields CompactJson.style fs = .ok body → body.length < fuel →
      fields d fuel depth acc (pointsOf body ++ 0x7D :: rest) = .ok (.obj (acc ++ fs), rest)
  | [], _, _, _, _, hne, _, _, _, _, _ => absurd rfl hne
  | _ :: _, _, _, 0, _, _, _, _, _, _, hfuel => absurd hfuel (Nat.not_lt_zero _)
  | (k, j) :: fs, acc, body, fuel + 1, rest, _, hnd, hacc, hvals, hw, hfuel => by
    have hfresh : k ∉ acc.map Prod.fst := hacc (k, j) (by simp)
    cases hq : quote CompactJson.style k with
    | error e => cases fs <;> simp [writeFields, hq] at hw
    | ok a =>
    cases hj : write CompactJson.style j with
    | error e => cases fs <;> simp [writeFields, hq, hj] at hw
    | ok b =>
    cases fs with
    | nil =>
      -- the last field: the closing brace follows its value
      simp only [writeFields, hq, hj, except_ok_bind, except_pure, Except.ok.injEq] at hw
      subst hw
      have hread : ReadsBack d depth j := hvals (k, j) (by simp)
      have hlen : b.length ≤ fuel := by
        simp [CompactJson.style] at hfuel
        omega
      rw [pointsOf_field, fields_name d hq, hread b hj fuel _ hlen (follows_brace rest)]
      simp only [skipSpace_cons (c := 0x7D) (by decide), setField_fresh hfresh]
    | cons f fs =>
      -- a field followed by more: a comma, then the rest read with this one recorded
      cases hc : writeFields CompactJson.style (f :: fs) with
      | error e => simp [writeFields, hq, hj, hc] at hw
      | ok c =>
      simp only [writeFields, hq, hj, hc, except_ok_bind, except_pure, Except.ok.injEq] at hw
      subst hw
      have hread : ReadsBack d depth j := hvals (k, j) (by simp)
      have hlen : b.length ≤ fuel ∧ c.length < fuel := by
        simp only [CompactJson.style, String.length_append] at hfuel
        have : ",".length = 1 := rfl
        omega
      have hnd' := List.nodup_cons.mp hnd
      rw [pointsOf_fields, fields_name d hq, hread b hj fuel _ hlen.1 (follows_comma _)]
      simp only [skipSpace_cons (c := 0x2C) (by decide), setField_fresh hfresh]
      rw [fields_writeFields d depth (f :: fs) (acc ++ [(k, j)]) c fuel rest (List.cons_ne_nil _ _)
        hnd'.2 ?_
        (fun g hg => hvals g (List.mem_cons_of_mem _ hg)) hc hlen.2]
      · simp
      · intro g hg
        simp only [List.map_append, List.map_cons, List.map_nil, List.mem_append, List.mem_singleton,
          not_or]
        exact ⟨hacc g (List.mem_cons_of_mem _ hg), fun h => hnd'.1 (by simpa [← h] using List.mem_map_of_mem (f := Prod.fst) hg)⟩

/-- Written text begins with its opening quote. -/
theorem quote_head {st : Style} {t : Text} {a : String} (hq : quote st t = .ok a) :
    ∃ body, pointsOf a = 0x22 :: body := by
  unfold quote at hq
  split at hq
  · cases hq
  · cases hq
    exact ⟨_, by simp [pointsOf]; rfl⟩

/-- Written fields begin with the quote of the first name. -/
theorem writeFields_head {fs : List (Text × Json)} (hfs : fs ≠ []) {body : String}
    (hw : writeFields CompactJson.style fs = .ok body) (cs : List Nat) :
    ∃ more, pointsOf body ++ cs = 0x22 :: more := by
  obtain ⟨⟨k, j⟩, fs, rfl⟩ := List.exists_cons_of_ne_nil hfs
  cases hq : quote CompactJson.style k with
  | error e => cases fs <;> simp [writeFields, hq] at hw
  | ok a =>
    obtain ⟨qa, hqa⟩ := quote_head hq
    cases hj : write CompactJson.style j with
    | error e => cases fs <;> simp [writeFields, hq, hj] at hw
    | ok b =>
      cases fs with
      | nil =>
        simp only [writeFields, hq, hj, except_ok_bind, except_pure, Except.ok.injEq] at hw
        subst hw
        exact ⟨_, by rw [pointsOf_field, hqa, List.cons_append]⟩
      | cons f fs =>
        cases hc : writeFields CompactJson.style (f :: fs) with
        | error e => simp [writeFields, hq, hj, hc] at hw
        | ok c =>
          simp only [writeFields, hq, hj, hc, except_ok_bind, except_pure, Except.ok.injEq] at hw
          subst hw
          exact ⟨_, by rw [pointsOf_fields, hqa, List.cons_append]⟩

theorem pointsOf_object (body : String) (cs : List Nat) :
    pointsOf ("\x7b" ++ body ++ "\x7d") ++ cs = 0x7B :: (pointsOf body ++ 0x7D :: cs) := by
  simp [pointsOf]

/-- A written string is read back whatever follows it. -/
theorem readsBack_str (d : Dialect) (depth : Nat) (t : Text) : ReadsBack d depth (.str t) := by
  intro s hw fuel rest hfuel _
  obtain ⟨qa, hqa⟩ := quote_head hw
  have hlen : s.length = (pointsOf s).length := by simp [pointsOf, String.length_toList]
  obtain ⟨fuel, rfl⟩ : ∃ f, fuel = f + 1 := ⟨fuel - 1, by rw [hqa] at hlen; simp at hlen; omega⟩
  exact value_quote d hw fuel depth rest

/-- An object of distinct names, below the deepest nesting, is read back when its values are,
one level deeper. -/
theorem readsBack_obj (d : Dialect) {depth : Nat} (hdepth : depth < d.maxDepth)
    {fs : List (Text × Json)} (hnd : (fs.map Prod.fst).Nodup)
    (hvals : ∀ f ∈ fs, ReadsBack d (depth + 1) f.2) : ReadsBack d depth (.obj fs) := by
  intro s hw fuel rest hfuel _
  cases hb : writeFields CompactJson.style fs with
  | error e => simp [write, hb] at hw
  | ok body =>
  simp only [write, hb, except_ok_bind, except_pure, Except.ok.injEq] at hw
  subst hw
  have hlen : body.length + 2 = ("\x7b" ++ body ++ "\x7d").length := by
    have h1 : "\x7b".length = 1 := rfl
    have h2 : "\x7d".length = 1 := rfl
    simp only [String.length_append, h1, h2]
    omega
  obtain ⟨fuel, rfl⟩ : ∃ f, fuel = f + 1 := ⟨fuel - 1, by omega⟩
  rw [pointsOf_object, value, skipSpace_cons (by decide)]
  simp only [show ((0x7B : Nat) == 0x22) = false from rfl, show ((0x7B : Nat) == 0x5B) = false from rfl,
    beq_self_eq_true, if_true, Bool.false_eq_true, if_false, if_neg (show ¬ depth ≥ d.maxDepth by omega)]
  cases fs with
  | nil =>
    simp only [writeFields, Except.ok.injEq] at hb
    subst hb
    rfl
  | cons f fs =>
    obtain ⟨more, hmore⟩ := writeFields_head (List.cons_ne_nil f fs) hb (0x7D :: rest)
    rw [hmore, skipSpace_cons (by decide)]
    split
    · -- the fields begin with a quote, not a closing brace
      rename_i heq
      simp at heq
    · rw [← hmore, fields_writeFields d (depth + 1) (f :: fs) [] body fuel rest
        (List.cons_ne_nil f fs) hnd (by simp) hvals hb (by omega)]
      rfl

/-- A document of text nested `h` deep, written compactly, is read back at any depth that
leaves room for `h` more levels. -/
theorem readsBack_of_textual (d : Dialect) {h : Nat} {j : Json} (hj : Textual h j) :
    ∀ depth, depth + h < d.maxDepth → ReadsBack d depth j := by
  induction hj with
  | str => exact fun depth _ => readsBack_str d depth _
  | @obj h fs hnd hvals ih =>
    exact fun depth hdepth =>
      readsBack_obj d (by omega) hnd fun g hg => ih g hg (depth + 1) (by omega)

end Json

namespace CompactJson

open Json

/-- A document the strict reader reads back is read back from its compact text. -/
theorem decodeText_of_readsBack {j : Json} (hread : ReadsBack dialect 0 j) {s : String}
    (hw : write j = .ok s) : decodeText (Text.ofString s) = .ok (ofJson j) := by
  have hw' : Writer.write style j = .ok s := by
    unfold write writeWith at hw
    cases hj' : Writer.write style j <;> simp_all [Except.mapError]
  have hnone : (Text.ofString s).points.any Text.isSurrogate = false := by
    simp [Text.ofString, Text.isSurrogate_toNat]
  have hread := hread s hw' (4 * (pointsOf s).length + 4) []
    (by simp [pointsOf, String.length_toList]; omega) follows_nil
  rw [List.append_nil] at hread
  simp only [decodeText, hnone, Bool.false_eq_true, if_false, readText, readPoints]
  rw [show (Text.ofString s).points = pointsOf s from rfl, hread]
  rfl

/-- A document of text nested less than 1024 deep is read back from its compact text. -/
theorem decodeText_write {h : Nat} {j : Json} (hj : Textual h j) (hh : h < 1024) {s : String}
    (hw : write j = .ok s) : decodeText (Text.ofString s) = .ok (ofJson j) :=
  decodeText_of_readsBack (readsBack_of_textual dialect hj 0 (by simp [dialect]; omega)) hw

end CompactJson
end Strongbox

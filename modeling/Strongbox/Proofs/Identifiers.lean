import Mathlib
import Strongbox.Proofs.Addresses

/-!
# Identifiers of principals and spaces

The grammar of principal identifiers and space identifiers, said on characters (`Part`,
`WellFormed`) beside the checks that accept them. A part is a bounded run of characters of its
class and may end in one line feed: the patterns the checks come from anchor their end before a
final line feed, so `did:pkh:abc:1:x` followed by a line feed is the identifier of the address
`x` and a line feed.

Main statements: an identifier parses exactly when it is the identifier of a well-formed
principal, and then to that principal (`parse_eq_ok_iff`); a space identifier parses exactly
when it is a well-formed principal's identifier of a space under a scheme without `:`
(`parseSpaceId_eq_ok_iff`). Identifiers and space identifiers therefore read back to the parts
that built them (`identifiers_read_back`).
-/

namespace Strongbox

namespace Principal

/-! ## The grammar on characters -/

/-- A run of `lo` to `hi` characters of the class `cls`. -/
def Run (cls : Char → Prop) (lo hi : Nat) (s : String) : Prop :=
  lo ≤ s.length ∧ s.length ≤ hi ∧ ∀ c ∈ s.toList, cls c

/-- A part of an identifier: a run of its class, then at most one line feed, which the end
anchor of the part's pattern lets through. -/
def Part (cls : Char → Prop) (lo hi : Nat) (s : String) : Prop :=
  ∃ body : String, (s = body ∨ s = body ++ "\n") ∧ Run cls lo hi body

/-- A character of a chain namespace: a lowercase letter, a digit or `-`. -/
def NamespaceChar (c : Char) : Prop := c.isLower ∨ c.isDigit ∨ c = '-'

/-- A character of a chain id: a letter, a digit, `-` or `_`. -/
def ChainChar (c : Char) : Prop := c.isAlphanum ∨ c = '-' ∨ c = '_'

/-- A character of an account address: a letter, a digit, `-`, `.` or `%`. -/
def AddressChar (c : Char) : Prop := c.isAlphanum ∨ c = '-' ∨ c = '.' ∨ c = '%'

/-- A character of a space name: a letter, a digit, `-`, `_` or `.`. -/
def SpaceNameChar (c : Char) : Prop := c.isAlphanum ∨ c = '-' ∨ c = '_' ∨ c = '.'

/-- A hexadecimal digit, in either case. -/
def HexChar (c : Char) : Prop := c.isDigit ∨ ('a' ≤ c ∧ c ≤ 'f') ∨ ('A' ≤ c ∧ c ≤ 'F')

/-- An EVM account address: `0x` and forty hexadecimal digits, with at most one line feed. -/
def EvmAddress (s : String) : Prop := ∃ digits : String, s = "0x" ++ digits ∧ Part HexChar 40 40 digits

/-- A principal whose parts are parts of their classes: what parsing accepts. -/
structure WellFormed (p : Principal) : Prop where
  chainNamespace : Part NamespaceChar 3 8 p.chainNamespace
  chainId : Part ChainChar 1 32 p.chainId
  address : Part AddressChar 1 128 p.address
  evm : p.chainNamespace = "eip155" → EvmAddress p.address

/-- A principal whose parts are runs of their classes with nothing after them: the documented
grammar of identifiers. -/
structure Strict (p : Principal) : Prop where
  chainNamespace : Run NamespaceChar 3 8 p.chainNamespace
  chainId : Run ChainChar 1 32 p.chainId
  address : Run AddressChar 1 128 p.address
  evm : p.chainNamespace = "eip155" → ∃ digits, p.address = "0x" ++ digits ∧ Run HexChar 40 40 digits

/-! ## The checks decide the grammar -/

theorem part_iff_toList {cls : Char → Prop} {lo hi : Nat} (s : String) :
    Part cls lo hi s ↔ ∃ b : List Char, (s.toList = b ∨ s.toList = b ++ ['\n']) ∧
      lo ≤ b.length ∧ b.length ≤ hi ∧ ∀ c ∈ b, cls c := by
  constructor
  · rintro ⟨body, hs, h1, h2, h3⟩
    refine ⟨body.toList, ?_, by simpa [String.length_toList] using h1,
      by simpa [String.length_toList] using h2, h3⟩
    rcases hs with rfl | rfl
    · exact .inl rfl
    · exact .inr (by simp [String.toList_append])
  · rintro ⟨b, hs, h1, h2, h3⟩
    refine ⟨String.ofList b, ?_, by simpa using h1, by simpa using h2, by simpa using h3⟩
    rcases hs with hs | hs
    · exact .inl (String.toList_inj.mp (by simpa using hs))
    · exact .inr (String.toList_inj.mp (by simpa [String.toList_append] using hs))

theorem matchesPart_map_iff {ok : Char → Bool} {cls : Char → Prop}
    (hcls : ∀ c : Char, cls c ↔ c.toNat < 128 ∧ ok (Char.ofNat c.toNat) = true) (hlf : ¬ cls '\n')
    {lo hi : Nat} (l : List Char) :
    matchesPart ok lo hi ⟨l.map Char.toNat⟩ = true ↔
      ∃ b : List Char, (l = b ∨ l = b ++ ['\n']) ∧ lo ≤ b.length ∧ b.length ≤ hi ∧ ∀ c ∈ b, cls c := by
  -- the check on a run of characters, once the line feed is set apart
  have hrun : ∀ b : List Char, (lo ≤ (b.map Char.toNat).length && (b.map Char.toNat).length ≤ hi &&
      (b.map Char.toNat).all fun c => decide (c < 128) && ok (Char.ofNat c)) = true ↔
      lo ≤ b.length ∧ b.length ≤ hi ∧ ∀ c ∈ b, cls c := by
    intro b
    simp [hcls, and_assoc]
  have hnl : ∀ b : List Char, (∀ c ∈ b, cls c) → b.getLast? ≠ some '\n' := by
    intro b hb hlast
    exact hlf (hb _ (List.mem_of_getLast? hlast))
  unfold matchesPart
  dsimp only
  by_cases hl : l.getLast? = some '\n'
  · obtain ⟨b, rfl⟩ : ∃ b, l = b ++ ['\n'] := ⟨l.dropLast, (List.dropLast_append_getLast? _ hl).symm⟩
    have hlast : ((b ++ ['\n']).map Char.toNat).getLast? = some 0x0A := by simp
    rw [if_pos hlast, List.map_append, List.map_singleton, List.dropLast_concat, hrun]
    constructor
    · rintro ⟨h1, h2, h3⟩
      exact ⟨b, .inr rfl, h1, h2, h3⟩
    · rintro ⟨b', hb' | hb', h1, h2, h3⟩
      · exact absurd (hb' ▸ hl) (hnl b' h3)
      · obtain rfl := List.append_inj_left' hb' rfl
        exact ⟨h1, h2, h3⟩
  · have hlast : (l.map Char.toNat).getLast? ≠ some 0x0A := by
      rw [List.getLast?_map]
      intro h
      obtain ⟨c, hc, hc10⟩ := Option.map_eq_some_iff.mp h
      exact hl (hc.trans (congrArg some (Char.toNat_inj.mp hc10 : c = '\n')))
    rw [if_neg hlast, hrun]
    constructor
    · rintro ⟨h1, h2, h3⟩
      exact ⟨l, .inl rfl, h1, h2, h3⟩
    · rintro ⟨b', rfl | rfl, h1, h2, h3⟩
      · exact ⟨h1, h2, h3⟩
      · exact absurd (by simp) hl

/-- The check of a part accepts a string exactly when the string is a part of its class. -/
theorem matchesPart_ofString_iff {ok : Char → Bool} {cls : Char → Prop}
    (hcls : ∀ c : Char, cls c ↔ c.toNat < 128 ∧ ok (Char.ofNat c.toNat) = true) (hlf : ¬ cls '\n')
    {lo hi : Nat} (s : String) : matchesPart ok lo hi (Text.ofString s) = true ↔ Part cls lo hi s := by
  rw [Text.ofString, matchesPart_map_iff hcls hlf, part_iff_toList]

/-- Text that passes a part's check is ASCII and line feeds, so it is a string. -/
theorem ofString_toStringLossy_of_matchesPart {ok : Char → Bool} {lo hi : Nat} {t : Text}
    (h : matchesPart ok lo hi t = true) : Text.ofString t.toStringLossy = t := by
  have hpts : ∀ c ∈ t.points, c < 128 := fun c hc => by
    rcases mem_of_matchesPart h hc with rfl | ⟨hc, -⟩ <;> omega
  cases t with
  | mk pts =>
    simp only [Text.ofString, Text.toStringLossy, String.toList_ofList, List.map_map, Text.mk.injEq]
    refine List.map_congr_left (fun c hc => ?_) |>.trans (List.map_id _)
    have hc := hpts c hc
    simp [Text.isSurrogate, show ¬ 0xD800 ≤ c by omega, Text.toNat_charOfNat, Nat.isValidChar,
      show c < 0xd800 by omega]


/-! ## The classes of the checks -/

theorem namespaceChar_iff (c : Char) : NamespaceChar c ↔ c.toNat < 128 ∧
    ((fun c => ('a' ≤ c && c ≤ 'z') || isDigit c || c == '-') (Char.ofNat c.toNat)) = true := by
  simp only [NamespaceChar, Char.isLower, Char.isDigit, isDigit, Char.ofNat_toNat, Char.le_def,
    Char.ext_iff, ge_iff_le, Bool.or_eq_true, Bool.and_eq_true, decide_eq_true_eq, beq_iff_eq,
    UInt32.le_iff_toNat_le, ← UInt32.toNat_inj, Char.reduceVal, UInt32.reduceToNat]
  change _ ↔ c.val.toNat < 128 ∧ _
  omega

theorem chainChar_iff (c : Char) : ChainChar c ↔ c.toNat < 128 ∧
    ((fun c => isLetter c || isDigit c || c == '-' || c == '_') (Char.ofNat c.toNat)) = true := by
  simp only [ChainChar, Char.isAlphanum, Char.isAlpha, Char.isUpper, Char.isLower, Char.isDigit,
    isDigit, isLetter, Char.ofNat_toNat, Char.le_def, Char.ext_iff, ge_iff_le, Bool.or_eq_true,
    Bool.and_eq_true, decide_eq_true_eq, beq_iff_eq, UInt32.le_iff_toNat_le, ← UInt32.toNat_inj,
    Char.reduceVal, UInt32.reduceToNat]
  change _ ↔ c.val.toNat < 128 ∧ _
  omega

theorem addressChar_iff (c : Char) : AddressChar c ↔ c.toNat < 128 ∧
    ((fun c => isLetter c || isDigit c || c == '-' || c == '.' || c == '%') (Char.ofNat c.toNat)) =
      true := by
  simp only [AddressChar, Char.isAlphanum, Char.isAlpha, Char.isUpper, Char.isLower, Char.isDigit,
    isDigit, isLetter, Char.ofNat_toNat, Char.le_def, Char.ext_iff, ge_iff_le, Bool.or_eq_true,
    Bool.and_eq_true, decide_eq_true_eq, beq_iff_eq, UInt32.le_iff_toNat_le, ← UInt32.toNat_inj,
    Char.reduceVal, UInt32.reduceToNat]
  change _ ↔ c.val.toNat < 128 ∧ _
  omega

theorem spaceNameChar_iff (c : Char) : SpaceNameChar c ↔ c.toNat < 128 ∧
    ((fun c => isLetter c || isDigit c || c == '-' || c == '_' || c == '.') (Char.ofNat c.toNat)) =
      true := by
  simp only [SpaceNameChar, Char.isAlphanum, Char.isAlpha, Char.isUpper, Char.isLower, Char.isDigit,
    isDigit, isLetter, Char.ofNat_toNat, Char.le_def, Char.ext_iff, ge_iff_le, Bool.or_eq_true,
    Bool.and_eq_true, decide_eq_true_eq, beq_iff_eq, UInt32.le_iff_toNat_le, ← UInt32.toNat_inj,
    Char.reduceVal, UInt32.reduceToNat]
  change _ ↔ c.val.toNat < 128 ∧ _
  omega

theorem hexChar_iff (c : Char) : HexChar c ↔ c.toNat < 128 ∧
    ((fun c => isDigit c || ('a' ≤ c && c ≤ 'f') || ('A' ≤ c && c ≤ 'F')) (Char.ofNat c.toNat)) =
      true := by
  simp only [HexChar, Char.isDigit, isDigit, Char.ofNat_toNat, Char.le_def, ge_iff_le,
    Bool.or_eq_true, Bool.and_eq_true, decide_eq_true_eq, UInt32.le_iff_toNat_le,
    Char.reduceVal, UInt32.reduceToNat]
  change _ ↔ c.val.toNat < 128 ∧ _
  omega

theorem validNamespace_ofString_iff (s : String) :
    validNamespace (Text.ofString s) = true ↔ Part NamespaceChar 3 8 s :=
  matchesPart_ofString_iff namespaceChar_iff (by unfold NamespaceChar; decide) s

theorem validChain_ofString_iff (s : String) :
    validChain (Text.ofString s) = true ↔ Part ChainChar 1 32 s :=
  matchesPart_ofString_iff chainChar_iff (by unfold ChainChar; decide) s

theorem validAddress_ofString_iff (s : String) :
    validAddress (Text.ofString s) = true ↔ Part AddressChar 1 128 s :=
  matchesPart_ofString_iff addressChar_iff (by unfold AddressChar; decide) s

theorem validSpaceName_ofString_iff (s : String) :
    validSpaceName (Text.ofString s) = true ↔ Part SpaceNameChar 1 64 s :=
  matchesPart_ofString_iff spaceNameChar_iff (by unfold SpaceNameChar; decide) s


theorem validHex_ofString_iff (s : String) :
    matchesPart (fun c => isDigit c || ('a' ≤ c && c ≤ 'f') || ('A' ≤ c && c ≤ 'F')) 40 40
      (Text.ofString s) = true ↔ Part HexChar 40 40 s :=
  matchesPart_ofString_iff hexChar_iff (by unfold HexChar; decide) s

/-- What the EVM check asks of text: `0x`, then forty hexadecimal digits. -/
theorem validEvmAddress_iff (t : Text) : validEvmAddress t = true ↔ ∃ rest, t.points = 48 :: 120 :: rest ∧
    matchesPart (fun c => isDigit c || ('a' ≤ c && c ≤ 'f') || ('A' ≤ c && c ≤ 'F')) 40 40 ⟨rest⟩ =
      true := by
  rcases t with ⟨_ | ⟨a, _ | ⟨b, rest⟩⟩⟩
  · simp [validEvmAddress]
  · simp [validEvmAddress]
  · by_cases hab : a = 48 ∧ b = 120
    · obtain ⟨rfl, rfl⟩ := hab
      simp [validEvmAddress]
    · simp only [validEvmAddress]
      split
      · rename_i h
        simp only [List.cons.injEq] at h
        exact absurd ⟨h.1, h.2.1⟩ hab
      · simp [hab]

theorem validEvmAddress_ofString_iff (s : String) :
    validEvmAddress (Text.ofString s) = true ↔ EvmAddress s := by
  rw [validEvmAddress_iff]
  constructor
  · rintro ⟨rest, hpts, hrest⟩
    obtain ⟨c₀, c₁, r, hs⟩ : ∃ c₀ c₁ r, s.toList = c₀ :: c₁ :: r := by
      rcases hs : s.toList with _ | ⟨c₀, _ | ⟨c₁, r⟩⟩ <;> simp [Text.ofString, hs] at hpts
      exact ⟨c₀, c₁, r, rfl⟩
    simp only [Text.ofString, hs, List.map_cons, List.cons.injEq] at hpts
    obtain ⟨h₀, h₁, rfl⟩ := hpts
    obtain rfl : c₀ = '0' := Char.toNat_inj.mp h₀
    obtain rfl : c₁ = 'x' := Char.toNat_inj.mp h₁
    refine ⟨String.ofList r, String.toList_inj.mp (by simp [hs, String.toList_append]), ?_⟩
    rw [← validHex_ofString_iff]
    simpa [Text.ofString] using hrest
  · rintro ⟨digits, rfl, hdigits⟩
    refine ⟨(Text.ofString digits).points, by simp [Text.ofString, String.toList_append], ?_⟩
    exact (validHex_ofString_iff digits).mpr hdigits


end Principal

/-! ## Identifiers split into their parts -/

namespace Text

theorem points_join (sep : Text) (xs : List Text) :
    (join sep xs).points = sep.points.intercalate (xs.map points) := by
  fun_induction join sep xs with
  | case1 => rfl
  | case2 x => simp
  | case3 x rest hrest ih =>
    rw [points_append, points_append, ih, List.map_cons,
      List.intercalate_cons_of_ne_nil (by simpa using hrest), List.append_assoc]

/-- Pieces without `:`, joined by `:`, split back into themselves. -/
theorem splitOn_join_colon {xs : List Text} (hne : xs ≠ []) (hxs : ∀ x ∈ xs, 58 ∉ x.points) :
    (join (ofString ":") xs).splitOn ':' = xs := by
  have hpts : ∀ l ∈ xs.map points, 58 ∉ l := by
    simpa using hxs
  rw [splitOn, points_join, show (ofString ":").points = [58] from rfl,
    show (':' : Char).toNat = 58 from rfl, List.splitOn_intercalate 58 hpts (by simpa using hne)]
  simp [Function.comp_def]

end Text

namespace Principal

/-- A principal's identifier is its three parts after `did` and `pkh`, joined by `:`. -/
theorem ofString_did (p : Principal) : Text.ofString p.did = Text.join (Text.ofString ":")
    [Text.ofString "did", Text.ofString "pkh", Text.ofString p.chainNamespace,
      Text.ofString p.chainId, Text.ofString p.address] := by
  apply Text.ext_points
  simp [did, Text.points_join, Text.ofString, String.toList_append]

theorem not_mem_of_matchesPart {ok : Char → Bool} {lo hi : Nat} {t : Text} {c : Nat} (hc : c ≠ 10)
    (hok : ok (Char.ofNat c) = false) (h : matchesPart ok lo hi t = true) : c ∉ t.points := by
  intro hmem
  rcases mem_of_matchesPart h hmem with h10 | ⟨-, hc'⟩
  · exact hc h10
  · rw [hok] at hc'
    cases hc'

/-- What parsing an identifier made of colon-free parts checks, and what it gives. -/
theorem parse_join_eq_ok_iff {ns chain address : Text} (hns : 58 ∉ ns.points)
    (hchain : 58 ∉ chain.points) (haddress : 58 ∉ address.points) {p : Principal} :
    parse (Text.join (Text.ofString ":")
        [Text.ofString "did", Text.ofString "pkh", ns, chain, address]) = .ok p ↔
      validNamespace ns ∧ validChain chain ∧ validAddress address ∧
        (ns = Text.ofString "eip155" → validEvmAddress address) ∧
        p = ⟨ns.toStringLossy, chain.toStringLossy, address.toStringLossy⟩ := by
  have hsplit : (Text.join (Text.ofString ":")
      [Text.ofString "did", Text.ofString "pkh", ns, chain, address]).splitOn ':' =
      [Text.ofString "did", Text.ofString "pkh", ns, chain, address] :=
    Text.splitOn_join_colon (by simp) (by simp [hns, hchain, haddress, Text.ofString])
  have hne : (Text.join (Text.ofString ":")
      [Text.ofString "did", Text.ofString "pkh", ns, chain, address]).isEmpty = false := by
    simp [Text.isEmpty, Text.points_join, Text.ofString]
  unfold parse
  rw [if_neg (by simp [hne]), hsplit]
  simp only [bne_self_eq_false, Bool.or_false, Bool.false_eq_true, if_false]
  clear hsplit hne hns hchain haddress
  split_ifs with h₁ h₂ h₃ h₄
  · simp only [Bool.not_eq_true'] at h₁
    simp [h₁]
  · simp only [Bool.not_eq_true'] at h₂
    simp [h₂]
  · simp only [Bool.not_eq_true'] at h₃
    simp [h₃]
  · simp only [Bool.and_eq_true, beq_iff_eq, Bool.not_eq_true'] at h₄
    constructor
    · intro h
      cases h
    · rintro ⟨-, -, -, hevm, -⟩
      rw [hevm h₄.1] at h₄
      cases h₄.2
  · simp only [Bool.not_eq_true'] at h₁ h₂ h₃
    have hevm : ns = Text.ofString "eip155" → validEvmAddress address = true := by
      intro h
      simpa [h] using h₄
    simp only [Except.ok.injEq, h₁, h₂, h₃, true_and]
    exact ⟨fun h => ⟨hevm, h.symm⟩, fun h => h.2.symm⟩


/-- A part of a class without `:` holds none. -/
theorem colon_not_mem_of_part {cls : Char → Prop} {lo hi : Nat} {s : String} (hcolon : ¬ cls ':')
    (h : Part cls lo hi s) : 58 ∉ (Text.ofString s).points := by
  obtain ⟨body, hs, -, -, hbody⟩ := h
  simp only [Text.ofString, List.mem_map, not_exists, not_and]
  intro c hc hc58
  obtain rfl : c = ':' := Char.toNat_inj.mp hc58
  rcases hs with rfl | rfl
  · exact hcolon (hbody _ hc)
  · rw [String.toList_append, List.mem_append] at hc
    rcases hc with hc | hc
    · exact hcolon (hbody _ hc)
    · simp at hc

/-- An identifier parses exactly when it is the identifier of a well-formed principal, and
then it parses to that principal. -/
theorem parse_eq_ok_iff {d : Text} {p : Principal} :
    parse d = .ok p ↔ p.WellFormed ∧ d = Text.ofString p.did := by
  constructor
  · intro h
    obtain ⟨ns, chain, address, hd, hns, hchain, haddr, rfl⟩ := parse_eq_ok h
    have hjoin : d = Text.join (Text.ofString ":")
        [Text.ofString "did", Text.ofString "pkh", ns, chain, address] := by
      apply Text.ext_points
      rw [hd]
      simp [Text.points_join, Text.ofString]
    rw [hjoin] at h
    obtain ⟨-, -, -, hevm, -⟩ := (parse_join_eq_ok_iff (not_mem_of_matchesPart (by decide)
      (by decide) hns) (not_mem_of_matchesPart (by decide) (by decide) hchain)
      (not_mem_of_matchesPart (by decide) (by decide) haddr)).mp h
    have hns' := ofString_toStringLossy_of_matchesPart hns
    have hchain' := ofString_toStringLossy_of_matchesPart hchain
    have haddr' := ofString_toStringLossy_of_matchesPart haddr
    refine ⟨⟨?_, ?_, ?_, fun he => ?_⟩, ?_⟩
    · rw [← validNamespace_ofString_iff, hns']
      exact hns
    · rw [← validChain_ofString_iff, hchain']
      exact hchain
    · rw [← validAddress_ofString_iff, haddr']
      exact haddr
    · rw [← validEvmAddress_ofString_iff, haddr']
      exact hevm (by rw [← hns', show ns.toStringLossy = "eip155" from he])
    · rw [ofString_did, hns', hchain', haddr']
      exact hjoin
  · rintro ⟨hw, rfl⟩
    rw [ofString_did, parse_join_eq_ok_iff
      (colon_not_mem_of_part (by unfold NamespaceChar; decide) hw.chainNamespace)
      (colon_not_mem_of_part (by unfold ChainChar; decide) hw.chainId)
      (colon_not_mem_of_part (by unfold AddressChar; decide) hw.address)]
    refine ⟨(validNamespace_ofString_iff _).mpr hw.chainNamespace,
      (validChain_ofString_iff _).mpr hw.chainId, (validAddress_ofString_iff _).mpr hw.address,
      fun he => (validEvmAddress_ofString_iff _).mpr (hw.evm (Text.ofString_inj.mp he)), ?_⟩
    simp only [Text.toStringLossy_ofString]


/-! ## Space identifiers -/

/-- The pieces of a split on `:`, joined again by `:`, are the text. -/
theorem join_splitOn_colon (t : Text) : Text.join (Text.ofString ":") (t.splitOn ':') = t := by
  apply Text.ext_points
  rw [Text.points_join, Text.splitOn, List.map_map, show Text.points ∘ Text.mk = id from rfl,
    List.map_id]
  exact List.intercalate_splitOn 58

/-- A space identifier is its scheme, `pkh`, the owner's three parts and the name, joined by
`:`. -/
theorem spaceId_eq_ok_iff {p : Principal} {name scheme sid : Text} :
    p.spaceId name scheme = .ok sid ↔ validSpaceName name ∧ sid = Text.join (Text.ofString ":")
      [scheme, Text.ofString "pkh", Text.ofString p.chainNamespace, Text.ofString p.chainId,
        Text.ofString p.address, name] := by
  have hsid : scheme ++ Text.ofString (":pkh:" ++ p.chainNamespace ++ ":" ++ p.chainId ++ ":" ++
      p.address ++ ":") ++ name = Text.join (Text.ofString ":") [scheme, Text.ofString "pkh",
        Text.ofString p.chainNamespace, Text.ofString p.chainId, Text.ofString p.address, name] := by
    apply Text.ext_points
    simp [Text.points_join, Text.points_append, Text.ofString, String.toList_append]
  unfold spaceId
  split_ifs with h
  · rw [Except.ok.injEq, hsid]
    exact ⟨fun h' => ⟨h, h'.symm⟩, fun h' => h'.2.symm⟩
  · simp [h]

/-- The space names the check accepts are the parts of their grammar. -/
theorem validSpaceName_iff (t : Text) :
    validSpaceName t = true ↔ ∃ s, t = Text.ofString s ∧ Part SpaceNameChar 1 64 s := by
  constructor
  · intro h
    refine ⟨t.toStringLossy, (ofString_toStringLossy_of_matchesPart h).symm, ?_⟩
    rw [← validSpaceName_ofString_iff, ofString_toStringLossy_of_matchesPart h]
    exact h
  · rintro ⟨s, rfl, hs⟩
    exact (validSpaceName_ofString_iff s).mpr hs


/-- The parts of a well-formed principal hold no `:`. -/
theorem colon_not_mem_parts {p : Principal} (hw : p.WellFormed) :
    58 ∉ (Text.ofString p.chainNamespace).points ∧ 58 ∉ (Text.ofString p.chainId).points ∧
      58 ∉ (Text.ofString p.address).points :=
  ⟨colon_not_mem_of_part (by unfold NamespaceChar; decide) hw.chainNamespace,
    colon_not_mem_of_part (by unfold ChainChar; decide) hw.chainId,
    colon_not_mem_of_part (by unfold AddressChar; decide) hw.address⟩

/-- A space identifier parses to a principal and a name exactly when it is that well-formed
principal's identifier of the space under a scheme without `:`. -/
theorem parseSpaceId_eq_ok_iff {sid : Text} {p : Principal} {name : String} :
    parseSpaceId sid = .ok (p, name) ↔
      p.WellFormed ∧ ∃ scheme : Text, 58 ∉ scheme.points ∧ p.spaceId (Text.ofString name) scheme = .ok sid := by
  constructor
  · intro h
    have hjoin := join_splitOn_colon sid
    have hpieces : ∀ x ∈ sid.splitOn ':', 58 ∉ x.points := by
      intro x hx
      simp only [Text.splitOn, List.mem_map] at hx
      obtain ⟨l, hl, rfl⟩ := hx
      exact Grant.not_mem_of_mem_splitOn hl
    unfold parseSpaceId at h
    generalize hs : sid.splitOn ':' = parts at h hjoin hpieces
    rcases parts with _ | ⟨scheme, _ | ⟨pkh, _ | ⟨ns, _ | ⟨chain, _ | ⟨address, _ | ⟨n, _ | ⟨x, rest⟩⟩⟩⟩⟩⟩⟩ <;>
      try (simp at h; done)
    simp only at h
    by_cases hpkh : pkh = Text.ofString "pkh"
    swap
    · rw [if_pos (by simpa using hpkh)] at h
      cases h
    subst hpkh
    rw [if_neg (by simp)] at h
    cases hparse : parse (Text.join (Text.ofString ":") [Text.ofString "did", Text.ofString "pkh",
      ns, chain, address]) with
    | error e =>
      rw [hparse] at h
      cases h
    | ok q =>
      rw [hparse, except_ok_bind] at h
      by_cases hn : validSpaceName n
      swap
      · rw [if_neg hn] at h
        cases h
      rw [if_pos hn, except_pure, Except.ok.injEq, Prod.mk.injEq] at h
      obtain ⟨rfl, rfl⟩ := h
      -- the parts read back are the parts of the principal
      obtain ⟨hw, hdid⟩ := parse_eq_ok_iff.mp hparse
      obtain ⟨hns, hchain, haddr⟩ := colon_not_mem_parts hw
      have hparts := congrArg (Text.splitOn · ':') hdid
      simp only [ofString_did] at hparts
      rw [Text.splitOn_join_colon (by simp) (by
          simp only [List.mem_cons, List.not_mem_nil, or_false, forall_eq_or_imp, forall_eq]
          exact ⟨by decide, by decide, hpieces ns (by simp), hpieces chain (by simp),
            hpieces address (by simp)⟩),
        Text.splitOn_join_colon (by simp) (by
          simp only [List.mem_cons, List.not_mem_nil, or_false, forall_eq_or_imp, forall_eq]
          exact ⟨by decide, by decide, hns, hchain, haddr⟩)] at hparts
      simp only [List.cons.injEq] at hparts
      obtain ⟨-, -, rfl, rfl, rfl, -⟩ := hparts
      refine ⟨hw, scheme, hpieces scheme (by simp), spaceId_eq_ok_iff.mpr ⟨?_, ?_⟩⟩
      · rw [ofString_toStringLossy_of_matchesPart hn]
        exact hn
      · rw [ofString_toStringLossy_of_matchesPart hn]
        exact hjoin.symm
  · rintro ⟨hw, scheme, hscheme, hsid⟩
    obtain ⟨hname, rfl⟩ := spaceId_eq_ok_iff.mp hsid
    obtain ⟨hns, hchain, haddr⟩ := colon_not_mem_parts hw
    have hpieces : [scheme, Text.ofString "pkh", Text.ofString p.chainNamespace,
        Text.ofString p.chainId, Text.ofString p.address, Text.ofString name] =
        (Text.join (Text.ofString ":") [scheme, Text.ofString "pkh", Text.ofString p.chainNamespace,
          Text.ofString p.chainId, Text.ofString p.address, Text.ofString name]).splitOn ':' := by
      refine (Text.splitOn_join_colon (by simp) ?_).symm
      simp only [List.mem_cons, List.not_mem_nil, or_false, forall_eq_or_imp, forall_eq]
      exact ⟨hscheme, by decide, hns, hchain, haddr,
        not_mem_of_matchesPart (by decide) (by decide) hname⟩
    unfold parseSpaceId
    rw [← hpieces]
    simp only [bne_self_eq_false, Bool.false_eq_true, if_false]
    rw [← ofString_did, parse_eq_ok_iff.mpr ⟨hw, rfl⟩]
    simp [hname, Text.toStringLossy_ofString]


/-! ## Identifiers without line feeds -/

theorem part_of_run {cls : Char → Prop} {lo hi : Nat} {s : String} (h : Run cls lo hi s) :
    Part cls lo hi s :=
  ⟨s, .inl rfl, h⟩

theorem lineFeed_not_mem_of_run {cls : Char → Prop} {lo hi : Nat} {s : String} (hlf : ¬ cls '\n')
    (h : Run cls lo hi s) : '\n' ∉ s.toList :=
  fun hmem => hlf (h.2.2 _ hmem)

/-- A part without a line feed is a run. -/
theorem run_of_part {cls : Char → Prop} {lo hi : Nat} {s : String} (h : Part cls lo hi s)
    (hs : '\n' ∉ s.toList) : Run cls lo hi s := by
  obtain ⟨body, rfl | rfl, hbody⟩ := h
  · exact hbody
  · exact absurd (by simp [String.toList_append]) hs

theorem lineFeed_not_mem_ofString {s : String} : 10 ∉ (Text.ofString s).points ↔ '\n' ∉ s.toList := by
  simp only [Text.ofString, List.mem_map, not_exists, not_and]
  constructor
  · intro h hmem
    exact h _ hmem rfl
  · intro h c hc hc10
    exact h (Char.toNat_inj.mp (show c.toNat = '\n'.toNat from hc10) ▸ hc)

theorem lineFeed_not_mem_did {p : Principal} : '\n' ∉ p.did.toList ↔
    '\n' ∉ p.chainNamespace.toList ∧ '\n' ∉ p.chainId.toList ∧ '\n' ∉ p.address.toList := by
  simp [did, String.toList_append]

/-- A principal follows the documented grammar exactly when it parses as well-formed and its
identifier holds no line feed. -/
theorem strict_iff {p : Principal} : p.Strict ↔ p.WellFormed ∧ '\n' ∉ p.did.toList := by
  rw [lineFeed_not_mem_did]
  constructor
  · intro h
    refine ⟨⟨part_of_run h.chainNamespace, part_of_run h.chainId, part_of_run h.address,
      fun he => ?_⟩, lineFeed_not_mem_of_run (by unfold NamespaceChar; decide) h.chainNamespace,
      lineFeed_not_mem_of_run (by unfold ChainChar; decide) h.chainId,
      lineFeed_not_mem_of_run (by unfold AddressChar; decide) h.address⟩
    obtain ⟨digits, hd, hrun⟩ := h.evm he
    exact ⟨digits, hd, part_of_run hrun⟩
  · rintro ⟨hw, hns, hchain, haddr⟩
    refine ⟨run_of_part hw.chainNamespace hns, run_of_part hw.chainId hchain,
      run_of_part hw.address haddr, fun he => ?_⟩
    obtain ⟨digits, hdigits, hpart⟩ := hw.evm he
    refine ⟨digits, hdigits, run_of_part hpart fun hmem => haddr ?_⟩
    rw [hdigits]
    simp [String.toList_append, hmem]

/-- A space identifier without line feeds holds the owner's identifier without them. -/
theorem lineFeed_not_mem_did_of_spaceId {p : Principal} {name scheme sid : Text}
    (h : p.spaceId name scheme = .ok sid) (hsid : 10 ∉ sid.points) : '\n' ∉ p.did.toList := by
  rw [(spaceId_eq_ok_iff.mp h).2] at hsid
  rw [lineFeed_not_mem_did, ← lineFeed_not_mem_ofString, ← lineFeed_not_mem_ofString,
    ← lineFeed_not_mem_ofString]
  simp only [Text.points_join, List.map_cons, List.map_nil, List.intercalate_cons_cons,
    List.intercalate_singleton, List.mem_append, not_or] at hsid
  obtain ⟨-, -, ⟨hns, -⟩, ⟨hchain, -⟩, ⟨haddr, -⟩, -⟩ := hsid
  exact ⟨hns, hchain, haddr⟩

theorem parse_eq_ok_iff_strict {d : Text} {p : Principal} (hd : 10 ∉ d.points) :
    parse d = .ok p ↔ p.Strict ∧ d = Text.ofString p.did := by
  rw [parse_eq_ok_iff, strict_iff]
  constructor
  · rintro ⟨hw, rfl⟩
    exact ⟨⟨hw, lineFeed_not_mem_ofString.mp hd⟩, rfl⟩
  · rintro ⟨⟨hw, -⟩, rfl⟩
    exact ⟨hw, rfl⟩

theorem parseSpaceId_eq_ok_iff_strict {sid : Text} {p : Principal} {name : String}
    (hsid : 10 ∉ sid.points) : parseSpaceId sid = .ok (p, name) ↔
      p.Strict ∧ ∃ scheme : Text, 58 ∉ scheme.points ∧ p.spaceId (Text.ofString name) scheme = .ok sid := by
  rw [parseSpaceId_eq_ok_iff, strict_iff]
  constructor
  · rintro ⟨hw, scheme, hscheme, h⟩
    exact ⟨⟨hw, lineFeed_not_mem_did_of_spaceId h hsid⟩, scheme, hscheme, h⟩
  · rintro ⟨⟨hw, -⟩, rest⟩
    exact ⟨hw, rest⟩

end Principal

/-! ## The grammar and the round trips -/

open Principal in
/-- On text without line feeds parsing accepts exactly the documented grammar: an identifier
parses exactly when it is the identifier of a principal whose parts are runs of their classes,
and then to that principal; a space name is accepted exactly when it is 1 to 64 characters of
its class; and a space identifier parses exactly when it is the identifier of a space of such a
principal under a scheme without `:`. -/
theorem identifiers_follow_grammar {d sid name scheme : Text} {p : Principal} {n : String}
    (hd : 10 ∉ d.points) (hname : 10 ∉ name.points) (hsid : 10 ∉ sid.points) :
    (parse d = .ok p ↔ p.Strict ∧ d = Text.ofString p.did) ∧
    ((∃ s, p.spaceId name scheme = .ok s) ↔ ∃ s, name = Text.ofString s ∧ Run SpaceNameChar 1 64 s) ∧
    (parseSpaceId sid = .ok (p, n) ↔
      p.Strict ∧ ∃ scheme' : Text, 58 ∉ scheme'.points ∧ p.spaceId (Text.ofString n) scheme' = .ok sid) := by
  refine ⟨parse_eq_ok_iff_strict hd, ?_, parseSpaceId_eq_ok_iff_strict hsid⟩
  constructor
  · rintro ⟨sid', hsid'⟩
    obtain ⟨s, rfl, hs⟩ := (validSpaceName_iff name).mp (spaceId_eq_ok_iff.mp hsid').1
    exact ⟨s, rfl, run_of_part hs (lineFeed_not_mem_ofString.mp hname)⟩
  · rintro ⟨s, rfl, hs⟩
    exact ⟨_, spaceId_eq_ok_iff.mpr ⟨(validSpaceName_iff _).mpr ⟨s, rfl, part_of_run hs⟩, rfl⟩⟩

/-- The identifier `did:pkh:abc:1:x`, its default space and that space's identifier. -/
theorem identifiers_follow_grammar_plain :
    10 ∉ (Text.ofString "did:pkh:abc:1:x").points ∧ 10 ∉ (Text.ofString "default").points ∧
    10 ∉ (Text.ofString "tinycloud:pkh:abc:1:x:default").points ∧
    ((Principal.parse (Text.ofString "did:pkh:abc:1:x") = .ok ⟨"abc", "1", "x"⟩ ↔
        Principal.Strict ⟨"abc", "1", "x"⟩ ∧
          Text.ofString "did:pkh:abc:1:x" = Text.ofString (Principal.did ⟨"abc", "1", "x"⟩)) ∧
      ((∃ s, Principal.spaceId ⟨"abc", "1", "x"⟩ (Text.ofString "default") (Text.ofString "tinycloud") =
          .ok s) ↔
        ∃ s, Text.ofString "default" = Text.ofString s ∧ Principal.Run Principal.SpaceNameChar 1 64 s) ∧
      (Principal.parseSpaceId (Text.ofString "tinycloud:pkh:abc:1:x:default") =
          .ok (⟨"abc", "1", "x"⟩, "default") ↔
        Principal.Strict ⟨"abc", "1", "x"⟩ ∧ ∃ scheme' : Text, 58 ∉ scheme'.points ∧
          Principal.spaceId ⟨"abc", "1", "x"⟩ (Text.ofString "default") scheme' =
            .ok (Text.ofString "tinycloud:pkh:abc:1:x:default"))) := by
  have hd : 10 ∉ (Text.ofString "did:pkh:abc:1:x").points := by decide
  have hname : 10 ∉ (Text.ofString "default").points := by decide
  have hsid : 10 ∉ (Text.ofString "tinycloud:pkh:abc:1:x:default").points := by decide
  exact ⟨hd, hname, hsid, identifiers_follow_grammar hd hname hsid⟩

open Principal in
/-- A parsed principal's identifier parses back to it, and its space identifier under any scheme
without `:` parses back to it and the space name. -/
theorem identifiers_read_back :
    (∀ (d : Text) (p : Principal), parse d = .ok p → parse (Text.ofString p.did) = .ok p) ∧
    (∀ (d : Text) (p : Principal) (name scheme sid : Text), parse d = .ok p → 58 ∉ scheme.points →
      p.spaceId name scheme = .ok sid → ∃ n, parseSpaceId sid = .ok (p, n) ∧ Text.ofString n = name) := by
  constructor
  · intro d p h
    exact parse_eq_ok_iff.mpr ⟨(parse_eq_ok_iff.mp h).1, rfl⟩
  · intro d p name scheme sid h hscheme hsid
    obtain ⟨s, rfl, -⟩ := (validSpaceName_iff name).mp (spaceId_eq_ok_iff.mp hsid).1
    exact ⟨s, parseSpaceId_eq_ok_iff.mpr ⟨(parse_eq_ok_iff.mp h).1, scheme, hscheme, hsid⟩, rfl⟩

/-- The identifier `did:pkh:abc:1:x` with a final line feed, and its vault space. -/
theorem identifiers_read_back_line_feed :
    Principal.parse (Text.ofString "did:pkh:abc:1:x\n") = .ok ⟨"abc", "1", "x\n"⟩ ∧
    Principal.parse (Text.ofString (Principal.did ⟨"abc", "1", "x\n"⟩)) = .ok ⟨"abc", "1", "x\n"⟩ ∧
    58 ∉ (Text.ofString "tinycloud").points ∧
    Principal.spaceId ⟨"abc", "1", "x\n"⟩ (Text.ofString "default") (Text.ofString "tinycloud") =
      .ok (Text.ofString "tinycloud:pkh:abc:1:x\n:default") ∧
    ∃ n, Principal.parseSpaceId (Text.ofString "tinycloud:pkh:abc:1:x\n:default") =
      .ok (⟨"abc", "1", "x\n"⟩, n) ∧ Text.ofString n = Text.ofString "default" := by
  have hparse : Principal.parse (Text.ofString "did:pkh:abc:1:x\n") = .ok ⟨"abc", "1", "x\n"⟩ := by
    decide +kernel
  have hscheme : 58 ∉ (Text.ofString "tinycloud").points := by decide
  have hspace : Principal.spaceId ⟨"abc", "1", "x\n"⟩ (Text.ofString "default")
      (Text.ofString "tinycloud") = .ok (Text.ofString "tinycloud:pkh:abc:1:x\n:default") := by
    decide +kernel
  exact ⟨hparse, identifiers_read_back.1 _ _ hparse, hscheme, hspace,
    identifiers_read_back.2 _ _ _ _ _ hparse hscheme hspace⟩

end Strongbox

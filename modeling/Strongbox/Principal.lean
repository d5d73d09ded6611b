import Strongbox.Value.Literal

/-!
# Principals

A principal is named by a `did:pkh` identifier, `did:pkh:{namespace}:{chain}:{address}`, and
owns storage spaces named `{scheme}:pkh:{namespace}:{chain}:{address}:{name}`. The namespace
is 3 to 8 characters of lowercase letters, digits and `-`; the chain 1 to 32 letters, digits,
`-` and `_`; the address 1 to 128 letters, digits, `-`, `.` and `%`; a space name 1 to 64
letters, digits, `-`, `_` and `.`. Each part may end in one line feed beyond its length, a
leniency of the line-anchored patterns these rules come from. An `eip155` address is `0x`
and forty hexadecimal digits.
-/

namespace Strongbox

/-- A parsed principal. -/
structure Principal where
  chainNamespace : String
  chainId : String
  address : String
  deriving DecidableEq, Repr

/-- Why an identifier names no principal or space. -/
inductive PrincipalError where
  | notText
  | shape (did : Text)
  | badNamespace (did : Text)
  | badChain (did : Text)
  | badAddress (did : Text)
  | badEvmAddress (did : Text)
  | badSpaceName (name : Text)
  | badSpaceId (literal : String)
  | badSpaceIdName (spaceId : Text)
  deriving DecidableEq, Repr

namespace PrincipalError

/-- What each failure says; identifiers are quoted as literals. -/
def message : PrincipalError → String
  | notText => "Principal DID must be a non-empty string"
  | shape did => "Expected did:pkh:<namespace>:<chain>:<address>, got " ++ did.quoted
  | badNamespace did => "Invalid chain namespace in " ++ did.quoted
  | badChain did => "Invalid chain id in " ++ did.quoted
  | badAddress did => "Invalid account address in " ++ did.quoted
  | badEvmAddress did => "Invalid EVM address in " ++ did.quoted
  | badSpaceName name => "Invalid space name: " ++ name.quoted
  | badSpaceId literal => "Invalid space id: " ++ literal
  | badSpaceIdName spaceId => "Invalid space name in " ++ spaceId.quoted

end PrincipalError

namespace Principal

/-- The scheme of space identifiers. -/
def spaceScheme : String := "tinycloud"

/-- The space of a principal's vault. -/
def defaultSpaceName : String := "default"

/-- The space anyone can read. -/
def publicSpaceName : String := "public"

/-- The characters of a part run from `lo` to `hi` of the ASCII class `ok`, with one optional
line feed after them. -/
def matchesPart (ok : Char → Bool) (lo hi : Nat) (t : Text) : Bool :=
  let cs := t.points
  let body := if cs.getLast? = some 0x0A then cs.dropLast else cs
  lo ≤ body.length && body.length ≤ hi && body.all fun c => c < 128 && ok (Char.ofNat c)

/-- An ASCII letter. -/
def isLetter (c : Char) : Bool := ('a' ≤ c && c ≤ 'z') || ('A' ≤ c && c ≤ 'Z')

/-- An ASCII digit. -/
def isDigit (c : Char) : Bool := '0' ≤ c && c ≤ '9'

/-- A chain namespace. -/
def validNamespace : Text → Bool :=
  matchesPart (fun c => ('a' ≤ c && c ≤ 'z') || isDigit c || c == '-') 3 8

/-- A chain id. -/
def validChain : Text → Bool :=
  matchesPart (fun c => isLetter c || isDigit c || c == '-' || c == '_') 1 32

/-- An account address. -/
def validAddress : Text → Bool :=
  matchesPart (fun c => isLetter c || isDigit c || c == '-' || c == '.' || c == '%') 1 128

/-- A space name. -/
def validSpaceName : Text → Bool :=
  matchesPart (fun c => isLetter c || isDigit c || c == '-' || c == '_' || c == '.') 1 64

/-- An EVM address: `0x` and forty hexadecimal digits. -/
def validEvmAddress (t : Text) : Bool :=
  match t.points with
  | 0x30 :: 0x78 :: rest =>
    matchesPart (fun c => isDigit c || ('a' ≤ c && c ≤ 'f') || ('A' ≤ c && c ≤ 'F')) 40 40 ⟨rest⟩
  | _ => false

/-- The principal a `did:pkh` identifier names. The parts that pass are ASCII, so they are
kept as strings. -/
def parse (did : Text) : Except PrincipalError Principal :=
  if did.isEmpty then .error .notText
  else match did.splitOn ':' with
    | [d, p, ns, chain, address] =>
      if d != Text.ofString "did" || p != Text.ofString "pkh" then .error (.shape did)
      else if !validNamespace ns then .error (.badNamespace did)
      else if !validChain chain then .error (.badChain did)
      else if !validAddress address then .error (.badAddress did)
      else if ns == Text.ofString "eip155" && !validEvmAddress address then .error (.badEvmAddress did)
      else .ok ⟨ns.toStringLossy, chain.toStringLossy, address.toStringLossy⟩
    | _ => .error (.shape did)

/-- The principal a value names: it must be non-empty text. -/
def parseValue : Value → Except PrincipalError Principal
  | .str t => parse t
  | _ => .error .notText

/-- The principal's identifier. -/
def did (p : Principal) : String := "did:pkh:" ++ p.chainNamespace ++ ":" ++ p.chainId ++ ":" ++ p.address

/-- The identifier of the principal's space `name` under `scheme`. -/
def spaceId (p : Principal) (name : Text) (scheme : Text := Text.ofString spaceScheme) :
    Except PrincipalError Text :=
  if validSpaceName name then
    .ok (scheme ++ Text.ofString (":pkh:" ++ p.chainNamespace ++ ":" ++ p.chainId ++ ":" ++
      p.address ++ ":") ++ name)
  else .error (.badSpaceName name)

/-- The principal's vault space. -/
def defaultSpaceId (p : Principal) : String :=
  spaceScheme ++ ":pkh:" ++ p.chainNamespace ++ ":" ++ p.chainId ++ ":" ++ p.address ++ ":" ++
    defaultSpaceName

/-- The principal's public space. -/
def publicSpaceId (p : Principal) : String :=
  spaceScheme ++ ":pkh:" ++ p.chainNamespace ++ ":" ++ p.chainId ++ ":" ++ p.address ++ ":" ++
    publicSpaceName

/-- The owner and name of a space identifier given as text; the scheme is not checked, and a
name that passes is ASCII. -/
def parseSpaceId (spaceId : Text) : Except PrincipalError (Principal × String) :=
  match spaceId.splitOn ':' with
  | [_, pkh, ns, chain, address, name] =>
    if pkh != Text.ofString "pkh" then .error (.badSpaceId spaceId.quoted)
    else do
      let p ← parse (Text.join (Text.ofString ":") [Text.ofString "did", pkh, ns, chain, address])
      if validSpaceName name then pure (p, name.toStringLossy)
      else .error (.badSpaceIdName spaceId)
  | _ => .error (.badSpaceId spaceId.quoted)

/-- The owner and name of a space identifier given as any value. -/
def parseSpaceIdValue : Value → Except PrincipalError (Principal × String)
  | .str t => parseSpaceId t
  | v => .error (.badSpaceId v.literal)

/-- The identifier of an account's principal, validated. -/
def didForAddress (address chainId chainNamespace : Text) : Except PrincipalError String :=
  (parse (Text.join (Text.ofString ":")
    [Text.ofString "did", Text.ofString "pkh", chainNamespace, chainId, address])).map did

end Principal

end Strongbox

import Strongbox.Value.Basic
import Strongbox.Number.Reading
import Strongbox.Cipher.Aead
import Strongbox.Text.Escaped

/-!
# Settings

What a vault is configured with: the space that holds its data, the cipher of new entries,
when entries get a fresh key, how long a storage call may take, and whether unlocking
publishes the owner's public key. Settings are read from loosely typed fields: text may come
as UTF-8 bytes, numbers as text, switches as numbers or words. Every field is checked, and all
fields that fail are reported together, in the order of the fields. A failure whose message
would quote text that is not Unicode (a lone surrogate) cannot be reported, and the fields are
then refused as a whole.

Settings may also be read from environment variables. The environment holds bytes: a variable
is set from text whose surrogates stand for bytes, and is read back as text with the bytes
outside UTF-8 as surrogates again.
-/

namespace Strongbox

/-- When an entry is given a fresh key: on every write, or once for its lifetime. -/
inductive Rotation where
  | perWrite
  | perKey
  deriving DecidableEq, Repr

/-- The name of a rotation policy. -/
def Rotation.name : Rotation → String
  | .perWrite => "per-write"
  | .perKey => "per-key"

/-- The name under which an entry records its cipher. -/
def Aead.name : Aead → String
  | .aesGcm => "aes-256-gcm"
  | .chacha20Poly1305 => "chacha20-poly1305"

/-- The cipher an entry names. -/
def Aead.ofName? (name : String) : Option Aead :=
  if name == "aes-256-gcm" then some .aesGcm
  else if name == "chacha20-poly1305" then some .chacha20Poly1305
  else none

/-- A vault's settings. -/
structure Settings where
  space : Text
  cipher : Aead := .aesGcm
  rotation : Rotation := .perWrite
  /-- Seconds a storage call may take; none means no limit. -/
  timeout : Option Float := some 30.0
  publishOnUnlock : Bool := true

namespace Settings

/-! ## Field checks -/

/-- Why a field cannot take the value given. -/
inductive Issue where
  | missing
  | notText
  | notUnicode
  | badSpace (stripped : Text)
  | badCipher (lowered : Text)
  | badRotation (given : Text)
  | notNumber
  | unparsableNumber
  | notPositive
  | notBoolean
  | unparsableBoolean
  deriving DecidableEq

namespace Issue

/-- The stable code of an issue. -/
def code : Issue → String
  | missing => "missing"
  | notText => "string_type"
  | notUnicode => "string_unicode"
  | badSpace _ | badCipher _ | badRotation _ => "value_error"
  | notNumber => "float_type"
  | unparsableNumber => "float_parsing"
  | notPositive => "greater_than"
  | notBoolean => "bool_type"
  | unparsableBoolean => "bool_parsing"

/-- What an issue says. -/
def message : Issue → String
  | missing => "Field required"
  | notText => "Input should be a valid string"
  | notUnicode => "Input should be a valid string, unable to parse raw data as a unicode string"
  | badSpace t => "Value error, Invalid vault space id: " ++ t.quoted
  | badCipher t => "Value error, Unsupported cipher backend: " ++ t.toStringLossy
  | badRotation t => "Value error, Unsupported key rotation policy: " ++ t.toStringLossy
  | notNumber => "Input should be a valid number"
  | unparsableNumber => "Input should be a valid number, unable to parse string as a number"
  | notPositive => "Input should be greater than 0"
  | notBoolean => "Input should be a valid boolean"
  | unparsableBoolean => "Input should be a valid boolean, unable to interpret input"

/-- Whether the message of an issue is Unicode text: the cipher and rotation checks quote the
text given as it is, lone surrogates included. -/
def reportable : Issue → Bool
  | badCipher t | badRotation t => !t.points.any Text.isSurrogate
  | _ => true

end Issue

/-- An issue and the field it concerns. -/
structure FieldIssue where
  field : String
  issue : Issue
  deriving DecidableEq

/-- Text where text is expected: text itself, or bytes that are UTF-8. -/
def textOf (undecodable : Issue) : Value → Except Issue Text
  | .str t => .ok t
  | .bytes b => match Text.decode? b with
    | some t => .ok t
    | none => .error undecodable
  | _ => .error .notText

/-- The nearest double to an integer, if it is within the range of doubles. -/
def intFloat? (n : Int) : Option Float :=
  let x := FloatLiteral.toFloat (.decimal (n < 0) n.natAbs 0)
  if x.isInf then none else some x

/-- Blanks of the number grammar: the Unicode white space characters. -/
def isNumberBlank (c : Nat) : Bool := Text.isBlank c && !(0x1C ≤ c && c ≤ 0x1F)

/-- The ASCII characters of a text, if it has only those. -/
def asciiChars? (points : List Nat) : Option (List Char) :=
  if points.all (· < 128) then some (points.map Char.ofNat) else none

/-- Two underscores in a row. -/
def doubleUnderscore : List Char → Bool
  | '_' :: '_' :: _ => true
  | _ :: rest => doubleUnderscore rest
  | [] => false

/-- Text with underscores, none of them first or last and no two together, less all of
them. -/
def withoutUnderscores? (cs : List Char) : Option (List Char) :=
  if !cs.contains '_' || cs.head? = some '_' || cs.getLast? = some '_' || doubleUnderscore cs
  then none
  else some (cs.filter (· != '_'))

/-- Number text: the plain grammar within blanks, or the text less its underscores. -/
def numberText? (t : Text) : Option Float :=
  let trimmed := ((t.points.dropWhile isNumberBlank).reverse.dropWhile isNumberBlank).reverse
  let plain := (asciiChars? trimmed).bind (Reading.literal? false)
  let spaced := fun _ : Unit =>
    ((asciiChars? t.points).bind withoutUnderscores?).bind (Reading.literal? false)
  match plain with
  | some lit => some lit.toFloat
  | none => (spaced ()).map FloatLiteral.toFloat

/-- A number where one is expected: a double, an integer, a switch, or number text. -/
def numberOf : Value → Except Issue Float
  | .float x => .ok x
  | .bool b => .ok (if b then 1.0 else 0.0)
  | .int n => match intFloat? n with
    | some x => .ok x
    | none => .error .notNumber
  | .str t => match numberText? t with
    | some x => .ok x
    | none => .error .unparsableNumber
  | .bytes b => match Text.decode? b >>= numberText? with
    | some x => .ok x
    | none => .error .unparsableNumber
  | _ => .error .notNumber

/-- ASCII letters in lower case, all else kept. -/
def asciiLower (t : Text) : List Nat :=
  t.points.map fun c => if 65 ≤ c && c ≤ 90 then c + 32 else c

/-- The words that mean off and on. -/
def switchWord? (t : Text) : Option Bool :=
  let w := asciiLower t
  let is := fun (s : String) => w == s.toList.map Char.toNat
  if ["0", "f", "n", "no", "off", "false"].any is then some false
  else if ["1", "t", "y", "on", "yes", "true"].any is then some true
  else none

/-- A whole number as a switch: 0 is off and 1 is on. -/
def switchNumber (n : Int) : Except Issue Bool :=
  if n = 0 then .ok false else if n = 1 then .ok true else .error .unparsableBoolean

/-- Integers of 64-bit signed range. -/
def isWord (n : Int) : Bool := -Int.pow 2 63 ≤ n && n < Int.pow 2 63

/-- Doubles strictly between the ends of the 64-bit signed range. -/
def isWordFloat (x : Float) : Bool := -9223372036854775808.0 < x && x < 9223372036854775808.0

/-- A switch where one is expected: a boolean, 0 or 1, or a word for off or on. -/
def switchOf : Value → Except Issue Bool
  | .bool b => .ok b
  | .str t => match switchWord? t with
    | some b => .ok b
    | none => .error .unparsableBoolean
  | .bytes b => match Text.decode? b >>= switchWord? with
    | some x => .ok x
    | none => .error .unparsableBoolean
  | .int n => if isWord n then switchNumber n else .error .notBoolean
  | .float x =>
    if x.isNaN || x.isInf || x.floor != x || !isWordFloat x then .error .notBoolean
    else if x == 0.0 then .ok false
    else if x == 1.0 then .ok true
    else .error .unparsableBoolean
  | _ => .error .notBoolean

/-- A space id: text without surrounding blanks, non-empty and with no blank inside. -/
def spaceOf (v : Value) : Except Issue Text := do
  let t ← textOf .notUnicode v
  let s := t.trim
  if s.points.isEmpty || s.hasBlank then .error (.badSpace s) else pure s

/-- A cipher name, in any case, or one of the short names `aesgcm` and `chacha20`. -/
def cipherOf (v : Value) : Except Issue Aead := do
  let t := (← textOf .notUnicode v).lower
  let name := if t == Text.ofString "aesgcm" then Text.ofString "aes-256-gcm"
    else if t == Text.ofString "chacha20" then Text.ofString "chacha20-poly1305" else t
  match name.toString? >>= Aead.ofName? with
  | some a => pure a
  | none => .error (.badCipher name)

/-- A rotation policy, named exactly. -/
def rotationOf (v : Value) : Except Issue Rotation := do
  let t ← textOf .notUnicode v
  if t == Text.ofString "per-write" then pure .perWrite
  else if t == Text.ofString "per-key" then pure .perKey
  else .error (.badRotation t)

/-- A time limit: none, or a number above zero. -/
def timeoutOf : Value → Except Issue (Option Float)
  | .null => .ok none
  | v => do
    let x ← numberOf v
    if x > 0.0 then pure (some x) else .error .notPositive

/-! ## Reading settings -/

/-- The check of one field; a field that is absent takes its default, or is missing. -/
def fieldOf {α : Type} (fields : List (Value × Value)) (name : String) (default : Option α)
    (check : Value → Except Issue α) : Except FieldIssue α :=
  match Value.lookup fields (Value.ofString name), default with
  | some v, _ => (check v).mapError (FieldIssue.mk name)
  | none, some d => .ok d
  | none, none => .error ⟨name, .missing⟩

/-- The issue of a failed check. -/
def issuesOf {α : Type} : Except FieldIssue α → List FieldIssue
  | .ok _ => []
  | .error e => [e]

/-- Why fields give no settings: the issues found, or an issue that cannot be reported. -/
inductive Rejection where
  | invalid (issues : List FieldIssue)
  | unreportable
  deriving DecidableEq

/-- The rejection for the issues found. -/
def rejection (issues : List FieldIssue) : Rejection :=
  if issues.all (·.issue.reportable) then .invalid issues else .unreportable

/-- Settings from named fields; fields of other names are ignored. -/
def ofFields (fields : List (Value × Value)) : Except Rejection Settings :=
  let space := fieldOf fields "space_id" none spaceOf
  let cipher := fieldOf fields "cipher" (some .aesGcm) cipherOf
  let rotation := fieldOf fields "key_rotation" (some .perWrite) rotationOf
  let timeout := fieldOf fields "timeout" (some (some 30.0)) timeoutOf
  let publish := fieldOf fields "publish_on_unlock" (some true) switchOf
  match space, cipher, rotation, timeout, publish with
  | .ok s, .ok c, .ok r, .ok t, .ok p => .ok ⟨s, c, r, t, p⟩
  | _, _, _, _, _ =>
    .error (rejection (issuesOf space ++ issuesOf cipher ++ issuesOf rotation ++
      issuesOf timeout ++ issuesOf publish))

/-! ## Settings from the environment -/

/-- Why a variable cannot be set in the environment. -/
inductive VariableError where
  /-- Its name or value holds a surrogate that stands for no byte. -/
  | unencodable
  /-- Its name or value holds a zero byte. -/
  | nullByte
  /-- Its name holds `=`. -/
  | illegalName
  /-- Its name is empty. -/
  | emptyName
  deriving DecidableEq, Repr

/-- Why the environment gives no settings. -/
inductive EnvironmentError where
  | spaceUnset
  | badTimeout (literal : Text)
  | rejected (r : Rejection)
  | unsettable (e : VariableError)
  deriving DecidableEq

/-- Variables as the environment holds them: names and values as bytes. -/
abbrev Environment := List (List UInt8 × List UInt8)

/-- The environment with a variable set: name and value become bytes, then a zero byte in
either, a `=` in the name and an empty name are refused, in that order. -/
def setVariable (env : Environment) (name value : Text) : Except VariableError Environment := do
  let some n := name.escapedBytes? | .error .unencodable
  let some v := value.escapedBytes? | .error .unencodable
  let n := n.data.toList
  let v := v.data.toList
  if n.contains 0 || v.contains 0 then .error .nullByte
  if n.contains 0x3D then .error .illegalName
  if n.isEmpty then .error .emptyName
  pure ((env.filter (·.1 != n)) ++ [(n, v)])

/-- The environment after setting variables in order. -/
def setVariables (vars : List (Text × Text)) : Except VariableError Environment :=
  vars.foldlM (fun env e => setVariable env e.1 e.2) []

/-- The value of a variable, read back as text. -/
def readVariable (env : Environment) (name : String) : Option Text :=
  (env.lookup name.toUTF8.data.toList).map fun v => Text.decodeEscaped ⟨v.toArray⟩

/-- The words that switch publishing on. -/
def onWords : List String := ["1", "true", "yes", "on"]

/-- Settings from environment variables set in order, then the overriding fields. A space given
among the overrides wins when it is not empty; a time limit in the environment must read as a
number. -/
def ofEnvironment (vars : List (Text × Text)) (overrides : List (Value × Value)) :
    Except EnvironmentError Settings := do
  let env ← (setVariables vars).mapError .unsettable
  let var := readVariable env
  let spaceKey := Value.ofString "space_id"
  let given := Value.lookup overrides spaceKey
  let rest := overrides.filter fun e => !Value.equiv e.1 spaceKey
  let space ← match given with
    | some v => if v.truthy then pure v else fromVariable (var "VAULT_SPACE_ID")
    | none => fromVariable (var "VAULT_SPACE_ID")
  let cipher := (var "VAULT_CIPHER_BACKEND").getD (Text.ofString "aes-256-gcm")
  let rotation := (var "VAULT_KEY_ROTATION").getD (Text.ofString "per-write")
  let timeout ← match var "VAULT_STORAGE_TIMEOUT" with
    | some t =>
      if t.points.isEmpty then pure []
      else match FloatLiteral.ofText? t with
        | some lit => pure [(Value.ofString "timeout", Value.float lit.toFloat)]
        | none => .error (.badTimeout t)
    | none => pure []
  let publish := match var "VAULT_PUBLISH_ON_UNLOCK" with
    | some t => [(Value.ofString "publish_on_unlock",
        Value.bool (onWords.any fun w => t.lower == Text.ofString w))]
    | none => []
  let values := [(spaceKey, space), (Value.ofString "cipher", Value.str cipher),
    (Value.ofString "key_rotation", Value.str rotation)] ++ timeout ++ publish
  let values := rest.foldl (fun acc e => Value.insertEntry acc e.1 e.2) values
  (ofFields values).mapError .rejected
where
  /-- The space variable, which must be set and not empty. -/
  fromVariable : Option Text → Except EnvironmentError Value
    | some t => if t.points.isEmpty then .error .spaceUnset else .ok (.str t)
    | none => .error .spaceUnset

/-- The settings as named fields. -/
def summary (s : Settings) : Value :=
  .dict [(Value.ofString "space_id", .str s.space),
    (Value.ofString "cipher", Value.ofString s.cipher.name),
    (Value.ofString "key_rotation", Value.ofString s.rotation.name),
    (Value.ofString "timeout", match s.timeout with | some x => .float x | none => .null),
    (Value.ofString "publish_on_unlock", .bool s.publishOnUnlock)]

end Settings

end Strongbox

/-
# The file of the registry

`is_auth_registry_load_file` reads the Consumers from a file: a line `version = 1`,
then a section for each Consumer with its keys and limits. The file is taken line
by line as `fgets` delivers it, at most 1023 bytes at a time, and any line that is
not understood fails the whole reload before the registry is touched.

A file that cannot be opened, or that others may read, is `none`; `readError` is
what `ferror` says at the end. `now k` is the time at which the section with `k`
credentials before it is appended.
-/
import Infiniswap.Provider.Registry

namespace Infiniswap
namespace Provider

open Protocol

/-! ### Text -/

/-- The bytes of an ASCII text. -/
def ascii (s : String) : List UInt8 := s.toList.map fun c => UInt8.ofNat c.toNat

/-- The pieces that `fgets` reads into a buffer of `size` bytes; `piece` is what it has of the next
one, reversed. -/
def fgets (size : ℕ) : List UInt8 → (piece : List UInt8) → List (List UInt8)
  | [], piece => if piece = [] then [] else [piece.reverse]
  | b :: bytes, piece =>
    if b = 10 ∨ piece.length + 2 = size then (b :: piece).reverse :: fgets size bytes []
    else fgets size bytes (b :: piece)

/-- `trim`: blanks in front, and blanks and line ends behind. -/
def trim (value : List UInt8) : List UInt8 :=
  ((value.dropWhile fun b => b = 32 || b = 9).reverse.dropWhile fun b =>
    b = 32 || b = 9 || b = 13 || b = 10).reverse

/-- `hex_value`. -/
def hexValue (b : UInt8) : Option UInt8 :=
  if 48 ≤ b ∧ b ≤ 57 then some (b - 48)
  else if 97 ≤ b ∧ b ≤ 102 then some (b - 97 + 10)
  else if 65 ≤ b ∧ b ≤ 70 then some (b - 65 + 10)
  else none

/-- The loop of `decode_secret`. -/
def decodeHex : List UInt8 → Option (List UInt8)
  | [] => some []
  | [_] => none
  | high :: low :: rest => do
    let h ← hexValue high
    let l ← hexValue low
    return (h <<< 4 ||| l) :: (← decodeHex rest)

/-- `decode_secret`. -/
def decodeSecret (hex : List UInt8) : Option (List UInt8) :=
  if hex.length < authSecretMinSize * 2 ∨ hex.length > authSecretMaxSize * 2 ∨ hex.length % 2 ≠ 0 then none
  else decodeHex hex

/-- `strtoul` and `strtoull` with base 10, where they convert the whole text and set no error. -/
def strtoull (value : List UInt8) : Option ℕ :=
  let rest := value.dropWhile fun b => b = 32 || 9 ≤ b && b ≤ 13
  let negative := rest.head? = some 45
  let digits := if negative ∨ rest.head? = some 43 then rest.tail else rest
  if digits = [] ∨ !digits.all fun b => 48 ≤ b && b ≤ 57 then none
  else
    let n := digits.foldl (fun n b => n * 10 + (b.toNat - 48)) 0
    if 2 ^ 64 ≤ n then none else some (if negative then (2 ^ 64 - n) % 2 ^ 64 else n)

/-- A number does not start with a sign, and there is one. -/
def startsNumber (value : List UInt8) : Bool := value.head?.any fun b => b ≠ 45 && b ≠ 43

/-- `parse_u64`. -/
def parseU64 (value : List UInt8) : Option UInt64 :=
  if startsNumber value then (strtoull value).map UInt64.ofNat else none

/-- `parse_u32`. -/
def parseU32 (value : List UInt8) : Option UInt32 :=
  if startsNumber value then ((strtoull value).filter fun n => n ≤ 4294967295).map UInt32.ofNat else none

/-! ### Sections -/

/-- The fields of a section; two of them have two names. -/
inductive Field
  | currentKeyId | currentPskHex | nextKeyId | nextPskHex | nextValidUntilUnix | maxConnections
  | maxOpportunistic | maxCommitted | revoked
  deriving DecidableEq

/-- The field that a key names. -/
def Field.ofKey (key : List UInt8) : Option Field :=
  if key = ascii "current_key_id" then some .currentKeyId
  else if key = ascii "current_psk_hex" then some .currentPskHex
  else if key = ascii "next_key_id" then some .nextKeyId
  else if key = ascii "next_psk_hex" then some .nextPskHex
  else if key = ascii "next_valid_until_unix" then some .nextValidUntilUnix
  else if key = ascii "max_connections" then some .maxConnections
  else if key = ascii "max_opportunistic_gib" ∨ key = ascii "max_opportunistic_chunks" then
    some .maxOpportunistic
  else if key = ascii "max_committed_gib" ∨ key = ascii "max_committed_chunks" then some .maxCommitted
  else if key = ascii "revoked" then some .revoked
  else none

/-- A credential that is all zero but for its Consumer. -/
def Credential.blank (consumerId : List UInt8) : Credential :=
  { consumerId, current := {}, maxConnections := 0, maxOpportunisticChunks := 0, maxCommittedChunks := 0 }

/-- `start_consumer_section`. -/
def startConsumerSection (line : List UInt8) : Option Credential :=
  let start := ascii "[consumer:"
  let id := (line.drop start.length).dropLast
  if line.take start.length ≠ start ∨ line.length ≤ start.length + 1 ∨ line.getLast? ≠ some 93 then none
  else if id.length = 0 ∨ id.length > consumerIdMax then none
  else if authIdentifierValid id consumerIdMax then some (.blank id) else none

/-- A field of the credential is set to what the text says. -/
def Credential.setField (c : Credential) (value : List UInt8) : Field → Option Credential
  | .currentKeyId =>
    if value.length > keyIdMax then none else some { c with current := { c.current with keyId := value } }
  | .currentPskHex =>
    (decodeSecret value).map fun secret => { c with current := { c.current with secret } }
  | .nextKeyId =>
    if value.length > keyIdMax then none else some { c with next := { c.next with keyId := value } }
  | .nextPskHex => (decodeSecret value).map fun secret => { c with next := { c.next with secret } }
  | .nextValidUntilUnix => (parseU64 value).map fun n => { c with nextValidUntilUnix := n }
  | .maxConnections => (parseU32 value).map fun n => { c with maxConnections := n }
  | .maxOpportunistic => (parseU32 value).map fun n => { c with maxOpportunisticChunks := n }
  | .maxCommitted => (parseU32 value).map fun n => { c with maxCommittedChunks := n }
  | .revoked =>
    if value = ascii "true" then some { c with revoked := true }
    else if value = ascii "false" then some { c with revoked := false }
    else none

/-- `parse_credential_value`: the credential and the fields that were seen. -/
def parseCredentialValue (c : Credential) (seen : List Field) (key value : List UInt8) :
    Option (Credential × List Field) := do
  let field ← Field.ofKey key
  if field ∈ seen then none
  let c ← c.setField value field
  return (c, field :: seen)

/-! ### Lines -/

/-- The variables of the loop over the lines. -/
structure FileState where
  entries : List Credential := []
  current : Credential := .blank []
  inConsumer : Bool := false
  versionSeen : Bool := false
  fieldsSeen : List Field := []

/-- The credentials with the section that was being read. -/
def FileState.flush (s : FileState) (now : ℕ → ℤ) : Option (List Credential) :=
  if s.inConsumer then Registry.appendCredential s.entries s.current (now s.entries.length)
    else some s.entries

/-- The body of the loop over the lines. -/
def parseLine (now : ℕ → ℤ) (s : FileState) (buffer : List UInt8) : Option FileState :=
  -- a byte 0 ends the text in the buffer
  let line := trim (buffer.takeWhile (· ≠ 0))
  if line = [] ∨ line.head? = some 35 ∨ line.head? = some 59 then some s
  else if line.head? = some 91 then do
    let entries ← s.flush now
    let current ← startConsumerSection line
    return { s with entries, current, inConsumer := true, fieldsSeen := [] }
  else if 61 ∉ line then none
  else
    let key := trim (line.takeWhile (· ≠ 61))
    let value := trim ((line.dropWhile (· ≠ 61)).drop 1)
    if !s.inConsumer then
      if key ≠ ascii "version" ∨ value ≠ ascii "1" ∨ s.versionSeen then none
        else some { s with versionSeen := true }
    else do
      let (current, fieldsSeen) ← parseCredentialValue s.current s.fieldsSeen key value
      return { s with current, fieldsSeen }

/-- The part of `is_auth_registry_load_file` that reads the file. -/
def parseFile (bytes : List UInt8) (readError : Bool) (now : ℕ → ℤ) : Option (List Credential) := do
  let s ← (fgets 1024 bytes []).foldlM (parseLine now) {}
  if readError ∨ !s.versionSeen then none
  s.flush now

namespace Registry

/-- How many of the new credentials get a version of their own. -/
def versionsIssued (old entries : List Credential) : ℕ :=
  entries.countP fun c => !sameAuthorization (findCredential old c.consumerId) (some c)

/-- The part of `is_auth_registry_load_file` that holds the lock. -/
def install (r : Registry) (entries : List Credential) : Registry × List ℕ :=
  let notified := r.listeners.filter fun l =>
    !sameAuthorization (findCredential r.entries l.consumerId) (findCredential entries l.consumerId)
  let (version, entries) := assignVersions r.entries r.nextAuthorizationVersion entries
  ({ r with entries, nextAuthorizationVersion := version }, notified.map (·.context))

/-- `is_auth_registry_load_file`, with the contexts it notifies. -/
def loadFile (r : Registry) (file : Option (List UInt8)) (readError : Bool) (now : ℕ → ℤ) :
    Except AuthResult (Registry × List ℕ) :=
  match file with
  | none => .error .ioError
  | some bytes =>
    match parseFile bytes readError now with
    | none => .error .formatError
    | some entries => .ok (r.install entries)

end Registry
end Provider
end Infiniswap

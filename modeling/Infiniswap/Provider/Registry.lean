/-
# The authorisation registry

The registry of `infiniswap_auth.c`: the Consumers that may connect, their keys
and limits, and the version of each authorisation. Sessions verify a tag against
it and ask later whether the version they were given still holds; add, revoke
and a reload of the file change it between any two calls.

Identifiers are the C strings in their arrays, and a secret is as many bytes as
its size says. `now` is what `time` returns, read at most once in a call. HMAC
is a parameter `hmac` from a secret and a text to a tag, and `crypto` says
whether the library computes it. The file itself is read in `CredentialFile`.
-/
import Infiniswap.Protocol.Message

namespace Infiniswap
namespace Provider

open Bytes Protocol

def authSecretMinSize : ℕ := 32

def authSecretMaxSize : ℕ := 64

def authMaxConsumers : ℕ := 64

def authMaxKeyOverlapSeconds : ℕ := 30 * 24 * 60 * 60

/-- `enum is_auth_result`, but for `IS_AUTH_OK`. -/
inductive AuthResult
  | invalidArgument | full | duplicate | notFound | revoked | failed | cryptoError | ioError | formatError
  deriving DecidableEq

/-- `struct is_auth_key`. -/
structure Key where
  keyId : List UInt8 := []
  secret : List UInt8 := []
  deriving DecidableEq

/-- `struct is_auth_credential`. -/
structure Credential where
  consumerId : List UInt8
  current : Key
  next : Key := {}
  nextValidUntilUnix : UInt64 := 0
  maxConnections : UInt32
  maxOpportunisticChunks : UInt32
  maxCommittedChunks : UInt32
  authorizationVersion : UInt64 := 0
  revoked : Bool := false
  deriving DecidableEq

/-- `struct is_auth_listener`: whom a callback is for, and its context. -/
structure Listener where
  consumerId : List UInt8
  context : ℕ
  deriving DecidableEq

/-- `struct is_auth_registry`. -/
structure Registry where
  entries : List Credential := []
  listeners : List Listener := []
  nextAuthorizationVersion : UInt64 := 0
  deriving DecidableEq

/-! ### Checks -/

/-- `identifier_valid`. -/
def authIdentifierValid (value : List UInt8) (maximum : ℕ) : Bool :=
  value ≠ [] && value.length ≤ maximum && value.all identifierChar

/-- `key_valid`. -/
def Key.valid (k : Key) (optional : Bool) : Bool :=
  optional && k.secret = [] && k.keyId = [] ||
    authIdentifierValid k.keyId keyIdMax && authSecretMinSize ≤ k.secret.length &&
      k.secret.length ≤ authSecretMaxSize

/-- `credential_valid`. -/
def Credential.valid (c : Credential) (now : ℤ) : Bool :=
  authIdentifierValid c.consumerId consumerIdMax && c.current.valid false && c.next.valid true &&
    !(c.next.secret ≠ [] && (c.current.keyId = c.next.keyId || c.nextValidUntilUnix = 0)) &&
    !(c.next.secret ≠ [] && (now < 0 || c.nextValidUntilUnix.toNat ≤ now.toNat ||
      c.nextValidUntilUnix.toNat - now.toNat > authMaxKeyOverlapSeconds)) &&
    !(c.next.secret = [] && c.nextValidUntilUnix ≠ 0) &&
    !(c.maxConnections = 0 || c.maxConnections.toNat > authMaxConsumers) &&
    (c.maxOpportunisticChunks ≠ 0 || c.maxCommittedChunks ≠ 0)

/-- `authorization_equal`, for credentials that are there. -/
def Credential.authorizationEqual (left right : Credential) : Bool :=
  !right.revoked && left.current = right.current && left.next = right.next &&
    left.nextValidUntilUnix = right.nextValidUntilUnix && left.maxConnections = right.maxConnections &&
    left.maxOpportunisticChunks = right.maxOpportunisticChunks &&
    left.maxCommittedChunks = right.maxCommittedChunks

/-- `find_credential` and `find_entry`. -/
def findCredential (entries : List Credential) (consumerId : List UInt8) : Option Credential :=
  entries.find? fun c => c.consumerId = consumerId

theorem findCredential_some {entries : List Credential} {consumerId : List UInt8} {c : Credential}
    (h : findCredential entries consumerId = some c) : c ∈ entries ∧ c.consumerId = consumerId := by
  unfold findCredential at h
  exact ⟨List.mem_of_find?_eq_some h, by simpa using List.find?_some h⟩

/-! ### Changes -/

namespace Registry

/-- `next_authorization_version`: the version after the last one, never 0. -/
def nextVersion (v : UInt64) : UInt64 := if v + 1 = 0 then 1 else v + 1

/-- `is_auth_registry_add`. -/
def add (r : Registry) (c : Credential) (now : ℤ) : Except AuthResult Registry :=
  if !c.valid now then .error .invalidArgument
  else if r.entries.length = authMaxConsumers then .error .full
  else if (findCredential r.entries c.consumerId).isSome then .error .duplicate
  else
    let version := nextVersion r.nextAuthorizationVersion
    .ok { r with entries := r.entries ++ [{ c with authorizationVersion := version }]
                 nextAuthorizationVersion := version }

/-- The first credential of the Consumer, changed by `f`. -/
def modifyCredential (consumerId : List UInt8) (f : Credential → Credential) :
    List Credential → List Credential
  | [] => []
  | c :: cs => if c.consumerId = consumerId then f c :: cs else c :: modifyCredential consumerId f cs

/-- `notify_revocation`: the contexts of the callbacks it makes. -/
def notifyRevocation (r : Registry) (consumerId : List UInt8) : List ℕ :=
  (r.listeners.filter fun l => l.consumerId = consumerId).map (·.context)

/-- `is_auth_registry_revoke`, with the contexts it notifies. -/
def revoke (r : Registry) (consumerId : List UInt8) : Except AuthResult (Registry × List ℕ) :=
  match findCredential r.entries consumerId with
  | none => .error .notFound
  | some _ =>
    let version := nextVersion r.nextAuthorizationVersion
    .ok ({ r with entries := modifyCredential consumerId
                    (fun c => { c with revoked := true, authorizationVersion := version }) r.entries
                  nextAuthorizationVersion := version }, r.notifyRevocation consumerId)

/-- `append_credential`. -/
def appendCredential (entries : List Credential) (c : Credential) (now : ℤ) : Option (List Credential) :=
  if !c.valid now || entries.length = authMaxConsumers ||
      (findCredential entries c.consumerId).isSome then none
  else some (entries ++ [c])

/-- Whether the old and the new credential of a Consumer are there and equal. -/
def sameAuthorization (old new : Option Credential) : Bool :=
  match old, new with
  | some o, some n => o.authorizationEqual n
  | _, _ => false

/-- The loop that gives each new entry the version of an equal old one, or the next version. -/
def assignVersions (old : List Credential) : UInt64 → List Credential → UInt64 × List Credential
  | v, [] => (v, [])
  | v, c :: cs =>
    let kept := (findCredential old c.consumerId).filter fun o => o.authorizationEqual c
    let version := kept.elim (nextVersion v) (·.authorizationVersion)
    let rest := assignVersions old (if kept.isSome then v else nextVersion v) cs
    (rest.1, { c with authorizationVersion := version } :: rest.2)

/-- `is_auth_registry_subscribe`. -/
def subscribe (r : Registry) (consumerId : List UInt8) (authorizationVersion : UInt64) (context : ℕ) :
    Except AuthResult Registry :=
  match findCredential r.entries consumerId with
  | none => .error .notFound
  | some c =>
    if c.revoked then .error .revoked
    else if authorizationVersion = 0 ∨ c.authorizationVersion ≠ authorizationVersion then .error .failed
    else if r.listeners.length = authMaxConsumers then .error .full
    else if r.listeners.any fun l => l.context = context then .error .duplicate
    else .ok { r with listeners := r.listeners ++ [⟨consumerId, context⟩] }

/-- `is_auth_registry_unsubscribe`: the last listener takes the place of the one that goes. -/
def unsubscribe (r : Registry) (context : ℕ) : Registry :=
  match r.listeners.findIdx? fun l => l.context = context, r.listeners.getLast? with
  | some i, some last => { r with listeners := (r.listeners.set i last).dropLast }
  | _, _ => r

/-! ### Queries -/

/-- `is_auth_registry_validate_authorization`. -/
def validateAuthorization (r : Registry) (consumerId : List UInt8) (authorizationVersion : UInt64) :
    Except AuthResult Unit :=
  if authorizationVersion = 0 then .error .invalidArgument
  else
    match findCredential r.entries consumerId with
    | none => .error .notFound
    | some c =>
      if c.revoked then .error .revoked
      else if c.authorizationVersion ≠ authorizationVersion then .error .failed
      else .ok ()

/-- The key of a credential that a Consumer may use now, and until when it is authenticated with it;
0 is no limit. -/
def selectKey (c : Credential) (keyId : List UInt8) (now : ℤ) : Option (Key × UInt64) :=
  if c.current.keyId = keyId then some (c.current, 0)
  else if 0 ≤ now ∧ c.next.secret ≠ [] ∧ c.nextValidUntilUnix.toNat > now.toNat ∧ c.next.keyId = keyId then
    some (c.next, c.nextValidUntilUnix)
  else none

/-- `key` is the credential's key under the key id, and valid at `now`: the current key, without a
limit, or the next one, until its time. -/
def ValidKey (c : Credential) (keyId : List UInt8) (now : ℤ) (key : Key)
    (authenticatedUntil : UInt64) : Prop :=
  key = c.current ∧ key.keyId = keyId ∧ authenticatedUntil = 0 ∨
    key = c.next ∧ key.secret ≠ [] ∧ key.keyId = keyId ∧ 0 ≤ now ∧
      now.toNat < c.nextValidUntilUnix.toNat ∧ authenticatedUntil = c.nextValidUntilUnix

theorem validKey_of_selectKey {c : Credential} {keyId : List UInt8} {now : ℤ} {key : Key}
    {authenticatedUntil : UInt64} (h : selectKey c keyId now = some (key, authenticatedUntil)) :
    ValidKey c keyId now key authenticatedUntil := by
  unfold selectKey at h
  split_ifs at h with hcurrent hnext
  · cases h
    exact .inl ⟨rfl, hcurrent, rfl⟩
  · cases h
    exact .inr ⟨rfl, hnext.2.1, hnext.2.2.2, hnext.1, hnext.2.2.1, rfl⟩

/-- The text that starts every authenticated transcript, in ASCII. -/
def authDomain : List UInt8 :=
  [73, 110, 102, 105, 110, 105, 115, 119, 97, 112, 32, 99, 111, 110, 116, 114, 111, 108, 32, 97,
    117, 116, 104, 101, 110, 116, 105, 99, 97, 116, 105, 111, 110, 32, 118, 49]

variable (hmac : List UInt8 → List UInt8 → Vector UInt8 32)

/-- `is_auth_compute_tag`. -/
def computeTag (crypto : Bool) (secret hello challenge : List UInt8) :
    Except AuthResult (Vector UInt8 32) :=
  if secret.length < authSecretMinSize ∨ secret.length > authSecretMaxSize ∨ hello.length = 0 ∨
      hello.length > maxFrameSize ∨ challenge.length = 0 ∨ challenge.length > maxFrameSize then
    .error .invalidArgument
  else if !crypto then .error .cryptoError
  else .ok (hmac secret (authDomain ++ (hello ++ challenge)))

/-- `is_auth_registry_verify`: until when the tag authenticates, and the version of the authorisation. -/
def verify (r : Registry) (now : ℤ) (crypto : Bool) (consumerId keyId hello challenge : List UInt8)
    (tag : Vector UInt8 32) : Except AuthResult (UInt64 × UInt64) :=
  match findCredential r.entries consumerId with
  | none => .error .notFound
  | some c =>
    if c.revoked then .error .revoked
    else
      match selectKey c keyId now with
      | none => .error .failed
      | some (key, authenticated) =>
        match computeTag hmac crypto key.secret hello challenge with
        | .error e => .error e
        | .ok expected =>
          if expected ≠ tag then .error .failed else .ok (authenticated, c.authorizationVersion)

variable {hmac}

/-- **What a verified tag says.** The Consumer has a credential that is not revoked, one of its keys
is valid under the key id now, and the tag is the HMAC of the two frames under that key. -/
theorem verify_ok {r : Registry} {now : ℤ} {crypto : Bool}
    {consumerId keyId hello challenge : List UInt8} {tag : Vector UInt8 32}
    {authenticatedUntil version : UInt64}
    (h : verify hmac r now crypto consumerId keyId hello challenge tag =
      .ok (authenticatedUntil, version)) :
    ∃ c ∈ r.entries, c.consumerId = consumerId ∧ c.revoked = false ∧ c.authorizationVersion = version ∧
      ∃ key, ValidKey c keyId now key authenticatedUntil ∧
        hmac key.secret (authDomain ++ (hello ++ challenge)) = tag := by
  unfold verify at h
  split at h
  · cases h
  rename_i c hc
  split_ifs at h with hrevoked
  split at h
  · cases h
  rename_i key authenticated hkey
  split at h
  · cases h
  rename_i expected htag
  split_ifs at h with hne
  cases h
  unfold computeTag at htag
  split_ifs at htag
  cases htag
  obtain ⟨hmem, hid⟩ := findCredential_some hc
  exact ⟨c, hmem, hid, Bool.not_eq_true _ ▸ hrevoked, rfl, key, validKey_of_selectKey hkey,
    not_not.mp hne⟩

theorem validateAuthorization_ok {r : Registry} {consumerId : List UInt8} {version : UInt64}
    (h : r.validateAuthorization consumerId version = .ok ()) :
    version ≠ 0 ∧ ∃ c, findCredential r.entries consumerId = some c ∧ c.revoked = false ∧
      c.authorizationVersion = version := by
  unfold validateAuthorization at h
  split_ifs at h with hzero
  split at h
  · cases h
  rename_i c hc
  split_ifs at h with hrevoked hversion
  exact ⟨hzero, c, hc, Bool.not_eq_true _ ▸ hrevoked, not_not.mp hversion⟩

end Registry
end Provider
end Infiniswap

/-
# Authorisation only shrinks

A version of an authorisation holds for a Consumer while the registry has it for the
Consumer and the Consumer is not revoked. Every change issues versions that are new,
and a version is kept only by a credential that is not revoked, so a version that has
stopped to hold never holds again. A listener subscribes to a version; it is notified
by the change that ends it.

`Oversight` is the registry with what is said about its past: how many versions were
issued, what version each context has subscribed to, and whether it was notified since.
-/
import Infiniswap.Lib.Runs
import Infiniswap.Provider.CredentialFile

namespace Infiniswap
namespace Provider

open Registry Transition

/-! ### Runs -/

/-- The registry with its past. -/
structure Oversight where
  registry : Registry := {}
  issued : ℕ := 0
  subscribed : ℕ → UInt64 := fun _ => 0
  notified : ℕ → Bool := fun _ => false

/-- A call of the registry. -/
inductive RegistryLabel
  | add (c : Credential) (now : ℤ)
  | revoke (consumerId : List UInt8)
  | loadFile (file : Option (List UInt8)) (readError : Bool) (now : ℕ → ℤ)
  | subscribe (consumerId : List UInt8) (authorizationVersion : UInt64) (context : ℕ)
  | unsubscribe (context : ℕ)

namespace Oversight

/-- The registry was changed: it has issued versions and notified contexts. -/
def changed (s : Oversight) (r : Registry) (issued : ℕ) (contexts : List ℕ) : Oversight :=
  { s with
    registry := r, issued := s.issued + issued,
    notified := fun x => s.notified x || decide (x ∈ contexts) }

/-- The versions that a reload issues. -/
def issuedByFile (s : Oversight) (file : Option (List UInt8)) (readError : Bool) (now : ℕ → ℤ) : ℕ :=
  ((file.bind fun bytes => parseFile bytes readError now).map (versionsIssued s.registry.entries)).getD 0

def call (s : Oversight) : RegistryLabel → Oversight
  | .add c now =>
    match s.registry.add c now with
    | .ok r => s.changed r 1 []
    | .error _ => s
  | .revoke consumerId =>
    match s.registry.revoke consumerId with
    | .ok (r, contexts) => s.changed r 1 contexts
    | .error _ => s
  | .loadFile file readError now =>
    match s.registry.loadFile file readError now with
    | .ok (r, contexts) => s.changed r (s.issuedByFile file readError now) contexts
    | .error _ => s
  | .subscribe consumerId version context =>
    match s.registry.subscribe consumerId version context with
    | .ok r =>
      { s with
        registry := r
        subscribed := Function.update s.subscribed context version
        notified := Function.update s.notified context false }
    | .error _ => s
  | .unsubscribe context => { s with registry := s.registry.unsubscribe context }

/-- The version holds for the Consumer. -/
def Validates (s : Oversight) (consumerId : List UInt8) (version : UInt64) : Prop :=
  s.registry.validateAuthorization consumerId version = .ok ()

end Oversight

/-- The registry from its initialisation on. -/
def registrySystem : System Oversight RegistryLabel where
  init s := s = {}
  step s l := some (s.call l)

/-! ### Versions -/

theorem toNat_nextVersion {v : UInt64} (h : v.toNat + 1 < 2 ^ 64) :
    (nextVersion v).toNat = v.toNat + 1 := by
  have hadd : (v + 1).toNat = v.toNat + 1 := by
    rw [UInt64.toNat_add]
    exact Nat.mod_eq_of_lt h
  have hne : v + 1 ≠ 0 := by
    intro hzero
    rw [hzero] at hadd
    cases hadd
  rw [nextVersion, if_neg hne, hadd]

section Find

variable {entries old : List Credential} {id : List UInt8} {c : Credential}

theorem findCredential_append (entries : List Credential) (c : Credential) (id : List UInt8) :
    findCredential (entries ++ [c]) id =
      (findCredential entries id).or (if c.consumerId = id then some c else none) := by
  rw [findCredential, findCredential, List.find?_append]
  by_cases hc : c.consumerId = id <;> simp [hc]

theorem findCredential_modify {f : Credential → Credential} (hf : ∀ c, (f c).consumerId = c.consumerId)
    (consumerId id : List UInt8) : ∀ entries, findCredential (modifyCredential consumerId f entries) id =
      if id = consumerId then (findCredential entries id).map f else findCredential entries id
  | [] => by
    rw [modifyCredential, findCredential]
    split <;> rfl
  | c :: entries => by
    have ih := findCredential_modify hf consumerId id entries
    rw [findCredential, findCredential] at *
    rw [modifyCredential]
    by_cases hc : c.consumerId = consumerId
    · rw [if_pos hc]
      by_cases hid : c.consumerId = id
      · have hself : id = consumerId := hid.symm.trans hc
        rw [if_pos hself, List.find?_cons_of_pos (by simpa [hf] using hid),
          List.find?_cons_of_pos (by simpa using hid)]
        rfl
      · have hne : id ≠ consumerId := fun heq => hid (hc.trans heq.symm)
        rw [if_neg hne, List.find?_cons_of_neg (by simpa [hf] using hid),
          List.find?_cons_of_neg (by simpa using hid)]
    · rw [if_neg hc]
      by_cases hid : c.consumerId = id
      · have hne : id ≠ consumerId := fun heq => hc (hid.trans heq)
        rw [if_neg hne, List.find?_cons_of_pos (by simpa using hid),
          List.find?_cons_of_pos (by simpa using hid)]
      · rw [List.find?_cons_of_neg (by simpa using hid), List.find?_cons_of_neg (by simpa using hid)]
        exact ih

theorem findCredential_revoke (consumerId id : List UInt8) (version : UInt64)
    (entries : List Credential) :
    findCredential (modifyCredential consumerId
        (fun c => { c with revoked := true, authorizationVersion := version }) entries) id =
      if id = consumerId then
        (findCredential entries id).map fun c =>
          { c with revoked := true, authorizationVersion := version }
      else findCredential entries id :=
  findCredential_modify (f := fun c => { c with revoked := true, authorizationVersion := version })
    (fun _ => rfl) consumerId id entries

theorem sameAuthorization_iff {o n : Option Credential} : sameAuthorization o n = true ↔
    ∃ c d, o = some c ∧ n = some d ∧ c.authorizationEqual d = true := by
  cases o <;> cases n <;> simp [sameAuthorization]

theorem revoked_of_equal {o : Credential} (h : o.authorizationEqual c = true) : c.revoked = false := by
  simp only [Credential.authorizationEqual, Bool.and_eq_true, Bool.not_eq_true'] at h
  exact h.1.1.1.1.1.1

/-- What a reload makes of the credential `c` that the file has for a Consumer, from the counter `n`
on: the version of the old credential where this is equal, and a new one elsewhere. -/
structure Reloaded (old : List Credential) (id : List UInt8) (n m : ℕ) (c : Credential)
    (version : UInt64) : Prop where
  kept : ∀ o, findCredential old id = some o → o.authorizationEqual c = true →
    version = o.authorizationVersion
  new : sameAuthorization (findCredential old id) (some c) = false → m < 2 ^ 64 →
    n < version.toNat ∧ version.toNat ≤ m

theorem versionsIssued_cons (old : List Credential) (c : Credential) (entries : List Credential) :
    versionsIssued old (c :: entries) = versionsIssued old entries +
      if sameAuthorization (findCredential old c.consumerId) (some c) then 0 else 1 := by
  rw [versionsIssued, List.countP_cons, ← versionsIssued]
  cases sameAuthorization (findCredential old c.consumerId) (some c) <;> rfl

theorem assignVersions_cons (old : List Credential) (v : UInt64) (c : Credential)
    (entries : List Credential) :
    ∃ v' version, assignVersions old v (c :: entries) = ((assignVersions old v' entries).1,
        { c with authorizationVersion := version } :: (assignVersions old v' entries).2) ∧
      (v.toNat + versionsIssued old (c :: entries) < 2 ^ 64 → v.toNat ≤ v'.toNat ∧
        v'.toNat + versionsIssued old entries = v.toNat + versionsIssued old (c :: entries)) ∧
      Reloaded old c.consumerId v.toNat (v.toNat + versionsIssued old (c :: entries)) c version := by
  rw [versionsIssued_cons]
  cases hsame : sameAuthorization (findCredential old c.consumerId) (some c) with
  | true =>
    obtain ⟨o, _, ho, hd, hequal⟩ := sameAuthorization_iff.mp hsame
    cases hd
    have hkept : (findCredential old c.consumerId).filter (fun o => o.authorizationEqual c) = some o := by
      rw [ho]
      exact Option.filter_some_pos hequal
    refine ⟨v, o.authorizationVersion, ?_, fun _ => ⟨Nat.le_refl _, rfl⟩, fun o' ho' _ => ?_,
      fun hnew => ?_⟩
    · rw [assignVersions, hkept]
      rfl
    · cases ho.symm.trans ho'
      rfl
    · cases hsame.symm.trans hnew
  | false =>
    have hnone : (findCredential old c.consumerId).filter (fun o => o.authorizationEqual c) = none := by
      cases ho : findCredential old c.consumerId with
      | none => rfl
      | some o =>
        rw [ho] at hsame
        exact Option.filter_some_neg (by simpa [sameAuthorization] using hsame)
    rw [if_neg Bool.false_ne_true]
    refine ⟨nextVersion v, nextVersion v, ?_, fun hfew => ?_, fun o ho hequal => ?_, fun _ hfew => ?_⟩
    · rw [assignVersions, hnone]
      rfl
    · have hnext := toNat_nextVersion (v := v) (by omega)
      omega
    · rw [ho] at hsame
      cases hsame.symm.trans hequal
    · have hnext := toNat_nextVersion (v := v) (by omega)
      omega

theorem toNat_assignVersions (old : List Credential) : ∀ (entries : List Credential) (v : UInt64),
    v.toNat + versionsIssued old entries < 2 ^ 64 →
      (assignVersions old v entries).1.toNat = v.toNat + versionsIssued old entries
  | [], _, _ => rfl
  | c :: entries, v, h => by
    obtain ⟨v', version, hassign, hcount, -⟩ := assignVersions_cons old v c entries
    obtain ⟨-, heq⟩ := hcount h
    rw [hassign]
    exact (toNat_assignVersions old entries v' (heq.trans_lt h)).trans heq

theorem findCredential_cons_self (hid : c.consumerId = id) (entries : List Credential) :
    findCredential (c :: entries) id = some c := List.find?_cons_of_pos (by simpa using hid)

theorem findCredential_cons_ne (hid : c.consumerId ≠ id) (entries : List Credential) :
    findCredential (c :: entries) id = findCredential entries id :=
      List.find?_cons_of_neg (by simpa using hid)

/-- **The version that a reload gives a Consumer.** -/
theorem findCredential_assignVersions (old : List Credential) (id : List UInt8) :
    ∀ (entries : List Credential) (v : UInt64),
    ∃ version, findCredential (assignVersions old v entries).2 id =
        (findCredential entries id).map (fun c => { c with authorizationVersion := version }) ∧
      ∀ c, findCredential entries id = some c →
        Reloaded old id v.toNat (v.toNat + versionsIssued old entries) c version
  | [], _ => ⟨0, rfl, nofun⟩
  | c :: entries, v => by
    obtain ⟨v', version, hassign, hcount, hhead⟩ := assignVersions_cons old v c entries
    rw [hassign]
    by_cases hid : c.consumerId = id
    · refine ⟨version, ?_, fun d hd => ?_⟩
      · rw [findCredential_cons_self hid]
        exact findCredential_cons_self (c := { c with authorizationVersion := version }) hid _
      · rw [findCredential_cons_self hid] at hd
        cases hd
        exact hid ▸ hhead
    · obtain ⟨version', hfind, hversion⟩ := findCredential_assignVersions old id entries v'
      refine ⟨version', ?_, fun d hd => ?_⟩
      · rw [findCredential_cons_ne hid]
        exact (findCredential_cons_ne (c := { c with authorizationVersion := version }) hid _).trans hfind
      · rw [findCredential_cons_ne hid] at hd
        obtain ⟨hkept, hnew⟩ := hversion d hd
        refine ⟨hkept, fun hchanged hfew => ?_⟩
        obtain ⟨hle, heq⟩ := hcount hfew
        have hbounds := hnew hchanged (heq.trans_lt hfew)
        omega

end Find

/-! ### What a call does to the credential of a Consumer -/

/-- The credential of a Consumer before and after a call that advances the counter from `n` to `m`:
it has a version that was issued by the call, or the version that it had, and then it was not
revoked. -/
def Evolves (n m : ℕ) (old new : Option Credential) : Prop :=
  ∀ d, new = some d → (n < d.authorizationVersion.toNat ∧ d.authorizationVersion.toNat ≤ m) ∨
    ∃ c, old = some c ∧ d.authorizationVersion = c.authorizationVersion ∧
      (c.revoked = false → d.revoked = false)

theorem evolves_refl (n m : ℕ) (o : Option Credential) : Evolves n m o o :=
  fun d hd => .inr ⟨d, hd, rfl, id⟩

/-- The counter is the number of versions that were issued, and no credential has a later one. -/
structure Oversight.Counted (s : Oversight) : Prop where
  counter : s.registry.nextAuthorizationVersion.toNat = s.issued
  versions : ∀ id c, findCredential s.registry.entries id = some c →
    c.authorizationVersion.toNat ≤ s.issued

/-- What a call does: nothing, where it fails, or one of the changes of the registry. -/
inductive Oversight.Effect (s : Oversight) : Oversight → Prop
  | refused : s.Effect s
  | added (c : Credential) :
      s.Effect (s.changed { s.registry with
        entries := s.registry.entries ++
          [{ c with authorizationVersion := nextVersion s.registry.nextAuthorizationVersion }]
        nextAuthorizationVersion := nextVersion s.registry.nextAuthorizationVersion } 1 [])
  | revoked (consumerId : List UInt8) :
      s.Effect (s.changed { s.registry with
        entries := modifyCredential consumerId (fun c =>
          { c with
            revoked := true,
            authorizationVersion := nextVersion s.registry.nextAuthorizationVersion })
          s.registry.entries
        nextAuthorizationVersion := nextVersion s.registry.nextAuthorizationVersion } 1
        (s.registry.notifyRevocation consumerId))
  | installed (entries : List Credential) :
      s.Effect (s.changed (s.registry.install entries).1 (versionsIssued s.registry.entries entries)
        (s.registry.install entries).2)
  | subscribed {consumerId c} (hc : findCredential s.registry.entries consumerId = some c)
      (hlive : c.revoked = false) {context} (hnew : ∀ l ∈ s.registry.listeners, l.context ≠ context) :
      s.Effect { s with
        registry := { s.registry with listeners := s.registry.listeners ++ [⟨consumerId, context⟩] }
        subscribed := Function.update s.subscribed context c.authorizationVersion
        notified := Function.update s.notified context false }
  | unsubscribed (context : ℕ) : s.Effect { s with registry := s.registry.unsubscribe context }

/-- **Every call has one of the effects.** -/
theorem call_effect (s : Oversight) (l : RegistryLabel) : s.Effect (s.call l) := by
  cases l with
  | add c now =>
    unfold Oversight.call Registry.add
    dsimp only
    split_ifs
    on_goal 4 => exact .added c
    all_goals exact .refused
  | revoke consumerId =>
    unfold Oversight.call Registry.revoke
    dsimp only
    cases findCredential s.registry.entries consumerId with
    | none => exact .refused
    | some c => exact .revoked consumerId
  | loadFile file readError now =>
    unfold Oversight.call Registry.loadFile
    dsimp only
    rw [Oversight.issuedByFile]
    cases file with
    | none => exact .refused
    | some bytes =>
      dsimp only
      rw [Option.bind_some]
      cases parseFile bytes readError now with
      | none => exact .refused
      | some entries => exact .installed entries
  | subscribe consumerId version context =>
    unfold Oversight.call Registry.subscribe
    dsimp only
    cases hc : findCredential s.registry.entries consumerId with
    | none => exact .refused
    | some c =>
      dsimp only
      split_ifs with hrevoked hversion hfull hduplicate
      on_goal 5 =>
        obtain ⟨-, rfl⟩ : version ≠ 0 ∧ c.authorizationVersion = version := by simpa using hversion
        exact .subscribed hc (by simpa using hrevoked) (by simpa using hduplicate)
      all_goals exact .refused
  | unsubscribe context => exact .unsubscribed context

theorem issued_le_call (s : Oversight) (l : RegistryLabel) : s.issued ≤ (s.call l).issued := by
  have heffect := call_effect s l
  generalize s.call l = t at heffect
  cases heffect with
  | added | revoked | installed => exact Nat.le_add_right _ _
  | _ => exact Nat.le_refl _

variable {s : Oversight} {version : UInt64} {id : List UInt8} {l : RegistryLabel}

theorem counted_next (h : s.Counted) (hfew : s.issued + 1 < 2 ^ 64) :
    (nextVersion s.registry.nextAuthorizationVersion).toNat = s.issued + 1 := by
  have hlt : s.registry.nextAuthorizationVersion.toNat + 1 < 2 ^ 64 := h.counter ▸ hfew
  rw [toNat_nextVersion hlt, h.counter]

theorem entries_unsubscribe (r : Registry) (context : ℕ) :
    (r.unsubscribe context).entries = r.entries := by
  unfold Registry.unsubscribe
  split <;> rfl

theorem nextAuthorizationVersion_unsubscribe (r : Registry) (context : ℕ) :
    (r.unsubscribe context).nextAuthorizationVersion = r.nextAuthorizationVersion := by
  unfold Registry.unsubscribe
  split <;> rfl

/-- **What a call does to the credential of a Consumer.** -/
theorem evolves_call (h : s.Counted) (l : RegistryLabel) (hfew : (s.call l).issued < 2 ^ 64) :
    (s.call l).registry.nextAuthorizationVersion.toNat = (s.call l).issued ∧
      ∀ id, Evolves s.issued (s.call l).issued (findCredential s.registry.entries id)
        (findCredential (s.call l).registry.entries id) := by
  have heffect := call_effect s l
  generalize s.call l = t at heffect hfew
  cases heffect with
  | refused | subscribed => exact ⟨h.counter, fun id => evolves_refl _ _ _⟩
  | added c =>
    have hnext := counted_next h hfew
    refine ⟨hnext, fun id d hd => ?_⟩
    replace hd := (findCredential_append _ _ id).symm.trans hd
    rcases Option.or_eq_some_iff.mp hd with hold | ⟨-, hnew⟩
    · exact .inr ⟨d, hold, rfl, fun hd => hd⟩
    · split_ifs at hnew
      cases hnew
      exact .inl ⟨(Nat.lt_succ_self _).trans_eq hnext.symm, hnext.le⟩
  | revoked consumerId =>
    have hnext := counted_next h hfew
    refine ⟨hnext, fun id d hd => ?_⟩
    replace hd := (findCredential_revoke consumerId id _ s.registry.entries).symm.trans hd
    split_ifs at hd
    · obtain ⟨c, hc, rfl⟩ := Option.map_eq_some_iff.mp hd
      exact .inl ⟨(Nat.lt_succ_self _).trans_eq hnext.symm, hnext.le⟩
    · exact .inr ⟨d, hd, rfl, fun hd => hd⟩
  | installed entries =>
    replace hfew : s.registry.nextAuthorizationVersion.toNat +
      versionsIssued s.registry.entries entries < 2 ^ 64 :=
      h.counter.symm ▸ hfew
    refine ⟨?_, fun id d hd => ?_⟩
    · exact (toNat_assignVersions s.registry.entries entries _ hfew).trans (congrArg (· + _) h.counter)
    · obtain ⟨version, hfind, hversion⟩ := findCredential_assignVersions s.registry.entries id entries
        s.registry.nextAuthorizationVersion
      obtain ⟨c, hc, rfl⟩ := Option.map_eq_some_iff.mp (hfind.symm.trans hd)
      obtain ⟨hkept, hnew⟩ := hversion c hc
      rw [h.counter] at hnew hfew
      cases hsame : sameAuthorization (findCredential s.registry.entries id) (some c) with
      | true =>
        obtain ⟨o, _, ho, heq, hequal⟩ := sameAuthorization_iff.mp hsame
        cases heq
        exact .inr ⟨o, ho, hkept o ho hequal, fun _ => revoked_of_equal hequal⟩
      | false => exact .inl (hnew hsame hfew)
  | unsubscribed context =>
    dsimp only
    rw [nextAuthorizationVersion_unsubscribe, entries_unsubscribe]
    exact ⟨h.counter, fun id => evolves_refl _ _ _⟩

theorem Oversight.Counted.call (h : s.Counted) (hfew : (s.call l).issued < 2 ^ 64) :
    (s.call l).Counted := by
  obtain ⟨hcounter, hevolves⟩ := evolves_call h l hfew
  refine ⟨hcounter, fun id d hd => ?_⟩
  rcases hevolves id d hd with ⟨-, hle⟩ | ⟨c, hc, heq, -⟩
  · exact hle
  · rw [heq]
    exact (h.versions id c hc).trans (issued_le_call s l)

theorem counted_reachable (h : registrySystem.Reachable s) : s.issued < 2 ^ 64 → s.Counted := by
  refine System.Reach.invariant (I := fun s => s.issued < 2 ^ 64 → s.Counted) (fun s hs => ?_)
    (fun s l t _ hs _ hstep hfew => ?_) h
  · cases hs
    exact fun _ => ⟨rfl, nofun⟩
  · cases hstep
    exact (hs ((issued_le_call s l).trans_lt hfew)).call hfew

/-! ### Versions that have stopped to hold -/

/-- The version was issued, and the Consumer does not have it. -/
structure Oversight.Ended (s : Oversight) (id : List UInt8) (version : UInt64) : Prop where
  issued : version.toNat ≤ s.issued
  gone : ∀ c, findCredential s.registry.entries id = some c → c.authorizationVersion ≠ version

theorem validates_iff : s.Validates id version ↔
    version ≠ 0 ∧ ∃ c, findCredential s.registry.entries id = some c ∧ c.revoked = false ∧
      c.authorizationVersion = version := by
  refine ⟨Registry.validateAuthorization_ok, ?_⟩
  rintro ⟨hzero, c, hc, hrevoked, hversion⟩
  simp [Oversight.Validates, Registry.validateAuthorization, hzero, hc, hrevoked, hversion]

theorem Oversight.Ended.not_validates (h : s.Ended id version) :
    ¬s.Validates id version := by
  intro hvalid
  obtain ⟨-, c, hc, -, hversion⟩ := validates_iff.mp hvalid
  exact h.gone c hc hversion

theorem Oversight.Ended.call (hs : s.Counted) (h : s.Ended id version)
    (hfew : (s.call l).issued < 2 ^ 64) : (s.call l).Ended id version := by
  refine ⟨h.issued.trans (issued_le_call s l), fun d hd heq => ?_⟩
  rcases (evolves_call hs l hfew).2 id d hd with ⟨hlt, -⟩ | ⟨c, hc, hkept, -⟩
  · exact absurd h.issued (Nat.not_le.mpr (heq ▸ hlt))
  · exact h.gone c hc (hkept.symm.trans heq)

/-- **A version holds, or it has ended**, once it has held. -/
theorem validates_or_ended_call (hs : s.Counted) (h : s.Validates id version)
    (hfew : (s.call l).issued < 2 ^ 64) :
    (s.call l).Validates id version ∨ (s.call l).Ended id version := by
  obtain ⟨hzero, c, hc, hrevoked, hversion⟩ := validates_iff.mp h
  have hissued : version.toNat ≤ s.issued := hversion ▸ hs.versions id c hc
  by_cases hkept : ∃ d, findCredential (s.call l).registry.entries id = some d ∧
    d.authorizationVersion = version
  · obtain ⟨d, hd, heq⟩ := hkept
    rcases (evolves_call hs l hfew).2 id d hd with ⟨hlt, -⟩ | ⟨c', hc', -, hlive⟩
    · exact absurd hissued (Nat.not_le.mpr (heq ▸ hlt))
    · cases hc.symm.trans hc'
      exact .inl (validates_iff.mpr ⟨hzero, d, hd, hlive hrevoked, heq⟩)
  · exact .inr ⟨hissued.trans (issued_le_call s l), fun d hd heq => hkept ⟨d, hd, heq⟩⟩

section From

variable {s t : Oversight} {id : List UInt8} {version : UInt64}

section

variable (hs : registrySystem.Reachable s)

include hs

theorem issued_le_from (h : (registrySystem.startAt s).Reachable t) :
    s.issued ≤ t.issued := by
  refine (System.Reach.invariant_from (I := fun t => s.issued ≤ t.issued) hs (Nat.le_refl _) ?_ h).2
  intro u l v _ hu _ hv
  cases hv
  exact hu.trans (issued_le_call u l)

/-- Along every run a version that holds goes on to hold until it has ended. -/
theorem validates_or_ended (h : s.Validates id version)
    (ht : (registrySystem.startAt s).Reachable t) (hfew : t.issued < 2 ^ 64) :
    t.Validates id version ∨ t.Ended id version := by
  refine (System.Reach.invariant_from
    (I := fun t => t.issued < 2 ^ 64 → t.Validates id version ∨ t.Ended id version) hs
      (fun _ => .inl h) ?_ ht).2 hfew
  intro u l v hu ih _ hv hfew
  cases hv
  have hfew' := (issued_le_call u l).trans_lt hfew
  have hcounted := counted_reachable hu hfew'
  rcases ih hfew' with hvalid | hended
  · exact validates_or_ended_call hcounted hvalid hfew
  · exact .inr (hended.call hcounted hfew)

/-- Along every run a version that has ended stays so. -/
theorem ended_from (h : s.Ended id version) (ht : (registrySystem.startAt s).Reachable t)
    (hfew : t.issued < 2 ^ 64) : t.Ended id version := by
  refine (System.Reach.invariant_from (I := fun t => t.issued < 2 ^ 64 → t.Ended id version) hs
    (fun _ => h) ?_ ht).2 hfew
  intro u l v hu ih _ hv hfew
  cases hv
  have hfew' := (issued_le_call u l).trans_lt hfew
  exact (ih hfew').call (counted_reachable hu hfew') hfew

end

end From

/-! ### Listeners -/

/-- The Consumer of a listener is not revoked, and has the version that the listener subscribed to. -/
def Oversight.Current (s : Oversight) (l : Listener) : Prop :=
  ∃ c, findCredential s.registry.entries l.consumerId = some c ∧ c.revoked = false ∧
    c.authorizationVersion = s.subscribed l.context

/-- Every listener was notified, or there was nothing to notify it of. -/
def Oversight.Attended (s : Oversight) : Prop :=
  ∀ l ∈ s.registry.listeners, s.notified l.context = true ∨ s.Current l

/-- A change that notifies the listeners whose version it ends. -/
theorem Oversight.Attended.changed (h : s.Attended) {r : Registry} {n : ℕ} {contexts : List ℕ}
    (hlisteners : r.listeners = s.registry.listeners)
    (hends : ∀ l ∈ s.registry.listeners, l.context ∉ contexts →
      ∀ c, findCredential s.registry.entries l.consumerId = some c →
      c.revoked = false → ∃ d, findCredential r.entries l.consumerId = some d ∧ d.revoked = false ∧
      d.authorizationVersion = c.authorizationVersion) : (s.changed r n contexts).Attended := by
  intro l hl
  replace hl : l ∈ s.registry.listeners := hlisteners ▸ hl
  by_cases hcontext : l.context ∈ contexts
  · refine .inl ?_
    change (s.notified l.context || decide (l.context ∈ contexts)) = true
    rw [decide_eq_true hcontext, Bool.or_true]
  · rcases h l hl with hnotified | ⟨c, hc, hrevoked, hversion⟩
    · refine .inl ?_
      change (s.notified l.context || decide (l.context ∈ contexts)) = true
      rw [hnotified, Bool.true_or]
    · obtain ⟨d, hd, hlive, hkept⟩ := hends l hl hcontext c hc hrevoked
      exact .inr ⟨d, hd, hlive, hkept.trans hversion⟩

theorem mem_unsubscribe {r : Registry} {context : ℕ} {l : Listener}
    (h : l ∈ (r.unsubscribe context).listeners) : l ∈ r.listeners := by
  unfold Registry.unsubscribe at h
  split at h
  · rename_i i last _ hlast
    rcases List.mem_or_eq_of_mem_set ((List.dropLast_sublist _).subset h) with hl | rfl
    · exact hl
    · exact List.mem_of_getLast? hlast
  · exact h

/-- **Every call attends to the listeners.** -/
theorem attended_call (h : s.Attended) (l : RegistryLabel) : (s.call l).Attended := by
  have heffect := call_effect s l
  generalize s.call l = t at heffect
  cases heffect with
  | refused => exact h
  | added c =>
    refine h.changed rfl fun l _ _ d hd hlive => ⟨d, ?_, hlive, rfl⟩
    rw [findCredential_append, hd]
    rfl
  | revoked consumerId =>
    refine h.changed rfl fun l hl hcontext c hc hlive => ⟨c, ?_, hlive, rfl⟩
    -- the listeners of the Consumer are notified
    have hne : l.consumerId ≠ consumerId := by
      intro heq
      exact hcontext (List.mem_map_of_mem (List.mem_filter.mpr ⟨hl, decide_eq_true heq⟩))
    rw [findCredential_revoke, if_neg hne, hc]
  | installed entries =>
    refine h.changed rfl fun l hl hcontext o ho hlive => ?_
    have hsame : sameAuthorization (findCredential s.registry.entries l.consumerId)
        (findCredential entries l.consumerId) = true := by
      by_contra hchanged
      exact hcontext (List.mem_map_of_mem (List.mem_filter.mpr ⟨hl, by simpa using hchanged⟩))
    obtain ⟨o', c, ho', hc, hequal⟩ := sameAuthorization_iff.mp hsame
    cases ho.symm.trans ho'
    obtain ⟨version, hfind, hversion⟩ := findCredential_assignVersions s.registry.entries
      l.consumerId entries s.registry.nextAuthorizationVersion
    rw [hc] at hfind
    exact ⟨_, hfind, revoked_of_equal hequal, (hversion c hc).kept o ho hequal⟩
  | @subscribed consumerId c hc hlive context hnew =>
    intro l hl
    dsimp only
    rcases List.mem_append.mp hl with hold | hlast
    · have hne := hnew l hold
      rcases h l hold with hnotified | ⟨d, hd, hlive, heq⟩
      · exact .inl ((Function.update_of_ne hne _ _).trans hnotified)
      · exact .inr ⟨d, hd, hlive, heq.trans (Function.update_of_ne hne _ _).symm⟩
    · cases List.mem_singleton.mp hlast
      exact .inr ⟨c, hc, hlive, (Function.update_self context _ s.subscribed).symm⟩
  | unsubscribed context =>
    intro l hl
    refine (h l (mem_unsubscribe hl)).imp_right ?_
    rintro ⟨c, hc, hlive, hversion⟩
    exact ⟨c, (entries_unsubscribe s.registry context).symm ▸ hc, hlive, hversion⟩

theorem attended_reachable (h : registrySystem.Reachable s) : s.Attended := by
  refine System.Reach.invariant (I := Oversight.Attended) (fun s hs => ?_)
    (fun s l t _ hs _ hstep => ?_) h
  · cases hs
    exact nofun
  · cases hstep
    exact attended_call hs l

/-- **Authorisation only shrinks per version.** In runs that issue fewer than 2^64 versions a
version that held for a Consumer and has stopped to hold never holds again; every listener was
notified, or its Consumer is not revoked and has the version that it subscribed to; and a reload
that reports an error changes nothing and notifies nobody. -/
theorem authorization_shrinks :
    (∀ (s t u : Oversight) id version, registrySystem.Reachable s →
      (registrySystem.startAt s).Reachable t →
      (registrySystem.startAt t).Reachable u → u.issued < 2 ^ 64 → s.Validates id version →
        ¬t.Validates id version →
        ¬u.Validates id version) ∧
    (∀ s, registrySystem.Reachable s → ∀ l ∈ s.registry.listeners, s.notified l.context = true ∨
      s.Current l) ∧
    ∀ (s : Oversight) file readError now e, s.registry.loadFile file readError now = .error e →
      s.call (.loadFile file readError now) = s := by
  refine ⟨fun s t u id version hs ht hu hfew hvalid hstopped => ?_, fun s hs => attended_reachable hs,
    fun s file readError now e he => ?_⟩
  · have ht' : registrySystem.Reachable t :=
      (System.Reach.invariant_from (I := fun _ => True) hs trivial (fun _ _ _ _ _ _ _ => trivial) ht).1
    have hfew' := (issued_le_from ht' hu).trans_lt hfew
    have hended := (validates_or_ended hs hvalid ht hfew').resolve_left hstopped
    exact (ended_from ht' hended hu hfew).not_validates
  · unfold Oversight.call
    dsimp only
    rw [he]

/-- A file with one Consumer. -/
def sampleFile : List UInt8 :=
  ascii "version = 1\n[consumer:a]\ncurrent_key_id = k\n" ++
    ascii "current_psk_hex = 00112233445566778899aabbccddeeff00112233445566778899AABBCCDDEEFF\n" ++
    ascii "max_connections=1\nmax_committed_gib = 2\n"

/-- The file is loaded, and a listener subscribes to the version of the Consumer. -/
def sampleOversight : Oversight :=
  (({} : Oversight).call (.loadFile (some sampleFile) false fun _ => 0)).call (.subscribe [97] 1 5)

/-- The Consumer is revoked, and comes back with the file under another version. -/
theorem authorization_shrinks_sample :
    ∃ s t u : Oversight, registrySystem.Reachable s ∧ s.Validates [97] 1 ∧
    ¬t.Validates [97] 1 ∧ t.notified 5 = true ∧ u.Validates [97] 2 ∧ ¬u.Validates [97] 1 := by
  have hs : registrySystem.Reachable sampleOversight :=
    ((System.Reach.init rfl).step trivial rfl).step trivial rfl
  have hholds : sampleOversight.registry.validateAuthorization [97] 1 = .ok () ∧
      (sampleOversight.call (.revoke [97])).registry.validateAuthorization [97] 1 ≠ .ok () ∧
      (sampleOversight.call (.revoke [97])).notified 5 = true ∧
      ((sampleOversight.call (.revoke [97])).call
        (.loadFile (some sampleFile) false fun _ => 0)).registry.validateAuthorization
        [97] 2 = .ok () ∧
      ((sampleOversight.call (.revoke [97])).call
        (.loadFile (some sampleFile) false fun _ => 0)).issued < 2 ^ 64 := by
    decide +kernel
  obtain ⟨hvalid, hstopped, hnotified, hback, hfew⟩ := hholds
  exact ⟨sampleOversight, _, _, hs, hvalid, hstopped, hnotified, hback,
    authorization_shrinks.1 _ _ _ [97] 1 hs ((System.Reach.init rfl).step trivial rfl)
      ((System.Reach.init rfl).step trivial rfl) hfew hvalid hstopped⟩

end Provider
end Infiniswap

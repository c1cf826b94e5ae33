/-
# The list of Providers

The attribute `providers` of a device takes a list of names between commas.
The text is read three times: to check the names, to look for a name given
twice, and to install the list. The second pass compares each name with the
names that the device has from the last write, and not with those before it in
the text, since nothing is installed yet. So a list with a name given twice
can be accepted, and a list of different names refused, as the old list has it
(`setProviders_iff`).

Bytes are classified as the kernel's `isalnum` and `isspace` do. The device is
taken with what the write reads and writes; `allocated i` says whether its
allocation `i` succeeds.
-/
import Mathlib.Data.List.DropRight
import Infiniswap.RemoteChunk.Types

namespace Infiniswap
namespace Control

/-- `IS_PROVIDER_LIST_SIZE`. -/
def providerListSize : ℕ := 4096

/-- `IS_MAX_PROVIDERS`. -/
def maxListed : ℕ := 64

/-- `isalnum`, of the kernel's table of Latin-1 characters. -/
def isalnum (c : UInt8) : Bool :=
  (48 ≤ c && c ≤ 57) || (65 ≤ c && c ≤ 90) || (97 ≤ c && c ≤ 122) || (192 ≤ c && c ≠ 215 && c ≠ 247)

/-- `isspace`, of the same table. -/
def isspace (c : UInt8) : Bool := c = 32 || (9 ≤ c && c ≤ 13) || c = 160

/-- `strim`. -/
def strim (s : List UInt8) : List UInt8 := (s.rdropWhile isspace).dropWhile isspace

/-- `is_runtime_identifier_valid`, with at most `IS_PROTOCOL_CONSUMER_ID_MAX` bytes. -/
def runtimeIdentifierValid (value : List UInt8) : Bool :=
  value.head?.any isalnum && value.length ≤ 63 && value.all fun c =>
    isalnum c || c = 46 || c = 95 || c = 45

/-- `struct is_provider_endpoint`. -/
structure Endpoint where
  name : List UInt8 := []
  address : List UInt8 := []
  rdmaDevice : List UInt8 := []
  keyId : List UInt8 := []
  psk : List UInt8 := []
  port : ℕ := 0
  rdmaPort : ℕ := 0
  rdmaNumaNode : ℤ := 0
  placementWeight : ℕ := 0
  configured : Bool := false
  deriving DecidableEq

/-- `enum is_device_state`. -/
inductive DeviceState
  | created | active | draining | drained | stopped
  deriving DecidableEq

/-- The device as a write of its list finds it. `endpoints` are the first `provider_count` entries
of `provider_endpoints`, the others are zero; `bound` has the device's own copy of the endpoint that
is bound. -/
structure ListedDevice where
  state : DeviceState := .created
  endpoints : List Endpoint := []
  providerBindIndex : ℕ := 0
  providers : List UInt8 := []
  placementSampleSize : ℕ := 2
  bound : Endpoint := { rdmaNumaNode := -1 }
  deriving DecidableEq

/-- The names of the text, as `strsep` cuts them at the commas. -/
def listedNames (buf : List UInt8) : List (List UInt8) := (strim (buf.takeWhile (· ≠ 0))).splitOn 44

/-- The loop of `is_provider_list_valid`. -/
def providerListLoop : List (List UInt8) → (count : ℕ) → Bool
  | [], count => 0 < count
  | provider :: rest, count =>
    if provider = [] ∨ !runtimeIdentifierValid provider then false
    else if maxListed < count + 1 then false
    else providerListLoop rest (count + 1)

/-- The second loop of `is_device_set_providers`: a name is also one of the first `count` of the
device. -/
def repeatedLoop (endpoints : List Endpoint) : List (List UInt8) → (count : ℕ) → Bool
  | [], _ => false
  | provider :: rest, count =>
    if (List.range count).any fun index => (endpoints.getD index {}).name = provider then true
    else repeatedLoop endpoints rest (count + 1)

namespace ListedDevice

variable (d : ListedDevice)

/-- `is_device_configurable`. -/
def configurable : Bool := d.state = .created || d.state = .stopped

/-- The names of the Providers, in order. -/
def roster : List (List UInt8) := d.endpoints.map (·.name)

/-- `is_sync_bound_provider_mirror`. -/
def syncBoundProviderMirror : ListedDevice :=
  match d.endpoints[d.providerBindIndex]? with
  | none => d
  | some e =>
    { d with
      bound :=
        { d.bound with
          address := e.address, port := e.port, rdmaDevice := e.rdmaDevice, rdmaPort := e.rdmaPort
          rdmaNumaNode := e.rdmaNumaNode, keyId := e.keyId, psk := e.psk } }

/-- The part of `is_device_set_providers` under the lock. -/
def installProviders (providers : List UInt8) (names : List (List UInt8)) : ListedDevice :=
  let endpoints : List Endpoint :=
    names.map fun name => { name, placementWeight := 100, rdmaNumaNode := -1 }
  syncBoundProviderMirror
    { d with
      endpoints, providers
      providerBindIndex := 0
      placementSampleSize :=
        if d.placementSampleSize > endpoints.length then
          if endpoints.length ≠ 0 then endpoints.length else 2
        else d.placementSampleSize }

/-- `is_device_set_providers`. -/
def setProviders (allocated : ℕ → Bool) (buf : List UInt8) : Except Errno Unit × ListedDevice :=
  if buf = [] ∨ providerListSize ≤ buf.length then (.error (.other 36), d)
  else if !allocated 0 ∨ !allocated 1 then (.error .enomem, d)
  else if !providerListLoop (listedNames buf) 0 then (.error .einval, d)
  else if !allocated 2 then (.error .enomem, d)
  else if repeatedLoop d.endpoints (listedNames buf) 0 then (.error .einval, d)
  else if !allocated 3 then (.error .enomem, d)
  else if !d.configurable then (.error .ebusy, d)
  else (.ok (), d.installProviders (strim (buf.takeWhile (· ≠ 0))) (listedNames buf))

end ListedDevice

/-! ### The two loops -/

/-- At most the maximum number of valid names. -/
def WellFormed (names : List (List UInt8)) : Prop :=
  (∀ name ∈ names, runtimeIdentifierValid name = true) ∧ names.length ≤ maxListed

instance : DecidablePred WellFormed := fun _ => inferInstanceAs (Decidable (_ ∧ _))

/-- A name of the new list stands earlier in the old one. -/
def Shadowed (old names : List (List UInt8)) : Prop :=
  ∃ (i j : ℕ) (name : List UInt8), i < j ∧ old[i]? = some name ∧ names[j]? = some name

theorem runtimeIdentifierValid_ne_nil {name : List UInt8} (h : runtimeIdentifierValid name = true) :
    name ≠ [] := by
  rintro rfl
  cases h

theorem providerListLoop_iff (names : List (List UInt8)) {count : ℕ} (hcount : count ≤ maxListed) :
    providerListLoop names count = true ↔ (∀ name ∈ names, runtimeIdentifierValid name = true) ∧
      count + names.length ≤ maxListed ∧ 0 < count + names.length := by
  induction names generalizing count with
  | nil => simp [providerListLoop, hcount]
  | cons name names ih =>
    rw [providerListLoop, List.forall_mem_cons, List.length_cons]
    by_cases hvalid : runtimeIdentifierValid name = true
    · rw [if_neg (by simp [hvalid, runtimeIdentifierValid_ne_nil hvalid])]
      split
      · exact iff_of_false Bool.false_ne_true fun h => by omega
      · rw [ih (by omega)]
        simp only [hvalid, true_and]
        refine and_congr_right fun _ => ?_
        omega
    · rw [if_pos (.inr (by simpa using hvalid))]
      simp [hvalid]

theorem repeatedLoop_iff (endpoints : List Endpoint) (names : List (List UInt8)) (count : ℕ)
    (hne : ∀ name ∈ names, name ≠ []) :
    repeatedLoop endpoints names count = true ↔
      ∃ i j name, i < count + j ∧ (endpoints.map (·.name))[i]? = some name ∧ names[j]? = some name := by
  induction names generalizing count with
  | nil => simp [repeatedLoop]
  | cons name names ih =>
    obtain ⟨hname, hne⟩ := List.forall_mem_cons.mp hne
    have hfound : ((List.range count).any fun index => (endpoints.getD index {}).name = name) = true ↔
        ∃ i < count, (endpoints.map (·.name))[i]? = some name := by
      simp only [List.any_eq_true, List.mem_range, decide_eq_true_eq, List.getElem?_map,
        List.getD_eq_getElem?_getD]
      refine exists_congr fun i => and_congr_right fun _ => ?_
      -- past the old list the entries are zero, and no name of the new one is
      cases endpoints[i]? with
      | none => simpa using Ne.symm hname
      | some e => simp
    rw [repeatedLoop]
    split
    · rename_i h
      obtain ⟨i, hi, hold⟩ := hfound.mp h
      exact iff_of_true rfl ⟨i, 0, name, by omega, hold, rfl⟩
    · rename_i h
      rw [ih (count + 1) hne]
      constructor
      · rintro ⟨i, j, other, hij, hold, hnew⟩
        exact ⟨i, j + 1, other, by omega, hold, hnew⟩
      · rintro ⟨i, j, other, hij, hold, hnew⟩
        cases j with
        | zero =>
          cases hnew
          exact absurd (hfound.mpr ⟨i, by omega, hold⟩) h
        | succ j => exact ⟨i, j, other, by omega, hold, hnew⟩

/-! ### The write -/

namespace ListedDevice

variable {allocated : ℕ → Bool} (d : ListedDevice) (buf : List UInt8)

theorem roster_installProviders (providers : List UInt8) (names : List (List UInt8)) :
    (d.installProviders providers names).roster = names := by
  unfold installProviders syncBoundProviderMirror
  dsimp only
  split <;> simp [roster, Function.comp_def]

/-- A write is accepted exactly if its list is well formed and the old list does not shadow it. -/
theorem setProviders_ok_iff (halloc : ∀ i, allocated i = true) (hconf : d.configurable = true)
    (hsize : buf.length < providerListSize) :
    (d.setProviders allocated buf).1 = .ok () ↔
      WellFormed (listedNames buf) ∧ ¬ Shadowed d.roster (listedNames buf) := by
  unfold setProviders
  by_cases hempty : buf = []
  · subst hempty
    rw [if_pos (.inl rfl)]
    exact iff_of_false nofun fun h => absurd (h.1.1 [] (by decide)) (by decide)
  rw [if_neg (by simp [hempty, hsize])]
  have hnames : 0 < (listedNames buf).length := List.length_pos_iff.mpr (List.splitOn_ne_nil _ _)
  have hvalid := providerListLoop_iff (listedNames buf) (Nat.zero_le maxListed)
  rw [Nat.zero_add, and_iff_left hnames] at hvalid
  simp only [halloc, hconf, Bool.not_true, Bool.false_eq_true, or_self, if_false]
  by_cases hwf : WellFormed (listedNames buf)
  · have hrepeated := repeatedLoop_iff d.endpoints (listedNames buf) 0 fun name hn =>
      runtimeIdentifierValid_ne_nil (hwf.1 name hn)
    simp only [Nat.zero_add] at hrepeated
    rw [hvalid.mpr hwf, if_neg (by decide)]
    split
    · rename_i h
      exact iff_of_false nofun fun hok => hok.2 (hrepeated.mp h)
    · rename_i h
      exact iff_of_true rfl ⟨hwf, fun hs => h (hrepeated.mpr hs)⟩
  · rw [if_pos (by simpa using fun h => hwf (hvalid.mp h))]
    exact iff_of_false nofun fun h => hwf h.1

theorem roster_setProviders (h : (d.setProviders allocated buf).1 = .ok ()) :
    (d.setProviders allocated buf).2.roster = listedNames buf := by
  unfold setProviders at h ⊢
  split_ifs at h ⊢
  exact d.roster_installProviders _ _

/-- **When the write depends on its text only**: a well formed list must have a name twice exactly
if one of its names stands earlier in the old list. -/
theorem setProviders_iff (halloc : ∀ i, allocated i = true) (hconf : d.configurable = true)
    (hsize : buf.length < providerListSize) :
    (((d.setProviders allocated buf).1 = .ok () ↔
        WellFormed (listedNames buf) ∧ (listedNames buf).Nodup) ∧
      ((d.setProviders allocated buf).1 = .ok () →
        (d.setProviders allocated buf).2.roster = listedNames buf)) ↔
    (WellFormed (listedNames buf) →
      ((listedNames buf).Nodup ↔ ¬ Shadowed d.roster (listedNames buf))) := by
  rw [and_iff_left (d.roster_setProviders buf), d.setProviders_ok_iff buf halloc hconf hsize]
  constructor
  · intro h hwf
    exact ⟨fun hn => (h.mpr ⟨hwf, hn⟩).2, fun hs => (h.mp ⟨hwf, hs⟩).2⟩
  · intro h
    exact and_congr_right fun hwf => (h hwf).symm

end ListedDevice

/-- A device whose list is `a,b`. -/
def listedPair : ListedDevice := (({} : ListedDevice).setProviders (fun _ => true) [97, 44, 98]).2

/-- It accepts `c,b`. -/
theorem secondList_accepted : listedPair.roster = [[97], [98]] ∧
    (listedPair.setProviders (fun _ => true) [99, 44, 98]).1 = .ok () ∧
    (listedPair.setProviders (fun _ => true) [99, 44, 98]).2.roster = [[99], [98]] := by
  have hroster : listedPair.roster = [[97], [98]] := by decide
  have hnames : listedNames [99, 44, 98] = [[99], [98]] := by decide
  have hnew : ¬ Shadowed listedPair.roster (listedNames [99, 44, 98]) := by
    rw [hroster, hnames]
    rintro ⟨i, j, name, hij, hold, hname⟩
    rcases j with _ | _ | j
    · omega
    · obtain rfl : i = 0 := by omega
      cases hold
      cases hname
    · cases hname
  have h := (listedPair.setProviders_iff [99, 44, 98] (fun _ => rfl) rfl (by decide)).mpr fun _ =>
    iff_of_true (by decide) hnew
  have hok := h.1.mpr ⟨by decide, by decide⟩
  exact ⟨hroster, hok, h.2 hok⟩

/-- `a,a` is accepted by a new device, and `b,a` refused by one that has `a` and `b`. -/
theorem list_depends_on_old :
    (({} : ListedDevice).setProviders (fun _ => true) [97, 44, 97]).1 = .ok () ∧
      (({} : ListedDevice).setProviders (fun _ => true) [97, 44, 97]).2.roster = [[97], [97]] ∧
      ((({} : ListedDevice).setProviders (fun _ => true) [97, 44, 98]).2.setProviders
        (fun _ => true) [98, 44, 97]).1 = .error .einval := by
  decide

end Control
end Infiniswap

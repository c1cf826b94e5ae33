/-
# The runtime status of the Providers and its reader

The attribute `provider_runtime_status` has a line for every Provider of a
snapshot, with the Provider's index in front. The administration tool keeps the
records under that text. For a Provider of its list it looks under the name
first, and under the index if there is nothing. A name made of digits may be the
index of another Provider, whose record is then reported (`status_by_index_iff`).

A number is read here as the kernel prints it, a sign and decimal digits, and
the text of an error code, which Python has, is left out.
-/
import Infiniswap.RemoteChunk.PlacementReport

namespace Infiniswap
namespace RemoteChunk

/-! ### The printer -/

inductive RuntimeState
  | notConnected | connecting | connected | degraded | remoteLost

def RuntimeState.text : RuntimeState → List Char
  | .notConnected => "not-connected".toList
  | .connecting => "connecting".toList
  | .connected => "connected".toList
  | .degraded => "degraded".toList
  | .remoteLost => "remote-lost".toList

/-- What the printer reads of a session; it is `ready` in the control state `IS_RDMA_CONTROL_READY`. -/
structure SessionStatus where
  healthy : Bool
  compatible : Bool
  ready : Bool
  failureStarted : Bool
  everConnected : Bool
  connectStarted : Bool
  lastError : Int32

/-- What the printer reads of a Provider. -/
structure ProviderRuntime where
  session : Option SessionStatus := none
  diagnosticAvailableChunks : UInt32 := 0
  usableChunks : UInt32 := 0

/-- `is_session_runtime_state`. -/
def sessionRuntimeState (remoteLost : Bool) (s : SessionStatus) : RuntimeState :=
  if remoteLost then .remoteLost
  else if s.healthy && s.compatible && s.ready then .connected
  else if s.failureStarted then if s.everConnected then .degraded else .notConnected
  else if s.connectStarted then .connecting
  else .notConnected

namespace ProviderRuntime

variable (p : ProviderRuntime)

def state (remoteLost : Bool) : RuntimeState :=
  p.session.elim (if remoteLost then .remoteLost else .notConnected) (sessionRuntimeState remoteLost)

def lastError : Int32 := p.session.elim 0 (·.lastError)

end ProviderRuntime

/-- `%d`. -/
def intDigits (n : ℤ) : List Char :=
  if n < 0 then '-' :: Nat.toDigits 10 n.natAbs else Nat.toDigits 10 n.natAbs

/-- `"%u %s %u %u %d"`. -/
def statusFields (remoteLost : Bool) (index : ℕ) (p : ProviderRuntime) : List (List Char) :=
  [Nat.toDigits 10 index, (p.state remoteLost).text, Nat.toDigits 10 p.diagnosticAvailableChunks.toNat,
    Nat.toDigits 10 p.usableChunks.toNat, intDigits p.lastError.toInt]

def statusLine (remoteLost : Bool) (index : ℕ) (p : ProviderRuntime) : List Char :=
  List.intercalate [' '] (statusFields remoteLost index p) ++ ['\n']

/-- The loop of `is_rdma_provider_runtime_status_show`. -/
def statusLoop (remoteLost : Bool) : List ProviderRuntime → (index : ℕ) → (page : List Char) → List Char
  | [], _, page => page
  | p :: rest, index, page =>
    if pageSize - 128 ≤ page.length then page
    else statusLoop remoteLost rest (index + 1)
      (page ++ sysfsEmitAt page.length (statusLine remoteLost index p))

/-- `is_rdma_provider_runtime_status_show`. -/
def runtimeStatusShow (fabric : Bool) (snapshot : Option (List ProviderRuntime))
    (remoteLost : Bool) : List Char :=
  match fabric, snapshot with
  | true, some providers =>
    let page := statusLoop remoteLost providers 0 []
    if page = [] then ['\n'] else page
  | _, _ => ['\n']

/-! ### The reader -/

/-- The characters at which Python's `str.splitlines` splits. An empty line has no fields. -/
def lineEnds (c : Char) : Bool := c.toNat ∈ [10, 11, 12, 13, 28, 29, 30, 0x85, 0x2028, 0x2029]

def parseDigits (digits : List Char) : Option ℕ :=
  if digits = [] ∨ !digits.all Char.isDigit then none else some (Nat.ofDigitChars 10 digits 0)

/-- `int`, without the `+`, the `_` and the blanks that Python takes too and the page has not. -/
def parseInt : List Char → Option ℤ
  | '-' :: digits => (parseDigits digits).map fun n : ℕ => -(n : ℤ)
  | digits => (parseDigits digits).map fun n : ℕ => (n : ℤ)

/-- A record of a Provider; `lastError` is the number in `_error_status`. -/
structure RuntimeRecord where
  providerId : List Char
  state : List Char
  availableChunks : ℤ
  mappedChunks : ℤ
  lastError : Option ℕ

/-- `_error_status`. -/
def errorStatus (errorNumber : ℤ) : Option ℕ := if errorNumber = 0 then none else some errorNumber.natAbs

/-- The states that the tool knows. -/
def validStates : List (List Char) :=
  [.notConnected, .connecting, .connected, .degraded, .remoteLost].map RuntimeState.text

/-- The body of the loop over the lines: `none` where it continues without a record. -/
def parseStatusLine (line : List Char) : Option RuntimeRecord :=
  match splitFrom [] line with
  | [id, state, available, mapped, error] =>
    if state ∉ validStates then none
    else
      match parseInt available, parseInt mapped, parseInt error with
      | some available, some mapped, some error =>
        if available < 0 ∨ mapped < 0 ∨ id = [] then none
        else some ⟨id, state, available, mapped, errorStatus error⟩
      | _, _, _ => none
  | _ => none

/-- One line of the loop: a record replaces an earlier one of its key. -/
def readStatusLine (providers : List Char → Option RuntimeRecord) (line : List Char) :
    List Char → Option RuntimeRecord :=
  match parseStatusLine line with
  | none => providers
  | some record => Function.update providers record.providerId (some record)

/-- `_parse_provider_runtime_status`. -/
def parseRuntimeStatus (raw : List Char) : List Char → Option RuntimeRecord :=
  (raw.splitOnP lineEnds).foldl readStatusLine fun _ => none

/-- What the tool reads of the attribute of a device with these Providers. -/
def runtimeStatus (remoteLost : Bool) (providers : List ProviderRuntime) :
    List Char → Option RuntimeRecord :=
  parseRuntimeStatus (runtimeStatusShow true (some providers) remoteLost)

/-- The record that `_device_status` takes for a Provider. -/
def providerRuntime (status : List Char → Option RuntimeRecord) (provider : List Char) (index : ℕ) :
    Option RuntimeRecord :=
  match status provider with
  | some record => some record
  | none => status (Nat.toDigits 10 index)

section States

variable (excluded : List (List Char)) (connectionState : List Char) (mappedBy : List Char → ℕ)

/-- The status that `_device_status` reports for a Provider, from its record. -/
def providerState (provider : List Char) : Option RuntimeRecord → RuntimeRecord
  | some record => { record with providerId := provider }
  | none =>
    ⟨provider, if provider ∈ excluded then RuntimeState.notConnected.text else connectionState, 0,
      mappedBy provider, none⟩

/-- The loop of `_device_status` over the configured Providers. -/
def providerStates (status : List Char → Option RuntimeRecord) (names : List (List Char)) :
    List RuntimeRecord :=
  names.zipIdx.map fun (provider, index) =>
    providerState excluded connectionState mappedBy provider (providerRuntime status provider index)

end States

/-! ### What is printed -/

variable (remoteLost : Bool)

/-- The record of a Provider under its index. -/
def statusRecord (index : ℕ) (p : ProviderRuntime) : RuntimeRecord :=
  ⟨Nat.toDigits 10 index, (p.state remoteLost).text, p.diagnosticAvailableChunks.toNat,
    p.usableChunks.toNat, errorStatus p.lastError.toInt⟩

theorem length_statusLine {index : ℕ} (h : index < 100) (p : ProviderRuntime) :
    (statusLine remoteLost index p).length ≤ 51 := by
  have hdigits {n k : ℕ} (hk : 0 < k) (hn : n < 10 ^ k) : (Nat.toDigits 10 n).length ≤ k :=
    (Nat.length_toDigits_le_iff (by decide) hk).mpr hn
  have hindex := hdigits (k := 2) (by decide) h
  have havailable :=
    hdigits (k := 10) (by decide) (p.diagnosticAvailableChunks.toNat_lt.trans (by decide))
  have hmapped := hdigits (k := 10) (by decide) (p.usableChunks.toNat_lt.trans (by decide))
  have hstate : (p.state remoteLost).text.length ≤ 13 := by cases p.state remoteLost <;> decide
  have herror : (intDigits p.lastError.toInt).length ≤ 11 := by
    have hlow := p.lastError.le_toInt
    have hhigh := p.lastError.toInt_lt
    have hnumber := hdigits (n := p.lastError.toInt.natAbs) (k := 10) (by decide) (by omega)
    unfold intDigits
    split <;> simp <;> omega
  simp only [statusLine, statusFields, List.intercalate, List.intersperse, List.flatten_cons,
    List.flatten_nil, List.length_append, List.length_cons, List.length_nil]
  omega

theorem statusLoop_eq (providers : List ProviderRuntime) {index : ℕ} {page : List Char}
    (hindex : index + providers.length ≤ maxProviders) (hpage : page.length ≤ 51 * index) :
    statusLoop remoteLost providers index page =
      page ++ (providers.zipIdx index).flatMap fun (p, i) => statusLine remoteLost i p := by
  induction providers generalizing index page with
  | nil => exact (List.append_nil page).symm
  | cons p providers ih =>
    rw [List.length_cons] at hindex
    have hroom : index + (providers.length + 1) ≤ 64 := hindex
    have hline := length_statusLine remoteLost (show index < 100 by omega) p
    have hemit : sysfsEmitAt page.length (statusLine remoteLost index p) =
        statusLine remoteLost index p := by
      rw [sysfsEmitAt, pageSize, if_neg (by omega), List.take_of_length_le (by omega)]
    have hstep : statusLoop remoteLost (p :: providers) index page =
        statusLoop remoteLost providers (index + 1) (page ++ statusLine remoteLost index p) := by
      conv_lhs => unfold statusLoop
      rw [pageSize, if_neg (by omega), hemit]
    have hnext : index + 1 + providers.length ≤ maxProviders := by omega
    rw [hstep, ih hnext (by rw [List.length_append]; omega), List.zipIdx_cons, List.flatMap_cons,
      List.append_assoc]

/-! ### What is read -/

theorem toDigits_inj {i j : ℕ} (h : Nat.toDigits 10 i = Nat.toDigits 10 j) : i = j := by
  have hvalue := congrArg (fun digits => Nat.ofDigitChars 10 digits 0) h
  simpa only [Nat.ofDigitChars_ten_toDigits] using hvalue

theorem parseDigits_toDigits (n : ℕ) : parseDigits (Nat.toDigits 10 n) = some n := by
  have hdigits : (Nat.toDigits 10 n).all Char.isDigit = true :=
    List.all_eq_true.mpr fun c => Nat.isDigit_of_mem_toDigits (by decide) (by decide)
  rw [parseDigits, if_neg (by simp [hdigits, Nat.toDigits_ne_nil]), Nat.ofDigitChars_ten_toDigits]

theorem parseInt_intDigits (n : ℤ) : parseInt (intDigits n) = some n := by
  unfold intDigits
  split
  · rw [parseInt, parseDigits_toDigits, Option.map_some]
    exact congrArg some (by omega)
  · unfold parseInt
    split
    · rename_i digits heq
      have hminus : '-' ∈ Nat.toDigits 10 n.natAbs := heq ▸ List.mem_cons_self
      exact absurd (Nat.isDigit_of_mem_toDigits (by decide) (by decide) hminus) (by decide)
    · rw [parseDigits_toDigits, Option.map_some]
      exact congrArg some (by omega)

theorem parseInt_toDigits (n : ℕ) : parseInt (Nat.toDigits 10 n) = some (n : ℤ) := parseInt_intDigits n

/-- Fields with blanks between them are read back. -/
theorem splitFrom_intercalate :
    ∀ {fields : List (List Char)}, (∀ f ∈ fields, f ≠ [] ∧ ∀ c ∈ f, splitsAt c = false) →
    splitFrom [] (List.intercalate [' '] fields) = fields
  | [], _ => rfl
  | [f], h => by
    obtain ⟨hne, hf⟩ := h f List.mem_cons_self
    have hword := splitFrom_word hf [] []
    rw [List.append_nil, List.nil_append] at hword
    rw [List.intercalate_singleton, hword, splitFrom, if_neg hne]
  | f :: g :: fields, h => by
    obtain ⟨⟨hne, hf⟩, hrest⟩ := List.forall_mem_cons.mp h
    rw [List.intercalate_cons_cons, List.append_assoc, splitFrom_word hf, List.nil_append,
      List.singleton_append, splitFrom, if_pos (by decide), if_neg hne, splitFrom_intercalate hrest]

theorem statusFields_split (index : ℕ) (p : ProviderRuntime) :
    ∀ f ∈ statusFields remoteLost index p, f ≠ [] ∧ ∀ c ∈ f, splitsAt c = false := by
  have hdigits (n : ℕ) : Nat.toDigits 10 n ≠ [] ∧ ∀ c ∈ Nat.toDigits 10 n, splitsAt c = false := by
    refine ⟨Nat.toDigits_ne_nil, fun c hc => ?_⟩
    obtain ⟨hlow, hhigh⟩ :=
      Char.isDigit_iff_toNat.mp (Nat.isDigit_of_mem_toDigits (by decide) (by decide) hc)
    exact splitsAt_visible (a := '0') (b := '9') (by decide) (by decide) hlow hhigh
  have hstate : (p.state remoteLost).text ≠ [] ∧ ∀ c ∈ (p.state remoteLost).text, splitsAt c = false := by
    have hall : (p.state remoteLost).text.all (fun c => !splitsAt c) = true := by
      cases p.state remoteLost <;> decide
    refine ⟨by cases p.state remoteLost <;> decide, fun c hc => ?_⟩
    simpa using List.all_eq_true.mp hall c hc
  have herror : intDigits p.lastError.toInt ≠ [] ∧
      ∀ c ∈ intDigits p.lastError.toInt, splitsAt c = false := by
    unfold intDigits
    split
    · exact ⟨List.cons_ne_nil _ _, List.forall_mem_cons.mpr ⟨by decide, (hdigits _).2⟩⟩
    · exact hdigits _
  simp only [statusFields, List.forall_mem_cons, List.not_mem_nil, false_implies, implies_true, and_true]
  exact ⟨hdigits _, hstate, hdigits _, hdigits _, herror⟩

/-- **A line is read as the record of its Provider.** -/
theorem parseStatusLine_body (index : ℕ) (p : ProviderRuntime) :
    parseStatusLine (List.intercalate [' '] (statusFields remoteLost index p)) =
      some (statusRecord remoteLost index p) := by
  have hstate : (p.state remoteLost).text ∈ validStates := by cases p.state remoteLost <;> decide
  rw [parseStatusLine, splitFrom_intercalate (statusFields_split remoteLost index p)]
  simp [statusFields, hstate, parseInt_toDigits, parseInt_intDigits, Nat.toDigits_ne_nil, statusRecord]

theorem lineEnds_intercalate :
    ∀ {fields : List (List Char)}, (∀ f ∈ fields, ∀ c ∈ f, splitsAt c = false) →
    ∀ c ∈ List.intercalate [' '] fields, lineEnds c = false
  | [], _ => nofun
  | f :: fields, h => by
    obtain ⟨hf, hrest⟩ := List.forall_mem_cons.mp h
    have hword : ∀ c ∈ f, lineEnds c = false := by
      intro c hc
      have hsplit := hf c hc
      contrapose! hsplit
      simp only [lineEnds, Bool.not_eq_false, decide_eq_true_eq, List.mem_cons, List.not_mem_nil,
        or_false] at hsplit
      simp [splitsAt]
      omega
    cases fields with
    | nil => rwa [List.intercalate_singleton]
    | cons g fields =>
      rw [List.intercalate_cons_cons, List.forall_mem_append, List.forall_mem_append]
      exact ⟨⟨hword, List.forall_mem_singleton.mpr (by decide)⟩, lineEnds_intercalate hrest⟩

theorem read_line (providers : List Char → Option RuntimeRecord) (index : ℕ) (p : ProviderRuntime)
    (rest : List Char) :
    ((statusLine remoteLost index p ++ rest).splitOnP lineEnds).foldl readStatusLine providers =
      (rest.splitOnP lineEnds).foldl readStatusLine
        (Function.update providers (Nat.toDigits 10 index) (some (statusRecord remoteLost index p))) := by
  have hline := lineEnds_intercalate fun f hf => (statusFields_split remoteLost index p f hf).2
  rw [statusLine, List.append_assoc, List.singleton_append, List.splitOnP_append_cons _ _ (by decide),
    List.splitOnP_eq_singleton hline, List.foldl_append, List.foldl_cons, List.foldl_nil, readStatusLine,
    parseStatusLine_body]
  rfl

/-- The lines of a list of Providers add their records, and no other. -/
theorem read_lines (rows : List ProviderRuntime) (index : ℕ)
    (providers : List Char → Option RuntimeRecord) :
    let text := (rows.zipIdx index).flatMap fun (p, i) => statusLine remoteLost i p
    let status := (text.splitOnP lineEnds).foldl readStatusLine providers
    (∀ i p, rows[i]? = some p →
      status (Nat.toDigits 10 (index + i)) = some (statusRecord remoteLost (index + i) p)) ∧
      ∀ key, (∀ i < rows.length, key ≠ Nat.toDigits 10 (index + i)) → status key = providers key := by
  induction rows generalizing index providers with
  | nil => exact ⟨nofun, fun _ _ => rfl⟩
  | cons p rows ih =>
    obtain ⟨hin, hout⟩ := ih (index + 1)
      (Function.update providers (Nat.toDigits 10 index) (some (statusRecord remoteLost index p)))
    dsimp only at hin hout ⊢
    rw [List.zipIdx_cons, List.flatMap_cons, read_line]
    refine ⟨fun i q hi => ?_, fun key hkey => ?_⟩
    · cases i with
      | zero =>
        cases hi
        refine (hout _ fun i _ heq => ?_).trans (Function.update_self _ _ _)
        have hsame := toDigits_inj heq
        omega
      | succ i =>
        have hrow := hin i q hi
        rwa [Nat.add_right_comm] at hrow
    · rw [hout key fun i hi heq => hkey (i + 1) (Nat.succ_lt_succ hi)
        (by rw [heq, Nat.add_right_comm]; rfl)]
      exact Function.update_of_ne (hkey 0 (Nat.succ_pos _)) _ _

section Status

variable {providers : List ProviderRuntime} (hcount : providers.length ≤ maxProviders)
include hcount

/-- **What the tool keeps of the attribute**: the record of each Provider under its index. -/
theorem status_toDigits :
    (∀ i, runtimeStatus remoteLost providers (Nat.toDigits 10 i) =
      providers[i]?.map (statusRecord remoteLost i)) ∧
    ∀ key, (∀ i < providers.length, key ≠ Nat.toDigits 10 i) →
      runtimeStatus remoteLost providers key = none := by
  have hpage := @statusLoop_eq remoteLost providers 0 [] (by omega) (Nat.zero_le _)
  have htext : runtimeStatus remoteLost providers = (((providers.zipIdx 0).flatMap fun (p, i) =>
      statusLine remoteLost i p).splitOnP lineEnds).foldl readStatusLine fun _ => none := by
    rw [runtimeStatus, parseRuntimeStatus, runtimeStatusShow, hpage, List.nil_append]
    dsimp only
    split
    · rename_i hempty
      rw [hempty]
      rfl
    · rfl
  obtain ⟨hin, hout⟩ := read_lines remoteLost providers 0 fun _ => none
  dsimp only at hin hout
  simp only [Nat.zero_add] at hin hout
  rw [htext]
  refine ⟨fun i => ?_, hout⟩
  cases hi : providers[i]? with
  | some p => exact hin i p hi
  | none =>
    refine hout _ fun j hj heq => ?_
    rw [toDigits_inj heq, List.getElem?_eq_none_iff] at hi
    omega

/-- **When a status is that of its Provider**: no name is the index of another Provider that has a
record. -/
theorem status_by_index_iff (names excluded : List (List Char)) (connectionState : List Char)
    (mappedBy : List Char → ℕ) :
    (∀ i name, names[i]? = some name →
      providerRuntime (runtimeStatus remoteLost providers) name i =
        providers[i]?.map (statusRecord remoteLost i) ∧
      (providerStates excluded connectionState mappedBy (runtimeStatus remoteLost providers) names)[i]? =
        some (providerState excluded connectionState mappedBy name
          (providers[i]?.map (statusRecord remoteLost i)))) ↔
    ∀ i j, names[i]? = some (Nat.toDigits 10 j) → j < providers.length → j = i := by
  obtain ⟨hindex, hother⟩ := status_toDigits remoteLost hcount
  generalize runtimeStatus remoteLost providers = status at hindex hother
  constructor
  · intro h i j hname hj
    obtain ⟨hruntime, -⟩ := h i _ hname
    rw [providerRuntime, hindex j, List.getElem?_eq_getElem hj, Option.map_some] at hruntime
    obtain ⟨p, -, heq⟩ := Option.map_eq_some_iff.mp hruntime.symm
    exact (toDigits_inj (congrArg RuntimeRecord.providerId heq)).symm
  · intro h i name hname
    have hruntime : providerRuntime status name i = providers[i]?.map (statusRecord remoteLost i) := by
      by_cases hdigits : ∃ j < providers.length, name = Nat.toDigits 10 j
      · obtain ⟨j, hj, rfl⟩ := hdigits
        cases h i j hname hj
        rw [providerRuntime, hindex, List.getElem?_eq_getElem hj]
        rfl
      · rw [providerRuntime, hother name fun j hj heq => hdigits ⟨j, hj, heq⟩]
        exact hindex i
    refine ⟨hruntime, ?_⟩
    rw [providerStates, List.getElem?_map, List.getElem?_zipIdx, hname, Option.map_some,
      Option.map_some, Nat.zero_add]
    exact congrArg
      (fun record => some (providerState excluded connectionState mappedBy name record)) hruntime

end Status

/-- The first of two Providers has a name that is no number, the second is called by its own index. -/
theorem status_by_index_named :
    providerRuntime (runtimeStatus false [{ usableChunks := 3 }, { usableChunks := 5 }]) ['a'] 0 =
      some (statusRecord false 0 { usableChunks := 3 }) ∧
    providerRuntime (runtimeStatus false [{ usableChunks := 3 }, { usableChunks := 5 }]) ['1'] 1 =
      some (statusRecord false 1 { usableChunks := 5 }) := by
  have hown := (@status_by_index_iff false [{ usableChunks := 3 }, { usableChunks := 5 }]
    (by decide) [['a'], ['1']] [] [] fun _ => 0).mpr ?_
  · exact ⟨(hown 0 ['a'] rfl).1, (hown 1 ['1'] rfl).1⟩
  · intro i j hname hj
    obtain rfl | rfl : j = 0 ∨ j = 1 := Nat.le_one_iff_eq_zero_or_eq_one.mp (Nat.le_of_lt_succ hj)
    all_goals rcases i with _ | _ | i
    all_goals first
      | rfl
      | exact absurd hname (by decide)
      | cases hname

/-- Two Providers are called `1` and `0`: the first is reported with the chunks of the second. -/
theorem numbered_status_swapped :
    providerRuntime (runtimeStatus false [{ usableChunks := 3 }, { usableChunks := 5 }]) ['1'] 0 =
      some (statusRecord false 1 { usableChunks := 5 }) := by
  have hone : ['1'] = Nat.toDigits 10 1 := rfl
  rw [providerRuntime, hone, (status_toDigits false (by decide)).1 1]
  rfl

end RemoteChunk
end Infiniswap

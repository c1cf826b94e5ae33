/-
# The placement report and its reader

The attribute `remote_chunk_placements` prints one token for every chunk of a
snapshot, `index:provider`, or `index:unmapped` for a chunk that no Provider
has, into one page of sysfs. The administration tool splits the text at white
space and takes every token with digits, a colon and something behind it as a
placement. It knows neither the marker nor the end of the page: a chunk that is
not assigned is read as a placement on a Provider called `unmapped`, and a
token that the page cuts is read with the part of the name that is left.

So the tool reads back exactly the assigned chunks when they are the first
ones, the page has room for them, and no token follows them or the page ends
before the first character of the next name (`placements_read_iff`).
-/
import Infiniswap.RemoteChunk.Lifecycle

namespace Infiniswap
namespace RemoteChunk

open ChunkModule

/-! ### The printer -/

/-- `PAGE_SIZE`: the text of an attribute and its terminator. -/
def pageSize : ℕ := 4096

/-- `sysfs_emit_at`: what still fits behind `written` bytes, before the terminator. -/
def sysfsEmitAt (written : ℕ) (text : List Char) : List Char :=
  if pageSize ≤ written then [] else text.take (pageSize - written - 1)

/-- `"%u:%s%s"`, where the separator after the last chunk is the end of the line. -/
def placementToken (count : ℕ) (providerId : ℕ → String) (index : ℕ) : List Char :=
  Nat.toDigits 10 index ++ ':' :: (providerId index).toList ++ [if index + 1 < count then ' ' else '\n']

namespace ChunkModule.Snapshot

variable (s : Snapshot)

/-- `is_snapshot_provider`. -/
def snapshotProvider (provider : ProviderHandle) : Option ProviderSnapshot :=
  s.providers.find? fun p => p.provider = provider

/-- The inner loop of the printer: the first placement of the chunk decides. -/
def providerId (index : ℕ) : String :=
  match s.placements.find? fun placement => placement.logicalChunk = index with
  | none => "unmapped"
  | some placement => (s.snapshotProvider placement.provider).elim "unmapped" (·.identifier)

end ChunkModule.Snapshot

/-- `is_rdma_remote_chunk_placements_show`. -/
def placementsShow (fabric : Bool) (snapshot : Option Snapshot) : List Char :=
  match fabric, snapshot with
  | true, some s =>
    if s.chunkCount = 0 then ['\n']
    else (List.range s.chunkCount).foldl
      (fun page index => page ++
        sysfsEmitAt page.length (placementToken s.chunkCount s.providerId index)) []
  | _, _ => ['\n']

theorem emit_eq_take (token : ℕ → List Char) (l : List ℕ) (text : List Char) :
    l.foldl (fun page index => page ++ sysfsEmitAt page.length (token index)) (text.take (pageSize - 1)) =
      (text ++ l.flatMap token).take (pageSize - 1) := by
  induction l generalizing text with
  | nil => simp
  | cons index l ih =>
    have hstep : text.take (pageSize - 1) ++ sysfsEmitAt (text.take (pageSize - 1)).length (token index) =
        (text ++ token index).take (pageSize - 1) := by
      rw [List.take_append, sysfsEmitAt, List.length_take, if_neg (by rw [pageSize]; omega)]
      congr 2
      rw [pageSize]
      omega
    rw [List.foldl_cons, hstep, ih, List.flatMap_cons, List.append_assoc]

/-! ### The reader -/

/-- The characters at which Python's `str.split` splits. -/
def splitsAt (c : Char) : Bool :=
  c = ' ' || (9 ≤ c.toNat && c.toNat ≤ 13) || (28 ≤ c.toNat && c.toNat ≤ 31) || c.toNat = 0x85 ||
    c.toNat = 0xa0 || c.toNat = 0x1680 || (0x2000 ≤ c.toNat && c.toNat ≤ 0x200a) ||
    c.toNat = 0x2028 || c.toNat = 0x2029 || c.toNat = 0x202f || c.toNat = 0x205f || c.toNat = 0x3000

/-- `str.split()`, with the token that is being read. -/
def splitFrom (token : List Char) : List Char → List (List Char)
  | [] => if token = [] then [] else [token]
  | c :: cs =>
    if splitsAt c then if token = [] then splitFrom [] cs else token :: splitFrom [] cs
    else splitFrom (token ++ [c]) cs

/-- The body of the loop: `none` where it continues without a placement. -/
def parseToken (token : List Char) : Option (ℕ × String) :=
  if ':' ∉ token then none
  else
    let logical := token.takeWhile (· ≠ ':')
    let providerId := (token.dropWhile (· ≠ ':')).tail
    if logical = [] ∨ !logical.all Char.isDigit ∨ providerId = [] then none
    else some (Nat.ofDigitChars 10 logical 0, String.ofList providerId)

/-- `_parse_chunk_placements`. -/
def parseChunkPlacements (raw : List Char) : List (ℕ × String) :=
  (splitFrom [] raw).filterMap parseToken

/-- The text is not split at a visible character. -/
theorem splitsAt_visible {a b c : Char} (ha : 32 < a.toNat) (hb : b.toNat < 127)
    (hlow : a.toNat ≤ c.toNat) (hhigh : c.toNat ≤ b.toNat) : splitsAt c = false := by
  have hblank : c ≠ ' ' := by
    rintro rfl
    exact absurd (ha.trans_le hlow) (by decide)
  simp [splitsAt, hblank]
  omega

theorem splitsAt_identifier {id : List Char} {first : Bool}
    (h : identifierCharactersValid id first = true) : ∀ c ∈ id, splitsAt c = false := by
  induction id generalizing first with
  | nil => exact nofun
  | cons c id ih =>
    rw [identifierCharactersValid, Bool.and_eq_true] at h
    refine List.forall_mem_cons.mpr ⟨?_, ih h.2⟩
    have hc := h.1
    simp only [identifierCharacterValid, Bool.or_eq_true, Bool.and_eq_true, decide_eq_true_eq,
      beq_iff_eq] at hc
    obtain ((⟨hlow, hhigh⟩ | ⟨hlow, hhigh⟩) | ⟨hlow, hhigh⟩) | ⟨-, (rfl | rfl) | rfl⟩ := hc
    iterate 3 exact splitsAt_visible (by decide) (by decide) hlow hhigh
    · decide
    · decide
    · decide

variable {word : List Char}

section

variable (h : ∀ c ∈ word, splitsAt c = false)

include h

theorem splitFrom_word (token rest : List Char) :
    splitFrom token (word ++ rest) = splitFrom (token ++ word) rest := by
  induction word generalizing token with
  | nil => simp
  | cons c word ih =>
    obtain ⟨hc, hword⟩ := List.forall_mem_cons.mp h
    rw [List.cons_append, splitFrom, hc, if_neg Bool.false_ne_true, ih hword, List.append_assoc,
      List.singleton_append]

theorem parse_word :
    parseChunkPlacements word = (parseToken word).toList := by
  have hsplit := splitFrom_word h [] []
  rw [List.append_nil, List.nil_append] at hsplit
  rw [parseChunkPlacements, hsplit, splitFrom]
  split
  · rename_i hword
    rw [hword]
    rfl
  · rw [List.filterMap_cons, List.filterMap_nil]
    cases parseToken word <;> rfl

/-- **A token ends at white space**, and the text behind it is read on its own. -/
theorem parse_word_space {space : Char} (hspace : splitsAt space = true) (rest : List Char) :
    parseChunkPlacements (word ++ space :: rest) =
      (parseToken word).toList ++ parseChunkPlacements rest := by
  rw [parseChunkPlacements, splitFrom_word h, List.nil_append, splitFrom, if_pos hspace]
  split
  · rename_i hword
    rw [hword]
    rfl
  · rw [List.filterMap_cons]
    cases parseToken word <;> rfl

end

/-- **A cut token is read** as soon as one character of the name is there. -/
theorem parseToken_take (index n : ℕ) {name : List Char} (hname : name ≠ []) :
    parseToken ((Nat.toDigits 10 index ++ ':' :: name).take n) =
      if (Nat.toDigits 10 index).length + 1 < n then
        some (index, String.ofList (name.take (n - (Nat.toDigits 10 index).length - 1)))
      else none := by
  have hdigits : ∀ c ∈ Nat.toDigits 10 index, c.isDigit = true := fun c =>
    Nat.isDigit_of_mem_toDigits (by decide) (by decide)
  have hcolon : ':' ∉ Nat.toDigits 10 index := fun h => absurd (hdigits _ h) (by decide)
  have hpass : ∀ c ∈ Nat.toDigits 10 index, decide (c ≠ ':') = true := fun c hc =>
    decide_eq_true fun he => hcolon (he ▸ hc)
  have hparsed : Nat.ofDigitChars 10 (Nat.toDigits 10 index) 0 = index := Nat.ofDigitChars_ten_toDigits
  have hd : Nat.toDigits 10 index ≠ [] := Nat.toDigits_ne_nil
  generalize Nat.toDigits 10 index = d at *
  by_cases hn : n ≤ d.length
  · rw [List.take_append_of_le_length hn, parseToken,
      if_pos fun h => hcolon (List.mem_of_mem_take h), if_neg (by omega)]
  · obtain ⟨k, rfl⟩ : ∃ k, n = d.length + 1 + k := ⟨n - d.length - 1, by omega⟩
    have htake : (d ++ ':' :: name).take (d.length + 1 + k) = d ++ ':' :: name.take k := by
      rw [Nat.add_assoc, List.take_length_add_append, Nat.add_comm, List.take_succ_cons]
    rw [htake, parseToken, if_neg (by simp), List.takeWhile_append_of_pos hpass,
      List.dropWhile_append_of_pos hpass]
    cases k with
    | zero => simp
    | succ k =>
      have hname' : name.take (k + 1) ≠ [] := by simpa using hname
      have hk : d.length + 1 + (k + 1) - d.length - 1 = k + 1 := by omega
      rw [if_pos (show d.length + 1 < d.length + 1 + (k + 1) by omega), hk]
      simpa [hd, hname', hparsed] using hdigits

/-! ### What is read of a report -/

section Report

variable {name : ℕ → Option String}

/-- What the printer writes for a chunk. -/
def printed (name : ℕ → Option String) (index : ℕ) : String := (name index).getD "unmapped"

/-- The length of the token of a chunk, with its separator. -/
def tokenLength (name : ℕ → Option String) (index : ℕ) : ℕ :=
  (Nat.toDigits 10 index).length + 1 + (printed name index).length + 1

/-- The length of `k` tokens from `first` on. -/
def reportLength (name : ℕ → Option String) (first k : ℕ) : ℕ :=
  ∑ j ∈ Finset.range k, tokenLength name (first + j)

/-- Of `count` chunks from `first` on, exactly the first `k` are assigned, `room` characters hold
their tokens up to the last separator, and if there is a next token, nothing of its name. -/
def PageEnds (name : ℕ → Option String) (first count room : ℕ) : Prop :=
  ∃ k ≤ count, (∀ j < count, (name (first + j)).isSome = true ↔ j < k) ∧
    reportLength name first k ≤ room + 1 ∧
    (k = count ∨ room ≤ reportLength name first k + (Nat.toDigits 10 (first + k)).length + 1)

theorem reportLength_succ (first k : ℕ) :
    reportLength name first (k + 1) = tokenLength name first + reportLength name (first + 1) k := by
  rw [reportLength, Finset.sum_range_succ', Nat.add_comm, reportLength]
  simp only [Nat.add_zero, Nat.add_assoc, Nat.add_comm 1]

/-- The first chunk is assigned and its token is there, or there is nothing of its name and no chunk
is assigned. -/
theorem pageEnds_succ (first count room : ℕ) : PageEnds name first (count + 1) room ↔
    (tokenLength name first ≤ room + 1 ∧ (name first).isSome = true ∧
      PageEnds name (first + 1) count (room - tokenLength name first)) ∨
    (room ≤ (Nat.toDigits 10 first).length + 1 ∧ ∀ j < count + 1, name (first + j) = none) := by
  have hnext (j : ℕ) : first + (j + 1) = first + 1 + j := by omega
  constructor
  · rintro ⟨k, hk, hassigned, hroom, hend⟩
    cases k with
    | zero =>
      refine .inr ⟨?_, fun j hj => ?_⟩
      · rcases hend with hend | hend
        · omega
        · simpa [reportLength] using hend
      · simpa using hassigned j hj
    | succ k =>
      rw [reportLength_succ] at hroom hend
      rw [hnext k] at hend
      refine .inl ⟨by omega, by simpa using hassigned 0 (by omega), k, by omega, fun j hj => ?_,
        by omega, by omega⟩
      rw [← hnext j, hassigned (j + 1) (by omega)]
      omega
  · rintro (⟨hroom, hfirst, k, hk, hassigned, hlength, hend⟩ | ⟨hroom, hnone⟩)
    · -- a further token has more than one character
      have hlong : k = 0 ∨ 1 < reportLength name (first + 1) k := by
        cases k with
        | zero => exact .inl rfl
        | succ k =>
          rw [reportLength_succ, tokenLength]
          omega
      have hzero : k = 0 → reportLength name (first + 1) k = 0 := by
        rintro rfl
        rfl
      refine ⟨k + 1, by omega, fun j hj => ?_, ?_⟩
      · cases j with
        | zero => simpa using hfirst
        | succ j =>
          rw [hnext j, hassigned j (by omega)]
          omega
      · rw [reportLength_succ, hnext k]
        omega
    · refine ⟨0, by omega, fun j hj => ?_, by simp [reportLength],
        .inr (by simpa [reportLength] using hroom)⟩
      simp [hnone j hj]

theorem parse_token_append (count first room : ℕ)
    (hword : ∀ c ∈ (printed name first).toList, splitsAt c = false) (rest : List Char) :
    parseChunkPlacements ((placementToken count (printed name) first ++ rest).take room) =
      (parseToken ((Nat.toDigits 10 first ++ ':' :: (printed name first).toList).take room)).toList ++
        parseChunkPlacements (rest.take (room - tokenLength name first)) := by
  have hlength : tokenLength name first =
      (Nat.toDigits 10 first ++ ':' :: (printed name first).toList).length + 1 := by
    rw [tokenLength, List.length_append, List.length_cons, String.length_toList, Nat.add_assoc _ 1,
      Nat.add_comm 1]
  have hspaceless : ∀ c ∈ Nat.toDigits 10 first ++ ':' :: (printed name first).toList,
      splitsAt c = false := by
    intro c hc
    rcases List.mem_append.mp hc with hc | hc
    · obtain ⟨hlow, hhigh⟩ :=
        Char.isDigit_iff_toNat.mp (Nat.isDigit_of_mem_toDigits (by decide) (by decide) hc)
      exact splitsAt_visible (by decide) (by decide) hlow hhigh
    · rcases List.mem_cons.mp hc with rfl | hc
      · decide
      · exact hword c hc
  rw [placementToken, hlength]
  generalize Nat.toDigits 10 first ++ ':' :: (printed name first).toList = word at *
  by_cases hroom : room ≤ word.length
  · rw [List.append_assoc, List.take_append_of_le_length hroom, parse_word fun c hc =>
      hspaceless c (List.mem_of_mem_take hc), Nat.sub_eq_zero_of_le (by omega)]
    simp [parseChunkPlacements, splitFrom]
  · obtain ⟨k, rfl⟩ : ∃ k, room = word.length + 1 + k := ⟨room - word.length - 1, by omega⟩
    have htake (sep : Char) :
        (word ++ [sep] ++ rest).take (word.length + 1 + k) = word ++ sep :: rest.take k := by
      rw [List.append_assoc, Nat.add_assoc, List.take_length_add_append, Nat.add_comm,
        List.singleton_append, List.take_succ_cons]
    rw [htake, parse_word_space hspaceless (by split <;> decide), Nat.add_sub_cancel_left,
      List.take_of_length_le (show word.length ≤ word.length + 1 + k by omega)]

/-- **What is read of the part of a report that fits is what was placed** exactly if the page ends
in the right place. -/
theorem parse_report_iff (count : ℕ) (hne : ∀ i, (printed name i).toList ≠ [])
    (hword : ∀ i, ∀ c ∈ (printed name i).toList, splitsAt c = false) (c first room : ℕ) :
    parseChunkPlacements
        (((List.range' first c).flatMap (placementToken count (printed name))).take room) =
      (List.range' first c).filterMap (fun i => (name i).map (i, ·)) ↔ PageEnds name first c room := by
  induction c generalizing first room with
  | zero =>
    exact iff_of_true (by simp [parseChunkPlacements, splitFrom])
      ⟨0, le_rfl, nofun, Nat.zero_le _, .inl rfl⟩
  | succ c ih =>
    rw [List.range'_succ, List.flatMap_cons, parse_token_append count first room (hword first),
      pageEnds_succ, parseToken_take first room (hne first)]
    by_cases hroom : (Nat.toDigits 10 first).length + 1 < room
    · rw [if_pos hroom, Option.toList_some, List.singleton_append]
      cases hfirst : name first with
      | none =>
        -- the marker is read as a Provider
        refine iff_of_false (fun h => ?_) (by rintro (⟨-, h, -⟩ | ⟨h, -⟩) <;> [cases h; omega])
        have hmem := h ▸ List.mem_cons_self
        rw [List.filterMap_cons, hfirst] at hmem
        obtain ⟨i, hi, he⟩ := List.mem_filterMap.mp hmem
        obtain ⟨id, -, he⟩ := Option.map_eq_some_iff.mp he
        have hle := (List.mem_range'_1.mp hi).1
        rw [(Prod.mk.inj he).1] at hle
        omega
      | some id =>
        have hid : printed name first = id := by rw [printed, hfirst]; rfl
        have hcut : String.ofList (id.toList.take (room - (Nat.toDigits 10 first).length - 1)) = id ↔
            tokenLength name first ≤ room + 1 := by
          rw [tokenLength, hid, ← String.toList_inj, String.toList_ofList, List.take_eq_self_iff,
            String.length_toList]
          omega
        rw [List.filterMap_cons, hfirst, hid, Option.map_some, List.cons.injEq, Prod.mk.injEq, hcut, ih]
        constructor
        · rintro ⟨⟨-, hlength⟩, hrest⟩
          exact .inl ⟨hlength, rfl, hrest⟩
        · rintro (⟨hlength, -, hrest⟩ | ⟨h, -⟩)
          · exact ⟨⟨rfl, hlength⟩, hrest⟩
          · omega
    · rw [if_neg hroom, Option.toList_none, List.nil_append,
        Nat.sub_eq_zero_of_le (by rw [tokenLength]; omega), List.take_zero, ← List.range'_succ,
        eq_comm]
      have hnil : parseChunkPlacements [] = [] := rfl
      rw [hnil, List.filterMap_eq_nil_iff]
      constructor
      · intro h
        refine .inr ⟨by omega, fun j hj => ?_⟩
        exact Option.map_eq_none_iff.mp (h (first + j) (List.mem_range'_1.mpr (by omega)))
      · rintro (⟨h, -, -⟩ | ⟨-, h⟩) i hi
        · rw [tokenLength] at h
          have := String.length_toList ▸ List.length_pos_of_ne_nil (hne first)
          omega
        · obtain ⟨hle, hlt⟩ := List.mem_range'_1.mp hi
          rw [← Nat.add_sub_cancel' hle, h (i - first) (by omega)]
          rfl

end Report

/-! ### The report of a module -/

namespace ChunkModule

variable (m : ChunkModule)

/-- The identifier of the Provider that a chunk is assigned to. -/
def placedOn (index : ℕ) : Option String :=
  if index < m.chunkCount ∧ (m.chunks index).assigned then
    (m.providerRosterIndex (m.chunks index).provider).map fun i => (m.providers i).identifier
  else none

/-- The assigned chunks with their Providers. -/
def placements : List (ℕ × String) :=
  (List.range m.chunkCount).filterMap fun i => (m.placedOn i).map (i, ·)

variable {m}

/-- A snapshot names the Provider of an assigned chunk, and the marker for every other. -/
theorem providerId_snapshot {s : Snapshot} (h : m.snapshotTake true = .ok s) :
    s.chunkCount = m.chunkCount ∧ s.providerId = printed m.placedOn := by
  simp only [snapshotTake, Bool.not_true, Bool.false_eq_true, if_false] at h
  split at h
  · cases h
  split at h
  · cases h
  cases h
  refine ⟨rfl, funext fun index => ?_⟩
  rw [Snapshot.providerId, printed, placedOn, List.find?_map]
  cases hfind : List.find? _ _ with
  | none =>
    have hnot := List.find?_eq_none.mp hfind index
    rw [if_neg fun hplaced => hnot ?_ (decide_eq_true rfl)]
    · rfl
    · exact List.mem_filter.mpr ⟨List.mem_range.mpr hplaced.1, decide_eq_true hplaced.2⟩
  | some i =>
    have htest := List.find?_some hfind
    have hi : i = index := of_decide_eq_true htest
    obtain ⟨hrange, hassigned⟩ := List.mem_filter.mp (List.mem_of_find?_eq_some hfind)
    subst hi
    rw [if_pos ⟨List.mem_range.mp hrange, of_decide_eq_true hassigned⟩, Option.map_some]
    show (List.find? _ (List.map _ _)).elim _ _ = _
    rw [List.find?_map, providerRosterIndex]
    show (Option.map _ (List.find?
      (fun j => decide ((m.providers j).handle = (m.chunks i).provider)) _)).elim _ _ = _
    cases List.find? (fun j => decide
      ((m.providers j).handle = (m.chunks i).provider)) (List.range m.providerCount) <;> rfl

end ChunkModule

/-- **The tool reads back the placements** exactly if the assigned chunks are the first ones, the
page holds them, and it holds nothing of a further name. -/
theorem placements_read_iff {m : ChunkModule} {s : Snapshot} (h : m.snapshotTake true = .ok s)
    (hnames : ∀ i < m.providerCount, providerIdentifierValid (m.providers i).identifier = true) :
    parseChunkPlacements (placementsShow true (some s)) = m.placements ↔
      PageEnds m.placedOn 0 m.chunkCount (pageSize - 1) := by
  obtain ⟨hcount, hid⟩ := providerId_snapshot h
  have hvalid (i : ℕ) : (printed m.placedOn i).toList ≠ [] ∧
      ∀ c ∈ (printed m.placedOn i).toList, splitsAt c = false := by
    cases hplaced : m.placedOn i with
    | none =>
      rw [printed, hplaced]
      have hmarker : identifierCharactersValid "unmapped".toList true = true := rfl
      exact ⟨nofun, splitsAt_identifier hmarker⟩
    | some id =>
      rw [printed, hplaced, Option.getD_some]
      rw [placedOn] at hplaced
      split at hplaced
      · obtain ⟨p, hp, rfl⟩ := Option.map_eq_some_iff.mp hplaced
        have hv := hnames p (m.providerRosterIndex_some hp).1
        rw [providerIdentifierValid, Bool.and_eq_true, Bool.and_eq_true] at hv
        exact ⟨fun he => of_decide_eq_true hv.1.1 (String.toList_eq_nil_iff.mp he),
          splitsAt_identifier hv.2⟩
      · cases hplaced
  rw [← parse_report_iff m.chunkCount (fun i => (hvalid i).1) fun i => (hvalid i).2, placementsShow,
    hcount, hid, placements, List.range_eq_range']
  by_cases hzero : m.chunkCount = 0
  · rw [if_pos hzero, hzero]
    rfl
  · have hprinted := emit_eq_take (placementToken m.chunkCount (printed m.placedOn))
      (List.range' 0 m.chunkCount) []
    rw [List.take_nil, List.nil_append] at hprinted
    rw [if_neg hzero, hprinted]

/-- Two chunks, each mapped on a Provider of its own. -/
def twoPlaced : ChunkModule :=
  { newModule ⟨.backed, 2, ⟨1, 1, 1⟩, [⟨"a", 1⟩, ⟨"b", 1⟩], 1, 1⟩ 1 0 with
    chunks := fun i => { state := .mapped, provider := ⟨1, i + 1⟩ }
    assignedChunks := 2
    usableChunks := 2 }

theorem twoPlaced_read : ∃ s, twoPlaced.snapshotTake true = .ok s ∧
    (∀ i < twoPlaced.providerCount, providerIdentifierValid (twoPlaced.providers i).identifier = true) ∧
    parseChunkPlacements (placementsShow true (some s)) = [(0, "a"), (1, "b")] := by
  have htake : ∃ s, twoPlaced.snapshotTake true = .ok s := ⟨_, rfl⟩
  have hnames : ∀ i < twoPlaced.providerCount,
      providerIdentifierValid (twoPlaced.providers i).identifier = true := by
    decide
  obtain ⟨s, hs⟩ := htake
  exact ⟨s, hs, hnames,
    (placements_read_iff hs hnames).mpr ⟨2, by decide, by decide, by decide, .inl rfl⟩⟩

/-- A module as it is created has no placement, and the tool reports one on a Provider called
`unmapped`. -/
theorem unmapped_read : ∃ m handles s,
    moduleCreate ⟨.backed, 1, ⟨1, 1, 1⟩, [⟨"a", 1⟩], 1, 1⟩ 1 true 1 0 = .ok (m, handles) ∧
      m.snapshotTake true = .ok s ∧ m.placements = [] ∧
      parseChunkPlacements (placementsShow true (some s)) = [(0, "unmapped")] :=
  ⟨_, _, _, rfl, rfl, by decide, by decide⟩

end RemoteChunk
end Infiniswap

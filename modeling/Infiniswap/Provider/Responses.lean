/-
# Answers to EVICT and RELEASE

A connection of the Provider has at most one EVICT and one RELEASE outstanding,
each with its request id and the chunks it names (`encode_control_message` of
`rdma-common.c`). A frame that arrives is translated into `recvMessage`
(`translate_request`); an answer has to name the chunks of its request, which is
decided by counting and by marking what was seen.

Arrays are functions of the slot, of which the first `maxMrSizeGb` are used. That
is also `maxChunksPerFrame`, so the loop that fills a list never runs over it.
-/
import Mathlib.Data.List.Perm.Subperm
import Infiniswap.Protocol.RoundTrip
import Infiniswap.Protocol.Capabilities
import Infiniswap.Provider.Session

namespace Infiniswap
namespace Provider

open Bytes Protocol

def maxMrSizeGb : ℕ := 128

/-- `enum control_message_type`, as far as it is received. -/
inductive ControlType
  | done | activity | release | peerError | query | bind
  deriving DecidableEq

/-- The requests that name chunks. -/
inductive ChunkQuery
  | evict | release
  deriving DecidableEq

def ChunkQuery.type : ChunkQuery → MessageType
  | evict => .evict
  | release => .release

/-- The message that answers, and the record of it. -/
def ChunkQuery.answer : ChunkQuery → MessageType × ControlType
  | evict => (.activity, .activity)
  | release => (.release, .release)

/-- `struct control_message`; a record that was cleared has no type. -/
structure ControlMessage where
  buf : ℕ → UInt64 := fun _ => 0
  rkey : ℕ → UInt32 := fun _ => 0
  sizeGb : ℕ := 0
  type : Option ControlType := none

/-- A request of the Provider that waits for its answer; the id 0 says that there is none. -/
structure Outstanding where
  requestId : UInt64 := 0
  chunks : ℕ → Bool := fun _ => false
  chunkCount : ℕ := 0

/-- What `struct connection` keeps of its control messages. -/
structure ControlConnection where
  session : Session
  sessChunkMap : ℕ → Option ℕ
  recvMessage : ControlMessage := {}
  activeRequestId : UInt64 := 0
  nextProviderRequestId : UInt64 := 1
  pending : ChunkQuery → Outstanding := fun _ => {}
  requestedLogicalStart : UInt32 := 0
  requestedPool : UInt8 := 0

/-! ### What is received -/

/-- The loop of `control_chunk_set_matches`; `seen` are the chunks before. -/
def chunksMatch (expected : ℕ → Bool) : List ℕ → List ℕ → Bool
  | _, [] => true
  | seen, i :: rest =>
    i < maxMrSizeGb && expected i && !(i ∈ seen) && chunksMatch expected (i :: seen) rest

/-- `control_chunk_set_matches`. -/
def controlChunkSetMatches (expected : Outstanding) (response : List ℕ) : Bool :=
  response.length = expected.chunkCount && chunksMatch expected.chunks [] response

/-- An entry of an answer: a chunk, and in an ACTIVITY its activity. -/
abbrev Entry := ℕ × Option UInt64

def ChunkQuery.entries (m : Message) : ChunkQuery → List Entry
  | evict => m.payload.activity.entries.map fun a => (a.providerChunkId.toNat, some a.activity)
  | release => m.payload.chunkIds.entries.map fun id => (id.toNat, none)

/-- One entry of an answer, written to the record. -/
def ControlMessage.enter (m : ControlMessage) (e : Entry) : ControlMessage :=
  { m with
    rkey := Function.update m.rkey e.1 1
    buf := e.2.elim m.buf (Function.update m.buf e.1) }

/-- The loop over the entries of an answer. -/
def recordEntries (expected : ℕ → Bool) (sessChunkMap : ℕ → Option ℕ) :
    ControlMessage → List Entry → ControlMessage × Bool
  | m, [] => (m, true)
  | m, e :: rest =>
    if maxMrSizeGb ≤ e.1 ∨ !expected e.1 ∨ (sessChunkMap e.1).isNone then (m, false)
    else recordEntries expected sessChunkMap (m.enter e) rest

namespace ControlConnection

variable (c : ControlConnection)

/-- The cases ACTIVITY and RELEASE of `translate_request`. -/
def translateAnswer (q : ChunkQuery) (m : Message) : ControlConnection × Bool :=
  let p := c.pending q
  if m.header.flags &&& flagResponse = 0 ∨ p.requestId = 0 ∨ m.header.requestId ≠ p.requestId then
    (c, false)
  else if !controlChunkSetMatches p ((q.entries m).map (·.1)) then (c, false)
  else
    match recordEntries p.chunks c.sessChunkMap
        { c.recvMessage with type := some q.answer.2, sizeGb := (q.entries m).length } (q.entries m) with
    | (record, false) => ({ c with recvMessage := record }, false)
    | (record, true) =>
      ({ c with recvMessage := record, pending := Function.update c.pending q {} }, true)

/-- `translate_request`, and whether it returns 0. -/
def translateRequest (m : Message) : ControlConnection × Bool :=
  let c := { c with recvMessage := {}, activeRequestId := m.header.requestId }
  match MessageType.ofCode m.header.type with
  | some .statusRequest => ({ c with recvMessage := { type := some .query } }, true)
  | some .chunkRequest =>
    ({ c with
      recvMessage := { type := some .bind, sizeGb := m.payload.chunkRequest.chunkCount.toNat }
      requestedLogicalStart := m.payload.chunkRequest.logicalStart
      requestedPool := m.payload.chunkRequest.pool }, true)
  | some .activity => c.translateAnswer .evict m
  | some .release => c.translateAnswer .release m
  | some .error =>
    match [ChunkQuery.evict, .release].find? fun q => m.payload.error.offendingType = q.type.code &&
        (c.pending q).requestId ≠ 0 && m.header.requestId = (c.pending q).requestId with
    | some q =>
      ({ c with
        pending := Function.update c.pending q {}, recvMessage := { type := some .peerError } }, true)
    | none => (c, false)
  | some .goodbye => ({ c with recvMessage := { type := some .done } }, true)
  | _ => (c, false)

/-! ### What is sent -/

/-- The request that `init_outbound_message` and the loop over the slots build. -/
def chunkQuery (q : ChunkQuery) (ids : List ℕ) : Message where
  header :=
    { major := majorVersion
      minor := c.session.negotiatedMinor
      type := q.type.code
      requestId := c.nextProviderRequestId
      sessionId := c.session.sessionId
      capabilities := c.session.negotiatedCapabilities
      requiredCapabilities := c.session.requiredCapabilities }
  payload := { chunkIds := ⟨UInt16.ofNat ids.length, pad 128 (ids.map UInt32.ofNat)⟩ }

/-- An EVICT names the chunks that are mapped, a RELEASE those with a key in the record to send. -/
def namedChunks (rkey : ℕ → UInt32) (q : ChunkQuery) : List ℕ :=
  (List.range maxMrSizeGb).filter fun i => match q with
    | .evict => (c.sessChunkMap i).isSome
    | .release => rkey i ≠ 0

/-- The cases `CONTROL_EVICT` and `CONTROL_RELEASE` of `encode_control_message`, with the message
whose frame is built. -/
def encodeControlMessage (current : ℕ) (q : ChunkQuery) (rkey : ℕ → UInt32) :
    ControlConnection × Option Message :=
  let ids := c.namedChunks rkey q
  if (c.pending q).requestId ≠ 0 then (c, none)
  else
    ({ c with
        pending := Function.update c.pending q ⟨c.nextProviderRequestId, fun i => i ∈ ids, ids.length⟩
        nextProviderRequestId := c.nextProviderRequestId + 1 },
      match encode current (c.chunkQuery q ids) maxFrameSize with
      | .error _ => none
      | .ok _ => some (c.chunkQuery q ids))

end ControlConnection

/-! ### A list and the set it has to match -/

/-- What waits for its answer is a request that was sent. -/
structure Outstanding.Names (p : Outstanding) (id : UInt64) (ids : List ℕ) : Prop where
  requestId : p.requestId = id
  ne_zero : id ≠ 0
  nodup : ids.Nodup
  bound : ∀ i ∈ ids, i < maxMrSizeGb
  chunks : ∀ i, p.chunks i = true ↔ i ∈ ids
  count : p.chunkCount = ids.length

variable {c c₁ c₂ : ControlConnection} {q : ChunkQuery} {m : Message} {p : Outstanding}
  {id : UInt64} {ids : List ℕ}

theorem chunksMatch_iff {expected : ℕ → Bool} {seen l : List ℕ} : chunksMatch expected seen l = true ↔
    l.Nodup ∧ ∀ i ∈ l, i < maxMrSizeGb ∧ expected i = true ∧ i ∉ seen := by
  induction l generalizing seen with
  | nil => simp [chunksMatch]
  | cons i rest ih =>
    rw [chunksMatch, Bool.and_eq_true, ih, List.nodup_cons, List.forall_mem_cons]
    simp only [Bool.and_eq_true, decide_eq_true_eq, Bool.not_eq_true', decide_eq_false_iff_not,
      List.mem_cons, not_or]
    constructor
    · rintro ⟨⟨⟨hi, he⟩, hs⟩, hd, hr⟩
      exact ⟨⟨fun hmem => (hr i hmem).2.2.1 rfl, hd⟩, ⟨hi, he, hs⟩, fun j hj => by grind⟩
    · rintro ⟨⟨hn, hd⟩, ⟨hi, he, hs⟩, hr⟩
      exact ⟨⟨⟨hi, he⟩, hs⟩, hd, fun j hj => by grind⟩

/-- **Counting and marking decides permutation.** -/
theorem Outstanding.Names.matches_iff (h : p.Names id ids) (l : List ℕ) :
    controlChunkSetMatches p l = true ↔ l.Perm ids := by
  rw [controlChunkSetMatches, Bool.and_eq_true, decide_eq_true_eq, chunksMatch_iff, h.count]
  constructor
  · rintro ⟨hlen, hnodup, hall⟩
    exact (List.subperm_of_subset hnodup fun i hi => (h.chunks i).mp
      (hall i hi).2.1).perm_of_length_le hlen.ge
  · intro hperm
    refine ⟨hperm.length_eq, hperm.nodup_iff.mpr h.nodup, fun i hi => ?_⟩
    exact ⟨h.bound i (hperm.mem_iff.mp hi), (h.chunks i).mpr (hperm.mem_iff.mp hi), List.not_mem_nil⟩

/-! ### The record of an answer -/

/-- The record is `r` with what the entries list, and nothing else. -/
structure ControlMessage.Records (r r' : ControlMessage) (entries : List Entry) : Prop where
  type : r'.type = r.type
  sizeGb : r'.sizeGb = r.sizeGb
  rkey : ∀ i, r'.rkey i = if i ∈ entries.map (·.1) then 1 else r.rkey i
  buf : ∀ e ∈ entries, r'.buf e.1 = e.2.getD (r.buf e.1)
  rest : ∀ i ∉ entries.map (·.1), r'.buf i = r.buf i

theorem enter_buf (r : ControlMessage) (e : Entry) (i : ℕ) :
    (r.enter e).buf i = if i = e.1 then e.2.getD (r.buf i) else r.buf i := by
  obtain ⟨j, _ | a⟩ := e
  · exact (ite_self _).symm
  · exact Function.update_apply ..

theorem records_foldl {entries : List Entry} (hd : (entries.map (·.1)).Nodup) (r : ControlMessage) :
    r.Records (entries.foldl .enter r) entries := by
  induction entries generalizing r with
  | nil => exact ⟨rfl, rfl, fun _ => rfl, nofun, fun _ _ => rfl⟩
  | cons e rest ih =>
    rw [List.map_cons, List.nodup_cons] at hd
    have h := ih hd.2 (r.enter e)
    refine ⟨h.type, h.sizeGb, fun i => (h.rkey i).trans ?_,
      List.forall_mem_cons.mpr ⟨?_, fun d hd' => ?_⟩, fun i hi => ?_⟩
    · simp only [ControlMessage.enter, Function.update_apply, List.map_cons, List.mem_cons]
      split_ifs <;> simp_all
    · exact (h.rest e.1 hd.1).trans (by rw [enter_buf, if_pos rfl])
    · have hne : d.1 ≠ e.1 := ne_of_mem_of_not_mem (List.mem_map_of_mem hd') hd.1
      exact (h.buf d hd').trans (by rw [enter_buf, if_neg hne])
    · rw [List.map_cons, List.mem_cons, not_or] at hi
      exact (h.rest i hi.2).trans (by rw [enter_buf, if_neg hi.1])

theorem recordEntries_cases {expected : ℕ → Bool} {f : ℕ → Option ℕ} {entries : List Entry}
    (r : ControlMessage) (h : ∀ e ∈ entries, e.1 < maxMrSizeGb ∧ expected e.1 = true) :
    (∀ e ∈ entries, (f e.1).isSome = true) ∧
      recordEntries expected f r entries = (entries.foldl .enter r, true) ∨
      (¬∀ e ∈ entries, (f e.1).isSome = true) ∧
      ∃ record, recordEntries expected f r entries = (record, false) := by
  induction entries generalizing r with
  | nil => exact .inl ⟨nofun, rfl⟩
  | cons e rest ih =>
    obtain ⟨⟨hlt, hexpected⟩, hrest⟩ := List.forall_mem_cons.mp h
    rw [recordEntries, List.forall_mem_cons]
    cases hslot : f e.1 with
    | none => simp
    | some slot => simpa [Nat.not_le.mpr hlt, hexpected] using ih (r.enter e) hrest

/-! ### Requests and answers -/

/-- The chunks that a request names. -/
def named (m : Message) : List ℕ := m.payload.chunkIds.entries.map (·.toNat)

/-- **What is sent is what the connection waits for.** -/
theorem encodeControlMessage_names {current : ℕ} {rkey : ℕ → UInt32} {sent : Message}
    (h : c.encodeControlMessage current q rkey = (c₁, some sent)) :
    (c₁.pending q).Names sent.header.requestId (named sent) := by
  unfold ControlConnection.encodeControlMessage at h
  dsimp only at h
  split at h
  · cases h
  obtain ⟨rfl, hencode⟩ := Prod.mk.inj h
  split at hencode
  · cases hencode
  rename_i hok
  cases hencode
  have hbound : ∀ i ∈ c.namedChunks rkey q, i < maxMrSizeGb := fun i hi =>
    List.mem_range.mp (List.mem_filter.mp hi).1
  have hlength : (c.namedChunks rkey q).length ≤ 128 :=
    (List.length_filter_le _ _).trans_eq List.length_range
  have hnamed : named (c.chunkQuery q (c.namedChunks rkey q)) = c.namedChunks rkey q := by
    have htake := take_toList_pad (l := (c.namedChunks rkey q).map UInt32.ofNat) (n := 128)
      (by simpa using hlength)
    rw [List.length_map] at htake
    rw [named, Counted.entries, ControlConnection.chunkQuery,
      UInt16.toNat_ofNat_of_lt' (hlength.trans_lt (by decide)), htake, List.map_map]
    refine (List.map_congr_left fun i hi => ?_).trans (List.map_id' _)
    exact UInt32.toNat_ofNat_of_lt' ((hbound i hi).trans (by decide))
  rw [hnamed]
  dsimp only
  rw [Function.update_self]
  exact
    { requestId := rfl
      ne_zero := (validateHeader_eq_ok.mp (encode_ok hok).1).2.2.2.2.2.1
      nodup := List.nodup_range.filter _
      bound := hbound
      chunks := fun i => decide_eq_true_iff
      count := rfl }

/-- The frame answers the request: by its flag and its id, with a permutation of its chunks, all of
them mapped. -/
def ControlConnection.Answers (c : ControlConnection) (q : ChunkQuery) (id : UInt64) (ids : List ℕ)
    (m : Message) : Prop :=
  m.header.flags &&& flagResponse ≠ 0 ∧ m.header.requestId = id ∧ ((q.entries m).map (·.1)).Perm ids ∧
    ∀ e ∈ q.entries m, (c.sessChunkMap e.1).isSome = true

/-- **Response matching.** While a request that was sent is outstanding, whatever else the
connection `c₂` has done since, a frame of the type that answers it is accepted exactly if it
answers it. Then the record is what the frame lists and the request is cleared; otherwise the
requests and the chunk map are as they were. -/
theorem response_matching {current : ℕ} {rkey : ℕ → UInt32} {sent : Message}
    (hsent : c.encodeControlMessage current q rkey = (c₁, some sent))
    (hpending : c₂.pending q = c₁.pending q)
    (htype : MessageType.ofCode m.header.type = some q.answer.1) :
    ((c₂.translateRequest m).2 = true ↔ c₂.Answers q sent.header.requestId (named sent) m) ∧
    ((c₂.translateRequest m).2 = true →
      ControlMessage.Records { type := some q.answer.2, sizeGb := (q.entries m).length }
        (c₂.translateRequest m).1.recvMessage (q.entries m) ∧
      (c₂.translateRequest m).1.pending = Function.update c₂.pending q {}) ∧
    ((c₂.translateRequest m).2 = false → (c₂.translateRequest m).1.pending = c₂.pending) ∧
    (c₂.translateRequest m).1.sessChunkMap = c₂.sessChunkMap := by
  have heq : c₂.translateRequest m = ControlConnection.translateAnswer
      { c₂ with recvMessage := {}, activeRequestId := m.header.requestId } q m := by
    unfold ControlConnection.translateRequest
    rw [htype]
    cases q <;> rfl
  have h := encodeControlMessage_names hsent
  rw [← hpending] at h
  have hmatches := h.matches_iff ((q.entries m).map (·.1))
  rw [heq]
  unfold ControlConnection.translateAnswer
  dsimp only
  rw [h.requestId]
  split
  · rename_i hno
    refine ⟨iff_of_false nofun fun ⟨hflag, hid, _⟩ => ?_, nofun, fun _ => rfl, rfl⟩
    exact hno.elim hflag fun hno => hno.elim h.ne_zero (absurd hid)
  rename_i hid
  rw [not_or, not_or, not_not] at hid
  split
  · rename_i hno
    refine ⟨iff_of_false nofun fun ⟨_, _, hperm, _⟩ => ?_, nofun, fun _ => rfl, rfl⟩
    rw [hmatches.mpr hperm] at hno
    cases hno
  rename_i hyes
  have hperm := hmatches.mp (by simpa using hyes)
  have hall : ∀ e ∈ q.entries m, e.1 < maxMrSizeGb ∧ (c₂.pending q).chunks e.1 = true := fun e he =>
    have hmem := hperm.mem_iff.mp (List.mem_map_of_mem he)
    ⟨h.bound _ hmem, (h.chunks _).mpr hmem⟩
  rcases recordEntries_cases (f := c₂.sessChunkMap) _ hall with ⟨hmapped, hr⟩ | ⟨hno, record, hr⟩
    <;> rw [hr]
  · exact ⟨iff_of_true rfl ⟨hid.1, hid.2.2, hperm, hmapped⟩,
      fun _ => ⟨records_foldl (hperm.nodup_iff.mpr h.nodup) _, rfl⟩, nofun, rfl⟩
  · exact ⟨iff_of_false nofun fun ha => hno ha.2.2.2, nofun, fun _ => rfl, rfl⟩

/-- A connection with the chunks 3 and 5, after an EVICT. -/
def pairMapped : ControlConnection where
  session := Session.init 1 0 0 (Vector.replicate 32 0) 1
  sessChunkMap := fun i => if i = 3 ∨ i = 5 then some i else none

def pairEvicting : ControlConnection := (pairMapped.encodeControlMessage 1 .evict fun _ => 0).1

/-- The answer of the Consumer names the chunks in another order. -/
def reversedAnswer (q : ChunkQuery) (requestId : UInt64) : Message where
  header := { type := q.answer.1.code, flags := flagResponse, requestId }
  payload := { activity := ⟨2, pad 128 [⟨5, 70⟩, ⟨3, 20⟩]⟩, chunkIds := ⟨2, pad 128 [5, 3]⟩ }

/-- An EVICT and a RELEASE of both chunks are sent, and each is answered. -/
theorem response_matching_reversed : ∃ c evict release,
    pairMapped.encodeControlMessage 1 .evict (fun _ => 0) = (pairEvicting, some evict) ∧
    pairEvicting.encodeControlMessage 1 .release (fun i => if i = 3 ∨ i = 5 then 1 else 0) =
      (c, some release) ∧
    (c.translateRequest (reversedAnswer .evict evict.header.requestId)).2 = true ∧
    (c.translateRequest (reversedAnswer .release release.header.requestId)).2 = true := by
  have hevict := (Option.some_get (show
    (pairMapped.encodeControlMessage 1 .evict fun _ => 0).2.isSome = true by decide +kernel)).symm
  have hrelease := (Option.some_get (show (pairEvicting.encodeControlMessage 1 .release fun i =>
    if i = 3 ∨ i = 5 then 1 else 0).2.isSome = true by decide +kernel)).symm
  refine ⟨_, _, _, Prod.ext rfl hevict, Prod.ext rfl hrelease,
    (response_matching (Prod.ext rfl hevict) ?_ ?_).1.mpr ?_,
    (response_matching (Prod.ext rfl hrelease) rfl ?_).1.mpr ?_⟩
  · rfl
  · rfl
  · exact ⟨by decide, rfl, by decide +kernel, by decide +kernel⟩
  · rfl
  · exact ⟨by decide, rfl, by decide +kernel, by decide +kernel⟩

end Provider
end Infiniswap

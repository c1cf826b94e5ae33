/-
# What the decoder looks at and what it accepts

The lengths and counts of a frame come from its sender. For every string the
decoder stays inside the string and inside the arrays it fills, and it accepts
none whose size, counts, string lengths or reserved bytes disagree.

Each part of the decoder has one lemma, `…_gives`: no access is outside, and the
fields of an accepted value stand at their places in the string.
-/
import Infiniswap.Protocol.RoundTrip

namespace Infiniswap
namespace Protocol

open Bytes Bytes.Checked

variable {current : ℕ} {l : List UInt8} {n p : ℕ}

/-! ### Checks and copies -/

variable {frame : List UInt8} {h : Header} {m : Message} {current' : ℕ}

theorem require_gives (b : Bool) : (require b).Gives fun _ => b = true := by
  cases b with
  | false => exact gives_error _
  | true => exact gives_ok rfl

theorem requirePayloadSize_gives (actual expected : ℕ) :
    (requirePayloadSize actual expected).Gives fun _ => actual = expected :=
  (require_gives _).mono fun _ => of_decide_eq_true

theorem ofExcept_gives {α : Type} (x : Except ProtocolResult α) :
    (ofExcept x).Gives fun a => x = .ok a := by
  cases x with
  | error e => exact gives_error _
  | ok a => exact gives_ok rfl

theorem copyArray_gives (h : p + n ≤ l.length) :
    (copyArray l p n).Gives fun v => slice l p n = v.toList := by
  have hlen := length_slice h
  rw [copyArray, readBytes_eq h]
  refine gives_ok ?_
  rw [toList_pad hlen.le, hlen, Nat.sub_self, List.replicate_zero, List.append_nil]

theorem copyString_gives {k : ℕ} (h : p + k ≤ l.length) (hk : k < n) :
    (copyString l p k n).Gives fun v => v = pad n (slice l p k) := by
  rw [copyString, readBytes_eq h, ok_bind, if_pos hk]
  exact gives_ok rfl

/-! ### The header -/

theorem decodeHeader_gives (frame : List UInt8) : (decodeHeader current frame).Gives fun (h, n) =>
    frame.length = headerSize + n ∧ n ≤ maxFrameSize - headerSize ∧
      slice frame 0 headerSize = encodeHeader h n ∧
      validateHeader current h = .ok () := by
  unfold decodeHeader
  split_ifs with hlen
  · exact gives_error _
  have hlen' : 48 ≤ frame.length := Nat.not_lt.mp hlen
  refine (readU32_gives (by omega)).bind fun m hm => ?_
  split_ifs with hmagic
  · exact gives_error _
  refine (readU16_gives (by omega)).bind fun major hmajor =>
    (readU16_gives (by omega)).bind fun minor hminor => ?_
  refine (readU16_gives (by omega)).bind fun type htype =>
    (readU16_gives (by omega)).bind fun flags hflags => ?_
  refine (readU32_gives (by omega)).bind fun size hsize =>
    (readU64_gives (by omega)).bind fun request hrequest => ?_
  refine (readU64_gives (by omega)).bind fun session hsession =>
    (readU64_gives (by omega)).bind fun capabilities hcap => ?_
  refine (readU64_gives (by omega)).bind fun required hrequired => ?_
  split_ifs with hover hshort hlong
  iterate 3 exact gives_error _
  refine (ofExcept_gives _).bind fun _ hv => gives_ok ⟨by omega, by omega, ?_, hv⟩
  rw [encodeHeader, UInt32.ofNat_toNat, ← not_not.mp hmagic, ← hm, ← hmajor, ← hminor, ← htype,
    ← hflags, ← hsize, ← hrequest, ← hsession, ← hcap, ← hrequired]
  simp [slice_join, headerSize]

section

variable (hok : decodeHeader current frame = .ok (h, n))

include hok

theorem decodeHeader_ok :
    frame.length = headerSize + n ∧ n ≤ maxFrameSize - headerSize ∧
      slice frame 0 headerSize = encodeHeader h n ∧
      validateHeader current h = .ok () :=
  (decodeHeader_gives frame).2 _ hok

theorem frame_of_decodeHeader :
    frame = encodeHeader h n ++ frame.drop headerSize := by
  rw [← (decodeHeader_ok hok).2.2.1, slice, List.drop_zero, List.take_append_drop]

theorem type_of_decodeHeader :
    u16 (slice frame 8 2) = h.type := by
  have hread : (readU16 frame 8 : Checked ProtocolResult UInt16) = .ok h.type := by
    rw [frame_of_decodeHeader hok]
    simp [encodeHeader]
  rw [readU16_eq (by rw [(decodeHeader_ok hok).1, headerSize]; omega)] at hread
  exact Checked.ok.inj hread

end

/-- The fields of a header stand at the same places for every build. -/
def readHeader (frame : List UInt8) : Checked ProtocolResult Header := do
  return ⟨← readU16 frame 4, ← readU16 frame 6, ← readU16 frame 8, ← readU16 frame 10, ← readU64 frame 16,
    ← readU64 frame 24, ← readU64 frame 32, ← readU64 frame 40⟩

theorem readHeader_encodeHeader (h : Header) (n : ℕ) (payload : List UInt8) :
    readHeader (encodeHeader h n ++ payload) = .ok h := by
  simp [readHeader, encodeHeader]

/-! ### Payloads of one size -/

theorem decodeChallenge_gives : (decodeChallenge current l l.length).Gives fun c =>
    l.length = challengeSize ∧ slice l 0 32 = c.nonce.toList ∧ slice l 32 2 = putU16 c.negotiatedMinor ∧
      slice l 34 2 = [0, 0] ∧ minorValid current c.negotiatedMinor = true := by
  refine (requirePayloadSize_gives _ _).bind fun _ hsize => ?_
  have hlen : l.length = 36 := hsize
  refine (copyArray_gives (by omega)).bind fun nonce hnonce =>
    (readZero_gives (by omega)).bind fun zero hzero => ?_
  refine (require_gives _).bind fun _ hreserved => (readU16_gives (by omega)).bind fun minor hminor => ?_
  exact (require_gives _).bind fun _ hvalid => gives_ok ⟨hsize, hnonce, hminor, hzero hreserved, hvalid⟩

theorem decodeAccept_gives : (decodeAccept current l l.length).Gives fun a =>
    l.length = acceptSize ∧ slice l 0 2 = putU16 a.negotiatedMinor ∧ slice l 2 2 = [0, 0] ∧
      minorValid current a.negotiatedMinor = true := by
  refine (requirePayloadSize_gives _ _).bind fun _ hsize => ?_
  have hlen : l.length = 4 := hsize
  refine (readZero_gives (by omega)).bind fun zero hzero => (require_gives _).bind fun _ hreserved => ?_
  refine (readU16_gives (by omega)).bind fun minor hminor => (require_gives _).bind fun _ hvalid => ?_
  exact gives_ok ⟨hsize, hminor, hzero hreserved, hvalid⟩

theorem decodeStatus_gives : (decodeStatus l l.length).Gives fun s =>
    l.length = statusSize ∧ slice l 0 4 = putU32 s.availableOpportunisticChunks ∧
      slice l 4 4 = putU32 s.availableCommittedChunks ∧ slice l 8 4 = putU32 s.providerFailureDeadlineMs ∧
      slice l 12 4 = putU32 s.flags ∧ deadlineValid s.providerFailureDeadlineMs = true := by
  refine (requirePayloadSize_gives _ _).bind fun _ hsize => ?_
  have hlen : l.length = 16 := hsize
  refine (readU32_gives (by omega)).bind fun opportunistic hopp =>
    (readU32_gives (by omega)).bind fun committed hcom => ?_
  refine (readU32_gives (by omega)).bind fun deadline hdeadline =>
    (readU32_gives (by omega)).bind fun flags hflags => ?_
  exact (require_gives _).bind fun _ hvalid => gives_ok ⟨hsize, hopp, hcom, hdeadline, hflags, hvalid⟩

theorem decodeChunkRequest_gives : (decodeChunkRequest l l.length).Gives fun r =>
    l.length = chunkRequestSize ∧ slice l 0 4 = putU32 r.chunkCount ∧
      slice l 4 4 = putU32 r.logicalStart ∧
      slice l 8 1 = [r.pool] ∧ slice l 9 3 = [0, 0, 0] ∧ chunkRequestValid r = true := by
  refine (requirePayloadSize_gives _ _).bind fun _ hsize => ?_
  have hlen : l.length = 12 := hsize
  refine (readU32_gives (by omega)).bind fun chunkCount hcount =>
    (readU32_gives (by omega)).bind fun start hstart => ?_
  refine (read_gives (by omega)).bind fun pool hpool =>
    (readZero_gives (by omega)).bind fun zero hzero => ?_
  refine (require_gives _).bind fun _ hreserved => (require_gives _).bind fun _ hvalid => ?_
  exact gives_ok ⟨hsize, hcount, hstart, hpool, hzero hreserved, hvalid⟩

theorem decodeError_gives : (decodeError l l.length).Gives fun e =>
    l.length = errorSize ∧ slice l 0 2 = putU16 e.code ∧ slice l 2 2 = putU16 e.offendingType ∧
      slice l 4 1 = [e.retryable] ∧ slice l 5 3 = [0, 0, 0] ∧ e.valid = true := by
  refine (requirePayloadSize_gives _ _).bind fun _ hsize => ?_
  have hlen : l.length = 8 := hsize
  refine (readU16_gives (by omega)).bind fun code hcode =>
    (readU16_gives (by omega)).bind fun offending hoffending => ?_
  refine (read_gives (by omega)).bind fun retryable hretry =>
    (readZero_gives (by omega)).bind fun zero hzero => ?_
  refine (require_gives _).bind fun _ hreserved => (require_gives _).bind fun _ hvalid => ?_
  exact gives_ok ⟨hsize, hcode, hoffending, hretry, hzero hreserved, hvalid⟩

/-! ### HELLO -/

/-- The lengths that a HELLO payload states, and its size. -/
structure HelloLengths (l : List UInt8) (n consumerLength keyLength : ℕ) : Prop where
  consumer : slice l 0 1 = [UInt8.ofNat consumerLength]
  key : slice l 1 1 = [UInt8.ofNat keyLength]
  consumer_pos : 0 < consumerLength
  consumer_le : consumerLength ≤ consumerIdMax
  key_pos : 0 < keyLength
  key_le : keyLength ≤ keyIdMax
  size : n = helloFixedSize + consumerLength + keyLength

theorem decodeHello_gives : (decodeHello l l.length).Gives fun h => ∃ consumerLength keyLength,
    HelloLengths l l.length consumerLength keyLength ∧ slice l 2 1 = [h.mode] ∧ slice l 3 1 = [h.pool] ∧
      slice l 4 4 = putU32 h.failureDeadlineMs ∧ slice l 8 32 = h.nonce.toList ∧
      h.consumerId = pad 64 (slice l helloFixedSize consumerLength) ∧
      h.keyId = pad 32 (slice l (helloFixedSize + consumerLength) keyLength) ∧
      ∃ lengths, validateHello h = .ok lengths := by
  unfold decodeHello
  split_ifs with hshort
  · exact gives_error _
  rw [helloFixedSize, Nat.not_lt] at hshort
  refine (read_gives (by omega)).bind fun consumer hconsumer =>
    (read_gives (by omega)).bind fun key hkey => ?_
  dsimp only
  split_ifs with hlengths
  · exact gives_error _
  simp only [consumerIdMax, keyIdMax, helloFixedSize] at hlengths
  have hsum : helloFixedSize + consumer.toNat + key.toNat = l.length := by
    rw [helloFixedSize]
    omega
  refine (read_gives (by omega)).bind fun mode hmode => (read_gives (by omega)).bind fun pool hpool => ?_
  refine (readU32_gives (by omega)).bind fun deadline hdeadline =>
    (copyArray_gives (by omega)).bind fun nonce hnonce => ?_
  refine (copyString_gives (by omega) (by omega)).bind fun consumerId hconsumerId => ?_
  refine (copyString_gives (by omega) (by omega)).bind fun keyId hkeyId =>
    (ofExcept_gives _).bind fun lengths hvalid => ?_
  refine gives_ok ⟨consumer.toNat, key.toNat, ⟨?_, ?_, by omega, ?_, by omega, ?_, hsum.symm⟩,
    hmode, hpool, hdeadline, hnonce, hconsumerId, hkeyId, lengths, hvalid⟩
  · rw [UInt8.ofNat_toNat, hconsumer]
  · rw [UInt8.ofNat_toNat, hkey]
  · rw [consumerIdMax]
    omega
  · rw [keyIdMax]
    omega

/-! ### Lists of chunks -/

section Lists

variable {α : Type} {clash : α → α → Bool} {w : ℕ}

/-- The loop reads entry after entry, and they pass the checks of the encoder if each is valid. -/
theorem decodeEntries_gives {entry : ℕ → Checked ProtocolResult α} {P : ℕ → α → Prop} :
    ∀ {n : ℕ} {seen : List α},
    seen.length + n ≤ maxChunksPerFrame → (∀ i < seen.length + n, (entry i).Gives (P i)) →
    (decodeEntries entry clash n seen).Gives fun es => ∃ rest, es = seen ++ rest ∧ rest.length = n ∧
      (∀ {i e}, rest[i]? = some e → P (seen.length + i) e) ∧
      ∀ valid : α → Bool, (∀ e ∈ rest, valid e = true) → entriesValid valid clash seen rest = true
  | 0, seen, _, _ => gives_ok ⟨[], (List.append_nil _).symm, rfl, nofun, fun _ _ => rfl⟩
  | n + 1, seen, hle, hentry => by
    rw [decodeEntries, if_pos (by omega)]
    refine (hentry _ (by omega)).bind fun e he => (require_gives _).bind fun _ hclash => ?_
    have hlen : (seen ++ [e]).length + n = seen.length + (n + 1) := by
      rw [List.length_append, List.length_singleton]
      omega
    refine (decodeEntries_gives (by omega) fun i hi => hentry i (by omega)).mono fun es hes => ?_
    obtain ⟨rest, rfl, hrest, hfound, hvalid⟩ := hes
    refine ⟨e :: rest, by rw [List.append_assoc, List.singleton_append],
      by rw [List.length_cons, hrest], ?_, ?_⟩
    · rintro (_ | i) d hd
      · cases hd
        exact he
      · have hd' := hfound (List.getElem?_cons_succ.symm.trans hd)
        rwa [List.length_append, List.length_singleton, Nat.add_assoc, Nat.add_comm 1] at hd'
    · intro valid hall
      rw [entriesValid, hall e List.mem_cons_self, hclash,
        hvalid valid fun d hd => hall d (List.mem_cons_of_mem _ hd)]
      rfl

theorem countedPayloadSize_gives (count : UInt16) : (countedPayloadSize n count w).Gives fun _ =>
    chunkCountValid count = true ∧ n = chunkListHeaderSize + count.toNat * w := by
  unfold countedPayloadSize
  split_ifs with hzero hover hmany
  iterate 3 exact gives_error _
  · exact (requirePayloadSize_gives _ _).mono fun _ hn => ⟨chunkCountValid_iff.mpr ⟨hzero, by omega⟩, hn⟩

variable [Inhabited α]

/-- **A list of chunks.** The count is within the array, the size is that of the entries it
announces, and each entry was read at its place. -/
theorem decodeCounted_gives {get : List UInt8 → ℕ → Checked ProtocolResult α} {P : ℕ → α → Prop}
    (hget : ∀ {p}, p + w ≤ l.length → (get l p).Gives (P p)) :
    (decodeCounted w get clash l l.length).Gives fun c =>
      slice l 0 2 = putU16 c.chunkCount ∧ slice l 2 2 = [0, 0] ∧ chunkCountValid c.chunkCount = true ∧
      l.length = chunkListHeaderSize + c.chunkCount.toNat * w ∧
      (∀ {i e}, c.entries[i]? = some e → P (chunkListHeaderSize + i * w) e) ∧
      ∀ valid : α → Bool, (∀ e ∈ c.entries, valid e = true) →
        entriesValid valid clash [] c.entries = true := by
  unfold decodeCounted
  split_ifs with hshort
  · exact gives_error _
  rw [chunkListHeaderSize, Nat.not_lt] at hshort
  refine (readU16_gives (by omega)).bind fun count hcount =>
    (readZero_gives (by omega)).bind fun zero hzero => ?_
  refine (require_gives _).bind fun _ hreserved => (countedPayloadSize_gives _).bind fun _ hsize => ?_
  obtain ⟨hvalid, hlen⟩ := hsize
  have hle := (chunkCountValid_iff.mp hvalid).2
  refine (decodeEntries_gives (P := fun i => P (chunkListHeaderSize + i * w)) ?_
    fun i hi => ?_).bind fun es hes => ?_
  · rwa [List.length_nil, Nat.zero_add]
  · rw [List.length_nil, Nat.zero_add] at hi
    apply hget
    have hmul : (i + 1) * w ≤ count.toNat * w := Nat.mul_le_mul_right w hi
    rw [Nat.succ_mul] at hmul
    omega
  · obtain ⟨rest, rfl, hrest, hentry, hchecks⟩ := hes
    have hentries : (Counted.mk count (pad 128 es)).entries = es := by
      have hle : es.length ≤ 128 := hrest.trans_le hle
      rw [Counted.entries, ← hrest, take_toList_pad hle]
    refine gives_ok ⟨hcount, hzero hreserved, hvalid, hlen, fun {i e} hi => ?_, fun valid hall => ?_⟩
    · have hfound := hentry ((congrArg (·[i]?) hentries).symm.trans hi)
      rwa [List.length_nil, Nat.zero_add] at hfound
    · rw [hentries] at hall ⊢
      exact hchecks valid hall

end Lists

theorem decodeChunk_gives (h : p + chunkSize ≤ l.length) : (decodeChunk l p).Gives fun c =>
    slice l p chunkSize = encodeChunk c ∧ slice l (p + 21) 3 = [0, 0, 0] ∧ c.valid = true := by
  rw [chunkSize] at h
  refine (readU32_gives (by omega)).bind fun logical hlogical =>
    (readU32_gives (by omega)).bind fun provider hprovider => ?_
  refine (readU64_gives (by omega)).bind fun address haddress =>
    (readU32_gives (by omega)).bind fun key hkey => ?_
  refine (read_gives (by omega)).bind fun pool hpool =>
    (readZero_gives (by omega)).bind fun zero hzero => ?_
  refine (require_gives _).bind fun _ hchecks => ?_
  obtain ⟨hreserved, hvalid⟩ := Bool.and_eq_true_iff.mp hchecks
  have hzeros : slice l (p + 21) 3 = [0, 0, 0] := hzero hreserved
  have htail : [pool, 0, 0, 0] = slice l (p + 20) 4 := by
    rw [← slice_append l (p + 20) 1 3, hpool, hzeros]
    rfl
  refine gives_ok ⟨?_, hzeros, hvalid⟩
  rw [encodeChunk, ← hlogical, ← hprovider, ← haddress, ← hkey, htail,
    slice_join rfl, slice_join rfl, slice_join rfl, slice_join rfl]
  rfl

theorem decodeActivity_gives (h : p + activitySize ≤ l.length) :
    (decodeActivity l p).Gives fun a => slice l p activitySize = encodeActivity a := by
  rw [activitySize] at h
  refine (readU32_gives (by omega)).bind fun provider hprovider =>
    (readU64_gives (by omega)).bind fun activity hactivity => ?_
  refine gives_ok ?_
  rw [encodeActivity, ← hprovider, ← hactivity, slice_join rfl]
  rfl

/-! ### Payloads and frames -/

/-- A list of entries of size `w`: its reserved bytes are zero, and its size is that of the entries
it counts. -/
def ListAgrees (w : ℕ) (l : List UInt8) : Prop :=
  slice l 2 2 = [0, 0] ∧ 1 ≤ (u16 (slice l 0 2)).toNat ∧ (u16 (slice l 0 2)).toNat ≤ maxChunksPerFrame ∧
    l.length = chunkListHeaderSize + (u16 (slice l 0 2)).toNat * w

theorem listAgrees {count : UInt16} {w : ℕ} (hcount : slice l 0 2 = putU16 count)
    (hzero : slice l 2 2 = [0, 0]) (hvalid : chunkCountValid count = true)
    (hlen : l.length = chunkListHeaderSize + count.toNat * w) :
    ListAgrees w l ∧ u16 (slice l 0 2) = count ∧ count.toNat ≤ maxChunksPerFrame := by
  obtain ⟨hne, hle⟩ := chunkCountValid_iff.mp hvalid
  have hu : u16 (slice l 0 2) = count := by rw [hcount, u16_putU16]
  have hpos : count.toNat ≠ 0 := fun h0 => hne (UInt16.toNat_inj.mp h0)
  rw [ListAgrees, hu]
  exact ⟨⟨hzero, by omega, hle, hlen⟩, rfl, hle⟩

/-- The counts, string lengths and reserved bytes of a payload agree with its size. -/
def PayloadAgrees (type : UInt16) (l : List UInt8) : Prop :=
  match MessageType.ofCode type with
  | some .hello => ∃ consumerLength keyLength, HelloLengths l l.length consumerLength keyLength
  | some .challenge => l.length = challengeSize ∧ slice l 34 2 = [0, 0]
  | some .auth => l.length = authTagSize
  | some .accept => l.length = acceptSize ∧ slice l 2 2 = [0, 0]
  | some .statusRequest | some .goodbye => l.length = 0
  | some .statusResponse => l.length = statusSize
  | some .chunkRequest => l.length = chunkRequestSize ∧ slice l 9 3 = [0, 0, 0]
  | some .chunkGrant => ListAgrees chunkSize l ∧
      ∀ i < (u16 (slice l 0 2)).toNat, slice l (chunkListHeaderSize + i * chunkSize + 21) 3 = [0, 0, 0]
  | some .evict | some .release => ListAgrees chunkIdSize l
  | some .activity => ListAgrees activitySize l
  | some .error => l.length = errorSize ∧ slice l 5 3 = [0, 0, 0]
  | none => False

/-- A frame whose size is the one its header states, and whose payload agrees with that size. -/
structure Agrees (frame : List UInt8) : Prop where
  header : headerSize ≤ frame.length
  size : frame.length = headerSize + payloadLength frame
  max : frame.length ≤ maxFrameSize
  payload : PayloadAgrees (u16 (slice frame 8 2)) (frame.drop headerSize)

/-- The arrays of a payload are filled within their sizes, and each string has its terminator. -/
structure Payload.Bounded (q : Payload) : Prop where
  consumerId : (cstring q.hello.consumerId).length ≤ consumerIdMax
  keyId : (cstring q.hello.keyId).length ≤ keyIdMax
  chunkGrant : q.chunkGrant.chunkCount.toNat ≤ maxChunksPerFrame
  chunkIds : q.chunkIds.chunkCount.toNat ≤ maxChunksPerFrame
  activity : q.activity.chunkCount.toNat ≤ maxChunksPerFrame

theorem Payload.bounded_empty : ({} : Payload).Bounded where
  consumerId := by decide
  keyId := by decide
  chunkGrant := by decide
  chunkIds := by decide
  activity := by decide

theorem decodePayload_gives (type : UInt16) : (decodePayload current type l l.length).Gives fun q =>
    PayloadAgrees type l ∧ q.Bounded := by
  unfold decodePayload PayloadAgrees
  cases MessageType.ofCode type with
  | none => exact gives_error _
  | some t =>
    cases t with
    | hello =>
      refine decodeHello_gives.bind fun hello hok => gives_ok ?_
      obtain ⟨consumerLength, keyLength, hlengths, -, -, -, -, -, -, lengths, hvalid⟩ := hok
      obtain ⟨hc, hk⟩ := lengths_of_helloValid (validateHello_ok hvalid).1
      exact ⟨⟨consumerLength, keyLength, hlengths⟩,
        { Payload.bounded_empty with consumerId := hc.2, keyId := hk.2 }⟩
    | challenge =>
      exact decodeChallenge_gives.bind fun _ ⟨hsize, _, _, hzero, _⟩ =>
        gives_ok ⟨⟨hsize, hzero⟩, { Payload.bounded_empty with }⟩
    | auth =>
      refine (requirePayloadSize_gives _ _).bind fun _ hsize => ?_
      have hlen : l.length = 32 := hsize
      exact (copyArray_gives (by omega)).bind fun _ _ => gives_ok ⟨hsize, { Payload.bounded_empty with }⟩
    | accept =>
      exact decodeAccept_gives.bind fun _ ⟨hsize, _, hzero, _⟩ =>
        gives_ok ⟨⟨hsize, hzero⟩, { Payload.bounded_empty with }⟩
    | statusRequest | goodbye =>
      exact (requirePayloadSize_gives _ _).bind fun _ hsize => gives_ok ⟨hsize, Payload.bounded_empty⟩
    | statusResponse =>
      exact decodeStatus_gives.bind fun _ hok => gives_ok ⟨hok.1, { Payload.bounded_empty with }⟩
    | chunkRequest =>
      exact decodeChunkRequest_gives.bind fun _ ⟨hsize, _, _, _, hzero, _⟩ =>
        gives_ok ⟨⟨hsize, hzero⟩, { Payload.bounded_empty with }⟩
    | chunkGrant =>
      refine (decodeCounted_gives decodeChunk_gives).bind fun grant hok => gives_ok ?_
      obtain ⟨hcount, hzero, hvalid, hlen, hentry, -⟩ := hok
      obtain ⟨hagrees, hu, hle⟩ := listAgrees hcount hzero hvalid hlen
      refine ⟨⟨hagrees, fun i hi => ?_⟩, { Payload.bounded_empty with chunkGrant := hle }⟩
      rw [hu, ← length_entries hvalid] at hi
      exact (hentry (List.getElem?_eq_getElem hi)).2.1
    | evict | release =>
      refine (decodeCounted_gives readU32_gives).bind fun ids ⟨hcount, hzero, hvalid, hlen, _⟩ =>
        gives_ok ?_
      obtain ⟨hagrees, -, hle⟩ := listAgrees hcount hzero hvalid hlen
      exact ⟨hagrees, { Payload.bounded_empty with chunkIds := hle }⟩
    | activity =>
      refine (decodeCounted_gives decodeActivity_gives).bind
        fun activity ⟨hcount, hzero, hvalid, hlen, _⟩ => gives_ok ?_
      obtain ⟨hagrees, -, hle⟩ := listAgrees hcount hzero hvalid hlen
      exact ⟨hagrees, { Payload.bounded_empty with activity := hle }⟩
    | error =>
      exact decodeError_gives.bind fun _ ⟨hsize, _, _, _, hzero, _⟩ =>
        gives_ok ⟨⟨hsize, hzero⟩, { Payload.bounded_empty with }⟩

theorem decode_ok (h : decode current frame = .ok m) :
    frame.length ≤ maxFrameSize ∧
      decodeHeader current frame = .ok (m.header, (frame.drop headerSize).length) ∧
      decodePayload current m.header.type (frame.drop headerSize) (frame.drop headerSize).length =
        .ok m.payload := by
  unfold decode at h
  split_ifs at h with hmax
  obtain ⟨⟨header, size⟩, hheader, h⟩ := bind_eq_ok h
  obtain ⟨payload, hpayload, h⟩ := bind_eq_ok h
  cases h
  have hsize : (frame.drop headerSize).length = size := by
    rw [List.length_drop, (decodeHeader_ok hheader).1, Nat.add_sub_cancel_left]
  rw [hsize]
  exact ⟨by omega, hheader, hpayload⟩

theorem decodeChallenge_unique {c c' : Challenge} (h : decodeChallenge current l l.length = .ok c)
    (h' : decodeChallenge current' l l.length = .ok c') : c = c' := by
  obtain ⟨-, hnonce, hminor, -, -⟩ := decodeChallenge_gives.2 _ h
  obtain ⟨-, hnonce', hminor', -, -⟩ := decodeChallenge_gives.2 _ h'
  have hn : c.nonce = c'.nonce := Vector.toList_inj.mp (hnonce.symm.trans hnonce')
  have hm : c.negotiatedMinor = c'.negotiatedMinor := by
    rw [← u16_putU16 c.negotiatedMinor, ← hminor, hminor', u16_putU16]
  cases c
  cases c'
  cases hn
  cases hm
  rfl

theorem decodeAccept_unique {a a' : Accept} (h : decodeAccept current l l.length = .ok a)
    (h' : decodeAccept current' l l.length = .ok a') : a = a' := by
  obtain ⟨-, hminor, -, -⟩ := decodeAccept_gives.2 _ h
  obtain ⟨-, hminor', -, -⟩ := decodeAccept_gives.2 _ h'
  have hm : a.negotiatedMinor = a'.negotiatedMinor := by
    rw [← u16_putU16 a.negotiatedMinor, ← hminor, hminor', u16_putU16]
  cases a
  cases a'
  cases hm
  rfl

theorem decodePayload_unique {type : UInt16} {q q' : Payload}
    (h : decodePayload current type l l.length = .ok q)
    (h' : decodePayload current' type l l.length = .ok q') :
    q = q' := by
  unfold decodePayload at h h'
  cases ht : MessageType.ofCode type with
  | none => rw [ht] at h; cases h
  | some t =>
    rw [ht] at h h'
    cases t with
    | challenge =>
      obtain ⟨c, hc, h⟩ := bind_eq_ok h
      obtain ⟨c', hc', h'⟩ := bind_eq_ok h'
      cases h
      cases h'
      rw [decodeChallenge_unique hc hc']
    | accept =>
      obtain ⟨a, ha, h⟩ := bind_eq_ok h
      obtain ⟨a', ha', h'⟩ := bind_eq_ok h'
      cases h
      cases h'
      rw [decodeAccept_unique ha ha']
    | _ => exact Checked.ok.inj (h.symm.trans h')

/-- **Two builds that accept a frame find the same message.** -/
theorem decode_unique {m' : Message} (h : decode current frame = .ok m)
    (h' : decode current' frame = .ok m') : m = m' := by
  obtain ⟨-, hheader, hpayload⟩ := decode_ok h
  obtain ⟨-, hheader', hpayload'⟩ := decode_ok h'
  have hm : m.header = m'.header := by
    have hread := readHeader_encodeHeader m.header (frame.drop headerSize).length (frame.drop headerSize)
    have hread' :=
      readHeader_encodeHeader m'.header (frame.drop headerSize).length (frame.drop headerSize)
    rw [← frame_of_decodeHeader hheader] at hread
    rw [← frame_of_decodeHeader hheader', hread] at hread'
    exact Checked.ok.inj hread'
  rw [← hm] at hpayload'
  have hq := decodePayload_unique hpayload hpayload'
  cases m
  cases m'
  cases hm
  cases hq
  rfl

/-- **The decoder stays inside the string and its arrays.** -/
theorem decode_safe (current : ℕ) (frame : List UInt8) : (decode current frame).Safe := by
  unfold decode
  split_ifs with hmax
  · nofun
  refine ((decodeHeader_gives frame).bind (Q := fun _ => True) fun hs hok => ?_).1
  obtain ⟨header, size⟩ := hs
  have hsize : size = (frame.drop headerSize).length := by
    rw [List.length_drop, hok.1, Nat.add_sub_cancel_left]
  dsimp only
  rw [hsize]
  exact (decodePayload_gives _).bind fun _ _ => gives_ok trivial

theorem agrees_of_decode (h : decode current frame = .ok m) :
    Agrees frame ∧ m.payload.Bounded := by
  obtain ⟨hmax, hheader, hpayload⟩ := decode_ok h
  obtain ⟨hlen, hle, -, -⟩ := decodeHeader_ok hheader
  obtain ⟨hagrees, hbounded⟩ := (decodePayload_gives _).2 _ hpayload
  have hpayloadLength : payloadLength frame = (frame.drop headerSize).length := by
    conv_lhs => rw [frame_of_decodeHeader hheader]
    exact payloadLength_encodeHeader _ (hle.trans (Nat.sub_le _ _))
  refine ⟨⟨by omega, by rw [hpayloadLength]; exact hlen, hmax, ?_⟩, hbounded⟩
  rw [type_of_decodeHeader hheader]
  exact hagrees

/-- **The bounds of the decoder.** On every string the decoder reads only inside it, fills no array
beyond its size, and returns an error unless the string agrees with the size its header states. -/
theorem decode_bounds (current : ℕ) (frame : List UInt8) :
    decode current frame ≠ .fault ∧ (∀ m, decode current frame = .ok m → m.payload.Bounded) ∧
      (¬Agrees frame → ∃ e, decode current frame = .error e) := by
  refine ⟨decode_safe current frame, fun m h => (agrees_of_decode h).2, fun hnot => ?_⟩
  exact (decode_safe current frame).error_of_not_ok fun m h => hnot (agrees_of_decode h).1

/-- A frame with a byte more than its header states. -/
theorem decode_bounds_trailing : ∃ e, decode 1 (encodeHeader { type := 12 } 0 ++ [0]) = .error e :=
  (decode_bounds 1 (encodeHeader { type := 12 } 0 ++ [0])).2.2 fun h => absurd h.size (by decide)

end Protocol
end Infiniswap

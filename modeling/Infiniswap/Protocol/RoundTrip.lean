/-
# What is encoded is decoded

The decoder reads back every frame the encoder writes, and finds the message it
was written from, as far as a message says something: array entries beyond the
count and the bytes after the terminator of a string are not sent. `Content` is
what is left of a message without them.
-/
import Mathlib.Data.List.TakeWhile
import Mathlib.Tactic.Tauto
import Infiniswap.Protocol.Codec

namespace Infiniswap
namespace Protocol

open Bytes

variable {current : ℕ}

/-! ### Contents -/

variable {l pre post : List UInt8} {h : Hello} {consumerLength keyLength p w size capacity : ℕ}
  {m : Message}

/-- What a message says. -/
inductive Content
  | hello (consumerId keyId : List UInt8) (nonce : Vector UInt8 32) (mode pool : UInt8)
      (failureDeadlineMs : UInt32)
  | challenge (c : Challenge)
  | auth (a : Auth)
  | accept (a : Accept)
  | status (s : Status)
  | chunkRequest (r : ChunkRequest)
  | chunkGrant (count : UInt16) (chunks : List Chunk)
  | chunkIds (count : UInt16) (ids : List UInt32)
  | activity (count : UInt16) (chunks : List ChunkActivity)
  | error (e : Error)
  | empty
  deriving DecidableEq

def Payload.content (p : Payload) (type : UInt16) : Content :=
  match MessageType.ofCode type with
  | some .hello =>
    .hello (cstring p.hello.consumerId) (cstring p.hello.keyId) p.hello.nonce p.hello.mode
      p.hello.pool p.hello.failureDeadlineMs
  | some .challenge => .challenge p.challenge
  | some .auth => .auth p.auth
  | some .accept => .accept p.accept
  | some .statusResponse => .status p.status
  | some .chunkRequest => .chunkRequest p.chunkRequest
  | some .chunkGrant => .chunkGrant p.chunkGrant.chunkCount p.chunkGrant.entries
  | some .evict | some .release => .chunkIds p.chunkIds.chunkCount p.chunkIds.entries
  | some .activity => .activity p.activity.chunkCount p.activity.entries
  | some .error => .error p.error
  | some .statusRequest | some .goodbye | none => .empty

def Message.content (m : Message) : Content := m.payload.content m.header.type

/-! ### Identifiers -/

section Identifiers

variable {n : ℕ}

theorem boundedStringLength_eq (v : Vector UInt8 (n + 1)) :
    boundedStringLength v.toList n = (cstring v).length := by
  rw [boundedStringLength, List.take_of_length_le (by simp), cstring]

theorem take_cstring (v : Vector UInt8 n) : v.toList.take (cstring v).length = cstring v :=
  (List.prefix_iff_eq_take.mp (List.takeWhile_prefix _)).symm

theorem cstring_ne_zero {v : Vector UInt8 n} {b : UInt8} (h : b ∈ cstring v) : b ≠ 0 := by
  have hb := List.mem_takeWhile_imp h
  simpa using hb

theorem cstring_pad (h : l.length < n) (hl : ∀ b ∈ l, b ≠ 0) : cstring (pad n l) = l := by
  obtain ⟨k, hk⟩ : ∃ k, n - l.length = k + 1 := ⟨n - l.length - 1, by omega⟩
  have hzero : (default : UInt8) = 0 := rfl
  rw [cstring, toList_pad h.le, hk, List.replicate_succ,
    List.takeWhile_append_of_pos (by simpa using hl), hzero]
  simp

/-- The checks of a HELLO, on the strings it holds. -/
def helloValid (consumerId keyId : List UInt8) (mode pool : UInt8) (deadline : UInt32) : Bool :=
  consumerId.length ≤ consumerIdMax && keyId.length ≤ keyIdMax &&
    consumerId ≠ [] && consumerId.all identifierChar && keyId ≠ [] && keyId.all identifierChar &&
    (mode = modeBacked || mode = modeRemoteOnly) && poolValid pool && deadlineValid deadline &&
    !(mode = modeBacked && pool ≠ poolOpportunistic) && !(mode = modeRemoteOnly && pool ≠ poolCommitted)

theorem identifierValid_cstring (v : Vector UInt8 n) :
    identifierValid v.toList (cstring v).length =
      (decide (cstring v ≠ []) && (cstring v).all identifierChar) := by
  rw [identifierValid, take_cstring]
  simp

theorem validateHello_eq (h : Hello) : validateHello h =
    if helloValid (cstring h.consumerId) (cstring h.keyId) h.mode h.pool h.failureDeadlineMs then
      .ok ((cstring h.consumerId).length, (cstring h.keyId).length)
    else .error .invalidPayload := by
  have hc : boundedStringLength h.consumerId.toList consumerIdMax = (cstring h.consumerId).length :=
    boundedStringLength_eq h.consumerId
  have hk : boundedStringLength h.keyId.toList keyIdMax = (cstring h.keyId).length :=
    boundedStringLength_eq h.keyId
  unfold validateHello
  rw [hc, hk]
  dsimp only
  rw [identifierValid_cstring, identifierValid_cstring]
  by_cases hv :
    helloValid (cstring h.consumerId) (cstring h.keyId) h.mode h.pool h.failureDeadlineMs = true
  · rw [if_pos hv]
    simp [helloValid] at hv
    rw [if_neg (by simp; tauto), if_neg (by simp; tauto), if_neg (by simp; tauto)]
  · rw [if_neg hv]
    split_ifs with h₁ h₂ h₃
    · rfl
    · rfl
    · rfl
    · refine absurd ?_ hv
      simp at h₁ h₂ h₃
      simp [helloValid]
      tauto

/-- The strings of a valid HELLO fit their arrays, and there is something in them. -/
theorem lengths_of_helloValid {c k : List UInt8} {mode pool : UInt8} {deadline : UInt32}
    (h : helloValid c k mode pool deadline = true) :
    (0 < c.length ∧ c.length ≤ consumerIdMax) ∧ 0 < k.length ∧ k.length ≤ keyIdMax := by
  simp [helloValid] at h
  exact ⟨⟨List.length_pos_iff.mpr (by tauto), by tauto⟩, List.length_pos_iff.mpr (by tauto), by tauto⟩

theorem validateHello_ok (hv : validateHello h = .ok (consumerLength, keyLength)) :
    helloValid (cstring h.consumerId) (cstring h.keyId) h.mode h.pool h.failureDeadlineMs = true ∧
      consumerLength = (cstring h.consumerId).length ∧ keyLength = (cstring h.keyId).length := by
  rw [validateHello_eq] at hv
  split at hv
  case isFalse => cases hv
  case isTrue hvalid =>
    cases hv
    exact ⟨hvalid, rfl, rfl⟩

end Identifiers

/-! ### Headers -/

@[simp] theorem length_encodeHeader (h : Header) (size : ℕ) :
    (encodeHeader h size).length = headerSize := by
  simp [encodeHeader, headerSize]

theorem decodeHeader_encode {h : Header} {payload : List UInt8}
    (hsize : payload.length ≤ maxFrameSize - headerSize) (hv : validateHeader current h = .ok ()) :
    decodeHeader current (encodeHeader h payload.length ++ payload) = .ok (h, payload.length) := by
  have hlen : (encodeHeader h payload.length ++ payload).length = headerSize + payload.length := by
    rw [List.length_append, length_encodeHeader]
  have hmod : payload.length % 4294967296 = payload.length := by
    simp only [maxFrameSize, headerSize] at hsize
    omega
  unfold decodeHeader
  rw [hlen, if_neg (by omega), Nat.add_sub_cancel_left]
  simp [encodeHeader, hmod, Nat.not_lt.mpr hsize, hv, ofExcept]

/-! ### Payloads of one size -/

@[simp] theorem require_true : require true = .ok () := rfl

@[simp] theorem requirePayloadSize_self (n : ℕ) : requirePayloadSize n n = .ok () := by
  rw [requirePayloadSize, decide_eq_true rfl, require_true]

@[simp] theorem copyArray_here {n : ℕ} (v : Vector UInt8 n) (l : List UInt8) :
    copyArray (v.toList ++ l) 0 n = .ok v := by
  rw [copyArray, readBytes_here (by simp), Checked.ok_bind, pad_toList]
  rfl

@[simp] theorem copyArray_skip {a : List UInt8} {n : ℕ} (h : a.length ≤ p) :
    copyArray (a ++ l) p n = copyArray l (p - a.length) n := by
  rw [copyArray, readBytes_skip h, copyArray]

theorem copyArray_all {n : ℕ} (v : Vector UInt8 n) : copyArray v.toList 0 n = .ok v := by
  rw [← List.append_nil v.toList, copyArray_here]

@[simp] theorem readZero_reserved (l : List UInt8) :
    (readZero (putU16 0 ++ l) 0 2 : Checked ProtocolResult Bool) = .ok true := readZero_zeros 2

@[simp] theorem readZero_reserved_last :
    (readZero (putU16 0) 0 2 : Checked ProtocolResult Bool) = .ok true := rfl

@[simp] theorem readZero_padding (l : List UInt8) :
    (readZero (0 :: 0 :: 0 :: l) 0 3 : Checked ProtocolResult Bool) = .ok true := readZero_zeros 3

theorem decodeChallenge_encode {c : Challenge} (h : minorValid current c.negotiatedMinor = true) :
    decodeChallenge current (c.nonce.toList ++
      (putU16 c.negotiatedMinor ++ putU16 0)) challengeSize = .ok c := by
  simp [decodeChallenge, h]

theorem decodeAccept_encode {a : Accept} (h : minorValid current a.negotiatedMinor = true) :
    decodeAccept current (putU16 a.negotiatedMinor ++ putU16 0) acceptSize = .ok a := by
  simp [decodeAccept, h]

theorem decodeStatus_encode {s : Status} (h : deadlineValid s.providerFailureDeadlineMs = true) :
    decodeStatus (putU32 s.availableOpportunisticChunks ++ (putU32 s.availableCommittedChunks ++
      (putU32 s.providerFailureDeadlineMs ++ putU32 s.flags))) statusSize = .ok s := by
  simp [decodeStatus, h]

theorem decodeChunkRequest_encode {r : ChunkRequest} (h : chunkRequestValid r = true) :
    decodeChunkRequest (putU32 r.chunkCount ++
      (putU32 r.logicalStart ++ [r.pool, 0, 0, 0])) chunkRequestSize = .ok r := by
  simp [decodeChunkRequest, h]

theorem decodeError_encode {e : Error} (h : e.valid = true) :
    decodeError (putU16 e.code ++ (putU16 e.offendingType ++ [e.retryable, 0, 0, 0])) errorSize =
      .ok e := by
  simp [decodeError, h]

/-! ### HELLO -/

theorem copyString_field {k n : ℕ} (hp : p = pre.length) (hk : k = l.length) (hn : k < n) :
    copyString (pre ++ (l ++ post)) p k n = .ok (pad n l) := by
  rw [copyString, readBytes_skip hp.ge, hp, Nat.sub_self, readBytes_here hk, Checked.ok_bind, if_pos hn]
  rfl

theorem copyString_last {k n : ℕ} (hp : p = pre.length) (hk : k = l.length) (hn : k < n) :
    copyString (pre ++ l) p k n = .ok (pad n l) := by
  have h : copyString (pre ++ (l ++ [])) p k n = .ok (pad n l) := copyString_field hp hk hn
  rwa [List.append_nil] at h

theorem toNat_ofNat_length {n : ℕ} (h : l.length ≤ n) (hn : n < 256) :
    (UInt8.ofNat l.length).toNat = l.length :=
  UInt8.toNat_ofNat_of_lt' (lt_of_le_of_lt h hn)

theorem decodeHello_fields {c k : List UInt8} {nonce : Vector UInt8 32} {mode pool : UInt8}
    {deadline : UInt32} (hc : 0 < c.length ∧ c.length ≤ consumerIdMax)
    (hk : 0 < k.length ∧ k.length ≤ keyIdMax) :
    decodeHello ([UInt8.ofNat c.length, UInt8.ofNat k.length, mode, pool] ++
        (putU32 deadline ++ (nonce.toList ++ (c ++ k)))) (helloFixedSize + c.length + k.length) =
      (ofExcept (validateHello ⟨pad 64 c, pad 32 k, nonce, mode, pool, deadline⟩) >>=
        fun _ => .ok ⟨pad 64 c, pad 32 k, nonce, mode, pool, deadline⟩) := by
  have hclen := toNat_ofNat_length hc.2 (by decide)
  have hklen := toNat_ofNat_length hk.2 (by decide)
  simp only [consumerIdMax] at hc
  simp only [keyIdMax] at hk
  set head := [UInt8.ofNat c.length, UInt8.ofNat k.length, mode, pool]
  have hpre : (head ++ (putU32 deadline ++ nonce.toList)).length = helloFixedSize := by
    simp [head, helloFixedSize]
  have hconsumer : copyString (head ++ (putU32 deadline ++ (nonce.toList ++ (c ++ k))))
      helloFixedSize c.length 64 = .ok (pad 64 c) := by
    rw [← List.append_assoc (putU32 deadline), ← List.append_assoc head]
    exact copyString_field hpre.symm rfl (by omega)
  have hkey : copyString (head ++ (putU32 deadline ++ (nonce.toList ++ (c ++ k))))
      (helloFixedSize + c.length) k.length 32 = .ok (pad 32 k) := by
    rw [← List.append_assoc (putU32 deadline), ← List.append_assoc head, ← List.append_assoc _ c]
    exact copyString_last (by rw [List.length_append, hpre]) rfl (by omega)
  have hread (i : ℕ) :
      (read (head ++ (putU32 deadline ++ (nonce.toList ++ (c ++ k)))) i :
        Checked ProtocolResult UInt8) =
      read (UInt8.ofNat c.length :: UInt8.ofNat k.length :: mode :: pool ::
        (putU32 deadline ++ (nonce.toList ++ (c ++ k)))) i := rfl
  have hdeadline : (readU32 (head ++ (putU32 deadline ++ (nonce.toList ++ (c ++ k)))) 4 :
      Checked ProtocolResult UInt32) = .ok deadline := by
    rw [readU32_skip (by simp [head])]
    simp [head]
  have hnonce : copyArray (head ++ (putU32 deadline ++ (nonce.toList ++ (c ++ k)))) 8 32 = .ok nonce := by
    rw [copyArray_skip (by simp [head]), copyArray_skip (by simp [head])]
    simp [head]
  unfold decodeHello
  rw [if_neg (by omega), hread, read_cons_zero, Checked.ok_bind, hread, read_cons_succ, read_cons_zero,
    Checked.ok_bind, hclen, hklen]
  simp only
  rw [if_neg (by simp only [consumerIdMax, keyIdMax]; omega), hread, read_cons_succ, read_cons_succ,
    read_cons_zero, Checked.ok_bind, hread, read_cons_succ, read_cons_succ, read_cons_succ,
    read_cons_zero, Checked.ok_bind, hdeadline, Checked.ok_bind, hnonce, Checked.ok_bind, hconsumer,
    Checked.ok_bind, hkey, Checked.ok_bind]
  rfl

/-- The HELLO a decoder gives: the strings stand in zeroed arrays. -/
def Hello.plain (h : Hello) : Hello :=
  { h with consumerId := pad 64 (cstring h.consumerId), keyId := pad 32 (cstring h.keyId) }

@[simp] theorem Hello.plain_mode (h : Hello) : h.plain.mode = h.mode := rfl

@[simp] theorem Hello.plain_pool (h : Hello) : h.plain.pool = h.pool := rfl

@[simp] theorem Hello.plain_nonce (h : Hello) : h.plain.nonce = h.nonce := rfl

@[simp] theorem Hello.plain_failureDeadlineMs (h : Hello) :
    h.plain.failureDeadlineMs = h.failureDeadlineMs := rfl

theorem cstring_plain
    (hv : helloValid (cstring h.consumerId) (cstring h.keyId) h.mode h.pool h.failureDeadlineMs = true) :
    cstring h.plain.consumerId = cstring h.consumerId ∧ cstring h.plain.keyId = cstring h.keyId := by
  obtain ⟨⟨-, hc⟩, -, hk⟩ := lengths_of_helloValid hv
  exact ⟨cstring_pad (Nat.lt_succ_of_le hc) fun _ => cstring_ne_zero,
    cstring_pad (Nat.lt_succ_of_le hk) fun _ => cstring_ne_zero⟩

theorem decodeHello_encode (hv : validateHello h = .ok (consumerLength, keyLength)) :
    decodeHello ([UInt8.ofNat consumerLength, UInt8.ofNat keyLength, h.mode, h.pool] ++
        (putU32 h.failureDeadlineMs ++ (h.nonce.toList ++
          (h.consumerId.toList.take consumerLength ++ h.keyId.toList.take keyLength))))
      (helloFixedSize + consumerLength + keyLength) = .ok h.plain := by
  obtain ⟨hvalid, rfl, rfl⟩ := validateHello_ok hv
  obtain ⟨hc, hk⟩ := lengths_of_helloValid hvalid
  obtain ⟨hcid, hkid⟩ := cstring_plain hvalid
  have hplain :
      validateHello h.plain = .ok ((cstring h.consumerId).length, (cstring h.keyId).length) := by
    rw [validateHello_eq, hcid, hkid, h.plain_mode, h.plain_pool, h.plain_failureDeadlineMs,
      if_pos hvalid]
  rw [take_cstring, take_cstring, decodeHello_fields hc hk]
  exact congrArg (fun r => ofExcept r >>= fun _ => .ok h.plain) hplain

/-! ### Lists of chunks -/

section Counted

variable {α : Type} {valid : α → Bool} {clash : α → α → Bool} {entry : ℕ → Checked ProtocolResult α}

theorem entriesValid_mem {e : α} :
    ∀ {rest seen : List α}, entriesValid valid clash seen rest = true → e ∈ rest →
    valid e = true
  | d :: rest, seen, hv, he => by
    simp only [entriesValid, Bool.and_eq_true] at hv
    rcases List.mem_cons.mp he with rfl | he
    · exact hv.1.1
    · exact entriesValid_mem hv.2 he

theorem decodeEntries_eq : ∀ {rest seen : List α}, (seen ++ rest).length ≤ maxChunksPerFrame →
    (∀ {i e}, (seen ++ rest)[i]? = some e → entry i = .ok e) → entriesValid valid clash seen rest = true →
    decodeEntries entry clash rest.length seen = .ok (seen ++ rest)
  | [], seen, _, _, _ => by rw [List.append_nil]; rfl
  | e :: rest, seen, hlen, hentry, hv => by
    have hat : entry seen.length = .ok e := hentry (by simp)
    have hlt : seen.length < maxChunksPerFrame := by
      rw [List.length_append, List.length_cons] at hlen
      omega
    rw [List.append_cons] at hlen hentry ⊢
    simp only [entriesValid, Bool.and_eq_true] at hv
    rw [List.length_cons, decodeEntries, if_pos hlt, hat, Checked.ok_bind, hv.1.2, require_true,
      Checked.ok_bind]
    exact decodeEntries_eq hlen hentry hv.2

theorem chunkCountValid_iff {count : UInt16} :
    chunkCountValid count = true ↔ count ≠ 0 ∧ count.toNat ≤ maxChunksPerFrame := by
  simp [chunkCountValid]

variable [Inhabited α]

variable {c : Counted α}

theorem length_entries (h : chunkCountValid c.chunkCount = true) :
    c.entries.length = c.chunkCount.toNat := by
  have hle : c.chunkCount.toNat ≤ 128 := (chunkCountValid_iff.mp h).2
  rw [Counted.entries, List.length_take, Vector.length_toList]
  omega

theorem encodeCounted_split {put : α → List UInt8} (hw : ∀ e, (put e).length = w)
    {i : ℕ} {e : α} (hi : c.entries[i]? = some e) :
    ∃ pre post, encodeCounted put c = pre ++ (put e ++ post) ∧
      pre.length = chunkListHeaderSize + i * w := by
  obtain ⟨hlt, rfl⟩ := List.getElem?_eq_some_iff.mp hi
  have hsplit : c.entries = c.entries.take i ++ c.entries[i] :: c.entries.drop (i + 1) := by
    rw [List.getElem_cons_drop, List.take_append_drop]
  refine ⟨putU16 c.chunkCount ++ (putU16 0 ++ (c.entries.take i).flatMap put),
    (c.entries.drop (i + 1)).flatMap put, ?_, ?_⟩
  · rw [encodeCounted]
    conv_lhs => rw [hsplit, List.flatMap_append, List.flatMap_cons]
    simp only [List.append_assoc]
  · rw [List.length_append, List.length_append, length_putU16, length_putU16,
      length_flatMap_of_length put _ fun e _ => hw e, List.length_take, min_eq_left hlt.le,
      chunkListHeaderSize]
    omega

/-- **A list of chunks is read back.** -/
theorem decodeCounted_encode {put : α → List UInt8} (hw : ∀ e, (put e).length = w)
    {get : List UInt8 → ℕ → Checked ProtocolResult α}
    (hget : ∀ {e pre post}, valid e = true → get (pre ++ (put e ++ post)) pre.length = .ok e)
    (hfit : maxChunksPerFrame ≤ (maxFrameSize - chunkListHeaderSize) / w)
    (hs : countedSize w valid clash c = .ok size) :
    (encodeCounted put c).length = size ∧
      ∃ d : Counted α, decodeCounted w get clash (encodeCounted put c) size = .ok d ∧
        d.chunkCount = c.chunkCount ∧ d.entries = c.entries := by
  unfold countedSize at hs
  split at hs
  case isFalse => cases hs
  case isTrue h =>
    cases hs
    obtain ⟨hcount, hvalid⟩ := Bool.and_eq_true_iff.mp h
    obtain ⟨hne, hle⟩ := chunkCountValid_iff.mp hcount
    have hlen := length_entries hcount
    have hsize : (encodeCounted put c).length = chunkListHeaderSize + w * c.chunkCount.toNat := by
      rw [encodeCounted, List.length_append, List.length_append, length_putU16, length_putU16,
        length_flatMap_of_length put _ fun e _ => hw e, hlen, Nat.mul_comm w, chunkListHeaderSize]
      omega
    have hentries : decodeEntries (fun i => get (encodeCounted put c) (chunkListHeaderSize + i * w)) clash
        c.entries.length [] = .ok c.entries := by
      have hbound : ([] ++ c.entries).length ≤ maxChunksPerFrame := by rwa [List.nil_append, hlen]
      refine decodeEntries_eq hbound (fun {i e} hi => ?_) hvalid
      obtain ⟨pre, post, hsplit, hpre⟩ := encodeCounted_split hw hi
      rw [hsplit, ← hpre]
      exact hget (entriesValid_mem hvalid (List.mem_of_getElem? hi))
    refine ⟨hsize, ⟨c.chunkCount, pad 128 c.entries⟩, ?_, rfl, ?_⟩
    · have hread : (readU16 (encodeCounted put c) 0 : Checked ProtocolResult UInt16) = .ok c.chunkCount :=
        readU16_here _
      have hzero : (readZero (encodeCounted put c) 2 2 : Checked ProtocolResult Bool) = .ok true := by
        simp [encodeCounted]
      have hpayload : countedPayloadSize (chunkListHeaderSize + w * c.chunkCount.toNat)
          c.chunkCount w = .ok () := by
        rw [countedPayloadSize, if_neg hne, if_neg (by omega), if_neg (by omega), Nat.mul_comm w,
          requirePayloadSize_self]
      unfold decodeCounted
      rw [if_neg (by omega), hread, Checked.ok_bind, hzero, Checked.ok_bind, require_true,
        Checked.ok_bind, hpayload, Checked.ok_bind, ← hlen, hentries]
      rfl
    · rw [Counted.entries]
      dsimp only
      rw [← hlen, take_toList_pad]
      rw [hlen]
      exact hle

theorem countedSize_le (hs : countedSize w valid clash c = .ok size)
    (hfit : chunkListHeaderSize + w * maxChunksPerFrame ≤ maxFrameSize - headerSize) :
    size ≤ maxFrameSize - headerSize := by
  unfold countedSize at hs
  split at hs
  case isFalse => cases hs
  case isTrue h =>
    cases hs
    have hle := (chunkCountValid_iff.mp (Bool.and_eq_true_iff.mp h).1).2
    have hmul := Nat.mul_le_mul_left w hle
    omega

end Counted

@[simp] theorem length_encodeChunk (c : Chunk) : (encodeChunk c).length = chunkSize := by
  simp [encodeChunk, chunkSize]

@[simp] theorem length_encodeActivity (a : ChunkActivity) : (encodeActivity a).length = activitySize := by
  simp [encodeActivity, activitySize]

theorem length_encodeId (id : UInt32) : (putU32 id).length = chunkIdSize := length_putU32 id

theorem decodeChunk_encode {c : Chunk} (h : c.valid = true) :
    decodeChunk (pre ++ (encodeChunk c ++ post)) pre.length = .ok c := by
  simp [decodeChunk, encodeChunk, h]

theorem decodeActivity_encode {a : ChunkActivity} :
    decodeActivity (pre ++ (encodeActivity a ++ post)) pre.length = .ok a := by
  simp [decodeActivity, encodeActivity]

theorem readU32_encode {v : UInt32} :
    (readU32 (pre ++ (putU32 v ++ post)) pre.length : Checked ProtocolResult UInt32) = .ok v := by
  simp

/-! ### Messages -/

theorem map_eq_ok {ε α β : Type} {f : α → β} {x : Except ε α} {b : β} (h : x.map f = .ok b) :
    ∃ a, x = .ok a ∧ f a = b := by
  cases x with
  | error e => cases h
  | ok a => exact ⟨a, rfl, Except.ok.inj h⟩

theorem ite_eq_ok {ε α : Type} {p : Prop} [Decidable p] {a b : α} {e : ε}
    (h : (if p then Except.ok a else .error e) = .ok b) : p ∧ a = b := by
  split at h
  · exact ⟨‹p›, Except.ok.inj h⟩
  · cases h

/-- **The payload is read back**, and has the size that was computed for it. -/
theorem decodePayload_encode (hs : payloadSize current m = .ok (size, consumerLength, keyLength)) :
    (encodePayload m consumerLength keyLength).length = size ∧ size ≤ maxFrameSize - headerSize ∧
      ∃ p, decodePayload current m.header.type (encodePayload m consumerLength keyLength) size = .ok p ∧
        p.content m.header.type = m.content := by
  unfold payloadSize at hs
  unfold encodePayload decodePayload Message.content Payload.content
  cases ht : MessageType.ofCode m.header.type with
  | none => rw [ht] at hs; cases hs
  | some t =>
    rw [ht] at hs
    cases t with
    | hello =>
      dsimp only at hs ⊢
      cases hv : validateHello m.payload.hello with
      | error e => rw [hv] at hs; cases hs
      | ok lengths =>
        rw [hv] at hs
        cases hs
        obtain ⟨hvalid, hc, hk⟩ := validateHello_ok hv
        obtain ⟨⟨-, hcmax⟩, -, hkmax⟩ := lengths_of_helloValid hvalid
        obtain ⟨hcid, hkid⟩ := cstring_plain hvalid
        simp only [consumerIdMax] at hcmax
        simp only [keyIdMax] at hkmax
        refine ⟨?_, ?_, { hello := m.payload.hello.plain }, ?_, ?_⟩
        · simp [helloFixedSize]
          omega
        · simp only [helloFixedSize, maxFrameSize, headerSize]
          omega
        · rw [decodeHello_encode hv]
          rfl
        · rw [hcid, hkid, Hello.plain_nonce, Hello.plain_mode, Hello.plain_pool,
            Hello.plain_failureDeadlineMs]
    | challenge =>
      obtain ⟨h, he⟩ := ite_eq_ok hs
      cases he
      refine ⟨by simp [challengeSize], by decide, { challenge := m.payload.challenge }, ?_, rfl⟩
      rw [decodeChallenge_encode h]
      rfl
    | auth =>
      dsimp only at hs ⊢
      cases hs
      refine ⟨by simp [authTagSize], by decide, { auth := m.payload.auth }, ?_, rfl⟩
      rw [requirePayloadSize_self, Checked.ok_bind, copyArray_all]
      rfl
    | accept =>
      obtain ⟨h, he⟩ := ite_eq_ok hs
      cases he
      refine ⟨by simp [acceptSize], by decide, { accept := m.payload.accept }, ?_, rfl⟩
      rw [decodeAccept_encode h]
      rfl
    | statusRequest | goodbye =>
      cases hs
      exact ⟨rfl, by decide, {}, rfl, rfl⟩
    | statusResponse =>
      obtain ⟨h, he⟩ := ite_eq_ok hs
      cases he
      refine ⟨by simp [statusSize], by decide, { status := m.payload.status }, ?_, rfl⟩
      rw [decodeStatus_encode h]
      rfl
    | chunkRequest =>
      obtain ⟨h, he⟩ := ite_eq_ok hs
      cases he
      refine ⟨by simp [chunkRequestSize], by decide, { chunkRequest := m.payload.chunkRequest }, ?_, rfl⟩
      rw [decodeChunkRequest_encode h]
      rfl
    | chunkGrant =>
      dsimp only at hs ⊢
      obtain ⟨n, hn, he⟩ := map_eq_ok hs
      cases he
      obtain ⟨hlen, d, hd, hcount, hentries⟩ :=
        decodeCounted_encode length_encodeChunk (fun h => decodeChunk_encode h) (by decide) hn
      refine ⟨hlen, countedSize_le hn (by decide), { chunkGrant := d }, ?_, ?_⟩
      · rw [hd]
        rfl
      · rw [hcount, hentries]
    | evict | release =>
      dsimp only at hs ⊢
      obtain ⟨n, hn, he⟩ := map_eq_ok hs
      cases he
      obtain ⟨hlen, d, hd, hcount, hentries⟩ :=
        decodeCounted_encode length_encodeId (fun _ => readU32_encode) (by decide) hn
      refine ⟨hlen, countedSize_le hn (by decide), { chunkIds := d }, ?_, ?_⟩
      · rw [hd]
        rfl
      · rw [hcount, hentries]
    | activity =>
      dsimp only at hs ⊢
      obtain ⟨n, hn, he⟩ := map_eq_ok hs
      cases he
      obtain ⟨hlen, d, hd, hcount, hentries⟩ :=
        decodeCounted_encode length_encodeActivity (fun _ => decodeActivity_encode) (by decide) hn
      refine ⟨hlen, countedSize_le hn (by decide), { activity := d }, ?_, ?_⟩
      · rw [hd]
        rfl
      · rw [hcount, hentries]
    | error =>
      obtain ⟨h, he⟩ := ite_eq_ok hs
      cases he
      refine ⟨by simp [errorSize], by decide, { error := m.payload.error }, ?_, rfl⟩
      rw [decodeError_encode h]
      rfl

theorem encode_ok {frame : List UInt8} (h : encode current m capacity = .ok (size, frame)) :
    validateHeader current m.header = .ok () ∧
      ∃ n consumerLength keyLength, payloadSize current m = .ok (n, consumerLength, keyLength) ∧
        size = headerSize + n ∧
        size ≤ capacity ∧
        frame = encodeHeader m.header n ++ encodePayload m consumerLength keyLength := by
  unfold encode at h
  cases hv : validateHeader current m.header with
  | error e => rw [hv] at h; cases h
  | ok u =>
    cases hs : payloadSize current m with
    | error e => rw [hv, hs] at h; cases h
    | ok sizes =>
      rw [hv, hs] at h
      dsimp only at h
      split_ifs at h with hover hcap
      cases h
      exact ⟨rfl, _, _, _, rfl, rfl, by omega, rfl⟩

/-- **Decoding an encoded message gives its header and its content.** -/
theorem decode_encode {frame : List UInt8} (h : encode current m capacity = .ok (size, frame)) :
    frame.length = size ∧ frame.length ≤ maxFrameSize ∧
      ∃ m', decode current frame = .ok m' ∧ m'.header = m.header ∧ m'.content = m.content := by
  obtain ⟨hv, n, consumerLength, keyLength, hs, rfl, hcap, rfl⟩ := encode_ok h
  obtain ⟨hlen, hle, p, hp, hcontent⟩ := decodePayload_encode hs
  have hframe : (encodeHeader m.header n ++ encodePayload m consumerLength keyLength).length =
      headerSize + n := by
    rw [List.length_append, length_encodeHeader, hlen]
  have hmax : headerSize + n ≤ maxFrameSize := by
    simp only [maxFrameSize, headerSize] at hle ⊢
    omega
  refine ⟨hframe, hframe.trans_le hmax, ⟨m.header, p⟩, ?_, rfl, hcontent⟩
  have hheader := decodeHeader_encode (hlen.trans_le hle) hv
  rw [hlen] at hheader
  have hdrop : (encodeHeader m.header n ++ encodePayload m consumerLength keyLength).drop headerSize =
      encodePayload m consumerLength keyLength := by
    rw [← length_encodeHeader m.header n, List.drop_left]
  rw [decode, if_neg (by omega), hheader, Checked.ok_bind, hdrop]
  dsimp only
  rw [hp]
  rfl

theorem exists_encode {n : ℕ} (hv : validateHeader current m.header = .ok ())
    (hs : payloadSize current m = .ok (n, consumerLength, keyLength))
    (hcap : maxFrameSize ≤ capacity) :
    ∃ frame m', encode current m capacity = .ok (headerSize + n, frame) ∧ decode current frame = .ok m' ∧
      m'.header = m.header ∧ m'.content = m.content := by
  have hle := (decodePayload_encode hs).2.1
  have hfit : headerSize + n ≤ capacity := by
    simp only [maxFrameSize, headerSize] at hle hcap ⊢
    omega
  have hencode : encode current m capacity =
      .ok (headerSize + n, encodeHeader m.header n ++ encodePayload m consumerLength keyLength) := by
    rw [encode, hv]
    dsimp only
    rw [hs]
    dsimp only
    rw [if_neg (by omega), if_neg (by omega)]
  obtain ⟨-, -, m', hdecode, hheader, hcontent⟩ := decode_encode hencode
  exact ⟨_, m', hencode, hdecode, hheader, hcontent⟩

theorem validateHeader_ne_oversized {h : Header} : validateHeader current h ≠ .error .oversized := by
  unfold validateHeader
  split_ifs <;> nofun

theorem countedSize_ne_oversized {α : Type} [Inhabited α] {valid : α → Bool} {clash : α → α → Bool}
    {c : Counted α} : countedSize w valid clash c ≠ .error .oversized := by
  unfold countedSize
  split <;> nofun

theorem payloadSize_ne_oversized : payloadSize current m ≠ .error .oversized := by
  have hmap {x : Except ProtocolResult ℕ} (hx : x ≠ .error .oversized) :
      x.map (·, 0, 0) ≠ .error .oversized := by
    cases x with
    | error e => exact fun h => hx (congrArg Except.error (Except.error.inj h))
    | ok n => nofun
  unfold payloadSize
  split
  · rw [validateHello_eq]
    split_ifs <;> nofun
  any_goals exact hmap countedSize_ne_oversized
  all_goals first | (split <;> nofun) | nofun

theorem encode_ne_oversized (m : Message) (capacity : ℕ) :
    encode current m capacity ≠ .error .oversized := by
  unfold encode
  cases hv : validateHeader current m.header with
  | error e =>
    dsimp only
    intro h
    cases h
    exact validateHeader_ne_oversized hv
  | ok u =>
    cases hs : payloadSize current m with
    | error e =>
      dsimp only
      intro h
      cases h
      exact payloadSize_ne_oversized hs
    | ok sizes =>
      have hle := (decodePayload_encode hs).2.1
      dsimp only
      rw [if_neg (by omega)]
      split_ifs <;> nofun

/-- The length of the payload, as the header of a frame states it. -/
def payloadLength (frame : List UInt8) : ℕ := (u32 (slice frame 12 4)).toNat

theorem payloadLength_encodeHeader {h : Header} {n : ℕ} (payload : List UInt8) (hn : n ≤ maxFrameSize) :
    payloadLength (encodeHeader h n ++ payload) = n := by
  have hmod : n % 4294967296 = n := by
    simp only [maxFrameSize] at hn
    omega
  have hread : (readU32 (encodeHeader h n ++ payload) 12 : Checked ProtocolResult UInt32) =
      .ok (UInt32.ofNat n) := by
    simp [encodeHeader]
  rw [readU32_eq (by rw [List.length_append, length_encodeHeader, headerSize]; omega)] at hread
  rw [payloadLength, Checked.ok.inj hread, UInt32.toNat_ofNat']
  exact hmod

/-- **The codec round trip.** A message is never refused for its size. A frame of an accepted one
has the length its header states, fits, and is decoded to the same header and the same content. -/
theorem encode_decode_round_trip (current : ℕ) (m : Message) (capacity : ℕ) :
    encode current m capacity ≠ .error .oversized ∧
      ∀ size frame, encode current m capacity = .ok (size, frame) →
        frame.length = size ∧ frame.length = headerSize + payloadLength frame ∧
          frame.length ≤ maxFrameSize ∧
          ∃ m', decode current frame = .ok m' ∧ m'.header = m.header ∧ m'.content = m.content := by
  refine ⟨encode_ne_oversized m capacity, fun size frame h => ?_⟩
  obtain ⟨hlen, hmax, hdecode⟩ := decode_encode h
  obtain ⟨-, n, consumerLength, keyLength, -, rfl, -, rfl⟩ := encode_ok h
  refine ⟨hlen, ?_, hmax, hdecode⟩
  rw [payloadLength_encodeHeader _ (by omega)]
  exact hlen

/-- A HELLO of build 1. -/
def sampleHello : Message where
  header := { major := 1, minor := 1, type := 1, requestId := 7, capabilities := 0x75,
              requiredCapabilities := 0x71 }
  payload :=
    { hello := { consumerId := pad 64 [104, 111, 115, 116], keyId := pad 32 [107, 49], mode := modeBacked
                 pool := poolOpportunistic, failureDeadlineMs := 1000 } }

theorem sampleHello_round_trip : ∃ frame, encode 1 sampleHello 4096 = .ok (94, frame) ∧
    ∃ m', decode 1 frame = .ok m' ∧ m'.header = sampleHello.header ∧
      m'.content = sampleHello.content := by
  have hsize : (match encode 1 sampleHello 4096 with | .ok (n, _) => n | .error _ => 0) = 94 := by
    decide +kernel
  obtain ⟨-, hround⟩ := encode_decode_round_trip 1 sampleHello 4096
  cases h : encode 1 sampleHello 4096 with
  | error e => rw [h] at hsize; cases hsize
  | ok r =>
    rw [h] at hsize
    obtain ⟨size, frame⟩ := r
    cases hsize
    exact ⟨frame, rfl, (hround 94 frame h).2.2.2⟩

end Protocol
end Infiniswap

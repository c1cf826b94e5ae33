/-
# Frames and the messages they decode to

The authentication tag of a session covers the bytes of two frames, and the
decisions are taken on the fields decoded from them, so a frame should be the
only one that decodes to its message. It is, but for a HELLO with a zero byte in
an identifier: the decoder copies the bytes that the length announces and then
measures the C string it has copied, so what stands behind the zero byte is
neither checked nor encoded again.
-/
import Infiniswap.Protocol.Bounds

namespace Infiniswap
namespace Protocol

open Bytes Bytes.Checked

variable {current : ℕ} {l : List UInt8} {n p : ℕ}

/-! ### Lists of chunks -/

/-- **An accepted list of chunks is encoded again to the same bytes.** -/
theorem encodeCounted_of_decode {α : Type} [Inhabited α] {clash : α → α → Bool} (valid : α → Bool) {w : ℕ}
    {get : List UInt8 → ℕ → Checked ProtocolResult α} {put : α → List UInt8}
    (hget : ∀ {p}, p + w ≤ l.length → (get l p).Gives fun e => slice l p w = put e ∧ valid e = true)
    {c : Counted α} (h : decodeCounted w get clash l l.length = .ok c) :
    countedSize w valid clash c = .ok l.length ∧ encodeCounted put c = l := by
  obtain ⟨hcount, hzero, hvalid, hlen, hentry, hchecks⟩ := (decodeCounted_gives hget).2 _ h
  have hall : ∀ e ∈ c.entries, valid e = true := by
    intro e he
    obtain ⟨i, hi⟩ := List.getElem?_of_mem he
    exact (hentry hi).2
  constructor
  · rw [countedSize, hvalid, hchecks valid hall, Bool.and_self, if_pos rfl, Nat.mul_comm w, ← hlen]
  · have hentries : c.entries.flatMap put = slice l chunkListHeaderSize (c.entries.length * w) :=
      flatMap_eq_slice put fun hi => (hentry hi).1
    have hreserved : putU16 0 = slice l 2 2 := by
      rw [hzero]
      rfl
    have hjoin : 2 + (2 + c.entries.length * w) = l.length := by
      rw [length_entries hvalid, hlen, chunkListHeaderSize]
      omega
    rw [encodeCounted, ← hcount, hreserved, hentries,
      slice_join (show 2 + 2 = chunkListHeaderSize from rfl), slice_join (rfl : 0 + 2 = 2), hjoin,
      slice_all rfl]

/-! ### HELLO -/

/-- The bytes of the two identifiers of a HELLO payload hold no zero byte. -/
def PlainPayload (type : UInt16) (l : List UInt8) : Prop :=
  MessageType.ofCode type = some .hello → 0 ∉ l.drop helloFixedSize

/-- The identifiers of a HELLO frame hold no zero byte. -/
def PlainIdentifiers (frame : List UInt8) : Prop :=
  PlainPayload (u16 (slice frame 8 2)) (frame.drop headerSize)

/-- **An accepted HELLO without zero bytes in its identifiers is encoded again to the same bytes.** -/
theorem encodeHello_of_decode {h : Hello} (hok : decodeHello l l.length = .ok h)
    (hplain : 0 ∉ l.drop helloFixedSize) :
    validateHello h = .ok ((cstring h.consumerId).length, (cstring h.keyId).length) ∧
      l.length = helloFixedSize + (cstring h.consumerId).length + (cstring h.keyId).length ∧
      [UInt8.ofNat (cstring h.consumerId).length, UInt8.ofNat (cstring h.keyId).length, h.mode, h.pool] ++
        (putU32 h.failureDeadlineMs ++ (h.nonce.toList ++
          (h.consumerId.toList.take (cstring h.consumerId).length ++
            h.keyId.toList.take (cstring h.keyId).length))) = l := by
  obtain ⟨c, k, hlengths, hmode, hpool, hdeadline, hnonce, hconsumer, hkey, lengths, hvalid⟩ :=
    decodeHello_gives.2 _ hok
  obtain ⟨hlc, hlk, -, hcmax, -, hkmax, hsize⟩ := hlengths
  have hclen : (slice l helloFixedSize c).length = c := length_slice (by omega)
  have hklen : (slice l (helloFixedSize + c) k).length = k := length_slice hsize.ge
  have hnonzero {q m : ℕ} (hq : helloFixedSize ≤ q) : ∀ b ∈ slice l q m, b ≠ 0 := by
    rintro b hb rfl
    have hmem := List.mem_of_mem_take hb
    rw [← Nat.sub_add_cancel hq, Nat.add_comm, ← List.drop_drop] at hmem
    exact hplain (List.mem_of_mem_drop hmem)
  have hcstring : cstring h.consumerId = slice l helloFixedSize c := by
    have hlt : (slice l helloFixedSize c).length < 64 := hclen.trans_lt (Nat.lt_succ_of_le hcmax)
    rw [hconsumer, cstring_pad hlt (hnonzero le_rfl)]
  have hkstring : cstring h.keyId = slice l (helloFixedSize + c) k := by
    have hlt : (slice l (helloFixedSize + c) k).length < 32 := hklen.trans_lt (Nat.lt_succ_of_le hkmax)
    rw [hkey, cstring_pad hlt (hnonzero (Nat.le_add_right _ _))]
  have hfront : [UInt8.ofNat c, UInt8.ofNat k, h.mode, h.pool] = slice l 0 4 := by
    rw [← slice_append l 0 1 3, ← slice_append l (0 + 1) 1 2, ← slice_append l (0 + 1 + 1) 1 1, hlc,
      hlk, hmode, hpool]
    rfl
  refine ⟨?_, ?_, ?_⟩
  · rw [hvalid, ← (validateHello_ok hvalid).2.1, ← (validateHello_ok hvalid).2.2]
  · rw [hcstring, hkstring, hclen, hklen, hsize]
  · rw [take_cstring, take_cstring, hcstring, hkstring, hclen, hklen, hfront,
      ← hdeadline, ← hnonce, slice_append, slice_join (show 8 + 32 = helloFixedSize from rfl),
      slice_join (rfl : 4 + 4 = 8), slice_join (rfl : 0 + 4 = 4)]
    have hjoin : 4 + (4 + (32 + (c + k))) = l.length := by
      rw [hsize, helloFixedSize]
      omega
    rw [hjoin, slice_all rfl]

/-! ### Payloads and frames -/

/-- **An accepted payload is encoded again to the same bytes.** -/
theorem encode_of_decodePayload {h : Header} {q : Payload}
    (hok : decodePayload current h.type l l.length = .ok q) (hplain : PlainPayload h.type l) :
    ∃ consumerLength keyLength,
      payloadSize current ⟨h, q⟩ = .ok (l.length, consumerLength, keyLength) ∧
        encodePayload ⟨h, q⟩ consumerLength keyLength = l := by
  unfold decodePayload at hok
  unfold PlainPayload at hplain
  unfold payloadSize encodePayload
  dsimp only
  cases ht : MessageType.ofCode h.type with
  | none => rw [ht] at hok; cases hok
  | some t =>
    rw [ht] at hok hplain
    cases t with
    | hello =>
      obtain ⟨hello, hdecode, hok⟩ := bind_eq_ok hok
      cases hok
      obtain ⟨hvalid, hsize, hbytes⟩ := encodeHello_of_decode hdecode (hplain rfl)
      refine ⟨_, _, ?_, hbytes⟩
      dsimp only
      rw [hvalid, hsize]
    | challenge =>
      obtain ⟨challenge, hdecode, hok⟩ := bind_eq_ok hok
      cases hok
      obtain ⟨hsize, hnonce, hminor, hzero, hvalid⟩ := decodeChallenge_gives.2 _ hdecode
      refine ⟨0, 0, by dsimp only; rw [if_pos hvalid, hsize], ?_⟩
      have hreserved : putU16 0 = slice l 34 2 := hzero.symm
      dsimp only
      rw [← hnonce, ← hminor, hreserved, slice_join (rfl : 32 + 2 = 34), slice_join (rfl : 0 + 32 = 32)]
      exact slice_all hsize
    | auth =>
      obtain ⟨_, hsize, hok⟩ := bind_eq_ok hok
      obtain ⟨tag, htag, hok⟩ := bind_eq_ok hok
      cases hok
      have hlen : l.length = 32 := (requirePayloadSize_gives _ _).2 _ hsize
      refine ⟨0, 0, by rw [hlen, authTagSize], ?_⟩
      dsimp only
      rw [← (copyArray_gives (by omega)).2 _ htag]
      exact slice_all hlen
    | accept =>
      obtain ⟨accept, hdecode, hok⟩ := bind_eq_ok hok
      cases hok
      obtain ⟨hsize, hminor, hzero, hvalid⟩ := decodeAccept_gives.2 _ hdecode
      refine ⟨0, 0, by dsimp only; rw [if_pos hvalid, hsize], ?_⟩
      have hreserved : putU16 0 = slice l 2 2 := hzero.symm
      dsimp only
      rw [← hminor, hreserved, slice_join (rfl : 0 + 2 = 2)]
      exact slice_all hsize
    | statusRequest | goodbye =>
      obtain ⟨_, hsize, hok⟩ := bind_eq_ok hok
      cases hok
      have hlen := (requirePayloadSize_gives _ _).2 _ hsize
      refine ⟨0, 0, by rw [hlen], ?_⟩
      exact (List.length_eq_zero_iff.mp hlen).symm
    | statusResponse =>
      obtain ⟨status, hdecode, hok⟩ := bind_eq_ok hok
      cases hok
      obtain ⟨hsize, hopportunistic, hcommitted, hdeadline, hflags, hvalid⟩ :=
        decodeStatus_gives.2 _ hdecode
      refine ⟨0, 0, by dsimp only; rw [if_pos hvalid, hsize], ?_⟩
      dsimp only
      rw [← hopportunistic, ← hcommitted, ← hdeadline, ← hflags, slice_join (rfl : 8 + 4 = 12),
        slice_join (rfl : 4 + 4 = 8), slice_join (rfl : 0 + 4 = 4)]
      exact slice_all hsize
    | chunkRequest =>
      obtain ⟨request, hdecode, hok⟩ := bind_eq_ok hok
      cases hok
      obtain ⟨hsize, hcount, hstart, hpool, hzero, hvalid⟩ := decodeChunkRequest_gives.2 _ hdecode
      refine ⟨0, 0, by dsimp only; rw [if_pos hvalid, hsize], ?_⟩
      have htail : [request.pool, 0, 0, 0] = slice l 8 4 := by
        rw [← slice_append l 8 1 3, hpool, hzero]
        rfl
      dsimp only
      rw [← hcount, ← hstart, htail, slice_join (rfl : 4 + 4 = 8), slice_join (rfl : 0 + 4 = 4)]
      exact slice_all hsize
    | chunkGrant =>
      obtain ⟨grant, hdecode, hok⟩ := bind_eq_ok hok
      cases hok
      obtain ⟨hsize, hbytes⟩ := encodeCounted_of_decode Chunk.valid
        (fun h => (decodeChunk_gives h).mono fun _ hc => ⟨hc.1, hc.2.2⟩) hdecode
      exact ⟨0, 0, by dsimp only; rw [hsize]; rfl, hbytes⟩
    | evict | release =>
      obtain ⟨ids, hdecode, hok⟩ := bind_eq_ok hok
      cases hok
      obtain ⟨hsize, hbytes⟩ := encodeCounted_of_decode (fun _ => true) (w := chunkIdSize)
        (fun h => (readU32_gives h).mono fun _ hid => ⟨hid, rfl⟩) hdecode
      exact ⟨0, 0, by dsimp only; rw [hsize]; rfl, hbytes⟩
    | activity =>
      obtain ⟨activity, hdecode, hok⟩ := bind_eq_ok hok
      cases hok
      obtain ⟨hsize, hbytes⟩ := encodeCounted_of_decode (fun _ => true)
        (fun h => (decodeActivity_gives h).mono fun _ ha => ⟨ha, rfl⟩) hdecode
      exact ⟨0, 0, by dsimp only; rw [hsize]; rfl, hbytes⟩
    | error =>
      obtain ⟨error, hdecode, hok⟩ := bind_eq_ok hok
      cases hok
      obtain ⟨hsize, hcode, hoffending, hretryable, hzero, hvalid⟩ := decodeError_gives.2 _ hdecode
      refine ⟨0, 0, by dsimp only; rw [if_pos hvalid, hsize], ?_⟩
      have htail : [error.retryable, 0, 0, 0] = slice l 4 4 := by
        rw [← slice_append l 4 1 3, hretryable, hzero]
        rfl
      dsimp only
      rw [← hcode, ← hoffending, htail, slice_join (rfl : 2 + 2 = 4), slice_join (rfl : 0 + 2 = 2)]
      exact slice_all hsize

variable {m : Message} {frame : List UInt8}

/-- **An accepted frame is encoded again to the same bytes**, if no identifier holds a zero byte. -/
theorem encode_of_decode (h : decode current frame = .ok m) (hplain : PlainIdentifiers frame)
    {capacity : ℕ} (hcap : frame.length ≤ capacity) :
    encode current m capacity = .ok (frame.length, frame) := by
  obtain ⟨hmax, hheader, hpayload⟩ := decode_ok h
  obtain ⟨hlen, hle, hslice, hvalid⟩ := decodeHeader_ok hheader
  rw [PlainIdentifiers, type_of_decodeHeader hheader] at hplain
  obtain ⟨consumerLength, keyLength, hsize, hbytes⟩ := encode_of_decodePayload hpayload hplain
  rw [encode, hvalid]
  dsimp only
  rw [hsize]
  dsimp only
  rw [if_neg (by omega), if_neg (by omega), hbytes, ← hslice, ← hlen, slice, List.drop_zero,
    List.take_append_drop]

theorem plainPayload_encode {consumerLength keyLength : ℕ}
    (hs : payloadSize current m = .ok (n, consumerLength, keyLength)) :
    PlainPayload m.header.type (encodePayload m consumerLength keyLength) := by
  intro ht
  unfold payloadSize at hs
  rw [ht] at hs
  dsimp only at hs
  cases hv : validateHello m.payload.hello with
  | error e => rw [hv] at hs; cases hs
  | ok lengths =>
    rw [hv] at hs
    cases hs
    obtain ⟨-, hc, hk⟩ := validateHello_ok hv
    unfold encodePayload
    rw [ht, hc, hk]
    dsimp only
    rw [take_cstring, take_cstring, ← List.append_assoc, ← List.append_assoc,
      List.drop_left' (by simp [helloFixedSize])]
    intro hmem
    rcases List.mem_append.mp hmem with hmem | hmem <;> exact cstring_ne_zero hmem rfl

theorem plainIdentifiers_encode {capacity size : ℕ}
    (h : encode current m capacity = .ok (size, frame)) : PlainIdentifiers frame := by
  obtain ⟨m', hdecode, hheader, -⟩ := (decode_encode h).2.2
  obtain ⟨-, hdecode, -⟩ := decode_ok hdecode
  obtain ⟨-, n, consumerLength, keyLength, hs, -, -, rfl⟩ := encode_ok h
  rw [PlainIdentifiers, type_of_decodeHeader hdecode, hheader, ← length_encodeHeader m.header n,
    List.drop_left]
  exact plainPayload_encode hs

/-- **The encoding is canonical exactly for frames without zero bytes in identifiers.** An accepted
frame is what its message is encoded to if and only if it is such a frame, and no two such frames
decode to one message. -/
theorem decode_canonical {frame : List UInt8} {m : Message} (h : decode current frame = .ok m) :
    ((∀ capacity ≥ frame.length, encode current m capacity = .ok (frame.length, frame)) ↔
      PlainIdentifiers frame) ∧
      (PlainIdentifiers frame → ∀ frame', decode current frame' = .ok m → PlainIdentifiers frame' →
        frame' = frame) := by
  refine ⟨⟨fun hsame => plainIdentifiers_encode (hsame frame.length le_rfl),
    fun hplain capacity hcap => ?_⟩, ?_⟩
  · exact encode_of_decode h hplain hcap
  · intro hplain frame' h' hplain'
    have hframe := encode_of_decode h hplain (le_max_left frame.length frame'.length)
    have hframe' := encode_of_decode h' hplain' (le_max_right frame.length frame'.length)
    rw [hframe] at hframe'
    exact (Prod.mk.inj (Except.ok.inj hframe')).2.symm

/-- A HELLO of build 1 with the given bytes of the Consumer's identifier and the key `k`. -/
def helloFrame (consumer : List UInt8) : List UInt8 :=
  encodeHeader { major := 1, minor := 1, type := 1, requestId := 7, capabilities := 0x75,
                 requiredCapabilities := 0x71 }
    (helloFixedSize + consumer.length + 1) ++
  ([UInt8.ofNat consumer.length, 1, modeBacked, poolOpportunistic] ++
    (putU32 1000 ++ (List.replicate 32 0 ++ (consumer ++ [107]))))

theorem decode_canonical_host : ∃ m, decode 1 (helloFrame [104, 111, 115, 116]) = .ok m ∧
    encode 1 m 4096 = .ok (93, helloFrame [104, 111, 115, 116]) := by
  have hok : (match decode 1 (helloFrame [104, 111, 115, 116]) with | .ok _ => true | _ => false) =
      true := by
    decide +kernel
  cases h : decode 1 (helloFrame [104, 111, 115, 116]) with
  | fault | error e => rw [h] at hok; cases hok
  | ok m =>
    have hplain : PlainIdentifiers (helloFrame [104, 111, 115, 116]) := fun _ => by decide +kernel
    exact ⟨m, rfl, (decode_canonical h).1.mpr hplain 4096 (by decide +kernel)⟩

/-- A zero byte at the end of the identifier makes a second frame of the same message, and encoding
gives back the one without it. -/
theorem decode_not_canonical :
    helloFrame [104, 0] ≠ helloFrame [104] ∧ ∃ m, decode 1 (helloFrame [104, 0]) = .ok m ∧
    decode 1 (helloFrame [104]) = .ok m ∧ encode 1 m 4096 = .ok (90, helloFrame [104]) := by
  refine ⟨by decide +kernel, ?_⟩
  have hsame : decode 1 (helloFrame [104, 0]) = decode 1 (helloFrame [104]) := by decide +kernel
  have hok : (match decode 1 (helloFrame [104]) with | .ok _ => true | _ => false) = true := by
    decide +kernel
  rw [hsame]
  cases h : decode 1 (helloFrame [104]) with
  | fault | error e => rw [h] at hok; cases hok
  | ok m =>
    have hplain : PlainIdentifiers (helloFrame [104]) := fun _ => by decide +kernel
    have hlen : (helloFrame [104]).length = 90 := by decide +kernel
    refine ⟨m, rfl, rfl, ?_⟩
    rw [← hlen]
    exact encode_of_decode h hplain (by rw [hlen]; omega)

end Protocol
end Infiniswap

/-
# Capabilities and their negotiation

What the check of a header says, and what a negotiation finds. Consumer and
Provider each call `is_protocol_negotiate`: the Provider on the HELLO, the
Consumer on the CHALLENGE, which offers what the Provider has already reduced.
Negotiating again with the reduced offer changes nothing.
-/
import Mathlib.Tactic.Tauto
import Infiniswap.Protocol.Message

namespace Infiniswap
namespace Protocol

variable {a b c : UInt64}

/-- Every capability of `a` is one of `b`. -/
def CapsIn (a b : UInt64) : Prop := a &&& ~~~b = 0

instance (a b : UInt64) : Decidable (CapsIn a b) := inferInstanceAs (Decidable (a &&& ~~~b = 0))

theorem capsIn_iff : CapsIn a b ↔ ∀ i, a.toBitVec.getLsbD i = true → b.toBitVec.getLsbD i = true := by
  rw [CapsIn, ← UInt64.toBitVec_inj, BitVec.eq_of_getLsbD_eq_iff]
  constructor
  · intro h i ha
    by_cases hi : i < 64
    · have := h i hi
      simpa [ha, hi] using this
    · rw [BitVec.getLsbD_of_ge _ _ (by omega)] at ha
      cases ha
  · intro h i hi
    have := h i
    simp only [UInt64.toBitVec_and, UInt64.toBitVec_not, BitVec.getLsbD_and, BitVec.getLsbD_not, hi]
    simpa using this

theorem capsIn_or : CapsIn (a ||| b) c ↔ CapsIn a c ∧ CapsIn b c := by
  simp only [capsIn_iff, UInt64.toBitVec_or, BitVec.getLsbD_or, Bool.or_eq_true]
  grind

theorem capsIn_and : CapsIn a (b &&& c) ↔ CapsIn a b ∧ CapsIn a c := by
  simp only [capsIn_iff, UInt64.toBitVec_and, BitVec.getLsbD_and, Bool.and_eq_true]
  grind

theorem CapsIn.refl (a : UInt64) : CapsIn a a := UInt64.and_not_self

theorem CapsIn.trans (h : CapsIn a b) (h' : CapsIn b c) : CapsIn a c :=
  capsIn_iff.mpr fun i hi => capsIn_iff.mp h' i (capsIn_iff.mp h i hi)

theorem capsIn_and_left (a b : UInt64) : CapsIn (a &&& b) a := (capsIn_and.mp (CapsIn.refl _)).1

theorem capsIn_and_right (a b : UInt64) : CapsIn (a &&& b) b := (capsIn_and.mp (CapsIn.refl _)).2

/-- The types whose messages carry no session id, and those that must carry one. -/
def SessionIdValid (h : Header) : Prop :=
  (h.type = MessageType.hello.code ∨ h.type = MessageType.challenge.code ∨
    h.type = MessageType.auth.code → h.sessionId = 0) ∧
  (h.type > MessageType.auth.code ∧ h.type ≠ MessageType.error.code → h.sessionId ≠ 0)

theorem sessionIdValid_of_type {h : Header} {t : MessageType} (ht : h.type = t.code)
    (hid : match t with
      | .hello | .challenge | .auth => h.sessionId = 0
      | .error => True
      | _ => h.sessionId ≠ 0) : SessionIdValid h := by
  rw [SessionIdValid, ht]
  cases t <;> simp_all [MessageType.code]

theorem flagsKnown_of_valid {type flags : UInt16} (h : flagsValid type flags = true) :
    flags &&& ~~~flagsKnown = 0 := by
  unfold flagsValid at h
  split at h
  case h_6 =>
    rcases Bool.or_eq_true_iff.mp h with h | h
    · rw [of_decide_eq_true h]
      decide
    · rw [of_decide_eq_true h]
      decide
  all_goals
    rw [of_decide_eq_true h]
    decide

variable {current : ℕ}

/-- **What a header that passes its check says.** -/
theorem validateHeader_eq_ok {h : Header} : validateHeader current h = .ok () ↔
    h.major = majorVersion ∧ minorValid current h.minor = true ∧
      (MessageType.ofCode h.type).isSome = true ∧
      CapsIn h.requiredCapabilities capKnown ∧ CapsIn h.requiredCapabilities h.capabilities ∧
      h.requestId ≠ 0 ∧
      flagsValid h.type h.flags = true ∧ SessionIdValid h := by
  unfold validateHeader SessionIdValid CapsIn
  split_ifs with hversion htype hknown hcaps hflags hzero hsession
  · refine iff_of_false nofun ?_
    rintro ⟨hmajor, hminor, -⟩
    simp [hmajor, hminor] at hversion
  · refine iff_of_false nofun ?_
    rintro ⟨-, -, hsome, -⟩
    rw [Option.isNone_iff_eq_none.mp htype] at hsome
    cases hsome
  · exact iff_of_false nofun fun h => hknown h.2.2.2.1
  · exact iff_of_false nofun fun h => hcaps h.2.2.2.2.1
  · refine iff_of_false nofun ?_
    rintro ⟨-, -, -, -, -, hid, hvalid, -⟩
    simp [hid, flagsKnown_of_valid hvalid, hvalid] at hflags
  · refine iff_of_false nofun ?_
    rintro ⟨-, -, -, -, -, -, -, h, -⟩
    exact hzero.2 (h hzero.1)
  · refine iff_of_false nofun ?_
    rintro ⟨-, -, -, -, -, -, -, -, h⟩
    exact h ⟨hsession.1, hsession.2.1⟩ hsession.2.2
  · refine iff_of_true rfl ?_
    simp [Option.isSome_iff_ne_none] at hversion htype hknown hcaps hflags hzero hsession ⊢
    tauto

/-- Minor versions that are equal or neighbours. -/
def Adjacent (m n : UInt16) : Prop := m.toNat ≤ n.toNat + 1 ∧ n.toNat ≤ m.toNat + 1

instance (m n : UInt16) : Decidable (Adjacent m n) := inferInstanceAs (Decidable (_ ∧ _))

/-- The smaller of two minor versions. -/
def minMinor (m n : UInt16) : UInt16 := if m < n then m else n

theorem minorValid_minMinor {m n : UInt16} (hm : minorValid current m = true)
    (hn : minorValid current n = true) : minorValid current (minMinor m n) = true := by
  rw [minMinor]
  split_ifs
  · exact hm
  · exact hn

/-- **What a negotiation that succeeds has found.** -/
theorem negotiate_eq_ok {localMinor peerMinor minor : UInt16}
    {localCaps localRequired peerCaps peerRequired caps : UInt64} :
    negotiate current localMinor localCaps localRequired peerMinor peerCaps peerRequired =
      .ok (minor, caps) ↔
      minorValid current localMinor = true ∧ minorValid current peerMinor = true ∧
      Adjacent localMinor peerMinor ∧
      CapsIn localRequired capKnown ∧ CapsIn peerRequired capKnown ∧
      CapsIn localRequired (localCaps &&& peerCaps) ∧
      CapsIn peerRequired (localCaps &&& peerCaps) ∧ minor = minMinor localMinor peerMinor ∧
      caps = localCaps &&& peerCaps := by
  have hadjacent : ¬(if localMinor > peerMinor then localMinor.toNat - peerMinor.toNat
      else peerMinor.toNat - localMinor.toNat) > 1 ↔ Adjacent localMinor peerMinor := by
    rw [Adjacent]
    split_ifs with hgt
    · have := UInt16.lt_iff_toNat_lt.mp hgt
      omega
    · have : ¬peerMinor.toNat < localMinor.toNat := fun h => hgt (UInt16.lt_iff_toNat_lt.mpr h)
      omega
  unfold negotiate
  dsimp only
  generalize (if localMinor > peerMinor then localMinor.toNat - peerMinor.toNat
    else peerMinor.toNat - localMinor.toNat) = difference at hadjacent ⊢
  rw [← minMinor]
  constructor
  · intro h
    split_ifs at h with hversion hknown hown hshared
    cases h
    obtain ⟨hl, hp⟩ := capsIn_or.mp (not_not.mp hknown)
    obtain ⟨hls, hps⟩ := capsIn_or.mp (not_not.mp hshared)
    refine ⟨?_, ?_, hadjacent.mp fun h => hversion (.inr (.inr h)), hl, hp, hls, hps, rfl, rfl⟩
    · by_contra hv
      exact hversion (.inl (by simpa using hv))
    · by_contra hv
      exact hversion (.inr (.inl (by simpa using hv)))
  · rintro ⟨hlm, hpm, hadj, hl, hp, hls, hps, rfl, rfl⟩
    have hversion : ¬((!minorValid current localMinor) = true ∨ (!minorValid current peerMinor) = true ∨
        difference > 1) := by
      rintro (h | h | h)
      · rw [hlm] at h
        cases h
      · rw [hpm] at h
        cases h
      · exact hadjacent.mpr hadj h
    have hown : ¬(localRequired &&& ~~~localCaps ≠ 0 ∨ peerRequired &&& ~~~peerCaps ≠ 0) := by
      rintro (h | h)
      · exact h (capsIn_and.mp hls).1
      · exact h (capsIn_and.mp hps).2
    have hknown : ¬((localRequired ||| peerRequired) &&& ~~~capKnown ≠ 0) :=
      not_not.mpr (capsIn_or.mpr ⟨hl, hp⟩)
    have hshared : ¬((localRequired ||| peerRequired) &&& ~~~(localCaps &&& peerCaps) ≠ 0) :=
      not_not.mpr (capsIn_or.mpr ⟨hls, hps⟩)
    rw [if_neg hversion, if_neg hknown, if_neg hown, if_neg hshared]

theorem minorValid_iff {current minor : UInt16} :
    minorValid current.toNat minor = true ↔ Adjacent minor current := by
  rw [minorValid, Adjacent]
  simp only [Bool.or_eq_true, decide_eq_true_eq]
  omega

theorem adjacent_minMinor {m n : UInt16} (h : Adjacent m n) :
    Adjacent (minMinor m n) m ∧ Adjacent (minMinor m n) n ∧ minMinor n (minMinor m n) = minMinor m n := by
  rw [minMinor]
  split_ifs with hlt
  · have := UInt16.lt_iff_toNat_lt.mp hlt
    refine ⟨⟨by omega, by omega⟩, h, ?_⟩
    rw [minMinor, if_neg (fun hn => by have := UInt16.lt_iff_toNat_lt.mp hn; omega)]
  · refine ⟨h.symm, ⟨by omega, by omega⟩, ?_⟩
    rw [minMinor, if_neg (fun hn => by have := UInt16.lt_iff_toNat_lt.mp hn; omega)]

/-- **Negotiating again with the reduced offer gives the same.** -/
theorem negotiate_again {localMinor peerMinor minor : UInt16}
    {localCaps localRequired peerCaps peerRequired caps : UInt64}
    (h : negotiate localMinor.toNat localMinor localCaps localRequired peerMinor peerCaps
      peerRequired = .ok (minor, caps)) :
    negotiate peerMinor.toNat peerMinor peerCaps peerRequired minor caps localRequired =
      .ok (minor, caps) := by
  obtain ⟨-, -, hadj, hl, hp, hls, hps, rfl, rfl⟩ := negotiate_eq_ok.mp h
  obtain ⟨hminl, hminp, hmin⟩ := adjacent_minMinor hadj
  have hand : peerCaps &&& (localCaps &&& peerCaps) = localCaps &&& peerCaps := by
    rw [UInt64.and_comm localCaps, ← UInt64.and_assoc, UInt64.and_self]
  rw [negotiate_eq_ok, minorValid_iff, minorValid_iff, hand, hmin]
  exact ⟨⟨by omega, by omega⟩, hminp, hminp.symm, hp, hl, hps, hls, rfl, rfl⟩

end Protocol
end Infiniswap

/-
# Comments in the Provider's files

The registry's file and the memory manager's configuration are read line by line
with `fgets`, and a line that starts with `#` or `;` is passed over. But `fgets`
returns at most one byte less than its buffer, and the loops take every piece it
returns for a line. A comment that is longer than the buffer is cut, and what
follows the cut is read as configuration.

So a comment can be inserted anywhere without any effect exactly when every piece
of it is blank or starts as a comment does. This holds of every comment that fits
the buffer (`comment_pieces`).
-/
import Infiniswap.Provider.CredentialFile
import Infiniswap.Memory.Manager

namespace Infiniswap
namespace Provider

/-! ### Reading -/

variable {now : ℕ → ℤ} {pieces : List (List UInt8)} {size : ℕ} {text : List UInt8}

/-- After a line end the reading starts afresh. -/
theorem fgets_append (size : ℕ) (after : List UInt8) : ∀ line piece,
    fgets size (line ++ 10 :: after) piece = fgets size (line ++ [10]) piece ++ fgets size after []
  | [], piece => by simp [fgets]
  | b :: line, piece => by
    rw [List.cons_append, List.cons_append, fgets, fgets, fgets_append size after line,
      fgets_append size after line]
    split <;> rfl

/-- The text in the buffer, up to a byte 0. -/
def pieceText (buffer : List UInt8) : List UInt8 := trim (buffer.takeWhile (· ≠ 0))

/-- Blank lines and comments. -/
def passedOver (buffer : List UInt8) : Prop :=
  pieceText buffer = [] ∨ (pieceText buffer).head? = some 35 ∨ (pieceText buffer).head? = some 59

instance (buffer : List UInt8) : Decidable (passedOver buffer) :=
  inferInstanceAs (Decidable (_ ∨ _ ∨ _))

/-! ### The memory manager's configuration -/

open Memory

inductive ConfigField
  | version | hostReserve | maxOpportunistic | maxCommitted
  deriving DecidableEq

def ConfigField.ofKey (key : List UInt8) : Option ConfigField :=
  if key = ascii "version" then some .version
  else if key = ascii "host_reserve_gib" then some .hostReserve
  else if key = ascii "max_opportunistic_gib" then some .maxOpportunistic
  else if key = ascii "max_committed_gib" then some .maxCommitted
  else none

/-- The variables of the loop. -/
structure ConfigState where
  parsed : Config := ⟨0, fun _ => 0⟩
  seen : List ConfigField := []

/-- A field is set to the number read for it. -/
def ConfigState.set (s : ConfigState) (number : ℕ) : ConfigField → Option ConfigState
  | .version => if number ≠ 1 then none else some { s with seen := .version :: s.seen }
  | .hostReserve => some ⟨{ s.parsed with hostReserveGib := number }, .hostReserve :: s.seen⟩
  | .maxOpportunistic =>
    some ⟨{ s.parsed with maxGib := Function.update s.parsed.maxGib .opportunistic number },
      .maxOpportunistic :: s.seen⟩
  | .maxCommitted =>
    some ⟨{ s.parsed with maxGib := Function.update s.parsed.maxGib .committed number },
      .maxCommitted :: s.seen⟩

/-- The body of the loop of `is_memory_manager_config_load`. -/
def configLine (s : ConfigState) (buffer : List UInt8) : Option ConfigState :=
  if passedOver buffer then some s
  else
    let line := pieceText buffer
    if 61 ∉ line then none
    else do
      let field ← ConfigField.ofKey (trim (line.takeWhile (· ≠ 61)))
      if field ∈ s.seen then none
      let number ← parseU32 (trim ((line.dropWhile (· ≠ 61)).drop 1))
      s.set number.toNat field

/-- `is_memory_manager_config_load` of a file that can be opened; `none` is `IS_MEMORY_CONFIG_INVALID`. -/
def configLoad (bytes : List UInt8) (readError : Bool) : Option Config := do
  let s ← (fgets 256 bytes []).foldlM configLine {}
  if readError ∨ .version ∉ s.seen ∨ .hostReserve ∉ s.seen ∨ .maxOpportunistic ∉ s.seen ∨
      .maxCommitted ∉ s.seen ∨ !s.parsed.valid then none
  else some s.parsed

/-! ### Pieces that are passed over -/

theorem parseLine_passedOver {buffer : List UInt8} (h : passedOver buffer) (s : FileState) :
    parseLine now s buffer = some s := if_pos h

theorem configLine_passedOver {buffer : List UInt8} (h : passedOver buffer) (s : ConfigState) :
    configLine s buffer = some s := if_pos h

theorem foldlM_kept {σ : Type} {body : σ → List UInt8 → Option σ}
    (h : ∀ p ∈ pieces, ∀ s, body s p = some s) (s : σ) : pieces.foldlM body s = some s := by
  induction pieces with
  | nil => rfl
  | cons p pieces ih =>
    rw [List.foldlM_cons, h p List.mem_cons_self]
    exact ih fun q hq => h q (List.mem_cons_of_mem p hq)

theorem foldlM_fgets {σ : Type} (body : σ → List UInt8 → Option σ) (size : ℕ)
    (before text after : List UInt8) (s : σ) :
    (fgets size (before ++ 10 :: (text ++ 10 :: after)) []).foldlM body s =
      ((fgets size (before ++ [10]) []).foldlM body s).bind fun s =>
        ((fgets size (text ++ [10]) []).foldlM body s).bind fun s =>
          (fgets size after []).foldlM body s := by
  rw [fgets_append, fgets_append size after text, List.foldlM_append]
  refine Option.bind_congr fun s _ => ?_
  rw [List.foldlM_append]
  rfl

/-- A text whose pieces are all passed over can be left out. -/
theorem foldlM_inserted {σ : Type} {body : σ → List UInt8 → Option σ}
    (h : ∀ p ∈ fgets size (text ++ [10]) [], ∀ s, body s p = some s) (before after : List UInt8)
    (s : σ) :
    (fgets size (before ++ 10 :: (text ++ 10 :: after)) []).foldlM body s =
      (fgets size (before ++ 10 :: after) []).foldlM body s := by
  rw [foldlM_fgets, fgets_append size after before, List.foldlM_append]
  refine Option.bind_congr fun s _ => ?_
  rw [foldlM_kept h, Option.bind_some]

/-! ### Pieces that are not -/

/-- After the version no line has an effect outside a section but the start of one. -/
theorem parseLine_later {s s' : FileState} {p : List UInt8} (h : parseLine now s p = some s')
    (hv : s.versionSeen = true) :
    s'.versionSeen = true ∧ (s'.inConsumer = false → passedOver p ∧ s' = s) := by
  unfold parseLine at h
  dsimp only at h
  split at h
  · rename_i hp
    cases h
    exact ⟨hv, fun _ => ⟨hp, rfl⟩⟩
  split at h
  · obtain ⟨entries, -, h⟩ := Option.bind_eq_some_iff.mp h
    obtain ⟨current, -, h⟩ := Option.bind_eq_some_iff.mp h
    cases h
    exact ⟨hv, nofun⟩
  split at h
  · cases h
  split at h
  · rw [if_pos (.inr (.inr hv))] at h
    cases h
  · rename_i hin
    obtain ⟨⟨current, seen⟩, -, h⟩ := Option.bind_eq_some_iff.mp h
    cases h
    exact ⟨hv, fun hout => absurd (by simpa using hin) (Bool.eq_false_iff.mp hout)⟩

theorem parse_later : ∀ {s t : FileState},
    pieces.foldlM (parseLine now) s = some t → s.versionSeen = true → t.inConsumer = false →
    t = s ∧ ∀ p ∈ pieces, passedOver p := by
  induction pieces with
  | nil =>
    intro s t h _ _
    cases h
    exact ⟨rfl, nofun⟩
  | cons p pieces ih =>
    intro s t h hv hout
    obtain ⟨s', hp, h⟩ := Option.bind_eq_some_iff.mp h
    obtain ⟨hv', hkept⟩ := parseLine_later hp hv
    obtain ⟨rfl, hall⟩ := ih h hv' hout
    obtain ⟨hpass, rfl⟩ := hkept hout
    exact ⟨rfl, List.forall_mem_cons.mpr ⟨hpass, hall⟩⟩

/-- Once every field was seen, no line has an effect. -/
theorem config_later {s : ConfigState} (hseen : ∀ field, field ∈ s.seen) :
    ∀ {t : ConfigState}, pieces.foldlM configLine s = some t → ∀ p ∈ pieces, passedOver p := by
  induction pieces with
  | nil => exact fun _ => nofun
  | cons p pieces ih =>
    intro t h
    obtain ⟨s', hp, h⟩ := Option.bind_eq_some_iff.mp h
    unfold configLine at hp
    dsimp only at hp
    split at hp
    · rename_i hpass
      cases hp
      exact List.forall_mem_cons.mpr ⟨hpass, ih h⟩
    split at hp
    · cases hp
    · obtain ⟨field, -, hp⟩ := Option.bind_eq_some_iff.mp hp
      rw [if_pos (hseen field)] at hp
      cases hp

theorem install_nil {entries : List Credential}
    (h : Registry.install {} entries = Registry.install {} []) : entries = [] := by
  have hentries := congrArg (fun x : Registry × List ℕ => x.1.entries) h
  cases entries with
  | nil => rfl
  | cons c entries => cases hentries

theorem parseFile_eq (bytes : List UInt8) (readError : Bool) (now : ℕ → ℤ) :
    parseFile bytes readError now = ((fgets 1024 bytes []).foldlM (parseLine now) {}).bind fun s =>
      if readError ∨ !s.versionSeen then none else s.flush now := by
  unfold parseFile
  refine Option.bind_congr fun s _ => ?_
  dsimp only
  split <;> rfl

/-- A file of nothing but the version, and some text. -/
theorem parseFile_needs
    (h : parseFile (ascii "version=1" ++ 10 :: (text ++ 10 :: [])) false now = some []) :
    ∀ p ∈ fgets 1024 (text ++ [10]) [], passedOver p := by
  have hbefore : (fgets 1024 (ascii "version=1" ++ [10]) []).foldlM (parseLine now) {} =
      some { versionSeen := true } := rfl
  rw [parseFile_eq, foldlM_fgets, hbefore, Option.bind_some] at h
  obtain ⟨t, ht, h⟩ := Option.bind_eq_some_iff.mp h
  obtain ⟨t', ht', hend⟩ := Option.bind_eq_some_iff.mp ht
  cases hend
  refine (parse_later ht' rfl (Bool.eq_false_iff.mpr fun hin => ?_)).2
  -- a section that is still open is appended, or nothing is
  split at h
  · cases h
  · rw [FileState.flush, if_pos hin, Registry.appendCredential] at h
    split at h
    · cases h
    · simp at h

theorem configLoad_eq (bytes : List UInt8) (readError : Bool) :
    configLoad bytes readError = ((fgets 256 bytes []).foldlM configLine {}).bind fun s =>
      if readError ∨ .version ∉ s.seen ∨ .hostReserve ∉ s.seen ∨ .maxOpportunistic ∉ s.seen ∨
        .maxCommitted ∉ s.seen ∨ !s.parsed.valid then none else some s.parsed := rfl

/-- A configuration with every field. -/
def wholeConfig : List UInt8 :=
  ascii "version=1\nhost_reserve_gib=1\nmax_opportunistic_gib=1\nmax_committed_gib=1"

theorem configLoad_needs (h : (configLoad (wholeConfig ++ 10 :: (text ++ 10 :: [])) false).isSome) :
    ∀ p ∈ fgets 256 (text ++ [10]) [], passedOver p := by
  obtain ⟨s, hs, hseen⟩ : ∃ s, (fgets 256 (wholeConfig ++ [10]) []).foldlM configLine {} = some s ∧
      ∀ field, field ∈ s.seen := by
    refine ⟨_, rfl, fun field => ?_⟩
    cases field <;> decide
  rw [configLoad_eq, foldlM_fgets, hs, Option.bind_some] at h
  obtain ⟨c, hc⟩ := Option.isSome_iff_exists.mp h
  obtain ⟨t, ht, -⟩ := Option.bind_eq_some_iff.mp hc
  obtain ⟨t', ht', -⟩ := Option.bind_eq_some_iff.mp ht
  exact config_later hseen ht'

/-! ### Comments that fit the buffer -/

/-- A line, without its end, whose first character after blanks is that of a comment. -/
def CommentLine (text : List UInt8) : Prop :=
  10 ∉ text ∧ ∃ blanks c rest, text = blanks ++ c :: rest ∧ (∀ b ∈ blanks, b = 32 ∨ b = 9) ∧
    (c = 35 ∨ c = 59)

theorem fgets_line :
    ∀ {text piece : List UInt8}, 10 ∉ text → piece.length + text.length + 2 ≤ size →
    fgets size (text ++ [10]) piece = [piece.reverse ++ text ++ [10]]
  | [], piece, _, _ => by simp [fgets]
  | b :: text, piece, hn, hlen => by
    rw [List.length_cons] at hlen
    rw [List.mem_cons, not_or] at hn
    rw [List.cons_append, fgets, if_neg (not_or.mpr ⟨Ne.symm hn.1, by omega⟩),
      fgets_line hn.2 (by rw [List.length_cons]; omega)]
    simp

/-- The first character that is not blank stays the first. -/
theorem head?_trim {c : UInt8} (hc : c = 35 ∨ c = 59) (rest : List UInt8) : ∀ {blanks : List UInt8},
    (∀ b ∈ blanks, b = 32 ∨ b = 9) → (trim (blanks ++ c :: rest)).head? = some c
  | [], _ => by
    have hfront : ([] ++ c :: rest).dropWhile (fun b => b = 32 || b = 9) = c :: rest := by
      rcases hc with rfl | rfl <;> rfl
    rw [trim, hfront, List.reverse_cons, List.dropWhile_append]
    split
    · rcases hc with rfl | rfl <;> rfl
    · rw [List.reverse_append]
      rfl
  | b :: blanks, hb => by
    rw [List.forall_mem_cons] at hb
    have hskip : trim (b :: blanks ++ c :: rest) = trim (blanks ++ c :: rest) := by
      rcases hb.1 with rfl | rfl <;> rfl
    rw [hskip]
    exact head?_trim hc rest hb.2

theorem takeWhile_blanks {c : UInt8} (hc : c = 35 ∨ c = 59) (rest : List UInt8) : ∀ {blanks : List UInt8},
    (∀ b ∈ blanks, b = 32 ∨ b = 9) →
    (blanks ++ c :: rest).takeWhile (· ≠ 0) = blanks ++ c :: rest.takeWhile (· ≠ 0)
  | [], _ => by rcases hc with rfl | rfl <;> rfl
  | b :: blanks, hb => by
    rw [List.forall_mem_cons] at hb
    rw [List.cons_append, List.cons_append, ← takeWhile_blanks hc rest hb.2]
    rcases hb.1 with rfl | rfl <;> rfl

/-- A comment that fits the buffer is passed over. -/
theorem comment_pieces (hc : CommentLine text) (hlen : text.length + 2 ≤ size) :
    ∀ p ∈ fgets size (text ++ [10]) [], passedOver p := by
  obtain ⟨hn, blanks, c, rest, rfl, hb, hcc⟩ := hc
  rw [fgets_line hn (by simpa using hlen)]
  refine List.forall_mem_singleton.mpr (.inr ?_)
  have hhead := head?_trim hcc ((rest ++ [10]).takeWhile (· ≠ 0)) hb
  rw [← takeWhile_blanks hcc (rest ++ [10]) hb] at hhead
  rw [pieceText, List.reverse_nil, List.nil_append, List.append_assoc, List.cons_append, hhead]
  exact hcc.imp (congrArg some) (congrArg some)

/-- **When a comment has no effect.** A text can be inserted between any two lines of any file,
without an effect on what is loaded, exactly when every piece that `fgets` reads of it is blank or a
comment. Comments that fit the buffer are such texts. -/
theorem comments_ignored_iff (text : List UInt8) :
    ((∀ (r : Registry) (before after : List UInt8) (readError : Bool) (now : ℕ → ℤ),
        r.loadFile (some (before ++ 10 :: (text ++ 10 :: after))) readError now =
          r.loadFile (some (before ++ 10 :: after)) readError now) ↔
      ∀ p ∈ fgets 1024 (text ++ [10]) [], passedOver p) ∧
    ((∀ (before after : List UInt8) (readError : Bool),
        configLoad (before ++ 10 :: (text ++ 10 :: after)) readError =
          configLoad (before ++ 10 :: after) readError) ↔
      ∀ p ∈ fgets 256 (text ++ [10]) [], passedOver p) ∧
    (CommentLine text → ∀ size, text.length + 2 ≤ size →
      ∀ p ∈ fgets size (text ++ [10]) [], passedOver p) := by
  refine ⟨⟨fun h => ?_, fun h r before after readError now => ?_⟩,
    ⟨fun h => ?_, fun h before after readError => ?_⟩, fun hc size hlen => comment_pieces hc hlen⟩
  · have hload := h {} (ascii "version=1") [] false fun _ => 0
    have hplain : Registry.loadFile {} (some (ascii "version=1" ++ 10 :: [])) false (fun _ => 0) =
        .ok (Registry.install {} []) := rfl
    rw [hplain, Registry.loadFile] at hload
    split at hload
    · cases hload
    · rename_i entries hparse
      rw [install_nil (Except.ok.inj hload)] at hparse
      exact parseFile_needs hparse
  · have hparse : parseFile (before ++ 10 :: (text ++ 10 :: after)) readError now =
        parseFile (before ++ 10 :: after) readError now := by
      rw [parseFile_eq, parseFile_eq, foldlM_inserted fun p hp => parseLine_passedOver (h p hp)]
    rw [Registry.loadFile, Registry.loadFile, hparse]
  · have hload := h wholeConfig [] false
    refine configLoad_needs ?_
    rw [hload]
    rfl
  · rw [configLoad_eq, configLoad_eq, foldlM_inserted fun p hp => configLine_passedOver (h p hp)]

/-- A comment of 256 characters. -/
def longComment : List UInt8 := 35 :: List.replicate 255 120

/-- The last of them is read as a line of its own, and the configuration is refused. -/
theorem long_comment_read :
    CommentLine longComment ∧ (configLoad (wholeConfig ++ 10 :: []) false).isSome = true ∧
    configLoad (wholeConfig ++ 10 :: (longComment ++ 10 :: [])) false = none := by
  refine ⟨⟨fun h => ?_, [], 35, _, rfl, nofun, .inl rfl⟩, by decide +kernel, ?_⟩
  · rcases List.mem_cons.mp h with h | h
    · cases h
    · cases (List.mem_replicate.mp h).2
  · rw [← Option.not_isSome_iff_eq_none]
    decide +kernel

end Provider
end Infiniswap

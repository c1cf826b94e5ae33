/-
# Which sectors are valid

The validity bitmap is what the history of the device's leases says it is. A
run is logged newest event first: the commit of a chunk's mapping, a write
lease acquired, a write lease resolved. A sector of an assigned chunk is valid
exactly if, since the commit of the chunk, the latest logged event that covers
it on a lease of the chunk's present generation is a resolution with success.

The bitmap itself is read and written word by word, through masks
(`validityApply`); what its loop amounts to, bit by bit, comes first.
-/
import Infiniswap.RemoteChunk.Represented

namespace Infiniswap
namespace RemoteChunk

open ChunkModule Transition

/-! ### The loop over the words -/

variable {l : IoLease} {s a : ℕ} {outcome : IoOutcome} {w w' : World} {c : Call} {r : Reply}
  {log : List ValidityEvent}

/-- `enum is_remote_chunk_validity_operation`. -/
inductive ValidityOperation
  | test | clear | set

/-- The loop of `is_remote_chunk_validity_apply` over the words that are left. -/
def validityLoop (firstSector lastSector : ℕ) (operation : ValidityOperation) :
    List ℕ → Bitmap bitsPerWord → Bool × Bitmap bitsPerWord
  | [], validity => (true, validity)
  | word :: words, validity =>
    let mask := Bitmap.wordMask bitsPerWord firstSector lastSector word
    match operation with
    | .test =>
      if validity word &&& mask ≠ mask then (false, validity)
      else validityLoop firstSector lastSector operation words validity
    | .set =>
      validityLoop firstSector lastSector operation words
        (Function.update validity word (validity word ||| mask))
    | .clear =>
      validityLoop firstSector lastSector operation words
        (Function.update validity word (validity word &&& ~~~mask))

/-- `is_remote_chunk_validity_apply`. Its `u64` sums do not wrap: a range ends within the bitmap,
which has at most `maxChunks * sectorsPerChunk = 2 ^ 28` bits. -/
def validityApply (validity : Bitmap bitsPerWord) (firstSector sectorCount : ℕ)
    (operation : ValidityOperation) : Bool × Bitmap bitsPerWord :=
  let lastSector := firstSector + sectorCount
  let firstWord := firstSector / bitsPerWord
  let lastWord := (lastSector - 1) / bitsPerWord
  validityLoop firstSector lastSector operation
    (List.range' firstWord (lastWord + 1 - firstWord)) validity

section Loop

variable (first last : ℕ)

/-- Setting and clearing touch each word of the loop once, through its mask. -/
theorem validityLoop_update (valid : Bool) {words : List ℕ} (hnodup : words.Nodup)
    (v : Bitmap bitsPerWord) :
    validityLoop first last (if valid then .set else .clear) words v =
      (true, fun word => if word ∈ words then
        if valid then v word ||| Bitmap.wordMask bitsPerWord first last word
        else v word &&& ~~~Bitmap.wordMask bitsPerWord first last word
      else v word) := by
  induction words generalizing v with
  | nil => simp [validityLoop]
  | cons word words ih =>
    obtain ⟨hnew, hnodup⟩ := List.nodup_cons.mp hnodup
    have hstep : validityLoop first last (if valid then .set else .clear) (word :: words) v =
        validityLoop first last (if valid then .set else .clear) words (Function.update v word
          (if valid then v word ||| Bitmap.wordMask bitsPerWord first last word
            else v word &&& ~~~Bitmap.wordMask bitsPerWord first last word)) := by
      cases valid <;> rfl
    rw [hstep, ih hnodup]
    refine congrArg _ (funext fun other => ?_)
    by_cases ho : other = word
    · subst ho
      simp [hnew]
    · simp [ho]

/-- Testing stops at the first word that misses a bit of its mask, and writes nothing. -/
theorem validityLoop_test (words : List ℕ) (v : Bitmap bitsPerWord) :
    validityLoop first last .test words v = (words.all fun word =>
      v word &&& Bitmap.wordMask bitsPerWord first last word ==
        Bitmap.wordMask bitsPerWord first last word, v) := by
  induction words with
  | nil => rfl
  | cons word words ih =>
    rw [validityLoop, List.all_cons]
    split
    · rename_i hmiss
      rw [beq_false_of_ne hmiss, Bool.false_and]
    · rename_i hall
      rw [ih, beq_iff_eq.mpr (not_not.mp hall), Bool.true_and]

end Loop

/-- The loop updates and tests ranges as the module's bitmap is updated and tested. -/
theorem validityApply_eq (v : Bitmap bitsPerWord) (first count : ℕ) :
    (∀ valid, validityApply v first count (if valid then .set else .clear) =
      (true, v.updateRange first count valid)) ∧
      validityApply v first count .test = (v.testRange first count, v) := by
  refine ⟨fun valid => ?_, validityLoop_test _ _ _ _⟩
  rw [validityApply, validityLoop_update _ _ _ List.nodup_range']
  refine congrArg _ (funext fun word => if_congr ?_ rfl rfl)
  rw [List.mem_range'_1]
  omega

/-- **The loop works bit by bit**: it sets or clears exactly the bits of the range, and its test is
true exactly if all of them are set. -/
theorem validityApply_bitwise (v : Bitmap bitsPerWord) (first count : ℕ) (hcount : 1 ≤ count) :
    (∀ s, (validityApply v first count .set).2.get s =
      if first ≤ s ∧ s ≤ first + count - 1 then true else v.get s) ∧
    (∀ s, (validityApply v first count .clear).2.get s =
      if first ≤ s ∧ s ≤ first + count - 1 then false else v.get s) ∧
    ((validityApply v first count .test).1 = true ↔ ∀ s, first ≤ s → s ≤ first + count - 1 →
      v.get s = true) ∧
    (validityApply v first count .test).2 = v := by
  obtain ⟨hupdate, htest⟩ := validityApply_eq v first count
  have hset := hupdate true
  have hclear := hupdate false
  have hlast (s : ℕ) : s ≤ first + count - 1 ↔ s < first + count := by omega
  have hwidth : 0 < bitsPerWord := by decide
  simp only [if_true] at hset
  simp only [Bool.false_eq_true, if_false] at hclear
  simp only [hset, hclear, htest, hlast]
  exact ⟨Bitmap.get_updateRange hwidth v first count true, Bitmap.get_updateRange hwidth v first
    count false, Bitmap.testRange_iff hwidth v first count, trivial⟩

/-- A range that lies in two words. -/
theorem validityApply_bitwise_across : (validityApply (fun _ => 0) 60 8 .set).2.get 63 = true ∧
    (validityApply (fun _ => 0) 60 8 .set).2.get 64 = true ∧
    (validityApply (fun _ => 0) 60 8 .set).2.get 68 = false := by
  obtain ⟨hset, -⟩ := validityApply_bitwise (fun _ => 0) 60 8 (by decide)
  exact ⟨hset 63, hset 64, hset 68⟩

/-! ### The history of a sector -/

/-- An event that decides which sectors are valid. -/
inductive ValidityEvent
  | committed (chunk : ℕ)
  | acquired (lease : IoLease)
  | resolved (lease : IoLease) (outcome : IoOutcome)

namespace ValidityEvent

/-- The event commits the mapping of chunk `k`. -/
def commits (k : ℕ) : ValidityEvent → Bool
  | committed j => j = k
  | acquired _ | resolved _ _ => false

/-- The event is on a lease of the generation and covers sector `s`. -/
def covers (generation s : ℕ) : ValidityEvent → Bool
  | committed _ => false
  | acquired l | resolved l _ =>
    l.mappingGeneration = generation && l.sector ≤ s && s < l.sector + l.sectorCount

theorem covers_acquired {generation : ℕ} : (acquired l).covers generation s = true ↔
    l.mappingGeneration = generation ∧ l.sector ≤ s ∧ s < l.sector + l.sectorCount := by
  simp [covers, and_assoc]

theorem covers_resolved {generation : ℕ} :
    (resolved l outcome).covers generation s = true ↔
      l.mappingGeneration = generation ∧ l.sector ≤ s ∧ s < l.sector + l.sectorCount := covers_acquired

end ValidityEvent

/-- The events of a call that replied `r`. -/
def callEvents (w : World) (c : Call) (r : Reply) (w' : World) : List ValidityEvent :=
  match c, r with
  | .mappingFinish _ _ _ grants, .finished .committed =>
    (grantList grants).map fun g => .committed g.logicalChunk
  | .leaseAcquire request a, .leased (.ok _) =>
    if request.direction = .write then [.acquired (w'.leases a)] else []
  | .leaseResolve a outcome, .resolved (.ok _) =>
    if (w.leases a).direction = .write then [.resolved (w.leases a) outcome] else []
  | _, _ => []

/-- The events of a step of a run. -/
def validityEvents (w : World) (c : Call) (w' : World) : List ValidityEvent :=
  match w.call c with
  | none => []
  | some (r, _) => callEvents w c r w'

/-- The runs of the module with their logs. -/
def loggedSystem : System (World × List ValidityEvent) Call := chunkSystem.logged validityEvents

/-- The latest event since the commit of chunk `k` that covers sector `s` on a
lease of the generation. -/
def lastWrite (log : List ValidityEvent) (k generation s : ℕ) : Option ValidityEvent :=
  (log.takeWhile fun e => !e.commits k).find? fun e => e.covers generation s

theorem lastWrite_cons (e : ValidityEvent) (log : List ValidityEvent) (k generation s : ℕ) :
    lastWrite (e :: log) k generation s =
      if e.commits k then none else if e.covers generation s then some e
        else lastWrite log k generation s := by
  unfold lastWrite
  cases hc : e.commits k with
  | true => simp [hc]
  | false => cases hv : e.covers generation s <;> simp [hc, hv]

/-- The bitmap agrees with the log. -/
def ValidLog (w : World) (log : List ValidityEvent) : Prop :=
  ∀ k < w.module.chunkCount, (w.module.chunks k).assigned → ∀ s, s / sectorsPerChunk = k →
    (w.module.sectorValid s = true ↔
      ∃ l, lastWrite log k (w.module.chunks k).mappingGeneration s = some (.resolved l .success))

/-! ### The events of a call -/

theorem callEvents_refused (hr : r.succeeded = false) :
    callEvents w c r w' = [] := by
  unfold callEvents
  split
  · cases hr
  · cases hr
  · cases hr
  · rfl

theorem callEvents_query (hc : c.query = true) :
    callEvents w c r w' = [] := by
  unfold callEvents
  split
  · cases hc
  · cases hc
  · cases hc
  · rfl

/-- A control call logs nothing but the commit of a chunk that held no capacity. -/
theorem callEvents_control (hI : WorldInv w) (h : Does w c r w') (hcell : c.cell = none) :
    callEvents w c r w' = [] ∨
      ∃ k, callEvents w c r w' = [.committed k] ∧ ¬ (w.module.chunks k).assigned := by
  cases h with
  | refused hr hm => exact .inl (callEvents_refused hr)
  | answered hc => exact .inl (callEvents_query hc)
  | committed _ hact hc hs hg =>
    obtain ⟨k, g, hk, rfl, hgk, -⟩ := commit_grant hI.module hact hc hs hg
    refine .inr ⟨g.logicalChunk, rfl, ?_⟩
    rw [hgk]
    exact not_assigned_of_mapping ((hk.mapping k hk.lt).mpr rfl)
  | leased | resolved | released | written => cases hcell
  | _ => exact .inl rfl

/-! ### One call -/

theorem ValidLog.congr (h : ValidLog w log) (hn : w'.module.chunkCount = w.module.chunkCount)
    (hc : ∀ i, (w'.module.chunks i).mappingGeneration = (w.module.chunks i).mappingGeneration ∧
      (w'.module.chunks i).state = (w.module.chunks i).state)
    (hv : ∀ s, w'.module.sectorValid s = w.module.sectorValid s) : ValidLog w' log := by
  intro k hk ha s hs
  rw [hv, (hc k).1]
  exact h k (hn ▸ hk) (by rwa [Chunk.assigned, (hc k).2] at ha) s hs

theorem validLog_control (hI : WorldInv w) (hd : Does w c r w') (hcell : c.cell = none)
    (hn : w'.module.chunkCount = w.module.chunkCount) (h : ValidLog w log) :
    ValidLog w' (callEvents w c r w' ++ log) := by
  intro k hk ha s hs
  rcases hd.kept hI hcell (hn ▸ hk) ha with hkept | ⟨claim, g, rfl, rfl, rfl, hinvalid⟩
  · have hsame := h k (hn ▸ hk) hkept.assigned s hs
    rw [hkept.valid s hs, hkept.generation]
    rcases callEvents_control hI hd hcell with he | ⟨j, he, hj⟩
    · rw [he]
      exact hsame
    · have hne : j ≠ k := fun hjk => hj (hjk ▸ hkept.assigned)
      rw [he, List.cons_append, lastWrite_cons, if_neg (by simpa [ValidityEvent.commits] using hne)]
      exact hsame
  · rw [hinvalid s hs]
    simp [callEvents, grantList, lastWrite_cons, ValidityEvent.commits]

theorem validLog_leased {request : IoRequest} {k : ℕ} {t : TransportMapping}
    (hk : w.module.requestChunk request = .ok k) (h : ValidLog w log) :
    ValidLog (w.setLease (w.module.grantLease request k) a (w.module.newIoLease request a k))
      (callEvents w (.leaseAcquire request a) (.leased (.ok t))
        (w.setLease (w.module.grantLease request k) a (w.module.newIoLease request a k)) ++ log) := by
  obtain ⟨-, -, hsec, -, hfit⟩ := requestChunk_ok hk
  have hset := grantLease_chunks (m := w.module) request k
  intro j hj ha s hs
  have hsame :=
    h j hj (by rwa [World.setLease, Chunk.assigned, field_set_same (·.state) hset rfl] at ha) s hs
  rw [World.setLease, grantLease_valid, field_set_same (·.mappingGeneration) hset rfl]
  by_cases hw : request.direction = .write
  · have hcover : ValidityEvent.covers (w.module.chunks j).mappingGeneration s
        (.acquired (w.module.newIoLease request a k)) = true ↔
          request.sector ≤ s ∧ s < request.sector + request.bytes / sectorBytes := by
      rw [ValidityEvent.covers_acquired]
      refine ⟨fun hc => hc.2, fun hc => ⟨?_, hc⟩⟩
      -- a covered sector lies in the leased chunk
      rw [← hs, sector_chunk_eq hfit hc.1 hc.2, hsec]
      rfl
    simp only [callEvents, hw, true_and, if_true, Function.update_self, List.cons_append, List.nil_append,
      lastWrite_cons, ValidityEvent.commits, hcover]
    split
    · simp
    · simpa using hsame
  · simp only [callEvents, hw, false_and, if_false, List.nil_append]
    exact hsame

theorem validLog_resolved (hI : WorldInv w) {res : IoResolveResult}
    (ho : w.module.Own a (w.leases a)) (h : ValidLog w log) :
    ValidLog (w.setLease (w.module.resolveValidity (w.leases a) outcome) a l)
      (callEvents w (.leaseResolve a outcome) (.resolved (.ok res))
        (w.setLease (w.module.resolveValidity (w.leases a) outcome) a l) ++ log) := by
  have hok := hI.leases.ok a ho
  have hchunks : (w.module.resolveValidity (w.leases a) outcome).chunks = w.module.chunks := by
    rw [resolveValidity_eq]
  intro j hj ha s hs
  rw [World.setLease, hchunks] at ha
  have hsame := h j (by rwa [World.setLease, resolveValidity_eq] at hj) ha s hs
  rw [World.setLease, resolveValidity_valid, hchunks]
  by_cases hw : (w.leases a).direction = .write
  · have hcover : ValidityEvent.covers (w.module.chunks j).mappingGeneration s
        (.resolved (w.leases a) outcome) = true ↔
          (w.module.chunks (w.leases a).logicalChunk).mappingGeneration = (w.leases a).mappingGeneration ∧
            (w.leases a).sector ≤ s ∧ s < (w.leases a).sector + (w.leases a).sectorCount := by
      rw [ValidityEvent.covers_resolved]
      refine and_congr_left fun hc => ?_
      rw [← hs, sector_chunk_eq hok.fits hc.1 hc.2, hok.sector]
      exact eq_comm
    simp only [callEvents, hw, true_and, if_true, List.cons_append, List.nil_append, lastWrite_cons,
      ValidityEvent.commits, hcover]
    split
    · simp
    · simpa using hsame
  · simp only [callEvents, hw, false_and, and_false, if_false, List.nil_append]
    exact hsame

/-- **Every call keeps the bitmap and the log in agreement.** -/
theorem validLog_step (hI : WorldInv w) (hd : Does w c r w')
    (hn : w'.module.chunkCount = w.module.chunkCount) (h : ValidLog w log) :
    ValidLog w' (callEvents w c r w' ++ log) := by
  by_cases hcell : c.cell = none
  · exact validLog_control hI hd hcell hn h
  cases hd with
  | refused hr hm =>
    rw [callEvents_refused hr]
    refine h.congr hn (fun i => ?_) fun s => ?_
    · rw [World.setModule, facts_chunks hm]
      exact ⟨rfl, rfl⟩
    · rw [World.setModule, sectorValid, facts_validSectors hm]
      rfl
  | leased hk => exact validLog_leased hk h
  | resolved ho hr => exact validLog_resolved hI ho h
  | @released a =>
    have hset := dropLease_chunks (m := w.module) (w.leases a).logicalChunk
    exact h.congr rfl
      (fun i => ⟨field_set_same (·.mappingGeneration) hset rfl, field_set_same (·.state) hset rfl⟩)
      fun _ => rfl
  | written => exact h.congr rfl (fun _ => ⟨rfl, rfl⟩) fun _ => rfl
  | answered hc =>
    rw [callEvents_query hc]
    exact h
  | _ => exact absurd rfl hcell

/-! ### Whole runs -/

theorem fresh_validLog (h : w.Fresh) : ValidLog w [] :=
  fun k _ ha => absurd ha (fresh_unassigned h k)

/-- The run lemma: the bitmap agrees with the log of every run. -/
theorem validLog_run (h : loggedSystem.Reachable (w, log)) :
    chunkSystem.Reachable w ∧ ValidLog w log := by
  refine System.logged_invariant (I := ValidLog) (fun _ => fresh_validLog) ?_ h
  intro w log c w' hw hlog hs
  have hI := world_inv hw
  obtain ⟨r, hcall, hd⟩ := step_does hI hs
  rw [validityEvents, hcall]
  exact validLog_step hI hd (call_config hI hcall).1 hlog

/-- A resolution that finds another generation on its chunk leaves the bitmap alone. -/
theorem resolve_stale_valid (hI : WorldInv w)
    (hold : (w.module.chunks (w.leases a).logicalChunk).mappingGeneration ≠
      (w.leases a).mappingGeneration) (h : w.call (.leaseResolve a outcome) = some (r, w'))
    (s : ℕ) : w'.module.sectorValid s = w.module.sectorValid s := by
  cases call_does hI h with
  | refused _ hm =>
    rw [World.setModule, sectorValid, facts_validSectors hm]
    rfl
  | answered => rfl
  | resolved => rw [World.setLease, resolveValidity_valid, if_neg fun hc => hold hc.1]

/-- A granted read lease covers valid sectors only. -/
theorem read_lease_valid {request : IoRequest} {t : TransportMapping} (hI : WorldInv w)
    (hread : request.direction = .read)
    (h : w.call (.leaseAcquire request a) = some (.leased (.ok t), w')) (h1 : request.sector ≤ s)
    (h2 : s < request.sector + request.bytes / sectorBytes) :
    w.module.sectorValid s = true := by
  cases call_does hI h with
  | refused hr | answered hr => cases hr
  | leased _ _ _ _ hv => exact (validityTest_iff _ _ _).mp (hv hread) s h1 h2

/-- **Exact sector validity.** In every run a sector of the device is valid exactly if its chunk holds
capacity and, since the commit of the chunk, the latest acquisition or resolution of a write lease of
the present generation that covers it is a resolution with success. Resolutions under an older
generation change no bit, and a read lease is granted over valid sectors only. -/
theorem sectorValid_exact {w : World} {log : List ValidityEvent} (h : loggedSystem.Reachable (w, log)) :
    (∀ s < w.module.chunkCount * sectorsPerChunk, w.module.sectorValid s = true ↔
      (w.module.chunks (s / sectorsPerChunk)).assigned ∧
        ∃ l, lastWrite log (s / sectorsPerChunk)
          (w.module.chunks (s / sectorsPerChunk)).mappingGeneration s = some (.resolved l .success)) ∧
    (∀ a outcome r w',
      (w.module.chunks (w.leases a).logicalChunk).mappingGeneration ≠ (w.leases a).mappingGeneration →
      w.call (.leaseResolve a outcome) = some (r, w') →
      ∀ s, w'.module.sectorValid s = w.module.sectorValid s) ∧
    (∀ request a t w', request.direction = .read →
      w.call (.leaseAcquire request a) = some (.leased (.ok t), w') →
      ∀ s, request.sector ≤ s → s < request.sector + request.bytes / sectorBytes →
        w.module.sectorValid s = true) := by
  obtain ⟨hw, hlog⟩ := validLog_run h
  have hI := world_inv hw
  refine ⟨fun s hs => ?_, fun a outcome r w' hold hcall => resolve_stale_valid hI hold hcall,
    fun request a t w' hread hcall s h1 h2 => read_lease_valid hI hread hcall h1 h2⟩
  have hk : s / sectorsPerChunk < w.module.chunkCount := Nat.div_lt_of_lt_mul (by rwa [Nat.mul_comm])
  constructor
  · intro hv
    obtain ⟨-, ha⟩ := hI.module.valid s hv
    exact ⟨ha, (hlog _ hk ha s rfl).mp hv⟩
  · rintro ⟨ha, hlast⟩
    exact (hlog _ hk ha s rfl).mpr hlast

/-- A chunk mapped, a write of its first sector leased and resolved with success. -/
theorem sectorValid_exact_written : ∃ w log, loggedSystem.Reachable (w, log) ∧
    w.module.sectorValid 0 = true ∧
      ∃ l, lastWrite log 0 (w.module.chunks 0).mappingGeneration 0 = some (.resolved l .success) := by
  obtain ⟨⟨w, log⟩, hx, hn, hv⟩ : ∃ x, loggedSystem.exec (oneChunkWorld, []) (oneChunkCalls ++
      [.leaseAcquire sectorWrite 1, .leaseResolve 1 .success]) = some x ∧ x.1.module.chunkCount = 1 ∧
      x.1.module.sectorValid 0 = true := ⟨_, rfl, by decide⟩
  have hreach : loggedSystem.Reachable (w, log) :=
    System.reachable_of_exec (.init (s := (oneChunkWorld, [])) ⟨oneChunkWorld_fresh, rfl⟩) hx
  have hs : 0 < w.module.chunkCount * sectorsPerChunk := by
    rw [show w.module.chunkCount = 1 from hn]; decide
  exact ⟨w, log, hreach, hv, (((sectorValid_exact hreach).1 0 hs).mp hv).2⟩

end RemoteChunk
end Infiniswap

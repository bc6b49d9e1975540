import Mathlib.Data.Finset.Card
import Mathlib.Data.Finset.Image
import Mathlib.Data.Finset.Range
import Mathlib.Data.List.Nodup
import Mathlib.Data.UInt
import AddMessenger.ByteStrings
import AddMessenger.Mealy
import AddMessenger.Slices

/-!
# Braid key exchange

The chunked exchange of an encapsulation key (`protocol/src/braid.rs`). Chunks
come from an untrusted peer: `addChunk` checks the number of a chunk against the
total claimed by that same chunk, and counts completion against the total
claimed by the first one. The hash is a parameter, nothing is assumed of it.
-/

namespace Braid

open ByteStrings Mealy Slices

structure BraidChunk where
  chunkNum : UInt32
  totalChunks : UInt32
  ekHash : Bytes
  seed : Bytes
  payload : Bytes
  deriving DecidableEq, Repr

structure BraidHandshake where
  totalChunks : UInt32
  receivedChunks : List BraidChunk
  seenChunks : Finset UInt32
  ekHash : Bytes
  complete : Bool
  deriving DecidableEq

def chunkSize : Nat := 64

def maxTotalChunks : UInt32 := 64

theorem chunkSize_pos : 0 < chunkSize := by decide

def new : BraidHandshake where
  totalChunks := 0
  receivedChunks := []
  seenChunks := ∅
  ekHash := List.replicate 64 0
  complete := false

/-- The first chunk fixes the expected total and hash. -/
def expectFirst (h : BraidHandshake) (chunk : BraidChunk) : BraidHandshake :=
  if h.totalChunks = 0 then
    { h with totalChunks := chunk.totalChunks, ekHash := chunk.ekHash }
  else h

/-- Keep an accepted chunk and recompute completion. -/
def accept (h : BraidHandshake) (chunk : BraidChunk) : BraidHandshake :=
  let received := h.receivedChunks ++ [chunk]
  { h with
    seenChunks := insert chunk.chunkNum h.seenChunks
    receivedChunks := received
    complete := if received.length = h.totalChunks.toNat then true else h.complete }

def addChunk (h : BraidHandshake) (chunk : BraidChunk) :
    Except String Bool × BraidHandshake :=
  if chunk.chunkNum ≥ chunk.totalChunks then
    (.error s!"chunk_num {chunk.chunkNum} >= total_chunks {chunk.totalChunks}", h)
  else if chunk.totalChunks = 0 ∨ chunk.totalChunks > maxTotalChunks then
    (.error s!"total_chunks {chunk.totalChunks} out of allowed range (1..={maxTotalChunks})", h)
  else
    let h := expectFirst h chunk
    if h.ekHash ≠ chunk.ekHash then (.error "ek_hash mismatch", h)
    else if chunk.chunkNum ∈ h.seenChunks then (.error "duplicate chunk", h)
    else
      let h := accept h chunk
      (.ok h.complete, h)

/-- Write one received chunk at its position, unless it does not fit. -/
def copyChunk (key : Bytes) (chunk : BraidChunk) : Bytes :=
  let start := chunk.chunkNum.toNat * chunkSize
  let stop := start + min chunk.payload.length chunkSize
  if stop ≤ key.length then overwrite key start (chunk.payload.take (stop - start)) else key

def reconstructEncKey (h : BraidHandshake) (keyLen : Nat) : Bytes :=
  h.receivedChunks.foldl copyChunk (List.replicate keyLen 0)

def splitKeyToChunks (sha512 : Bytes → Bytes) (key : Bytes) : List BraidChunk :=
  (chunks chunkSize key).mapIdx fun i chunk =>
    { chunkNum := UInt32.ofNat i
      totalChunks := UInt32.ofNat (blockCount chunkSize key.length)
      ekHash := sha512 key
      seed := key.take (min 32 key.length)
      payload := chunk }

/-- The checks a chunk passes before it is kept. -/
def Admitted (h : BraidHandshake) (chunk : BraidChunk) : Prop :=
  chunk.chunkNum < chunk.totalChunks ∧ chunk.totalChunks ≤ maxTotalChunks ∧
    (h.totalChunks = 0 ∨ h.ekHash = chunk.ekHash) ∧ chunk.chunkNum ∉ h.seenChunks

instance (h : BraidHandshake) (chunk : BraidChunk) : Decidable (Admitted h chunk) := by
  unfold Admitted; infer_instance

@[simp] theorem expectFirst_seenChunks (h : BraidHandshake) (chunk : BraidChunk) :
    (expectFirst h chunk).seenChunks = h.seenChunks := by
  unfold expectFirst; split <;> rfl

@[simp] theorem expectFirst_receivedChunks (h : BraidHandshake) (chunk : BraidChunk) :
    (expectFirst h chunk).receivedChunks = h.receivedChunks := by
  unfold expectFirst; split <;> rfl

@[simp] theorem expectFirst_complete (h : BraidHandshake) (chunk : BraidChunk) :
    (expectFirst h chunk).complete = h.complete := by
  unfold expectFirst; split <;> rfl

theorem expectFirst_ekHash (h : BraidHandshake) (chunk : BraidChunk) :
    (expectFirst h chunk).ekHash = chunk.ekHash ↔
      h.totalChunks = 0 ∨ h.ekHash = chunk.ekHash := by
  by_cases first : h.totalChunks = 0 <;> simp [expectFirst, first]

theorem expectFirst_totalChunks (h : BraidHandshake) (chunk : BraidChunk) :
    (expectFirst h chunk).totalChunks =
      if h.totalChunks = 0 then chunk.totalChunks else h.totalChunks := by
  unfold expectFirst; split <;> rfl

theorem expectFirst_of_started {h : BraidHandshake} (started : h.totalChunks ≠ 0)
    (chunk : BraidChunk) : expectFirst h chunk = h := if_neg started

theorem ne_zero_of_lt {a b : UInt32} (less : a < b) : b ≠ 0 := by
  rintro rfl
  exact absurd less (by simp [UInt32.lt_iff_toNat_lt])

theorem addChunk_admitted {h : BraidHandshake} {chunk : BraidChunk}
    (admitted : Admitted h chunk) :
    addChunk h chunk =
      (.ok (accept (expectFirst h chunk) chunk).complete, accept (expectFirst h chunk) chunk) := by
  obtain ⟨below, capped, hash, fresh⟩ := admitted
  have inRange : ¬ (chunk.totalChunks = 0 ∨ chunk.totalChunks > maxTotalChunks) := by
    rintro (zero | excess)
    · exact ne_zero_of_lt below zero
    · exact absurd capped (UInt32.not_le.mpr excess)
  have sameHash : ¬ (expectFirst h chunk).ekHash ≠ chunk.ekHash :=
    not_not.mpr ((expectFirst_ekHash h chunk).mpr hash)
  simp only [addChunk, ge_iff_le, if_neg (UInt32.not_le.mpr below), if_neg inRange,
    if_neg sameHash, expectFirst_seenChunks, if_neg fresh]

/-- A refused chunk changes nothing, unless it would be the first one of a
handshake that already saw its number; no run reaches such a state. -/
theorem addChunk_refused {h : BraidHandshake} (fresh : h.totalChunks = 0 → h.seenChunks = ∅)
    {chunk : BraidChunk} (refused : ¬ Admitted h chunk) :
    ∃ e, addChunk h chunk = (.error e, h) := by
  unfold addChunk
  split
  · exact ⟨_, rfl⟩
  rename_i below
  split
  · exact ⟨_, rfl⟩
  rename_i range
  dsimp only
  by_cases hash : (expectFirst h chunk).ekHash = chunk.ekHash
  · by_cases seen : chunk.chunkNum ∈ h.seenChunks
    · have started : h.totalChunks ≠ 0 := fun zero => by simp [fresh zero] at seen
      rw [if_neg (not_not.mpr hash), if_pos (by simpa using seen)]
      exact ⟨_, by rw [expectFirst_of_started started]⟩
    · have capped : chunk.totalChunks ≤ maxTotalChunks :=
        UInt32.not_lt.mp fun excess => range (Or.inr excess)
      exact False.elim (refused ⟨UInt32.not_le.mp below, capped,
        (expectFirst_ekHash h chunk).mp hash, seen⟩)
  · have started : h.totalChunks ≠ 0 := fun zero =>
      hash ((expectFirst_ekHash h chunk).mpr (Or.inl zero))
    rw [if_pos hash]
    exact ⟨_, by rw [expectFirst_of_started started]⟩

def chunkNums (h : BraidHandshake) : List Nat :=
  h.receivedChunks.map fun chunk => chunk.chunkNum.toNat

/-- What every reachable state keeps, whatever the peer sends. -/
structure Reachable (h : BraidHandshake) : Prop where
  seen : ∀ n : UInt32, n ∈ h.seenChunks ↔ n.toNat ∈ chunkNums h
  distinct : (chunkNums h).Nodup
  unstarted : h.totalChunks = 0 → h.receivedChunks = [] ∧ h.complete = false
  capped : h.totalChunks.toNat ≤ 64
  pending : h.totalChunks ≠ 0 → h.complete = false →
    h.receivedChunks.length < h.totalChunks.toNat
  counted : h.complete = true → h.totalChunks.toNat ≤ h.receivedChunks.length

theorem new_reachable : Reachable new := by
  constructor <;> simp [new, chunkNums]

theorem Reachable.seen_empty {h : BraidHandshake} (hr : Reachable h)
    (zero : h.totalChunks = 0) : h.seenChunks = ∅ := by
  apply Finset.eq_empty_of_forall_notMem
  intro n hn
  have := (hr.seen n).mp hn
  simp [chunkNums, (hr.unstarted zero).1] at this

theorem toNat_pos {n : UInt32} (nonzero : n ≠ 0) : 0 < n.toNat := by
  apply Nat.pos_of_ne_zero
  intro zero
  exact nonzero (UInt32.toNat_inj.mp zero)

theorem expectFirst_started {h : BraidHandshake} {chunk : BraidChunk}
    (admitted : Admitted h chunk) : (expectFirst h chunk).totalChunks ≠ 0 := by
  rw [expectFirst_totalChunks]
  split
  · exact ne_zero_of_lt admitted.1
  · assumption

theorem expectFirst_reachable {h : BraidHandshake} (hr : Reachable h) {chunk : BraidChunk}
    (admitted : Admitted h chunk) : Reachable (expectFirst h chunk) := by
  by_cases zero : h.totalChunks = 0
  · obtain ⟨none, open'⟩ := hr.unstarted zero
    have total : (expectFirst h chunk).totalChunks = chunk.totalChunks := by
      rw [expectFirst_totalChunks, if_pos zero]
    have nonzero := ne_zero_of_lt admitted.1
    constructor
    · simpa [chunkNums] using hr.seen
    · simpa [chunkNums] using hr.distinct
    · intro hz; exact absurd (total.symm.trans hz) nonzero
    · rw [total]; exact UInt32.le_iff_toNat_le.mp admitted.2.1
    · intro _ _; simpa [none, total] using toNat_pos nonzero
    · intro done; simp [open'] at done
  · rw [expectFirst_of_started zero]
    exact hr

theorem chunkNums_accept (h : BraidHandshake) (chunk : BraidChunk) :
    chunkNums (accept h chunk) = chunkNums h ++ [chunk.chunkNum.toNat] := by
  simp [chunkNums, accept]

theorem accept_reachable {h : BraidHandshake} (hr : Reachable h)
    (started : h.totalChunks ≠ 0) {chunk : BraidChunk}
    (fresh : chunk.chunkNum ∉ h.seenChunks) : Reachable (accept h chunk) := by
  have newNum : chunk.chunkNum.toNat ∉ chunkNums h := fun hm => fresh ((hr.seen _).mpr hm)
  have complete : (accept h chunk).complete =
      if h.receivedChunks.length + 1 = h.totalChunks.toNat then true else h.complete := by
    simp [accept]
  have len : (accept h chunk).receivedChunks.length = h.receivedChunks.length + 1 := by
    simp [accept]
  have total : (accept h chunk).totalChunks = h.totalChunks := rfl
  constructor
  · intro n
    have seen : n ∈ (accept h chunk).seenChunks ↔ n = chunk.chunkNum ∨ n ∈ h.seenChunks :=
      Finset.mem_insert
    rw [seen, chunkNums_accept, List.mem_append, List.mem_singleton, hr.seen n,
      UInt32.toNat_inj, or_comm]
  · rw [chunkNums_accept, List.nodup_append]
    refine ⟨hr.distinct, List.nodup_singleton _, ?_⟩
    rintro a ha b hb rfl
    rw [List.mem_singleton.mp hb] at ha
    exact newNum ha
  · intro zero; exact absurd zero started
  · exact hr.capped
  · intro _ open'
    rw [complete] at open'
    split at open'
    · cases open'
    · have := hr.pending started open'
      rw [len, total]
      omega
  · intro done
    rw [len, total]
    rw [complete] at done
    split at done
    · omega
    · have := hr.counted done
      omega

theorem addChunk_reachable {h : BraidHandshake} (hr : Reachable h) (chunk : BraidChunk) :
    Reachable (addChunk h chunk).2 := by
  by_cases admitted : Admitted h chunk
  · rw [addChunk_admitted admitted]
    exact accept_reachable (expectFirst_reachable hr admitted) (expectFirst_started admitted)
      (by simpa using admitted.2.2.2)
  · obtain ⟨e, he⟩ := addChunk_refused hr.seen_empty admitted
    rw [he]
    exact hr

theorem final_reachable (acts : List BraidChunk) : Reachable (final addChunk new acts) :=
  final_preserved Reachable (fun _ chunk hr => addChunk_reachable hr chunk) new_reachable acts

/-- Nothing beyond the announced total is held, and a complete handshake holds
every block of the key exactly once. -/
def WholeKey (h : BraidHandshake) : Prop :=
  h.receivedChunks.length ≤ h.totalChunks.toNat ∧ h.totalChunks ≤ maxTotalChunks ∧
    (h.complete = true → (chunkNums h).toFinset = Finset.range h.totalChunks.toNat)

instance (h : BraidHandshake) : Decidable (WholeKey h) := by
  unfold WholeKey; infer_instance

/-- A chunk that passes the checks is numbered below the total of the first chunk. -/
def Consistent (h : BraidHandshake) (chunk : BraidChunk) : Prop :=
  Admitted h chunk → h.totalChunks ≠ 0 → chunk.chunkNum < h.totalChunks

/-- All held numbers lie below the total of the first chunk. -/
def Bounded (h : BraidHandshake) : Prop := ∀ n ∈ chunkNums h, n < h.totalChunks.toNat

theorem addChunk_bounded {h : BraidHandshake} (hr : Reachable h) (bounded : Bounded h)
    {chunk : BraidChunk} (consistent : Consistent h chunk) : Bounded (addChunk h chunk).2 := by
  by_cases admitted : Admitted h chunk
  · rw [addChunk_admitted admitted]
    intro n hn
    change n < (expectFirst h chunk).totalChunks.toNat
    rw [chunkNums_accept, List.mem_append, List.mem_singleton] at hn
    rw [expectFirst_totalChunks]
    by_cases zero : h.totalChunks = 0
    · rw [if_pos zero]
      rcases hn with old | rfl
      · simp [chunkNums, (hr.unstarted zero).1] at old
      · exact UInt32.lt_iff_toNat_lt.mp admitted.1
    · rw [if_neg zero]
      rcases hn with old | rfl
      · exact bounded n (by simpa [chunkNums] using old)
      · exact UInt32.lt_iff_toNat_lt.mp (consistent admitted zero)
  · obtain ⟨e, he⟩ := addChunk_refused hr.seen_empty admitted
    rw [he]
    exact bounded

theorem wholeKey_of_bounded {h : BraidHandshake} (hr : Reachable h) (bounded : Bounded h) :
    WholeKey h := by
  have subset : (chunkNums h).toFinset ⊆ Finset.range h.totalChunks.toNat := fun n hn =>
    Finset.mem_range.mpr (bounded n (List.mem_toFinset.mp hn))
  have card : (chunkNums h).toFinset.card = h.receivedChunks.length := by
    rw [List.toFinset_card_of_nodup hr.distinct, chunkNums, List.length_map]
  have fits := Finset.card_le_card subset
  rw [card, Finset.card_range] at fits
  refine ⟨fits, UInt32.le_iff_toNat_le.mpr hr.capped, fun done => ?_⟩
  apply Finset.eq_of_subset_of_card_le subset
  rw [card, Finset.card_range]
  exact hr.counted done

/-- A number outside the announced total stays in the handshake for good. -/
theorem addChunk_overflow {h : BraidHandshake} (hr : Reachable h) (chunk : BraidChunk)
    (excess : h.totalChunks ≠ 0 ∧ ¬ Bounded h) :
    (addChunk h chunk).2.totalChunks ≠ 0 ∧ ¬ Bounded (addChunk h chunk).2 := by
  by_cases admitted : Admitted h chunk
  · rw [addChunk_admitted admitted, expectFirst_of_started excess.1]
    refine ⟨excess.1, fun bounded => excess.2 fun n hn => ?_⟩
    exact bounded n (by rw [chunkNums_accept]; exact List.mem_append_left _ hn)
  · obtain ⟨e, he⟩ := addChunk_refused hr.seen_empty admitted
    rw [he]
    exact excess

theorem inconsistent_overflow {h : BraidHandshake} {chunk : BraidChunk}
    (inconsistent : ¬ Consistent h chunk) :
    (addChunk h chunk).2.totalChunks ≠ 0 ∧ ¬ Bounded (addChunk h chunk).2 := by
  simp only [Consistent, Classical.not_imp] at inconsistent
  obtain ⟨admitted, started, beyond⟩ := inconsistent
  rw [addChunk_admitted admitted, expectFirst_of_started started]
  refine ⟨started, fun bounded => beyond ?_⟩
  exact UInt32.lt_iff_toNat_lt.mpr
    (bounded chunk.chunkNum.toNat (by simp [chunkNums_accept]))

theorem consistent_of_bounded {h : BraidHandshake} (hr : Reachable h) (acts : List BraidChunk)
    (bounded : Bounded (final addChunk h acts)) : Along addChunk Consistent h acts := by
  induction acts generalizing h with
  | nil => trivial
  | cons chunk rest ih =>
    refine ⟨?_, ih (addChunk_reachable hr chunk) bounded⟩
    by_contra inconsistent
    have excess := inconsistent_overflow inconsistent
    have kept := final_preserved (fun g => Reachable g ∧ g.totalChunks ≠ 0 ∧ ¬ Bounded g)
      (fun g c inv => ⟨addChunk_reachable inv.1 c, addChunk_overflow inv.1 c inv.2⟩)
      ⟨addChunk_reachable hr chunk, excess⟩ rest
    exact kept.2.2 bounded

theorem bounded_of_consistent {acts : List BraidChunk}
    (consistent : Along addChunk Consistent new acts) : Bounded (final addChunk new acts) := by
  have inv := final_invariant (fun h => Reachable h ∧ Bounded h)
    (fun h chunk inv ok => ⟨addChunk_reachable inv.1 chunk, addChunk_bounded inv.1 inv.2 ok⟩)
    ⟨new_reachable, by simp [Bounded, chunkNums, new]⟩ consistent
  exact inv.2

/-- Runs of consistent chunks hold the whole key whenever they are complete, in
every state reached. A run that completes without that held an inconsistent chunk. -/
theorem completion_of_consistent_run (acts : List BraidChunk) :
    (Along addChunk Consistent new acts →
      ∀ front, front <+: acts → WholeKey (final addChunk new front)) ∧
    ((final addChunk new acts).complete = true → WholeKey (final addChunk new acts) →
      Along addChunk Consistent new acts) := by
  constructor
  · rintro consistent front ⟨back, rfl⟩
    have frontOk := ((along_append new front back).mp consistent).1
    exact wholeKey_of_bounded (final_reachable front) (bounded_of_consistent frontOk)
  · intro done whole
    apply consistent_of_bounded new_reachable acts
    intro n hn
    have inRange : n ∈ (chunkNums (final addChunk new acts)).toFinset := List.mem_toFinset.mpr hn
    rw [whole.2.2 done] at inRange
    exact Finset.mem_range.mp inRange

private def bareChunk (num total : UInt32) : BraidChunk :=
  ⟨num, total, [1], [2], [3]⟩

/-- Three chunks out of order, with a repetition and one that is refused. -/
private def threeChunks : List BraidChunk :=
  [bareChunk 1 3, bareChunk 0 3, bareChunk 1 3, bareChunk 7 3, bareChunk 2 3]

theorem completion_of_consistent_run_three :
    Along addChunk Consistent new threeChunks ∧ WholeKey (final addChunk new threeChunks) ∧
      (final addChunk new threeChunks).complete = true := by
  have consistent : Along addChunk Consistent new threeChunks := by
    simp only [threeChunks, Along, Consistent]
    decide
  exact ⟨consistent, (completion_of_consistent_run _).1 consistent _ (List.prefix_refl _),
    by decide⟩

/-- Numbers 0 and 5 complete a two-chunk handshake: block 1 never arrived. -/
theorem completion_without_block :
    (final addChunk new [bareChunk 0 2, bareChunk 5 64]).complete = true ∧
      ¬ WholeKey (final addChunk new [bareChunk 0 2, bareChunk 5 64]) := by
  decide

/-- The `i`-th chunk of a key. -/
def keyChunk (sha512 : Bytes → Bytes) (key : Bytes) (i : Nat) : BraidChunk where
  chunkNum := UInt32.ofNat i
  totalChunks := UInt32.ofNat (blockCount chunkSize key.length)
  ekHash := sha512 key
  seed := key.take (min 32 key.length)
  payload := block chunkSize key i

theorem splitKeyToChunks_eq (sha512 : Bytes → Bytes) (key : Bytes) :
    splitKeyToChunks sha512 key =
      (List.range (blockCount chunkSize key.length)).map (keyChunk sha512 key) := by
  apply List.ext_getElem
  · simp [splitKeyToChunks, chunks]
  · intro i h1 h2
    simp [splitKeyToChunks, chunks, keyChunk]

/-- The handshake expects `total` chunks under `hash`, or has seen nothing yet. -/
def Expecting (total : UInt32) (hash : Bytes) (h : BraidHandshake) : Prop :=
  h.totalChunks = 0 ∨ h.totalChunks = total ∧ h.ekHash = hash

/-- One honest chunk: the state keeps expecting the same key, and the answer
says whether all chunks are there. -/
theorem addChunk_honest {total : UInt32} {hash : Bytes} {h : BraidHandshake}
    (hr : Reachable h) (expecting : Expecting total hash h) (capped : total ≤ maxTotalChunks)
    {chunk : BraidChunk} (chunkTotal : chunk.totalChunks = total) (chunkHash : chunk.ekHash = hash)
    (below : chunk.chunkNum < total) (fresh : chunk.chunkNum.toNat ∉ chunkNums h) :
    (addChunk h chunk).1 = .ok (decide (total.toNat ≤ h.receivedChunks.length + 1)) ∧
      Expecting total hash (addChunk h chunk).2 ∧
      (addChunk h chunk).2.receivedChunks = h.receivedChunks ++ [chunk] := by
  have unseen : chunk.chunkNum ∉ h.seenChunks := fun hm => fresh ((hr.seen _).mp hm)
  have admitted : Admitted h chunk := by
    refine ⟨chunkTotal ▸ below, chunkTotal ▸ capped, ?_, unseen⟩
    rcases expecting with zero | ⟨-, same⟩
    · exact Or.inl zero
    · exact Or.inr (same.trans chunkHash.symm)
  have now : (expectFirst h chunk).totalChunks = total := by
    rw [expectFirst_totalChunks]
    rcases expecting with zero | ⟨same, -⟩
    · rw [if_pos zero, chunkTotal]
    · split
      · exact chunkTotal
      · exact same
  have reached := addChunk_reachable hr chunk
  rw [addChunk_admitted admitted] at reached ⊢
  have total' : (accept (expectFirst h chunk) chunk).totalChunks = total := now
  have received : (accept (expectFirst h chunk) chunk).receivedChunks =
      h.receivedChunks ++ [chunk] := by simp [accept]
  refine ⟨?_, Or.inr ⟨total', ?_⟩, received⟩
  · have counted := reached.counted
    have pending := reached.pending
    rw [total', received, List.length_append, List.length_singleton] at counted pending
    cases done : (accept (expectFirst h chunk) chunk).complete with
    | true => simpa using counted done
    | false => simpa using pending (ne_zero_of_lt below) done
  · change (expectFirst h chunk).ekHash = hash
    rw [← chunkHash]
    exact (expectFirst_ekHash h chunk).mpr admitted.2.2.1

/-- Feeding the missing honest chunks answers true exactly at the last one. -/
theorem feed_honest {total : UInt32} {hash : Bytes} (capped : total ≤ maxTotalChunks)
    {h : BraidHandshake} (hr : Reachable h) (expecting : Expecting total hash h)
    (rest : List BraidChunk)
    (honest : ∀ c ∈ rest, c.totalChunks = total ∧ c.ekHash = hash ∧ c.chunkNum < total)
    (distinct : (chunkNums h ++ rest.map fun c => c.chunkNum.toNat).Nodup)
    (missing : h.receivedChunks.length + rest.length = total.toNat) (nonempty : rest ≠ []) :
    outputs addChunk h rest = List.replicate (rest.length - 1) (.ok false) ++ [.ok true] ∧
      (final addChunk h rest).receivedChunks = h.receivedChunks ++ rest := by
  induction rest generalizing h with
  | nil => exact absurd rfl nonempty
  | cons c rest ih =>
    obtain ⟨chunkTotal, chunkHash, below⟩ := honest c List.mem_cons_self
    have fresh : c.chunkNum.toNat ∉ chunkNums h := fun hm =>
      (List.disjoint_of_nodup_append distinct) hm (by simp)
    obtain ⟨answer, expecting', received⟩ :=
      addChunk_honest hr expecting capped chunkTotal chunkHash below fresh
    rw [List.length_cons] at missing
    rcases List.eq_nil_or_concat rest with rfl | ⟨_, _, hrest⟩
    · have last : total.toNat ≤ h.receivedChunks.length + 1 := by
        simp only [List.length_nil] at missing; omega
      exact ⟨by simp [outputs, answer, last], by simp [received]⟩
    · have more : rest ≠ [] := by simp [hrest]
      have positive := List.length_pos_iff.mpr more
      have distinct' : (chunkNums (addChunk h c).2 ++
          rest.map fun c => c.chunkNum.toNat).Nodup := by
        simpa [chunkNums, received] using distinct
      have missing' : (addChunk h c).2.receivedChunks.length + rest.length = total.toNat := by
        rw [received, List.length_append, List.length_singleton]; omega
      have tail := ih (addChunk_reachable hr c) expecting'
        (fun d hd => honest d (List.mem_cons_of_mem c hd)) distinct' missing' more
      have notYet : ¬ total.toNat ≤ h.receivedChunks.length + 1 := by omega
      have count : (c :: rest).length - 1 = (rest.length - 1) + 1 := by
        simp only [List.length_cons]; omega
      refine ⟨?_, ?_⟩
      · rw [outputs, answer, tail.1, count, List.replicate_succ]
        simp [notYet]
      · rw [final_cons, tail.2, received]
        simp

theorem keyChunk_chunkNum (sha512 : Bytes → Bytes) (key : Bytes) {i : Nat} (small : i < 2 ^ 32) :
    (keyChunk sha512 key i).chunkNum.toNat = i := by
  simpa [keyChunk] using Nat.mod_eq_of_lt small

theorem copyChunk_keyChunk (sha512 : Bytes → Bytes) (key acc : Bytes)
    (same : acc.length = key.length) {i : Nat}
    (small : i < 2 ^ 32) (inside : i < blockCount chunkSize key.length) :
    copyChunk acc (keyChunk sha512 key i) =
      overwrite acc (chunkSize * i) (block chunkSize key i) := by
  have start := mul_lt_of_lt_blockCount chunkSize_pos inside
  have len := block_length chunkSize key i
  have num := keyChunk_chunkNum sha512 key small
  have payload : (keyChunk sha512 key i).payload = block chunkSize key i := rfl
  have short : (block chunkSize key i).length ≤ chunkSize := by omega
  have comm := Nat.mul_comm i chunkSize
  rw [copyChunk, num, payload, min_eq_left short, comm,
    if_pos (by omega), Nat.add_sub_cancel_left, List.take_length]

theorem reconstruct_keyChunks (sha512 : Bytes → Bytes) (key acc : Bytes)
    (same : acc.length = key.length) (ids : List Nat)
    (inside : ∀ i ∈ ids, i < 2 ^ 32 ∧ i < blockCount chunkSize key.length) :
    (ids.map (keyChunk sha512 key)).foldl copyChunk acc = placeBlocks chunkSize key acc ids := by
  induction ids generalizing acc with
  | nil => rfl
  | cons i rest ih =>
    obtain ⟨small, bound⟩ := inside i List.mem_cons_self
    have start := mul_lt_of_lt_blockCount chunkSize_pos bound
    have len := block_length chunkSize key i
    rw [List.map_cons, List.foldl_cons, copyChunk_keyChunk sha512 key acc same small bound]
    exact ih _ ((overwrite_length acc _ _ (by omega)).trans same)
      (fun j hj => inside j (List.mem_cons_of_mem i hj))

/-- The numbers of the arrived chunks, in order of arrival, say which chunks they are. -/
theorem arrived_numbers (sha512 : Bytes → Bytes) (key : Bytes) {n : Nat} (small : n ≤ 2 ^ 32)
    {arrived : List BraidChunk}
    (order : arrived.Perm ((List.range n).map (keyChunk sha512 key))) :
    (arrived.map fun c => c.chunkNum.toNat).Perm (List.range n) ∧
      arrived = (arrived.map fun c => c.chunkNum.toNat).map (keyChunk sha512 key) := by
  have number : ∀ i ∈ List.range n, (keyChunk sha512 key i).chunkNum.toNat = i := by
    intro i member
    exact keyChunk_chunkNum sha512 key ((List.mem_range.mp member).trans_le small)
  constructor
  · have mapped := order.map fun c => c.chunkNum.toNat
    have identity : (List.range n).map ((fun c => c.chunkNum.toNat) ∘ keyChunk sha512 key) =
        (List.range n).map id := List.map_congr_left number
    rwa [List.map_map, identity, List.map_id] at mapped
  · rw [List.map_map]
    conv_lhs => rw [← List.map_id arrived]
    apply List.map_congr_left
    intro c arrives
    obtain ⟨i, member, rfl⟩ := List.mem_map.mp (order.mem_iff.mp arrives)
    simp only [Function.comp, number i member, id]

/-- Every key of at most 4096 bytes survives the braid in any order of arrival. -/
theorem permuted_chunks_reassemble (sha512 : Bytes → Bytes) (key : Bytes)
    (nonempty : 1 ≤ key.length) (capped : key.length ≤ 4096) (arrived : List BraidChunk)
    (order : arrived.Perm (splitKeyToChunks sha512 key)) :
    outputs addChunk new arrived =
        List.replicate (arrived.length - 1) (.ok false) ++ [.ok true] ∧
      reconstructEncKey (final addChunk new arrived) key.length = key := by
  have count : blockCount chunkSize key.length ≤ 64 := by
    rw [blockCount, chunkSize]; omega
  have positive : 0 < blockCount chunkSize key.length := by
    rw [blockCount, chunkSize]; omega
  let total := UInt32.ofNat (blockCount chunkSize key.length)
  have totalNat : total.toNat = blockCount chunkSize key.length := by
    simp only [total, UInt32.toNat_ofNat']
    exact Nat.mod_eq_of_lt (by omega)
  rw [splitKeyToChunks_eq] at order
  obtain ⟨idsOrder, arrivedIds⟩ := arrived_numbers sha512 key (by omega) order
  have inside : ∀ i ∈ arrived.map fun c => c.chunkNum.toNat,
      i < 2 ^ 32 ∧ i < blockCount chunkSize key.length := by
    intro i member
    have := List.mem_range.mp (idsOrder.mem_iff.mp member)
    exact ⟨by omega, this⟩
  have honest : ∀ c ∈ arrived,
      c.totalChunks = total ∧ c.ekHash = sha512 key ∧ c.chunkNum < total := by
    intro c arrives
    have below := (inside _ (List.mem_map_of_mem arrives)).2
    obtain ⟨i, -, rfl⟩ := List.mem_map.mp (order.mem_iff.mp arrives)
    exact ⟨rfl, rfl, UInt32.lt_iff_toNat_lt.mpr (totalNat ▸ below)⟩
  have lengths : arrived.length = blockCount chunkSize key.length := by
    simpa using order.length_eq
  have totalCapped : total ≤ maxTotalChunks :=
    UInt32.le_iff_toNat_le.mpr (by rw [totalNat]; exact count)
  obtain ⟨answers, received⟩ := feed_honest totalCapped new_reachable (Or.inl rfl)
    arrived honest (by simpa [chunkNums, new] using idsOrder.nodup_iff.mpr List.nodup_range)
    (by simpa [new, totalNat] using lengths) (List.length_pos_iff.mp (by omega))
  refine ⟨answers, ?_⟩
  rw [reconstructEncKey, received]
  change arrived.foldl copyChunk (List.replicate key.length 0) = key
  rw [arrivedIds, reconstruct_keyChunks sha512 key _ (by simp) _ inside]
  exact placeBlocks_perm chunkSize_pos key _ (by simp) idsOrder

private def restKey : Bytes := List.replicate 65 42

private def restKeyHash : Bytes :=
  [238, 210, 42, 113, 206, 112, 229, 136, 89, 42, 44, 192, 72, 3, 59, 73, 253, 112, 209, 54,
    114, 35, 88, 17, 153, 72, 213, 76, 191, 198, 142, 211, 100, 18, 18, 236, 65, 94, 7, 142,
    89, 163, 190, 227, 42, 215, 23, 195, 153, 163, 173, 112, 9, 51, 117, 253, 80, 13, 3, 157,
    220, 246, 68, 235]

/-- A full and a one-byte chunk, delivered last first. -/
theorem permuted_chunks_reassemble_reversed :
    outputs addChunk new (splitKeyToChunks (fun _ => restKeyHash) restKey).reverse =
        [.ok false, .ok true] ∧
      reconstructEncKey (final addChunk new
        (splitKeyToChunks (fun _ => restKeyHash) restKey).reverse) 65 = restKey :=
  permuted_chunks_reassemble (fun _ => restKeyHash) restKey (by decide) (by decide) _
    (List.reverse_perm _)

end Braid

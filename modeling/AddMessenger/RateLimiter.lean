import Mathlib
import AddMessenger.Mealy
import AddMessenger.SlidingWindow
import AddMessenger.Tables

/-!
# The rate limiter of the DHT

`RateLimiter` of `dht-core/src/ratelimit.rs`: for each key the recent operations it was allowed,
in at most `maxBuckets` buckets. A clock reading is an exact number and an argument of the
operation that makes it. A hash map lists its keys in an order of its own; an operation that
takes the first of them is given its place.
-/

namespace RateLimiting

open Mealy SlidingWindow Tables

abbrev Buckets := AList fun _ : String => List ℚ

structure RateLimiter where
  max : ℕ
  window : ℚ
  maxBuckets : ℕ
  buckets : Buckets

inductive Operation where
  | allow (key : String) (now : ℚ) (place : ℕ)
  | prune (now : ℚ)

def Operation.now : Operation → ℚ
  | .allow _ now _ => now
  | .prune now => now

namespace RateLimiter

def new (maxPerWindow : ℕ) (windowSec : ℚ) : RateLimiter where
  max := maxPerWindow
  window := windowSec
  maxBuckets := 100000
  buckets := ∅

/-- The first key the map lists. -/
def firstKey (rl : RateLimiter) (place : ℕ) : Option String :=
  rl.buckets.keys[place % rl.buckets.keys.length]?

/-- All buckets are taken, and `key` has none. -/
def crowded (rl : RateLimiter) (key : String) : Bool :=
  rl.maxBuckets ≤ rl.buckets.entries.length ∧ key ∉ rl.buckets

/-- The bucket that goes before `key` gets one. -/
def oldest (rl : RateLimiter) (key : String) (place : ℕ) : Option String :=
  if rl.crowded key then rl.firstKey place else none

def evict (rl : RateLimiter) (key : String) (place : ℕ) : Buckets :=
  match rl.oldest key place with
  | none => rl.buckets
  | some oldest => rl.buckets.erase oldest

def allow (rl : RateLimiter) (key : String) (now : ℚ) (place : ℕ) : Bool × RateLimiter :=
  let cutoff := now - rl.window
  let buckets := rl.evict key place
  let entries := ((buckets.lookup key).getD []).filter (cutoff ≤ ·)
  if entries.length ≥ rl.max then (false, { rl with buckets := buckets.insert key entries })
  else (true, { rl with buckets := buckets.insert key (entries ++ [now]) })

/-- One round of `start_background_prune` does the same. -/
def prune (rl : RateLimiter) (now : ℚ) : RateLimiter :=
  let cutoff := now - rl.window
  { rl with
    buckets := keep (fun e => !e.2.isEmpty)
      (mapValues (fun _ entries => entries.filter (cutoff ≤ ·)) rl.buckets) }

def bucket (rl : RateLimiter) (key : String) : List ℚ := (rl.buckets.lookup key).getD []

end RateLimiter

open RateLimiter

def step (rl : RateLimiter) : Operation → Option Bool × RateLimiter
  | .allow key now place => (rl.allow key now place).map some id
  | .prune now => (none, rl.prune now)

/-- The time at which an operation was allowed for `key`. -/
def allowedAt (key : String) : Operation × Option Bool → Option ℚ
  | (.allow key' now _, some true) => if key' = key then some now else none
  | _ => none

/-- The times at which `key` was allowed in a run. -/
def allowedTimes (key : String) (rl : RateLimiter) (ops : List Operation) : List ℚ :=
  (ops.zip (outputs step rl ops)).filterMap (allowedAt key)

/-- The latest operation of one bucket is not newer than that of another. -/
def NotNewer (a b : List ℚ) : Prop := ∀ t ∈ a, ∃ t' ∈ b, t ≤ t'

/-- A bucket that is gone after a call of `allow` is not newer than any that is still there. -/
def EvictsOldest (rl : RateLimiter) : Operation → Prop
  | .allow key now place =>
    ∀ gone ∈ rl.buckets, gone ∉ (rl.allow key now place).2.buckets →
      ∀ kept ∈ rl.buckets, kept ∈ (rl.allow key now place).2.buckets →
        NotNewer (rl.bucket gone) (rl.bucket kept)
  | .prune _ => True

/-- When a bucket has to go and `key` has one, another key has an older one. -/
def StaysActive (key : String) (rl : RateLimiter) : Operation → Prop
  | .allow asking _ _ => rl.crowded asking = true → key ∈ rl.buckets →
    ∃ other ∈ rl.buckets, ¬ NotNewer (rl.bucket key) (rl.bucket other)
  | .prune _ => True

/-- What the limiter promises of a run. -/
structure Limits (rl : RateLimiter) (ops : List Operation) : Prop where
  capped : ∀ front back, ops = front ++ back →
    (final step rl front).buckets.entries.length ≤ rl.maxBuckets
  evictsOldest : Along step EvictsOldest rl ops
  bounded : ∀ key, Along step (StaysActive key) rl ops →
    Bounded rl.max rl.window (allowedTimes key rl ops)

/-- When a bucket has to go, the first key the map lists has one that is not newer than any. -/
def ListsOldestFirst (rl : RateLimiter) : Operation → Prop
  | .allow key _ place => rl.crowded key = true → ∀ first, rl.firstKey place = some first →
    ∀ other ∈ rl.buckets, NotNewer (rl.bucket first) (rl.bucket other)
  | .prune _ => True

/-- The operation costs `key` its bucket. -/
def Evicts (key : String) (rl : RateLimiter) : Operation → Prop
  | .allow asking _ place => rl.oldest asking place = some key
  | .prune _ => False

section

variable {rl : RateLimiter} {key k : String} {now : ℚ} {place : ℕ} {op : Operation}

theorem oldest_eq_some :
    rl.oldest key place = some k ↔ rl.crowded key = true ∧ rl.firstKey place = some k := by
  rw [oldest, Option.ite_none_right_eq_some]

/-- Only a key without a bucket costs another one its own. -/
theorem oldest_mem (evicts : rl.oldest key place = some k) : k ∈ rl.buckets ∧ key ∉ rl.buckets := by
  obtain ⟨crowded, lists⟩ := oldest_eq_some.mp evicts
  exact ⟨AList.mem_keys.mpr (List.mem_of_getElem? lists), (of_decide_eq_true crowded).2⟩

theorem evict_of_none (nothing : rl.oldest key place = none) : rl.evict key place = rl.buckets := by
  rw [evict, nothing]

theorem evict_of_some (evicts : rl.oldest key place = some k) :
    rl.evict key place = rl.buckets.erase k := by
  rw [evict, evicts]

theorem lookup_evict :
    (rl.evict key place).lookup k =
      if rl.oldest key place = some k then none else rl.buckets.lookup k := by
  cases evicts : rl.oldest key place with
  | none =>
    rw [evict_of_none evicts]
    rfl
  | some first =>
    rw [evict_of_some evicts]
    by_cases same : first = k
    · rw [same, if_pos rfl, AList.lookup_erase]
    · rw [if_neg fun both => same (Option.some.inj both), AList.lookup_erase_ne (Ne.symm same)]

/-- The key that asks keeps its bucket. -/
theorem lookup_evict_self : (rl.evict key place).lookup key = rl.buckets.lookup key := by
  rw [lookup_evict]
  refine if_neg fun evicts => ?_
  obtain ⟨member, missing⟩ := oldest_mem evicts
  exact missing member

theorem allow_eq (rl : RateLimiter) (key : String) (now : ℚ) (place : ℕ) :
    rl.allow key now place =
      (decide ((recent rl.window now (rl.bucket key)).length < rl.max),
        { rl with
          buckets := (rl.evict key place).insert key
            (if (recent rl.window now (rl.bucket key)).length < rl.max then
              recent rl.window now (rl.bucket key) ++ [now]
            else recent rl.window now (rl.bucket key)) }) := by
  simp only [allow, lookup_evict_self]
  change (if (recent rl.window now (rl.bucket key)).length ≥ rl.max then _ else _) = _
  split
  · rename_i full
    rw [decide_eq_false (not_lt.mpr full), if_neg (not_lt.mpr full)]
    rfl
  · rename_i room
    rw [decide_eq_true (not_le.mp room), if_pos (not_le.mp room)]
    rfl

@[simp] theorem step_max : (step rl op).2.max = rl.max := by
  cases op with
  | allow key now place => simp [step, allow_eq]
  | prune now => rfl

@[simp] theorem step_window : (step rl op).2.window = rl.window := by
  cases op with
  | allow key now place => simp [step, allow_eq]
  | prune now => rfl

@[simp] theorem step_maxBuckets : (step rl op).2.maxBuckets = rl.maxBuckets := by
  cases op with
  | allow key now place => simp [step, allow_eq]
  | prune now => rfl

theorem bucket_prune : (rl.prune now).bucket k = recent rl.window now (rl.bucket k) := by
  simp only [bucket, prune, lookup_keep, lookup_mapValues]
  cases rl.buckets.lookup k with
  | none => rfl
  | some entries =>
    change (Option.filter (fun e => !e.isEmpty) (some (recent rl.window now entries))).getD [] =
      recent rl.window now entries
    cases recent rl.window now entries with
    | nil => rfl
    | cons t rest => rfl

theorem bucket_allow :
    (rl.allow key now place).2.bucket k =
      if k = key then
        if (recent rl.window now (rl.bucket key)).length < rl.max then
          recent rl.window now (rl.bucket key) ++ [now]
        else recent rl.window now (rl.bucket key)
      else if rl.oldest key place = some k then [] else rl.bucket k := by
  rw [allow_eq]
  by_cases same : k = key
  · rw [same, if_pos rfl, bucket, AList.lookup_insert, Option.getD_some]
  · rw [if_neg same, bucket, AList.lookup_insert_ne same, lookup_evict, bucket]
    split <;> rfl

theorem mem_allow :
    k ∈ (rl.allow key now place).2.buckets ↔
      k = key ∨ k ∈ rl.buckets ∧ rl.oldest key place ≠ some k := by
  rw [allow_eq, AList.mem_insert, ← AList.lookup_isSome, lookup_evict, ← AList.lookup_isSome]
  by_cases evicts : rl.oldest key place = some k
  · simp [evicts]
  · simp [evicts]

/-- What is gone after a call of `allow` has been evicted. -/
theorem gone_iff (member : k ∈ rl.buckets) :
    k ∉ (rl.allow key now place).2.buckets ↔ rl.oldest key place = some k := by
  rw [mem_allow, not_or, and_iff_right member, not_not]
  constructor
  · exact fun gone => gone.2
  · rintro evicts
    refine ⟨?_, evicts⟩
    rintro rfl
    exact (oldest_mem evicts).2 member

theorem notNewer_self (a : List ℚ) : NotNewer a a := fun t member => ⟨t, member, le_refl t⟩

/-- The order of the map decides which bucket goes. -/
theorem evictsOldest_iff : EvictsOldest rl op ↔ ListsOldestFirst rl op := by
  cases op with
  | prune now => exact Iff.rfl
  | allow key now place =>
    constructor
    · intro evictsOldest crowded first lists other member
      have evicts := oldest_eq_some.mpr ⟨crowded, lists⟩
      have there := (oldest_mem evicts).1
      by_cases same : other = first
      · rw [same]
        exact notNewer_self _
      · refine evictsOldest first there ((gone_iff there).mpr evicts) other member ?_
        refine mem_allow.mpr (.inr ⟨member, fun evicts' => same ?_⟩)
        exact Option.some.inj (evicts'.symm.trans evicts)
    · intro oldestFirst gone there missing kept member _
      obtain ⟨crowded, lists⟩ := oldest_eq_some.mp ((gone_iff there).mp missing)
      exact oldestFirst crowded gone lists kept member

end

section

variable {rl : RateLimiter}

theorem length_keys : rl.buckets.keys.length = rl.buckets.entries.length := List.length_map _

/-- A map that is not empty lists a key first. -/
theorem exists_firstKey (some : 0 < rl.buckets.entries.length) (place : ℕ) :
    ∃ first ∈ rl.buckets, rl.firstKey place = .some first := by
  rw [← length_keys] at some
  have inside := Nat.mod_lt place some
  exact ⟨rl.buckets.keys[place % rl.buckets.keys.length],
    AList.mem_keys.mpr (List.getElem_mem inside), List.getElem?_eq_getElem inside⟩

theorem length_allow_le {key : String} {now : ℚ} {place : ℕ} (positive : 0 < rl.maxBuckets)
    (capped : rl.buckets.entries.length ≤ rl.maxBuckets) :
    (rl.allow key now place).2.buckets.entries.length ≤ rl.maxBuckets := by
  rw [allow_eq, length_insert, lookup_evict_self]
  by_cases known : key ∈ rl.buckets
  · have nothing : rl.oldest key place = none := if_neg fun both => (of_decide_eq_true both).2 known
    rw [if_pos (AList.lookup_isSome.mpr known), evict_of_none nothing]
    exact capped
  · rw [if_neg fun found => known (AList.lookup_isSome.mp found)]
    by_cases full : rl.maxBuckets ≤ rl.buckets.entries.length
    · obtain ⟨first, member, lists⟩ := exists_firstKey (positive.trans_le full) place
      have goes : rl.oldest key place = some first :=
        oldest_eq_some.mpr ⟨decide_eq_true ⟨full, known⟩, lists⟩
      rw [evict_of_some goes, length_erase member]
      exact capped
    · have nothing : rl.oldest key place = none :=
        if_neg fun both => full (of_decide_eq_true both).1
      rw [evict_of_none nothing]
      omega

theorem length_prune_le (now : ℚ) :
    (rl.prune now).buckets.entries.length ≤ rl.buckets.entries.length := by
  refine (List.length_filter_le _ _).trans ?_
  exact (List.length_map _).le

theorem capped_run (positive : 0 < rl.maxBuckets)
    (capped : rl.buckets.entries.length ≤ rl.maxBuckets) (ops : List Operation) :
    (final step rl ops).buckets.entries.length ≤ rl.maxBuckets := by
  have one : ∀ s op, s.maxBuckets = rl.maxBuckets ∧ s.buckets.entries.length ≤ rl.maxBuckets →
      (step s op).2.maxBuckets = rl.maxBuckets ∧
        (step s op).2.buckets.entries.length ≤ rl.maxBuckets := by
    rintro s op ⟨same, within⟩
    refine ⟨step_maxBuckets.trans same, ?_⟩
    rw [← same] at positive within ⊢
    cases op with
    | allow key now place => exact length_allow_le positive within
    | prune now => exact (length_prune_le now).trans within
  exact (final_preserved _ one ⟨rfl, capped⟩ ops).2

end

section

variable {rl : RateLimiter} {key : String} {op : Operation}

theorem allowedAt_of_ne {key' : String} {now : ℚ} {place : ℕ} {answer : Option Bool}
    (differ : key ≠ key') : allowedAt key (.allow key' now place, answer) = none := by
  match answer with
  | none => rfl
  | some false => rfl
  | some true => exact if_neg (Ne.symm differ)

/-- A key that keeps its bucket has in it what it needs to know. -/
theorem stands_step {last : ℚ} {passed : List ℚ}
    (stands : Stands rl.max rl.window last (rl.bucket key) passed) (later : last ≤ op.now)
    (kept : ¬ Evicts key rl op) :
    Stands rl.max rl.window op.now ((step rl op).2.bucket key)
      (passed ++ (allowedAt key (op, (step rl op).1)).toList) := by
  cases op with
  | prune now =>
    change Stands _ _ _ ((rl.prune now).bucket key) (passed ++ [])
    rw [bucket_prune, List.append_nil]
    exact stands.forget later
  | allow key' now place =>
    change Stands _ _ _ ((rl.allow key' now place).2.bucket key) _
    have answer : (step rl (.allow key' now place)).1 =
        some (decide ((recent rl.window now (rl.bucket key')).length < rl.max)) := by
      simp [step, allow_eq]
    rw [bucket_allow, answer]
    by_cases same : key = key'
    · subst same
      rw [if_pos rfl]
      split
      · rename_i room
        rw [decide_eq_true room]
        simp only [allowedAt, if_true, Option.toList_some]
        exact stands.pass later room
      · rename_i full
        rw [decide_eq_false full]
        simp only [allowedAt, Option.toList_none, List.append_nil]
        exact stands.forget later
    · have unevicted : rl.oldest key' place ≠ some key := kept
      rw [if_neg same, if_neg unevicted, allowedAt_of_ne same, Option.toList_none, List.append_nil]
      exact stands.later later

/-- While a key keeps its bucket, it is allowed at most `max` times in any window. -/
theorem stands_run {last : ℚ} {passed : List ℚ} {ops : List Operation}
    (stands : Stands rl.max rl.window last (rl.bucket key) passed)
    (clock : ((last :: ops.map Operation.now)).Pairwise (· ≤ ·))
    (kept : Along step (fun rl op => ¬ Evicts key rl op) rl ops) :
    Bounded rl.max rl.window (passed ++ allowedTimes key rl ops) := by
  induction ops generalizing rl last passed with
  | nil =>
    rw [allowedTimes, List.zip_nil_left, List.filterMap_nil, List.append_nil]
    exact stands.bounded
  | cons op rest ih =>
    obtain ⟨here, later⟩ := kept
    obtain ⟨after, clock⟩ := List.pairwise_cons.mp clock
    have next := stands_step stands (after op.now List.mem_cons_self) here
    rw [← @step_max rl op, ← @step_window rl op] at next
    have run := ih next clock later
    rw [step_max, step_window, List.append_assoc] at run
    have split : allowedTimes key rl (op :: rest) =
        (allowedAt key (op, (step rl op).1)).toList ++ allowedTimes key (step rl op).2 rest := by
      rw [allowedTimes, outputs, List.zip_cons_cons, List.filterMap_cons]
      cases allowedAt key (op, (step rl op).1) <;> rfl
    rwa [split]

end

section

variable {rl : RateLimiter}

theorem bounded_run {key : String} {ops : List Operation} (unknown : rl.bucket key = [])
    (clock : (ops.map Operation.now).Pairwise (· ≤ ·))
    (kept : Along step (fun rl op => ¬ Evicts key rl op) rl ops) :
    Bounded rl.max rl.window (allowedTimes key rl ops) := by
  have none (last : ℚ) : Stands rl.max rl.window last (rl.bucket key) [] := by
    rw [unknown]
    exact stands_nil _ _ last
  cases ops with
  | nil => exact (none 0).bounded
  | cons op rest =>
    refine stands_run (none op.now) (List.pairwise_cons.mpr ⟨?_, clock⟩) kept
    exact List.forall_mem_cons.mpr ⟨le_refl op.now, (List.pairwise_cons.mp clock).1⟩

/-- A key that stays active does not lose its bucket to a map that lists the oldest first. -/
theorem not_evicts {key : String} {op : Operation}
    (both : StaysActive key rl op ∧ ListsOldestFirst rl op) : ¬ Evicts key rl op := by
  intro evicts
  cases op with
  | prune now => exact evicts
  | allow asking now place =>
    obtain ⟨crowded, lists⟩ := oldest_eq_some.mp evicts
    obtain ⟨other, member, newer⟩ := both.1 crowded (oldest_mem evicts).1
    exact newer (both.2 crowded key lists other member)

/-- The limiter keeps what it promises exactly while the map happens to list an oldest key first
whenever a bucket has to go. -/
theorem limits_iff (maxPerWindow : ℕ) (windowSec : ℚ) (ops : List Operation)
    (clock : (ops.map Operation.now).Pairwise (· ≤ ·)) :
    Limits (new maxPerWindow windowSec) ops ↔
      Along step ListsOldestFirst (new maxPerWindow windowSec) ops := by
  have oldest : Along step EvictsOldest (new maxPerWindow windowSec) ops ↔
      Along step ListsOldestFirst (new maxPerWindow windowSec) ops :=
    along_congr (fun _ _ _ => evictsOldest_iff) _
  constructor
  · intro limits
    exact oldest.mp limits.evictsOldest
  · intro oldestFirst
    refine ⟨fun front back _ => ?_, oldest.mpr oldestFirst, fun key active => ?_⟩
    · exact capped_run (Nat.succ_pos 99999) (Nat.zero_le _) front
    · refine bounded_run rfl clock ?_
      exact along_mono (fun rl op => not_evicts) (along_and active oldestFirst)

/-- Two calls for one key, a minute apart. -/
def twoCalls : List Operation := [.allow "203.0.113.7" 0 0, .prune 30, .allow "203.0.113.7" 61 0]

theorem limits_iff_twoCalls : Limits (new 1 60) twoCalls := by
  refine (limits_iff 1 60 twoCalls (by decide +kernel)).mpr ⟨?_, trivial, ?_, trivial⟩
  · intro crowded
    exact absurd crowded (by decide +kernel)
  · intro crowded
    exact absurd crowded (by decide +kernel)

/-- Ten thousand new keys in a second. -/
def arrival (i : ℕ) : Operation := .allow (toString i) (i / 10000) 0

def arrived (i : ℕ) : (_ : String) × List ℚ := ⟨toString i, [(i : ℚ) / 10000]⟩

theorem allow_new {key : String} {now : ℚ} {place : ℕ} (unknown : key ∉ rl.buckets)
    (room : rl.buckets.entries.length < rl.maxBuckets) (positive : 0 < rl.max) :
    (rl.allow key now place).2.buckets.entries = ⟨key, [now]⟩ :: rl.buckets.entries := by
  have nothing : rl.oldest key place = none :=
    if_neg fun both => (of_decide_eq_true both).1.not_gt room
  have empty : rl.bucket key = [] := by rw [bucket, AList.lookup_eq_none.mpr unknown]; rfl
  rw [allow_eq, empty, evict_of_none nothing, AList.entries_insert_of_notMem unknown]
  exact congrArg (fun entries => ⟨key, entries⟩ :: rl.buckets.entries) (if_pos positive)

theorem unknown_arrival {n i : ℕ} (later : n ≤ i)
    (entries : rl.buckets.entries = ((List.range n).map arrived).reverse) :
    toString i ∉ rl.buckets := by
  intro known
  obtain ⟨e, member, same⟩ := List.mem_map.mp (AList.mem_keys.mp known)
  rw [entries, List.mem_reverse, List.mem_map] at member
  obtain ⟨j, earlier, rfl⟩ := member
  exact ((List.mem_range.mp earlier).trans_le later).ne (Nat.repr_injective same)

/-- While there is room, the newest key is listed first. -/
theorem arrivals_entries (positive : 0 < rl.max) (empty : rl.buckets = ∅) (n : ℕ)
    (room : n ≤ rl.maxBuckets) :
    (final step rl ((List.range n).map arrival)).buckets.entries =
      ((List.range n).map arrived).reverse := by
  induction n with
  | zero => rw [List.range_zero, List.map_nil, final_nil, empty]; rfl
  | succ n ih =>
    have before := ih (by omega)
    have kept : (final step rl ((List.range n).map arrival)).max = rl.max ∧
        (final step rl ((List.range n).map arrival)).maxBuckets = rl.maxBuckets :=
      final_preserved (fun s : RateLimiter => s.max = rl.max ∧ s.maxBuckets = rl.maxBuckets)
        (fun _ _ same => ⟨step_max.trans same.1, step_maxBuckets.trans same.2⟩) ⟨rfl, rfl⟩ _
    rw [List.range_succ, List.map_append, List.map_append, final_append, List.reverse_append,
      ← before]
    refine allow_new (unknown_arrival le_rfl before) ?_ (kept.1 ▸ positive)
    rw [kept.2, before, List.length_reverse, List.length_map, List.length_range]
    exact room

/-- The first key for which there is no room costs the newest one its bucket. -/
theorem not_evictsOldest_arrival {n : ℕ} (positive : 0 < rl.max) (empty : rl.buckets = ∅)
    (taken : rl.maxBuckets = n + 2) :
    ¬ EvictsOldest (final step rl ((List.range (n + 2)).map arrival)) (arrival (n + 2)) := by
  have entries := arrivals_entries positive empty (n + 2) taken.ge
  have size : (final step rl ((List.range (n + 2)).map arrival)).maxBuckets = n + 2 :=
    final_preserved (fun s : RateLimiter => s.maxBuckets = n + 2)
      (fun _ _ same => step_maxBuckets.trans same) taken _
  generalize final step rl ((List.range (n + 2)).map arrival) = full at entries size
  have newest : full.buckets.entries =
      arrived (n + 1) :: ((List.range (n + 1)).map arrived).reverse := by
    rw [entries, List.range_succ, List.map_append, List.reverse_append]
    rfl
  have there (i : ℕ) (earlier : i < n + 2) : arrived i ∈ full.buckets.entries := by
    rw [entries, List.mem_reverse]
    exact List.mem_map_of_mem (List.mem_range.mpr earlier)
  have bucket (i : ℕ) (earlier : i < n + 2) : full.bucket (toString i) = [(i : ℚ) / 10000] := by
    rw [RateLimiter.bucket, AList.mem_lookup_iff.mpr (there i earlier)]
    rfl
  have first : full.firstKey 0 = some (toString (n + 1)) := by
    rw [firstKey, Nat.zero_mod, AList.keys, newest]
    rfl
  have crowded : full.crowded (toString (n + 2)) = true := by
    refine decide_eq_true ⟨?_, unknown_arrival le_rfl entries⟩
    rw [size, entries, List.length_reverse, List.length_map, List.length_range]
  intro evictsOldest
  obtain ⟨t, member, le⟩ := evictsOldest_iff.mp evictsOldest crowded _ first (toString 0)
    (AList.mem_keys.mpr (List.mem_map_of_mem (there 0 (by omega)))) (((n + 1 : ℕ) : ℚ) / 10000)
    (by rw [bucket (n + 1) (by omega)]; exact List.mem_singleton_self _)
  rw [bucket 0 (by omega)] at member
  obtain rfl := List.mem_singleton.mp member
  have positive : (0 : ℚ) < ((n + 1 : ℕ) : ℚ) / 10000 := by positivity
  rw [Nat.cast_zero, zero_div] at le
  exact positive.not_ge le

/-- The limiter breaks its promise with the first key too many. -/
theorem not_limits_of_taken {n : ℕ} (positive : 0 < rl.max) (empty : rl.buckets = ∅)
    (taken : rl.maxBuckets = n + 2) : ¬ Limits rl ((List.range (n + 3)).map arrival) := by
  intro limits
  have along := limits.evictsOldest
  rw [List.range_succ, List.map_append, along_append] at along
  exact not_evictsOldest_arrival positive empty taken along.2.1

end

theorem arrivals_clock (n : ℕ) :
    (((List.range n).map arrival).map Operation.now).Pairwise (· ≤ ·) := by
  rw [List.map_map, List.pairwise_map]
  refine List.pairwise_lt_range.imp fun {i j} earlier => ?_
  change (i : ℚ) / 10000 ≤ (j : ℚ) / 10000
  gcongr

theorem not_limits_arrivals :
    (((List.range 100001).map arrival).map Operation.now).Pairwise (· ≤ ·) ∧
      ¬ Limits (new 30 60) ((List.range 100001).map arrival) :=
  ⟨arrivals_clock 100001, @not_limits_of_taken (new 30 60) 99998 (by decide) rfl rfl⟩

end RateLimiting

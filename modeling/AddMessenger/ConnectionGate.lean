import AddMessenger.RateLimiter
import Mathlib.Data.List.MinMax

/-!
# The gate of the relay

The start of `handle_connection` in `relay/src/main.rs` and the task that cleans up behind it:
each address has a limiter of its own in a map of at most `maxPeerLimiters`, the one that was
asked the longest ago goes when there are too many, and one that nobody asked for four minutes
goes at the next cleanup. The two clocks of the code are one here, and a clock reading is an exact
number; among addresses asked at the same time the map lists one first.
-/

namespace ConnectionGate

open Mealy RateLimiting SlidingWindow Tables

def maxPeerLimiters : ℕ := 10000

def peerLimiterCleanupSecs : ℚ := 120

structure Entry where
  limiter : RateLimiter
  lastAccess : ℚ

abbrev Limiters := AList fun _ : String => Entry

inductive Event where
  | connection (ip : String) (now : ℚ) (place : ℕ)
  | cleanup (now : ℚ)

def Event.now : Event → ℚ
  | .connection _ now _ => now
  | .cleanup now => now

/-- Whether the limiter of the address lets it pass, and the map with the access noted. -/
def askLimiter (s : Limiters) (ip : String) (now : ℚ) : Bool × Limiters :=
  let entry := (s.lookup ip).getD ⟨RateLimiter.new 30 60, now⟩
  let (allowed, limiter) := entry.limiter.allow ip now 0
  (allowed, s.insert ip ⟨limiter, now⟩)

/-- The addresses that `min_by_key` may find. -/
def oldestIps (s : Limiters) : List String :=
  (s.entries.filter fun e => s.entries.all fun f => e.2.lastAccess ≤ f.2.lastAccess).keys

/-- The address whose limiter has to go. -/
def oldestIp (s : Limiters) (place : ℕ) : Option String :=
  if maxPeerLimiters < s.entries.length then (oldestIps s)[place % (oldestIps s).length]? else none

def handleConnection (s : Limiters) (ip : String) (now : ℚ) (place : ℕ) : Bool × Limiters :=
  let (allowed, limiters) := askLimiter s ip now
  if allowed then
    match oldestIp limiters place with
    | some oldest => (true, limiters.erase oldest)
    | none => (true, limiters)
  else (false, limiters)

def cleanup (s : Limiters) (now : ℚ) : Limiters :=
  keep (fun e => now - peerLimiterCleanupSecs * 2 < e.2.lastAccess) s

def step (s : Limiters) : Event → Option Bool × Limiters
  | .connection ip now place => (handleConnection s ip now place).map some id
  | .cleanup now => (none, cleanup s now)

/-- The time at which an event let `ip` pass. -/
def acceptedAt (ip : String) : Event × Option Bool → Option ℚ
  | (.connection ip' now _, some true) => if ip' = ip then some now else none
  | _ => none

/-- The times at which `ip` was let pass in a run. -/
def acceptedTimes (ip : String) (s : Limiters) (run : List Event) : List ℚ :=
  (run.zip (outputs step s run)).filterMap (acceptedAt ip)

/-- The event costs `ip` its limiter because there are too many. -/
def Evicts (ip : String) (s : Limiters) : Event → Prop
  | .connection asking now place =>
    (askLimiter s asking now).1 = true ∧ oldestIp (askLimiter s asking now).2 place = some ip
  | .cleanup _ => False

/-- An address that loses its limiter was asked the longest ago. -/
def EvictsOldest (s : Limiters) (e : Event) : Prop :=
  ∀ ip, Evicts ip s e → ∀ entry, s.lookup ip = some entry →
    ∀ other kept, s.lookup other = some kept → entry.lastAccess ≤ kept.lastAccess

/-- What the gate keeps in a run. -/
structure Gated (run : List Event) : Prop where
  capped : ∀ front back, run = front ++ back →
    (final step ∅ front).entries.length ≤ maxPeerLimiters
  evictsOldest : Along step EvictsOldest ∅ run
  bounded : ∀ ip, Along step (fun s e => ¬ Evicts ip s e) ∅ run →
    Bounded 30 60 (acceptedTimes ip ∅ run)

section

variable {s : Limiters} {ip : String} {now : ℚ} {place : ℕ}

theorem mem_oldestIps {k : String} (oldest : k ∈ oldestIps s) :
    ∃ entry, s.lookup k = some entry ∧
      ∀ other kept, s.lookup other = some kept → entry.lastAccess ≤ kept.lastAccess := by
  obtain ⟨e, member, rfl⟩ := List.mem_map.mp oldest
  obtain ⟨there, least⟩ := List.mem_filter.mp member
  refine ⟨e.2, AList.mem_lookup_iff.mpr there, fun other kept found => ?_⟩
  have listed := AList.mem_lookup_iff.mp found
  simpa using List.all_eq_true.mp least _ listed

theorem oldestIps_ne_nil (some_entry : s.entries ≠ []) : oldestIps s ≠ [] := by
  cases least : s.entries.argmin fun e => e.2.lastAccess with
  | none => exact absurd (List.argmin_eq_none.mp least) some_entry
  | some e =>
    have member : e ∈ s.entries := List.argmin_mem least
    have here : e.1 ∈ oldestIps s := by
      apply List.mem_map_of_mem
      refine List.mem_filter.mpr ⟨member, ?_⟩
      simpa using fun f there => List.le_of_mem_argmin there least
    exact List.ne_nil_of_mem here

theorem oldestIp_mem {k : String} (evicts : oldestIp s place = some k) : k ∈ oldestIps s := by
  unfold oldestIp at evicts
  split at evicts
  · exact List.mem_of_getElem? evicts
  · cases evicts

theorem oldestIp_of_full (full : maxPeerLimiters < s.entries.length) (place : ℕ) :
    ∃ k ∈ s, oldestIp s place = some k := by
  have listed := oldestIps_ne_nil (List.ne_nil_of_length_pos (Nat.zero_lt_of_lt full))
  have inside := Nat.mod_lt place (List.length_pos_iff.mpr listed)
  refine ⟨(oldestIps s)[place % (oldestIps s).length], ?_, ?_⟩
  · obtain ⟨entry, found, -⟩ := mem_oldestIps (List.getElem_mem inside)
    exact AList.lookup_isSome.mp (by simp [found])
  · simp only [oldestIp, if_pos full, List.getElem?_eq_getElem inside]

theorem length_askLimiter_le (capped : s.entries.length ≤ maxPeerLimiters) :
    (askLimiter s ip now).2.entries.length ≤ maxPeerLimiters + 1 := by
  simp only [askLimiter, length_insert]
  split <;> omega

/-- A limiter that is new lets its first connection pass. -/
theorem askLimiter_new (unknown : s.lookup ip = none) : (askLimiter s ip now).1 = true := by
  simp [askLimiter, unknown, allow_eq, RateLimiter.new, RateLimiter.bucket, recent]

theorem length_askLimiter_of_known {entry : Entry} (known : s.lookup ip = some entry) :
    (askLimiter s ip now).2.entries.length = s.entries.length := by
  simp only [askLimiter, length_insert, known, Option.isSome_some, if_true]

theorem length_askLimiter_of_refused (capped : s.entries.length ≤ maxPeerLimiters)
    (refused : (askLimiter s ip now).1 = false) :
    (askLimiter s ip now).2.entries.length ≤ maxPeerLimiters := by
  cases known : s.lookup ip with
  | none => simp [askLimiter_new known] at refused
  | some entry => exact (length_askLimiter_of_known known).trans_le capped

theorem capped_step (capped : s.entries.length ≤ maxPeerLimiters) (e : Event) :
    (step s e).2.entries.length ≤ maxPeerLimiters := by
  cases e with
  | cleanup now => exact (List.length_filter_le _ _).trans capped
  | connection ip now place =>
    change (handleConnection s ip now place).2.entries.length ≤ maxPeerLimiters
    unfold handleConnection
    cases admitted : (askLimiter s ip now).1 with
    | false =>
      simp only [admitted, Bool.false_eq_true, if_false]
      exact length_askLimiter_of_refused capped admitted
    | true =>
      have most : (askLimiter s ip now).2.entries.length ≤ maxPeerLimiters + 1 :=
        length_askLimiter_le capped
      by_cases full : maxPeerLimiters < (askLimiter s ip now).2.entries.length
      · obtain ⟨k, known, evicts⟩ := oldestIp_of_full full place
        have fewer := length_erase known
        simp only [admitted, if_true, evicts]
        omega
      · have nothing : oldestIp (askLimiter s ip now).2 place = none := if_neg full
        simp only [admitted, if_true, nothing]
        omega

theorem lookup_askLimiter_ne {k : String} (other : k ≠ ip) :
    (askLimiter s ip now).2.lookup k = s.lookup k :=
  AList.lookup_insert_ne other

/-- Only a connection from a new address costs another one its limiter. -/
theorem evictsOldest_step (capped : s.entries.length ≤ maxPeerLimiters) (e : Event) :
    EvictsOldest s e := by
  intro k evicts entry before other kept found
  cases e with
  | cleanup now => exact evicts.elim
  | connection ip now place =>
    obtain ⟨-, evicts⟩ := evicts
    have unknown : s.lookup ip = none := by
      cases known : s.lookup ip with
      | none => rfl
      | some here =>
        have same : (askLimiter s ip now).2.entries.length = s.entries.length :=
          length_askLimiter_of_known known
        have within : ¬ maxPeerLimiters < (askLimiter s ip now).2.entries.length := by omega
        simp only [oldestIp, if_neg within] at evicts
        cases evicts
    have apart : ∀ {a : String} {e : Entry}, s.lookup a = some e → a ≠ ip := by
      rintro a e there rfl
      rw [unknown] at there
      cases there
    obtain ⟨oldest, listed, least⟩ := mem_oldestIps (oldestIp_mem evicts)
    rw [lookup_askLimiter_ne (apart before), before] at listed
    cases listed
    exact least other kept ((lookup_askLimiter_ne (apart found)).trans found)

end

/-- What the map has of an address stands for all the times it was let pass. -/
structure Watched (ip : String) (last : ℚ) (passed : List ℚ) (s : Limiters) : Prop where
  unknown : s.lookup ip = none → Stands 30 60 last [] passed
  known : ∀ entry, s.lookup ip = some entry → entry.limiter.max = 30 ∧ entry.limiter.window = 60 ∧
    Stands 30 60 last (entry.limiter.bucket ip) passed ∧ entry.lastAccess ≤ last ∧
    ∀ t ∈ passed, t ≤ entry.lastAccess

section

variable {s : Limiters} {ip : String} {last now : ℚ} {passed : List ℚ}

theorem Watched.bounded (watched : Watched ip last passed s) : Bounded 30 60 passed := by
  cases found : s.lookup ip with
  | none => exact (watched.unknown found).bounded
  | some entry => exact (watched.known entry found).2.2.1.bounded

/-- The entry of an address is as it was. -/
theorem Watched.congr {s' : Limiters} (watched : Watched ip last passed s)
    (same : s'.lookup ip = s.lookup ip) (later : last ≤ now) : Watched ip now passed s' where
  unknown gone := (watched.unknown (same.symm.trans gone)).later later
  known entry found := by
    obtain ⟨max, window, stands, access, before⟩ := watched.known entry (same.symm.trans found)
    exact ⟨max, window, stands.later later, access.trans later, before⟩

/-- Nobody asked for longer than a window, so nothing that passed counts any more. -/
theorem Watched.cleanup (watched : Watched ip last passed s) (later : last ≤ now) :
    Watched ip now passed (cleanup s now) := by
  have found := lookup_keep (fun e => decide (now - peerLimiterCleanupSecs * 2 < e.2.lastAccess))
    s ip
  cases entry : s.lookup ip with
  | none => exact watched.congr (by simp [ConnectionGate.cleanup, found, entry]) later
  | some entry' =>
    by_cases recently : now - peerLimiterCleanupSecs * 2 < entry'.lastAccess
    · exact watched.congr (by simp [ConnectionGate.cleanup, found, entry, recently]) later
    · obtain ⟨-, -, stands, access, before⟩ := watched.known entry' entry
      have gone : (ConnectionGate.cleanup s now).lookup ip = none := by
        simpa [ConnectionGate.cleanup, found, entry] using recently
      refine ⟨fun _ => ⟨?_, ?_, stands.bounded⟩, fun _ there => ?_⟩
      · exact fun t member => ((before t member).trans access).trans later
      · intro n still
        refine (List.filter_eq_nil_iff.mpr fun t member => ?_).symm
        have old := before t member
        simp only [peerLimiterCleanupSecs] at recently
        simp only [decide_eq_true_eq, not_le]
        linarith
      · rw [gone] at there
        cases there

theorem lookup_askLimiter_self :
    (askLimiter s ip now).2.lookup ip = some
      ⟨(((s.lookup ip).getD ⟨RateLimiter.new 30 60, now⟩).limiter.allow ip now 0).2, now⟩ :=
  AList.lookup_insert _

/-- A connection of the address itself. -/
theorem Watched.askLimiter (watched : Watched ip last passed s) (later : last ≤ now) :
    Watched ip now (passed ++ if (askLimiter s ip now).1 then [now] else [])
      (askLimiter s ip now).2 := by
  have limiter : ∃ rl : RateLimiter,
      ((s.lookup ip).getD ⟨RateLimiter.new 30 60, now⟩).limiter = rl ∧ rl.max = 30 ∧
        rl.window = 60 ∧ Stands 30 60 last (rl.bucket ip) passed := by
    cases found : s.lookup ip with
    | none => exact ⟨_, rfl, rfl, rfl, watched.unknown found⟩
    | some entry =>
      obtain ⟨max, window, stands, -, -⟩ := watched.known entry found
      exact ⟨_, rfl, max, window, stands⟩
  obtain ⟨rl, same, max, window, stands⟩ := limiter
  have entry : (ConnectionGate.askLimiter s ip now).2.lookup ip = _ := lookup_askLimiter_self
  have answer : (ConnectionGate.askLimiter s ip now).1 = (rl.allow ip now 0).1 := by
    simp [ConnectionGate.askLimiter, same]
  rw [same] at entry
  refine ⟨fun gone => ?_, fun found here => ?_⟩
  · rw [entry] at gone
    cases gone
  · rw [entry] at here
    cases here
    rw [answer]
    have bucket : (rl.allow ip now 0).2.bucket ip = _ := bucket_allow
    rw [if_pos rfl, max, window] at bucket
    have allowed : (rl.allow ip now 0).1 =
        decide ((recent 60 now (rl.bucket ip)).length < 30) := by
      simp [allow_eq, max, window]
    refine ⟨by simp [allow_eq, max], by simp [allow_eq, window], ?_, le_rfl, ?_⟩
    · rw [bucket, allowed]
      by_cases room : (recent 60 now (rl.bucket ip)).length < 30
      · simpa [room] using stands.pass later room
      · simpa [room] using stands.forget later
    · intro t member
      rcases List.mem_append.mp member with old | new
      · exact (stands.before t old).trans later
      · split at new
        · exact (List.mem_singleton.mp new).le
        · cases new

/-- The map after a connection, where `ip` has what the access left it. -/
theorem lookup_handleConnection {asking : String} {place : ℕ}
    (kept : ¬ Evicts ip s (.connection asking now place)) :
    (handleConnection s asking now place).2.lookup ip =
        (ConnectionGate.askLimiter s asking now).2.lookup ip ∧
      (handleConnection s asking now place).1 = (ConnectionGate.askLimiter s asking now).1 := by
  unfold handleConnection
  cases admitted : (ConnectionGate.askLimiter s asking now).1 with
  | false => simp [admitted]
  | true =>
    cases evicts : oldestIp (ConnectionGate.askLimiter s asking now).2 place with
    | none => simp [admitted, evicts]
    | some k =>
      have other : ip ≠ k := by
        rintro rfl
        exact kept ⟨admitted, evicts⟩
      simp [admitted, evicts, AList.lookup_erase_ne other]

theorem watched_step {e : Event} (watched : Watched ip last passed s) (later : last ≤ e.now)
    (kept : ¬ Evicts ip s e) :
    Watched ip e.now (passed ++ (acceptedAt ip (e, (step s e).1)).toList) (step s e).2 := by
  cases e with
  | cleanup now =>
    change Watched ip now (passed ++ []) (cleanup s now)
    rw [List.append_nil]
    exact watched.cleanup later
  | connection asking now place =>
    obtain ⟨found, answer⟩ := lookup_handleConnection kept
    change Watched ip now (passed ++ (acceptedAt ip
      (.connection asking now place, some (handleConnection s asking now place).1)).toList)
      (handleConnection s asking now place).2
    rw [answer]
    by_cases own : asking = ip
    · subst own
      have admitted := watched.askLimiter later
      have times : (acceptedAt asking (.connection asking now place,
          some (ConnectionGate.askLimiter s asking now).1)).toList =
          if (ConnectionGate.askLimiter s asking now).1 then [now] else [] := by
        cases (ConnectionGate.askLimiter s asking now).1 <;> simp [acceptedAt]
      rw [times]
      exact admitted.congr found le_rfl
    · have none : acceptedAt ip (.connection asking now place,
          some (ConnectionGate.askLimiter s asking now).1) = none := by
        cases (ConnectionGate.askLimiter s asking now).1 <;> simp [acceptedAt, own]
      rw [none, Option.toList_none, List.append_nil]
      exact watched.congr (found.trans (lookup_askLimiter_ne (Ne.symm own))) later

/-- The induction is on the run, with what has passed before it. -/
theorem watched_run {run : List Event} (watched : Watched ip last passed s)
    (clock : (last :: run.map Event.now).Pairwise (· ≤ ·))
    (kept : Along step (fun s e => ¬ Evicts ip s e) s run) :
    Bounded 30 60 (passed ++ acceptedTimes ip s run) := by
  induction run generalizing s last passed with
  | nil => simpa [acceptedTimes] using watched.bounded
  | cons e rest ih =>
    obtain ⟨here, later⟩ := kept
    obtain ⟨after, clock⟩ := List.pairwise_cons.mp clock
    have next := watched_step watched (after e.now List.mem_cons_self) here
    have run := ih next clock later
    have split : acceptedTimes ip s (e :: rest) =
        (acceptedAt ip (e, (step s e).1)).toList ++ acceptedTimes ip (step s e).2 rest := by
      rw [acceptedTimes, outputs, List.zip_cons_cons, List.filterMap_cons]
      cases acceptedAt ip (e, (step s e).1) <;> rfl
    rwa [split, ← List.append_assoc]

end

theorem capped_empty : (∅ : Limiters).entries.length ≤ maxPeerLimiters := Nat.zero_le _

/-- In every run the map stays within its bound, an address that loses its limiter is the one
that was asked the longest ago, and an address that keeps it is let pass at most thirty times in
any minute; the cleanup costs it nothing. -/
theorem gate_holds {run : List Event} (clock : (run.map Event.now).Pairwise (· ≤ ·)) :
    Gated run where
  capped front _ _ := by
    apply final_preserved (fun s : Limiters => s.entries.length ≤ maxPeerLimiters) _ capped_empty
    exact fun _ e capped => capped_step capped e
  evictsOldest := by
    have always : Along step (fun _ _ => True) (∅ : Limiters) run :=
      (along_mem _ run).mpr fun _ _ => trivial
    apply along_of_invariant (fun s : Limiters => s.entries.length ≤ maxPeerLimiters) _ _
      capped_empty always
    · exact fun _ e capped _ => capped_step capped e
    · exact fun _ e capped _ => evictsOldest_step capped e
  bounded ip kept := by
    have unknown (last : ℚ) : Watched ip last [] (∅ : Limiters) :=
      ⟨fun _ => stands_nil 30 60 last, fun _ found => by cases found⟩
    cases run with
    | nil => exact (unknown 0).bounded
    | cons e rest =>
      refine watched_run (unknown e.now) (List.pairwise_cons.mpr ⟨?_, clock⟩) kept
      exact List.forall_mem_cons.mpr ⟨le_refl e.now, (List.pairwise_cons.mp clock).1⟩

/-- Two addresses and a cleanup between them. -/
theorem gate_holds_two : Gated [.connection "203.0.113.7" 0 0, .cleanup 240,
    .connection "198.51.100.1" 241 0] :=
  gate_holds (by decide +kernel)

end ConnectionGate

import AddMessenger.Doubles
import AddMessenger.Mealy
import AddMessenger.Protocol
import AddMessenger.Tables

/-!
# The tables of a DHT node

`DhtStore` of `dht-core/src/sqlite_store.rs`: the tables `kv_store` and `nonce_log`, the
statements on them, and `put`, which looks up the nonce and the sequence number and then
writes both tables in a transaction. Each of the three is one step of a call, and calls
run side by side. The clock is an argument: `now_unix` as a double, and the seconds
SQLite notes for a nonce. A statement that fails ends its call.
-/

namespace DhtStore

open Doubles Protocol Tables

/-- A row of `kv_store` under its key. -/
structure KvRow where
  value : String
  salt : String
  seq : Int64
  publisherFp : String
  storedAt : ℚ
  expiresAt : ℚ
  sig : String

/-- The tables; `nonce_log` has the time at which a key and a nonce were recorded. -/
structure Db where
  kvStore : AList fun _ : String => KvRow
  nonceLog : AList fun _ : String × Int64 => Int

def empty : Db := ⟨∅, ∅⟩

/-- The arguments of `put`. -/
structure PutArgs where
  key : String
  value : String
  salt : String
  seq : Int64
  publisherFp : String
  ttl : Int64
  sig : String
  nonce : Int64
  deriving DecidableEq

/-- `now + ttl as f64`. -/
def expires (now : ℚ) (ttl : Int64) : ℚ := nearest (now + nearest ttl.toInt)

namespace Db

variable (db : Db)

def get (key : String) (now : ℚ) : Option KvRow :=
  (db.kvStore.lookup key).filter fun row => now < row.expiresAt

def isNonceSeen (key : String) (nonce : Int64) : Bool := (db.nonceLog.lookup (key, nonce)).isSome

def storedSeq (key : String) : Option Int64 := (db.kvStore.lookup key).map KvRow.seq

def hasKey (key : String) : Bool := (db.kvStore.lookup key).isSome

def countKeys (now : ℚ) : Nat := (db.kvStore.entries.filter fun e => now < e.2.expiresAt).length

/-- `INSERT OR IGNORE` of a nonce. -/
def insertNonce (key : String) (nonce : Int64) (secs : Int) : Db :=
  if db.isNonceSeen key nonce then db
  else { db with nonceLog := db.nonceLog.insert (key, nonce) secs }

@[simp] theorem kvStore_insertNonce (key : String) (nonce : Int64) (secs : Int) :
    (db.insertNonce key nonce secs).kvStore = db.kvStore := by
  rw [insertNonce]
  split <;> rfl

/-- `INSERT OR REPLACE` of a row. -/
def replaceRow (key : String) (row : KvRow) : Db :=
  { db with kvStore := db.kvStore.insert key row }

/-- The transaction of `put`. -/
def commitPut (put : PutArgs) (now : ℚ) (secs : Int) : Db :=
  (db.insertNonce put.key put.nonce secs).replaceRow put.key
    ⟨put.value, put.salt, put.seq, put.publisherFp, now, expires now put.ttl, put.sig⟩

/-- `seq` is the clock in seconds. -/
def putBlob (key value salt publisherFp : String) (ttl : Int64) (sig : String) (now : ℚ)
    (seq : Int64) : Bool × Db :=
  if maxValueSize < value.utf8ByteSize then (false, db)
  else (true, db.replaceRow key ⟨value, salt, seq, publisherFp, now, expires now ttl, sig⟩)

def deleteExpired (now : ℚ) : Db :=
  { db with kvStore := keep (fun e => now < e.2.expiresAt) db.kvStore }

def pruneOldNonces (cutoff : Int) : Db :=
  { db with nonceLog := keep (fun e => cutoff ≤ e.2) db.nonceLog }

end Db

/-- What a call does next; the clock is read before the sequence number is. -/
inductive Phase where
  | nonce
  | seq
  | commit (now : ℚ)

/-- After `is_nonce_seen` a call goes on or returns `Ok(false)`. -/
def afterNonce (db : Db) (put : PutArgs) : Option Phase :=
  if db.isNonceSeen put.key put.nonce then none else some .seq

/-- After the sequence number is read, a call goes on or returns `Ok(false)`. -/
def afterSeq (db : Db) (put : PutArgs) (now : ℚ) : Option Phase :=
  if (db.storedSeq put.key).any fun existing => put.seq ≤ existing then none
  else some (.commit now)

/-- A put that returned `Ok(true)`, with the sequence number that stood under its key. -/
structure Accepted where
  put : PutArgs
  before : Option Int64

/-- The database and the calls under way. The last two fields are history: the puts that
were accepted, latest first, and the nonces that were pruned. -/
structure World where
  db : Db
  calls : Nat → Option (PutArgs × Phase)
  accepted : List Accepted
  pruned : List (String × Int64)

def start : World := ⟨empty, fun _ => none, [], []⟩

inductive Event where
  | call (pid : Nat) (put : PutArgs)
  | isNonceSeen (pid : Nat)
  | readSeq (pid : Nat) (now : ℚ)
  | commit (pid : Nat) (secs : Int)
  | fail (pid : Nat)
  | deleteExpired (now : ℚ)
  | pruneOldNonces (cutoff : Int)

/-- The result of a call that ends; `none` is an error of the database. -/
abbrev Answer := Option (Nat × Option Bool)

def World.set (w : World) (pid : Nat) (call : Option (PutArgs × Phase)) : World :=
  { w with calls := Function.update w.calls pid call }

def step (w : World) : Event → Answer × World
  | .call pid put =>
    match w.calls pid with
    | some _ => (none, w)
    | none =>
      if maxValueSize < put.value.utf8ByteSize then (some (pid, some false), w)
      else (none, w.set pid (some (put, .nonce)))
  | .isNonceSeen pid =>
    match w.calls pid with
    | some (put, .nonce) =>
      match afterNonce w.db put with
      | none => (some (pid, some false), w.set pid none)
      | some phase => (none, w.set pid (some (put, phase)))
    | _ => (none, w)
  | .readSeq pid now =>
    match w.calls pid with
    | some (put, .seq) =>
      match afterSeq w.db put now with
      | none => (some (pid, some false), w.set pid none)
      | some phase => (none, w.set pid (some (put, phase)))
    | _ => (none, w)
  | .commit pid secs =>
    match w.calls pid with
    | some (put, .commit now) =>
      (some (pid, some true), { w.set pid none with
        db := w.db.commitPut put now secs
        accepted := ⟨put, w.db.storedSeq put.key⟩ :: w.accepted })
    | _ => (none, w)
  | .fail pid =>
    match w.calls pid with
    | some _ => (some (pid, none), w.set pid none)
    | none => (none, w)
  | .deleteExpired now => (none, { w with db := w.db.deleteExpired now })
  | .pruneOldNonces cutoff =>
    (none, { w with
      db := w.db.pruneOldNonces cutoff
      pruned := (w.db.nonceLog.entries.filter fun e => e.2 < cutoff).map Sigma.fst ++ w.pruned })

def Accepted.pair (a : Accepted) : String × Int64 := (a.put.key, a.put.nonce)

/-- Each accepted put raised the sequence number that stood under its key, no key and
nonce were accepted twice, and no request was. -/
structure ReplayFree (accepted : List Accepted) : Prop where
  rises : ∀ a ∈ accepted, ∀ seq, a.before = some seq → seq < a.put.seq
  once : (accepted.map Accepted.pair).Nodup
  neverAgain : (accepted.map Accepted.put).Nodup

/-- A call that is about to write would still pass both of its checks, and its nonce was
not pruned. -/
def StillFresh (w : World) : Event → Prop
  | .commit pid _ => ∀ put now, w.calls pid = some (put, .commit now) →
    (∀ seq, w.db.storedSeq put.key = some seq → seq < put.seq) ∧
      w.db.isNonceSeen put.key put.nonce = false ∧ (put.key, put.nonce) ∉ w.pruned
  | _ => True

/-- The log and what was pruned from it hold the nonces of the accepted puts. -/
def LogsAccepted (w : World) : Prop :=
  ∀ pair, ((w.db.nonceLog.lookup pair).isSome = true ∨ pair ∈ w.pruned) ↔
    pair ∈ w.accepted.map Accepted.pair

section

variable {w : World}

theorem replayFree_cons {a : Accepted} {accepted : List Accepted} :
    ReplayFree (a :: accepted) ↔ ReplayFree accepted ∧
      (∀ seq, a.before = some seq → seq < a.put.seq) ∧ a.pair ∉ accepted.map Accepted.pair := by
  constructor
  · rintro ⟨rises, once, neverAgain⟩
    rw [List.map_cons, List.nodup_cons] at once neverAgain
    obtain ⟨here, later⟩ := List.forall_mem_cons.mp rises
    exact ⟨⟨later, once.2, neverAgain.2⟩, here, once.1⟩
  · rintro ⟨⟨rises, once, neverAgain⟩, here, different⟩
    refine ⟨List.forall_mem_cons.mpr ⟨here, rises⟩, List.nodup_cons.mpr ⟨different, once⟩,
      List.nodup_cons.mpr ⟨?_, neverAgain⟩⟩
    -- the same request would bring the same nonce
    intro again
    obtain ⟨b, member, same⟩ := List.mem_map.mp again
    refine different (List.mem_map.mpr ⟨b, member, ?_⟩)
    rw [Accepted.pair, Accepted.pair, same]

/-- A step writes the transaction of a call, prunes nonces, or leaves both alone. -/
theorem step_cases (w : World) (e : Event) :
    (((step w e).2.accepted = w.accepted ∧ (step w e).2.pruned = w.pruned ∧
        (step w e).2.db.nonceLog = w.db.nonceLog) ∧ StillFresh w e) ∨
      (∃ pid secs put now, e = .commit pid secs ∧ w.calls pid = some (put, .commit now) ∧
        (step w e).2.db = w.db.commitPut put now secs ∧ (step w e).2.pruned = w.pruned ∧
        (step w e).2.accepted = ⟨put, w.db.storedSeq put.key⟩ :: w.accepted) ∨
      ∃ cutoff, e = .pruneOldNonces cutoff := by
  cases e with
  | call pid put =>
    refine .inl ⟨?_, trivial⟩
    simp only [step]
    split
    · exact ⟨rfl, rfl, rfl⟩
    · split <;> exact ⟨rfl, rfl, rfl⟩
  | isNonceSeen pid =>
    refine .inl ⟨?_, trivial⟩
    simp only [step]
    split
    · split <;> exact ⟨rfl, rfl, rfl⟩
    · exact ⟨rfl, rfl, rfl⟩
  | readSeq pid now =>
    refine .inl ⟨?_, trivial⟩
    simp only [step]
    split
    · split <;> exact ⟨rfl, rfl, rfl⟩
    · exact ⟨rfl, rfl, rfl⟩
  | commit pid secs =>
    by_cases ready : ∃ put now, w.calls pid = some (put, .commit now)
    · obtain ⟨put, now, found⟩ := ready
      refine .inr (.inl ⟨pid, secs, put, now, rfl, found, ?_⟩)
      rw [step, found]
      exact ⟨rfl, rfl, rfl⟩
    · refine .inl ⟨?_, fun put now found => absurd ⟨put, now, found⟩ ready⟩
      simp only [step]
      split
      · rename_i put now found
        exact absurd ⟨put, now, found⟩ ready
      · exact ⟨rfl, rfl, rfl⟩
  | fail pid =>
    refine .inl ⟨?_, trivial⟩
    simp only [step]
    split <;> exact ⟨rfl, rfl, rfl⟩
  | deleteExpired now => exact .inl ⟨⟨rfl, rfl, rfl⟩, trivial⟩
  | pruneOldNonces cutoff => exact .inr (.inr ⟨cutoff, rfl⟩)

theorem lookup_insertNonce (db : Db) (key : String) (nonce : Int64) (secs : Int)
    (pair : String × Int64) :
    ((db.insertNonce key nonce secs).nonceLog.lookup pair).isSome = true ↔
      pair = (key, nonce) ∨ (db.nonceLog.lookup pair).isSome = true := by
  rw [Db.insertNonce]
  split
  · rename_i seen
    refine ⟨.inr, ?_⟩
    rintro (rfl | there)
    · exact seen
    · exact there
  · by_cases same : pair = (key, nonce)
    · subst same
      simp
    · simp [same, AList.lookup_insert_ne same]

/-- A nonce is in the log, or it is taken out. -/
theorem lookup_pruneOldNonces (db : Db) (cutoff : Int) (pair : String × Int64) :
    (((db.pruneOldNonces cutoff).nonceLog.lookup pair).isSome = true ∨
        pair ∈ (db.nonceLog.entries.filter fun e => e.2 < cutoff).map Sigma.fst) ↔
      (db.nonceLog.lookup pair).isSome = true := by
  rw [Db.pruneOldNonces, lookup_keep]
  constructor
  · rintro (kept | gone)
    · obtain ⟨secs, found⟩ := Option.isSome_iff_exists.mp kept
      exact Option.isSome_of_eq_some (Option.filter_eq_some_iff.mp found).1
    · obtain ⟨entry, member, rfl⟩ := List.mem_map.mp gone
      exact Option.isSome_of_eq_some
        (AList.mem_lookup_iff.mpr (List.mem_filter.mp member).1)
  · intro there
    obtain ⟨secs, found⟩ := Option.isSome_iff_exists.mp there
    by_cases old : secs < cutoff
    · refine .inr (List.mem_map.mpr ⟨⟨pair, secs⟩, List.mem_filter.mpr ⟨?_, ?_⟩, rfl⟩)
      · exact AList.mem_lookup_iff.mp found
      · exact decide_eq_true old
    · left
      rw [found, Option.filter_some, if_pos (decide_eq_true (not_lt.mp old))]
      rfl

theorem logsAccepted_step (logs : LogsAccepted w) (e : Event) : LogsAccepted (step w e).2 := by
  intro pair
  rcases step_cases w e with ⟨⟨accepted, pruned, log⟩, -⟩ |
    ⟨pid, secs, put, now, rfl, -, db, pruned, accepted⟩ | ⟨cutoff, rfl⟩
  · rw [accepted, pruned, log]
    exact logs pair
  · rw [accepted, pruned, db, List.map_cons, List.mem_cons, ← logs pair, ← or_assoc]
    have inserted := lookup_insertNonce w.db put.key put.nonce secs pair
    exact or_congr inserted Iff.rfl
  · have pruned := lookup_pruneOldNonces w.db cutoff pair
    change (_ ∨ pair ∈ _ ++ w.pruned) ↔ _
    rw [List.mem_append, ← or_assoc]
    exact (or_congr pruned Iff.rfl).trans (logs pair)

/-- What was accepted is free of replays after a step exactly if it was before and the step
finds its call still fresh. -/
theorem replayFree_step (logs : LogsAccepted w) (e : Event) :
    ReplayFree (step w e).2.accepted ↔ ReplayFree w.accepted ∧ StillFresh w e := by
  rcases step_cases w e with ⟨⟨accepted, -, -⟩, fresh⟩ |
    ⟨pid, secs, put, now, rfl, found, -, -, accepted⟩ | ⟨cutoff, rfl⟩
  · rw [accepted, and_iff_left fresh]
  · have logged := logs (put.key, put.nonce)
    rw [accepted, replayFree_cons, and_congr_right_iff]
    intro _
    change (_ ∧ (put.key, put.nonce) ∉ _) ↔ _
    rw [← logged, not_or, Bool.not_eq_true]
    constructor
    · intro fresh other time also
      rw [found] at also
      cases also
      exact fresh
    · intro fresh
      exact fresh put now found
  · exact (and_iff_left trivial).symm

end

/-- However the steps of the calls and the maintenance are interleaved, the accepted puts
raise the stored sequence number and are free of replays exactly if every transaction finds
that the lookups of its call would still pass and that its nonce was never pruned. -/
theorem replayFree_iff_stillFresh (events : List Event) :
    ReplayFree (Mealy.final step start events).accepted ↔
      Mealy.Along step StillFresh start events := by
  have logs : LogsAccepted start := by simp [LogsAccepted, start, empty]
  have nothing : ReplayFree start.accepted := by
    refine ⟨?_, List.nodup_nil, List.nodup_nil⟩
    intro a member
    cases member
  have run := @Mealy.final_iff_along World Event Answer step LogsAccepted
    (fun w => ReplayFree w.accepted) StillFresh (fun w e logs => logsAccepted_step logs e)
    (fun w e logs => replayFree_step logs e) start logs events
  rw [run, and_iff_right nothing]

def record (seq nonce : Int64) : PutArgs := ⟨"k", "v", "", seq, "AB", 60, "s", nonce⟩

/-- Both calls look at the empty tables, and the one with the lower number writes last. -/
def racing : List Event :=
  [.call 0 (record 1 7), .call 1 (record 2 7), .isNonceSeen 0, .isNonceSeen 1, .readSeq 0 0,
    .readSeq 1 0, .commit 1 0, .commit 0 0]

def once : List Event := [.call 0 (record 1 7), .isNonceSeen 0, .readSeq 0 0, .commit 0 0]

/-- The same put after its record has expired and its nonce is pruned. -/
def again : List Event :=
  [.pruneOldNonces 604800, .call 0 (record 1 7), .isNonceSeen 0, .readSeq 0 604800,
    .commit 0 604800]

theorem accepted_racing : (Mealy.final step start racing).accepted =
    [⟨record 1 7, some 2⟩, ⟨record 2 7, none⟩] := rfl

theorem expires_record : expires 0 (record 1 7).ttl = 60 := by
  have exact : nearest ((60 : ℕ) : ℚ) = 60 := by
    rw [nearest, if_pos (by norm_num), roundMagnitude_natCast (by norm_num)]
    norm_num
  have seconds : (((record 1 7).ttl.toInt : ℤ) : ℚ) = ((60 : ℕ) : ℚ) := by
    have sixty : (record 1 7).ttl.toInt = 60 := by decide
    rw [sixty]
    norm_num
  rw [expires, seconds, exact, zero_add]
  exact_mod_cast exact

theorem deleteExpired_once : (Mealy.final step start once).db.deleteExpired 60 =
    ⟨∅, (Mealy.final step start once).db.nonceLog⟩ := by
  have stale : decide ((60 : ℚ) < expires 0 (record 1 7).ttl) = false := by
    rw [expires_record]
    norm_num
  have rows : keep (fun e : (_ : String) × KvRow => decide ((60 : ℚ) < e.2.expiresAt))
      (Mealy.final step start once).db.kvStore = ∅ := by
    have entries : (Mealy.final step start once).db.kvStore.entries =
      [⟨"k", ⟨"v", "", 1, "AB", 0, expires 0 (record 1 7).ttl, "s"⟩⟩] := rfl
    refine AList.ext ?_
    rw [entries_keep, entries]
    exact List.filter_cons_of_neg (Bool.eq_false_iff.mp stale)
  rw [Db.deleteExpired, rows]

theorem accepted_again :
    (Mealy.final step start (once ++ .deleteExpired 60 :: again)).accepted =
      [⟨record 1 7, none⟩, ⟨record 1 7, none⟩] := by
  have forgotten : (step (Mealy.final step start once) (.deleteExpired 60)).2 =
      { Mealy.final step start once with
        db := ⟨∅, (Mealy.final step start once).db.nonceLog⟩ } := by
    rw [← deleteExpired_once]
    rfl
  rw [Mealy.final_append, Mealy.final_cons, forgotten]
  rfl

/-- Two calls that look before either writes accept one nonce twice and lower the stored
number, and after the end of its record and its nonce a put is accepted again. -/
theorem stale_checks :
    ¬ ReplayFree (Mealy.final step start racing).accepted ∧
      ¬ ReplayFree (Mealy.final step start (once ++ .deleteExpired 60 :: again)).accepted := by
  rw [accepted_racing, accepted_again]
  refine ⟨fun free => ?_, fun free => ?_⟩
  · exact absurd (free.rises _ List.mem_cons_self 2 rfl) (by decide)
  · exact absurd free.neverAgain (by decide)

end DhtStore

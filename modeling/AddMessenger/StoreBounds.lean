import AddMessenger.DhtNode
import AddMessenger.DhtStore

/-!
# The limits of a DHT node's tables

`handle_put` and `handle_blob_put` of `dht-core/src/dht_node.rs` over the tables of
`DhtStore`. A `dht-put` reads `has_key` and `count_keys`, makes its checks and then calls
`put`; its queries are steps of their own, so that requests and the maintenance tasks of the
node can come in between. A query of the first two that fails counts as "no".
-/

namespace StoreBounds

open ByteStrings DhtNode DhtStore Doubles Protocol Signatures Tables

variable {P : Primitives}

def nonceLogMaxEntries : Nat := 1000000

/-- Two hours. -/
def addrTtl : Int64 := 7200

/-- A `dht-put` under way: `has_key` has been read, or `put` runs. -/
inductive Task where
  | admitted (env : WireEnvelope) (allowed : Bool) (hasKey : Option Bool)
  | storing (put : PutArgs) (phase : Phase)

structure Server (P : Primitives) where
  db : Db
  state : NodeState P
  tasks : Nat → Option Task

def start (P : Primitives) : Server P := ⟨empty, ⟨∅, []⟩, fun _ => none⟩

/-- A request, a query of a request, or a maintenance task. `ok` says that a query does not
fail, `clock` is the time of an access to the key cache. -/
inductive Event where
  | dhtPut (pid : Nat) (env : WireEnvelope) (allowed ok : Bool)
  | check (pid : Nat) (now : ℚ) (ok : Bool) (clock : Nat)
  | isNonceSeen (pid : Nat)
  | readSeq (pid : Nat) (now : ℚ)
  | commit (pid : Nat) (secs : Int)
  | fail (pid : Nat)
  | blobPut (env : WireEnvelope) (salt : UInt32) (seqMs : Int64) (now : ℚ) (secs : Int64)
      (ok : Bool) (clock : Nat)
  | pruneSeenNonces
  | pruneOldNonces (cutoff : Int)
  | deleteExpired (now : ℚ)

def putArgs (env : WireEnvelope) : PutArgs :=
  let r := putRecord env
  ⟨r.key, r.value, r.salt, r.seq, r.publisherFp, r.ttl, env.sig, r.nonce⟩

/-- The call of `put_blob`. -/
def storeBlob (db : Db) (env : WireEnvelope) (salt : UInt32) (now : ℚ) (secs : Int64) :
    Bool × Db :=
  db.putBlob ((env.payloadStr "key").getD "") ((env.payloadStr "value").getD "") s!"blob:{salt}"
    ((env.payloadStr "publisher_fp").getD "") ((env.payloadI64 "ttl").getD addrTtl)
    ((env.payloadStr "sig").getD "") now secs

/-- Of the nonces of a key the 64 largest stay. -/
def pruneSeenNonces (seen : List (String × Int64)) : List (String × Int64) :=
  seen.filter fun p => (seen.filter fun q => q.1 = p.1 ∧ p.2 < q.2).dedup.length < 64

def Server.set (s : Server P) (pid : Nat) (task : Option Task) : Server P :=
  { s with tasks := Function.update s.tasks pid task }

/-- The checks of `handle_put` with what the two queries answered, and the signature gate. -/
def admitPut (argon2id : Argon2id) (s : Server P) (pid : Nat) (env : WireEnvelope)
    (answers : PutAnswers) (clock : Nat) : Option DhtReply × Server P :=
  let r := putRecord env
  match firstRefusal (putChecks P argon2id s.state.seenNonces env answers) with
  | some message => (some (.error r.key message), s.set pid none)
  | none =>
    match verifyDhtPutSignature s.state.cache r.signData env.sig r.publisherFp env clock with
    | (false, cache) =>
      (some (.error r.key "signature verification failed"),
        { s.set pid none with state := { s.state with cache := cache } })
    | (true, cache) =>
      (none, { s.set pid (some (.storing (putArgs env) .nonce)) with
        state := { s.state with cache := cache } })

/-- A call of `put` goes on, or the answer is that its number is stale. -/
def proceed (s : Server P) (pid : Nat) (put : PutArgs) :
    Option Phase → Option DhtReply × Server P
  | some phase => (none, s.set pid (some (.storing put phase)))
  | none => (some (.error put.key "stale sequence"), s.set pid none)

def step (argon2id : Argon2id) (s : Server P) : Event → Option DhtReply × Server P
  | .dhtPut pid env allowed ok =>
    match s.tasks pid with
    | some _ => (none, s)
    | none =>
      let exists_ := if ok then some (s.db.hasKey (putRecord env).key) else none
      (none, s.set pid (some (.admitted env allowed exists_)))
  | .check pid now ok clock =>
    match s.tasks pid with
    | some (.admitted env allowed hasKey) =>
      let count := if ok then some (Int64.ofNat (s.db.countKeys now)) else none
      admitPut argon2id s pid env ⟨allowed, hasKey, count, none⟩ clock
    | _ => (none, s)
  | .isNonceSeen pid =>
    match s.tasks pid with
    | some (.storing put .nonce) => proceed s pid put (afterNonce s.db put)
    | _ => (none, s)
  | .readSeq pid now =>
    match s.tasks pid with
    | some (.storing put .seq) => proceed s pid put (afterSeq s.db put now)
    | _ => (none, s)
  | .commit pid secs =>
    match s.tasks pid with
    | some (.storing put (.commit now)) =>
      (some (.found put.key put.value put.salt put.seq), { s.set pid none with
        db := s.db.commitPut put now secs
        state := { s.state with seenNonces := (put.key, put.nonce) :: s.state.seenNonces } })
    | _ => (none, s)
  | .fail pid =>
    match s.tasks pid with
    | some (.storing put _) => (some (.error put.key "storage error"), s.set pid none)
    | _ => (none, s)
  | .blobPut env salt seqMs now secs ok clock =>
    let (stored, db) := storeBlob s.db env salt now secs
    let answers : BlobAnswers := ⟨salt, seqMs, if ok then some stored else none⟩
    let (reply, cache) := handleBlobPut s.state.cache env answers clock
    (some reply, { s with
      db := if reply.isFound then db else s.db
      state := { s.state with cache := cache } })
  | .pruneSeenNonces =>
    (none, { s with
      state := { s.state with seenNonces := pruneSeenNonces s.state.seenNonces } })
  | .pruneOldNonces cutoff => (none, { s with db := s.db.pruneOldNonces cutoff })
  | .deleteExpired now => (none, { s with db := s.db.deleteExpired now })

/-- A record that is stored now lives between the clock and `MAX_TTL` after it. -/
def Within (now : ℚ) (ttl : Int64) : Prop :=
  0 < expires now ttl - now ∧ expires now ttl - now ≤ (maxTtl.toInt : ℚ)

/-- The limits of both tables. -/
structure Bounded (db : Db) : Prop where
  rows : (db.kvStore.entries.length : ℤ) ≤ maxTotalKeys.toInt
  ttl : ∀ e ∈ db.kvStore.entries,
    0 < e.2.expiresAt - e.2.storedAt ∧ e.2.expiresAt - e.2.storedAt ≤ (maxTtl.toInt : ℚ)
  keySize : ∀ e ∈ db.kvStore.entries, e.1.utf8ByteSize ≤ maxKeySize
  valueSize : ∀ e ∈ db.kvStore.entries, e.2.value.utf8ByteSize ≤ maxValueSize
  nonces : db.nonceLog.entries.length ≤ nonceLogMaxEntries

/-- There is room for a row under the key. -/
def Room (db : Db) (key : String) : Prop :=
  db.hasKey key = true ∨ (db.kvStore.entries.length : ℤ) < maxTotalKeys.toInt

/-- There is room for the nonce. -/
def NonceRoom (db : Db) (key : String) (nonce : Int64) : Prop :=
  db.isNonceSeen key nonce = true ∨ db.nonceLog.entries.length < nonceLogMaxEntries

/-- What a write finds: a blob that is stored has a short key and a lifetime within the
limits, and whatever is written finds room. -/
def Fits (s : Server P) : Event → Prop
  | .commit pid _ => ∀ put now, s.tasks pid = some (.storing put (.commit now)) →
    Within now put.ttl ∧ Room s.db put.key ∧ NonceRoom s.db put.key put.nonce
  | .blobPut env salt seqMs now secs ok clock =>
    (handleBlobPut s.state.cache env
      ⟨salt, seqMs, if ok then some (storeBlob s.db env salt now secs).1 else none⟩
      clock).1.isFound = true →
      ((env.payloadStr "key").getD "").utf8ByteSize ≤ maxKeySize ∧
        Within now ((env.payloadI64 "ttl").getD addrTtl) ∧
        Room s.db ((env.payloadStr "key").getD "")
  | _ => True

/-- What `handle_put` has checked of a put that it stores. -/
def Checked (s : Server P) : Prop :=
  ∀ pid put phase, s.tasks pid = some (.storing put phase) →
    put.key.utf8ByteSize ≤ maxKeySize ∧ put.value.utf8ByteSize ≤ maxValueSize ∧
      0 < put.ttl ∧ put.ttl ≤ storeTtl

section

variable {db : Db}

/-- A row that is written keeps the limits exactly if it is within them and finds room. -/
theorem bounded_replaceRow {key : String} {row : KvRow} (bounded : Bounded db)
    (small : row.value.utf8ByteSize ≤ maxValueSize) :
    Bounded (db.replaceRow key row) ↔ key.utf8ByteSize ≤ maxKeySize ∧
      (0 < row.expiresAt - row.storedAt ∧ row.expiresAt - row.storedAt ≤ (maxTtl.toInt : ℚ)) ∧
      Room db key := by
  have count : (db.kvStore.insert key row).entries.length =
      if db.hasKey key then db.kvStore.entries.length else db.kvStore.entries.length + 1 :=
    length_insert db.kvStore key row
  have here : (⟨key, row⟩ : (_ : String) × KvRow) ∈ (db.kvStore.insert key row).entries := by
    rw [AList.entries_insert]
    exact List.mem_cons_self
  constructor
  · rintro ⟨rows, ttl, keySize, -, -⟩
    refine ⟨keySize _ here, ttl _ here, ?_⟩
    cases known : db.hasKey key with
    | true => exact .inl known
    | false =>
      right
      simp only [Db.replaceRow] at rows
      rw [count, if_neg (Bool.eq_false_iff.mp known)] at rows
      push_cast at rows
      omega
  · rintro ⟨short, lives, room⟩
    have each : ∀ test : (_ : String) × KvRow → Prop, test ⟨key, row⟩ →
        (∀ e ∈ db.kvStore.entries, test e) →
          ∀ e ∈ (db.kvStore.insert key row).entries, test e := by
      intro test new old e member
      rcases mem_insert_entries member with rfl | before
      · exact new
      · exact old e before
    refine ⟨?_, each _ lives bounded.ttl, each _ short bounded.keySize,
      each _ small bounded.valueSize, bounded.nonces⟩
    simp only [Db.replaceRow]
    rw [count]
    rcases room with known | free
    · rw [if_pos known]
      exact bounded.rows
    · split
      · exact bounded.rows
      · push_cast
        omega

theorem Bounded.of_kvStore {other : Db} (bounded : Bounded db)
    (same : other.kvStore = db.kvStore)
    (nonces : other.nonceLog.entries.length ≤ nonceLogMaxEntries) : Bounded other := by
  refine ⟨?_, ?_, ?_, ?_, nonces⟩
  · rw [same]
    exact bounded.rows
  · rw [same]
    exact bounded.ttl
  · rw [same]
    exact bounded.keySize
  · rw [same]
    exact bounded.valueSize

theorem length_insertNonce (key : String) (nonce : Int64) (secs : Int) :
    (db.insertNonce key nonce secs).nonceLog.entries.length =
      if db.isNonceSeen key nonce then db.nonceLog.entries.length
      else db.nonceLog.entries.length + 1 := by
  have count : (db.nonceLog.insert (key, nonce) secs).entries.length =
      if db.isNonceSeen key nonce then db.nonceLog.entries.length
      else db.nonceLog.entries.length + 1 := length_insert db.nonceLog (key, nonce) secs
  rw [Db.insertNonce]
  split
  · rfl
  · rename_i unseen
    rwa [if_neg unseen] at count

theorem bounded_insertNonce {key : String} {nonce : Int64} {secs : Int} (bounded : Bounded db) :
    Bounded (db.insertNonce key nonce secs) ↔ NonceRoom db key nonce := by
  have count := @length_insertNonce db key nonce secs
  constructor
  · intro after
    have nonces := after.nonces
    cases seen : db.isNonceSeen key nonce with
    | true => exact .inl seen
    | false =>
      right
      rw [count, if_neg (Bool.eq_false_iff.mp seen)] at nonces
      omega
  · intro room
    refine bounded.of_kvStore (db.kvStore_insertNonce key nonce secs) ?_
    rw [count]
    have nonces := bounded.nonces
    rcases room with seen | free
    · rwa [if_pos seen]
    · split <;> omega

/-- A transaction keeps the limits exactly if its row lives within them and both tables have
room. -/
theorem bounded_commitPut {put : PutArgs} {now : ℚ} {secs : Int} (bounded : Bounded db)
    (short : put.key.utf8ByteSize ≤ maxKeySize) (small : put.value.utf8ByteSize ≤ maxValueSize) :
    Bounded (db.commitPut put now secs) ↔
      Within now put.ttl ∧ Room db put.key ∧ NonceRoom db put.key put.nonce := by
  have logged := @bounded_insertNonce db put.key put.nonce secs bounded
  have room : Room (db.insertNonce put.key put.nonce secs) put.key ↔ Room db put.key := by
    rw [Room, Room, Db.hasKey, Db.hasKey, Db.kvStore_insertNonce]
  rw [Db.commitPut]
  constructor
  · intro after
    have before : Bounded (db.insertNonce put.key put.nonce secs) :=
      bounded.of_kvStore (db.kvStore_insertNonce put.key put.nonce secs) after.nonces
    obtain ⟨-, lives, free⟩ := (bounded_replaceRow before small).mp after
    exact ⟨lives, room.mp free, logged.mp before⟩
  · rintro ⟨lives, free, unused⟩
    exact (bounded_replaceRow (logged.mpr unused) small).mpr ⟨short, lives, room.mpr free⟩

theorem bounded_deleteExpired (bounded : Bounded db) (now : ℚ) :
    Bounded (db.deleteExpired now) := by
  have fewer : (db.deleteExpired now).kvStore.entries.length ≤ db.kvStore.entries.length :=
    List.length_filter_le _ _
  have kept : ∀ e ∈ (db.deleteExpired now).kvStore.entries, e ∈ db.kvStore.entries :=
    fun e member => List.mem_of_mem_filter member
  have rows := bounded.rows
  refine ⟨by omega, fun e member => bounded.ttl e (kept e member),
    fun e member => bounded.keySize e (kept e member),
    fun e member => bounded.valueSize e (kept e member), bounded.nonces⟩

theorem bounded_pruneOldNonces (bounded : Bounded db) (cutoff : Int) :
    Bounded (db.pruneOldNonces cutoff) := by
  have fewer : (db.pruneOldNonces cutoff).nonceLog.entries.length ≤
    db.nonceLog.entries.length := List.length_filter_le _ _
  exact bounded.of_kvStore rfl (le_trans fewer bounded.nonces)

end

section

variable {argon2id : Argon2id} {s : Server P}

/-- A put whose checks pass is within the limits of a row. -/
theorem putArgs_checked {seen : List (String × Int64)} {env : WireEnvelope} {answers : PutAnswers}
    (passed : firstRefusal (putChecks P argon2id seen env answers) = none) :
    (putArgs env).key.utf8ByteSize ≤ maxKeySize ∧
      (putArgs env).value.utf8ByteSize ≤ maxValueSize ∧
      0 < (putArgs env).ttl ∧ (putArgs env).ttl ≤ storeTtl := by
  have checks := firstRefusal_eq_none passed
  simp only [putChecks, List.forall_mem_cons, decide_eq_false_iff_not, not_lt, Bool.or_eq_false_iff,
    Bool.not_eq_false'] at checks
  obtain ⟨-, -, short, ⟨positive, -⟩, -, small, -⟩ := checks
  refine ⟨short, small, Int64.not_le.mp positive, ?_⟩
  change (if _ ≤ storeTtl then _ else storeTtl) ≤ storeTtl
  split
  · assumption
  · exact Int64.le_refl storeTtl

/-- The database after a step. -/
theorem step_cases (s : Server P) (e : Event) :
    ((step argon2id s e).2.db = s.db ∧ Fits s e) ∨
      (∃ pid secs put now, e = .commit pid secs ∧
        s.tasks pid = some (.storing put (.commit now)) ∧
        (step argon2id s e).2.db = s.db.commitPut put now secs) ∨
      (∃ env salt seqMs now secs ok clock, e = .blobPut env salt seqMs now secs ok clock ∧
        (handleBlobPut s.state.cache env
          ⟨salt, seqMs, if ok then some (storeBlob s.db env salt now secs).1 else none⟩
          clock).1.isFound = true ∧
        (step argon2id s e).2.db = (storeBlob s.db env salt now secs).2) ∨
      (∃ cutoff, e = .pruneOldNonces cutoff) ∨ ∃ now, e = .deleteExpired now := by
  cases e with
  | dhtPut pid env allowed ok =>
    refine .inl ⟨?_, trivial⟩
    simp only [step]
    split <;> rfl
  | check pid now ok clock =>
    refine .inl ⟨?_, trivial⟩
    simp only [step, admitPut]
    split
    · split
      · rfl
      · split <;> rfl
    · rfl
  | isNonceSeen pid =>
    refine .inl ⟨?_, trivial⟩
    simp only [step]
    split
    · rename_i put found
      cases afterNonce s.db put <;> rfl
    · rfl
  | readSeq pid now =>
    refine .inl ⟨?_, trivial⟩
    simp only [step]
    split
    · rename_i put found
      cases afterSeq s.db put now <;> rfl
    · rfl
  | commit pid secs =>
    by_cases ready : ∃ put now, s.tasks pid = some (.storing put (.commit now))
    · obtain ⟨put, now, found⟩ := ready
      refine .inr (.inl ⟨pid, secs, put, now, rfl, found, ?_⟩)
      rw [step, found]
    · refine .inl ⟨?_, fun put now found => absurd ⟨put, now, found⟩ ready⟩
      simp only [step]
      split
      · rename_i put now found
        exact absurd ⟨put, now, found⟩ ready
      · rfl
  | fail pid =>
    refine .inl ⟨?_, trivial⟩
    simp only [step]
    split <;> rfl
  | blobPut env salt seqMs now secs ok clock =>
    cases found : (handleBlobPut s.state.cache env
        ⟨salt, seqMs, if ok then some (storeBlob s.db env salt now secs).1 else none⟩
        clock).1.isFound with
    | true =>
      refine .inr (.inr (.inl ⟨env, salt, seqMs, now, secs, ok, clock, rfl, found, ?_⟩))
      exact if_pos found
    | false =>
      refine .inl ⟨if_neg (Bool.eq_false_iff.mp found), ?_⟩
      intro stored
      exact absurd stored (Bool.eq_false_iff.mp found)
  | pruneSeenNonces => exact .inl ⟨rfl, trivial⟩
  | pruneOldNonces cutoff => exact .inr (.inr (.inr (.inl ⟨cutoff, rfl⟩)))
  | deleteExpired now => exact .inr (.inr (.inr (.inr ⟨now, rfl⟩)))

section

variable {pid : Nat}

/-- A task may be replaced by one that stores nothing or has passed the checks. -/
theorem Checked.set {task : Option Task} (checked : Checked s)
    (passed : ∀ put phase, task = some (.storing put phase) →
      put.key.utf8ByteSize ≤ maxKeySize ∧ put.value.utf8ByteSize ≤ maxValueSize ∧
        0 < put.ttl ∧ put.ttl ≤ storeTtl) : Checked (s.set pid task) := by
  intro other put phase there
  by_cases same : other = pid
  · subst same
    exact passed put phase (by simpa [Server.set] using there)
  · exact checked other put phase (by simpa [Server.set, same] using there)

theorem Checked.taken (checked : Checked s) : Checked (s.set pid none) := by
  refine checked.set ?_
  intro put phase none
  cases none

/-- A call of `put` that goes on is about the same put. -/
theorem Checked.proceed {put : PutArgs} {phase : Phase} (checked : Checked s)
    (found : s.tasks pid = some (.storing put phase)) (next : Option Phase) :
    Checked (proceed s pid put next).2 := by
  cases next with
  | none => exact checked.taken
  | some next =>
    refine checked.set ?_
    intro put' phase' same
    cases same
    exact checked pid put phase found

end

/-- Whatever `put` is called with has passed the checks. -/
theorem checked_step (checked : Checked s) (e : Event) : Checked (step argon2id s e).2 := by
  cases e with
  | dhtPut pid env allowed ok =>
    simp only [step]
    split
    · exact checked
    · refine checked.set ?_
      intro put phase same
      cases same
  | check pid now ok clock =>
    simp only [step, admitPut]
    split
    · split
      · exact checked.taken
      · rename_i passed
        split
        · exact checked.taken
        · refine checked.set ?_
          intro put phase same
          cases same
          exact putArgs_checked passed
    · exact checked
  | isNonceSeen pid =>
    simp only [step]
    split
    · rename_i put found
      exact checked.proceed found _
    · exact checked
  | readSeq pid now =>
    simp only [step]
    split
    · rename_i put found
      exact checked.proceed found _
    · exact checked
  | commit pid secs =>
    simp only [step]
    split
    · exact checked.taken
    · exact checked
  | fail pid =>
    simp only [step]
    split
    · exact checked.taken
    · exact checked
  | blobPut env salt seqMs now secs ok clock => exact checked
  | pruneSeenNonces => exact checked
  | pruneOldNonces cutoff => exact checked
  | deleteExpired now => exact checked

/-- A blob that is stored is written over the row of its key. -/
theorem storeBlob_of_found {cache : KeyCache P} {db : Db} {env : WireEnvelope} {salt : UInt32}
    {answers : BlobAnswers} {now : ℚ} {secs : Int64} {clock : Nat}
    (found : (handleBlobPut cache env answers clock).1.isFound = true) :
    ∃ row, row.value.utf8ByteSize ≤ maxValueSize ∧ row.storedAt = now ∧
      row.expiresAt = expires now ((env.payloadI64 "ttl").getD addrTtl) ∧
      (storeBlob db env salt now secs).2 =
        db.replaceRow ((env.payloadStr "key").getD "") row := by
  cases reply : (handleBlobPut cache env answers clock).1 with
  | error key message =>
    rw [reply] at found
    cases found
  | found key value text seq =>
    obtain ⟨-, given, small, -⟩ := handleBlobPut_eq_found reply
    have fits : ¬ maxValueSize < ((env.payloadStr "value").getD "").utf8ByteSize := by
      rw [given]
      exact not_lt.mpr small
    rw [storeBlob, Db.putBlob, if_neg fits]
    exact ⟨_, not_lt.mp fits, rfl, rfl, rfl⟩

/-- The limits still hold after a step exactly if what it writes fits. -/
theorem bounded_step (bounded : Bounded s.db) (checked : Checked s) (e : Event) :
    Bounded (step argon2id s e).2.db ↔ Fits s e := by
  rcases @step_cases P argon2id s e with ⟨same, fits⟩ |
    ⟨pid, secs, put, now, rfl, found, db⟩ |
    ⟨env, salt, seqMs, now, secs, ok, clock, rfl, found, db⟩ | ⟨cutoff, rfl⟩ | ⟨now, rfl⟩
  · rw [same]
    exact iff_of_true bounded fits
  · obtain ⟨short, small, -, -⟩ := checked _ _ _ found
    rw [db, bounded_commitPut bounded short small]
    constructor
    · intro fits other time also
      rw [found] at also
      cases also
      exact fits
    · intro fits
      exact fits put now found
  · obtain ⟨row, small, stored, expiry, written⟩ := storeBlob_of_found found
    rw [db, written, bounded_replaceRow bounded small, stored, expiry]
    constructor
    · intro fits _
      exact fits
    · intro fits
      exact fits found
  · exact iff_of_true (bounded_pruneOldNonces bounded cutoff) trivial
  · exact iff_of_true (bounded_deleteExpired bounded now) trivial

end

theorem checked_start : Checked (start P) := by
  intro pid put phase none
  cases none

theorem bounded_empty : Bounded empty := by
  refine ⟨by decide, ?_, ?_, ?_, by decide⟩
  · intro e none
    cases none
  · intro e none
    cases none
  · intro e none
    cases none

/-- However requests, their queries and the maintenance tasks are interleaved, the tables stay
within their limits exactly if every write of the run fits: every blob that is stored has a
short key and a lifetime within the limits, and every row and nonce that is new finds room. -/
theorem bounded_iff_fits (argon2id : Argon2id) (events : List Event) :
    (∀ front back, events = front ++ back →
        Bounded (Mealy.final (step argon2id) (start P) front).db) ↔
      Mealy.Along (step argon2id) Fits (start P) events := by
  have always : ∀ front, Checked (Mealy.final (step argon2id) (start P) front) :=
    Mealy.final_preserved Checked (fun s e checked => checked_step checked e) checked_start
  have one : ∀ (s : Server P) (e : Event), Bounded s.db ∧ Checked s →
      (Bounded (step argon2id s e).2.db ∧ Checked (step argon2id s e).2 ↔ Fits s e) := by
    rintro s e ⟨bounded, checked⟩
    rw [bounded_step bounded checked, and_iff_left (checked_step checked e)]
  rw [← Mealy.forall_final_iff_along one ⟨bounded_empty, checked_start⟩ events]
  constructor
  · intro bounded front back split
    exact ⟨bounded front back split, always front⟩
  · intro bounded front back split
    exact (bounded front back split).1

/-- What `handle_put` has checked of the lifetime of a record is enough: only a blob can
live for too long, or not at all. -/
theorem within_of_checked {now : ℚ} {ttl : Int64} (positive : 0 < ttl) (short : ttl ≤ storeTtl)
    (nonneg : 0 ≤ now) (early : now ≤ 2 ^ 52) : Within now ttl := by
  obtain ⟨n, seconds⟩ : ∃ n : ℕ, ttl.toInt = n :=
    Int.eq_ofNat_of_zero_le (Int64.lt_iff_toInt_lt.mp positive).le
  have zero : (0 : Int64).toInt = 0 := by decide
  have day : storeTtl.toInt = 86400 := by decide
  have low : 0 < n := by
    have bound := Int64.lt_iff_toInt_lt.mp positive
    rw [seconds, zero] at bound
    exact_mod_cast bound
  have high : n ≤ 86400 := by
    have bound := Int64.le_iff_toInt_le.mp short
    rw [seconds, day] at bound
    exact_mod_cast bound
  have whole : nearest ((ttl.toInt : ℤ) : ℚ) = n := by
    rw [seconds]
    exact_mod_cast nearest_natCast (le_trans high (by norm_num))
  -- the integers on either side of the sum are doubles, so rounding does not cross them
  have floor := Nat.floor_le nonneg
  have ceil := (Nat.lt_floor_add_one now).le
  have large : ⌊now⌋₊ ≤ 2 ^ 52 := by
    exact_mod_cast le_trans floor early
  have below : ((⌊now⌋₊ + 1 : ℕ) : ℚ) ≤ expires now ttl := by
    rw [← nearest_natCast (show ⌊now⌋₊ + 1 ≤ 2 ^ 53 by omega), expires, whole]
    apply nearest_mono
    have one : (1 : ℚ) ≤ n := by exact_mod_cast low
    push_cast
    linarith
  have above : expires now ttl ≤ ((⌊now⌋₊ + 1 + n : ℕ) : ℚ) := by
    rw [← nearest_natCast (show ⌊now⌋₊ + 1 + n ≤ 2 ^ 53 by omega), expires, whole]
    apply nearest_mono
    push_cast
    linarith
  have strict := Nat.lt_floor_add_one now
  have days : ((maxTtl.toInt : ℤ) : ℚ) = 604800 := by
    have value : maxTtl.toInt = 604800 := by decide
    rw [value]
    norm_num
  have bound : (n : ℚ) ≤ 86400 := by exact_mod_cast high
  push_cast at below above
  constructor
  · linarith
  · rw [days]
    linarith

def tenYears : WireEnvelope :=
  ⟨"blob-put", .object [("key", .string "k"), ("ttl", .number (.posInt 315360000)),
    ("value", .string "v")], ""⟩

def tenYearsRow : KvRow := ⟨"v", "blob:0", 0, "", 0, expires 0 315360000, ""⟩

/-- No check of `handle_blob_put` looks at the lifetime. -/
theorem tenYears_stored (argon2id : Argon2id) :
    (Mealy.final (step argon2id) (start sumScheme)
      [.blobPut tenYears 0 0 0 0 true 0]).db.kvStore.entries = [⟨"k", tenYearsRow⟩] := rfl

theorem tenYears_expires : expires 0 315360000 = 315360000 := by
  have seconds : (315360000 : Int64).toInt = (315360000 : ℕ) := by decide
  rw [expires, seconds, Int.cast_natCast, nearest_natCast (by norm_num), zero_add,
    nearest_natCast (by norm_num)]
  norm_num

theorem stored_for_ten_years :
    ¬ Bounded (Mealy.final (step fun _ _ => .error "memory") (start sumScheme)
      [.blobPut tenYears 0 0 0 0 true 0]).db := by
  intro bounded
  have limit := (bounded.ttl ⟨"k", tenYearsRow⟩ (by
    rw [tenYears_stored]
    exact List.mem_cons_self)).2
  have days : maxTtl.toInt = 604800 := by decide
  rw [days] at limit
  simp only [tenYearsRow, tenYears_expires] at limit
  norm_num at limit

end StoreBounds

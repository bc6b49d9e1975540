import AddMessenger.DhtStore

/-!
# Records that have expired

The methods of `DhtStore` (`dht-core/src/sqlite_store.rs`), one after the other, and the
number `dht_register` of `client/src/main.rs` chooses. `get` and `count_keys` ask for rows
that expire later; `has_key` and the lookup of the sequence number in `put` ask for any row.
The number of rows that `delete_expired` deletes is not modelled.
-/

namespace DhtStore

open Doubles Protocol Tables

/-- `put` when nothing runs beside it. -/
def Db.put (db : Db) (args : PutArgs) (now : ℚ) (secs : Int) : Bool × Db :=
  if maxValueSize < args.value.utf8ByteSize then (false, db)
  else match afterNonce db args with
    | none => (false, db)
    | some _ => match afterSeq db args now with
      | none => (false, db)
      | some _ => (true, db.commitPut args now secs)

/-- A row deleted. -/
def Db.without (db : Db) (key : String) : Db := { db with kvStore := db.kvStore.erase key }

/-- The sequence number of a registration, after the node was asked for the key. -/
def dhtRegisterSeq (alreadyRegistered : Bool) (timestamp : Int64) : Int64 :=
  if alreadyRegistered then timestamp else 0

inductive Operation where
  | get (key : String)
  | hasKey (key : String)
  | countKeys
  | isNonceSeen (key : String) (nonce : Int64)
  | put (args : PutArgs) (secs : Int)
  | putBlob (key value salt publisherFp : String) (ttl : Int64) (sig : String) (seq : Int64)
  | deleteExpired
  | pruneOldNonces (cutoff : Int)

inductive Reply where
  | record (row : Option KvRow)
  | flag (answer : Bool)
  | count (n : Nat)
  | done

/-- An operation at its time. -/
def operate (db : Db) : ℚ × Operation → Reply × Db
  | (now, .get key) => (.record (db.get key now), db)
  | (_, .hasKey key) => (.flag (db.hasKey key), db)
  | (now, .countKeys) => (.count (db.countKeys now), db)
  | (_, .isNonceSeen key nonce) => (.flag (db.isNonceSeen key nonce), db)
  | (now, .put args secs) =>
    let (stored, db) := db.put args now secs
    (.flag stored, db)
  | (now, .putBlob key value salt publisherFp ttl sig seq) =>
    let (stored, db) := db.putBlob key value salt publisherFp ttl sig now seq
    (.flag stored, db)
  | (now, .deleteExpired) => (.done, db.deleteExpired now)
  | (_, .pruneOldNonces cutoff) => (.done, db.pruneOldNonces cutoff)

def ExpiredAt (db : Db) (key : String) (now : ℚ) : Prop :=
  ∃ row, db.kvStore.lookup key = some row ∧ row.expiresAt ≤ now

/-- The operation does not ask for the key by `has_key`, and is no put under it that the
sequence number of its row alone refuses. -/
def Ignores (db : Db) (key : String) : Operation → Prop
  | .hasKey asked => asked ≠ key
  | .put args _ => args.key = key → maxValueSize < args.value.utf8ByteSize ∨
      db.isNonceSeen key args.nonce = true ∨ ∀ seq, db.storedSeq key = some seq → seq < args.seq
  | _ => True

/-- The operation ignores every row that had expired at a time. -/
def IgnoresExpired (t : ℚ) (db : Db) (a : ℚ × Operation) : Prop :=
  ∀ key, ExpiredAt db key t → Ignores db key a.2

/-- The second database lacks some rows that had expired at a time. -/
structure Forgot (t : ℚ) (db db' : Db) : Prop where
  nonceLog : db'.nonceLog = db.nonceLog
  rows : ∀ key, db'.kvStore.lookup key = db.kvStore.lookup key ∨
    db'.kvStore.lookup key = none ∧ ExpiredAt db key t

theorem forgot_deleteExpired (db : Db) (t : ℚ) : Forgot t db (db.deleteExpired t) := by
  refine ⟨rfl, fun key => ?_⟩
  rw [Db.deleteExpired, lookup_keep]
  cases found : db.kvStore.lookup key with
  | none => exact .inl rfl
  | some row =>
    by_cases live : t < row.expiresAt
    · exact .inl (by simp [live])
    · exact .inr ⟨by simpa using le_of_not_gt live, row, found, le_of_not_gt live⟩

theorem forgot_without {db : Db} {key : String} {t : ℚ} (expired : ExpiredAt db key t) :
    Forgot t db (db.without key) := by
  refine ⟨rfl, fun other => ?_⟩
  by_cases same : other = key
  · subst same
    exact .inr ⟨AList.lookup_erase .., expired⟩
  · exact .inl (AList.lookup_erase_ne same)

section

variable {t now : ℚ} {db db' : Db}

theorem Forgot.get (forgot : Forgot t db db') (later : t ≤ now) (key : String) :
    db'.get key now = db.get key now := by
  rcases forgot.rows key with same | ⟨gone, row, found, expired⟩
  · rw [Db.get, Db.get, same]
  · have stale : ¬ now < row.expiresAt := not_lt.mpr (expired.trans later)
    rw [Db.get, Db.get, gone, found, Option.filter_none, Option.filter_some]
    simp [stale]

/-- The live rows are what `get` finds. -/
theorem mem_live {e : (_ : String) × KvRow} :
    e ∈ db.kvStore.entries.filter (fun e => now < e.2.expiresAt) ↔
      db.get e.1 now = some e.2 := by
  rw [List.mem_filter, Db.get, Option.filter_eq_some_iff, ← AList.mem_lookup_iff]
  rfl

theorem countKeys_congr (same : ∀ key, db'.get key now = db.get key now) :
    db'.countKeys now = db.countKeys now := by
  have live : (db'.kvStore.entries.filter fun e => now < e.2.expiresAt).Perm
      (db.kvStore.entries.filter fun e => now < e.2.expiresAt) := by
    refine (List.perm_ext_iff_of_nodup ?_ ?_).mpr fun e => ?_
    · exact db'.kvStore.nodupKeys.nodup.filter _
    · exact db.kvStore.nodupKeys.nodup.filter _
    · rw [mem_live, mem_live, same]
  exact live.length_eq

theorem Forgot.insertNonce (forgot : Forgot t db db') (key : String) (nonce : Int64) (secs : Int) :
    Forgot t (db.insertNonce key nonce secs) (db'.insertNonce key nonce secs) := by
  refine ⟨?_, fun other => ?_⟩
  · rw [Db.insertNonce, Db.insertNonce, Db.isNonceSeen, Db.isNonceSeen, forgot.nonceLog]
    split
    · exact forgot.nonceLog
    · rfl
  · rw [ExpiredAt, Db.kvStore_insertNonce, Db.kvStore_insertNonce]
    exact forgot.rows other

/-- A row that is written is known again. -/
theorem Forgot.replaceRow (forgot : Forgot t db db') (key : String) (row : KvRow) :
    Forgot t (db.replaceRow key row) (db'.replaceRow key row) := by
  refine ⟨forgot.nonceLog, fun other => ?_⟩
  by_cases same : other = key
  · subst same
    exact .inl (by rw [Db.replaceRow, Db.replaceRow, AList.lookup_insert, AList.lookup_insert])
  · rw [ExpiredAt, Db.replaceRow, Db.replaceRow, AList.lookup_insert_ne same,
      AList.lookup_insert_ne same]
    exact forgot.rows other

theorem Forgot.deleteExpired (forgot : Forgot t db db') (later : t ≤ now) :
    Forgot t (db.deleteExpired now) (db'.deleteExpired now) := by
  refine ⟨forgot.nonceLog, fun key => .inl ?_⟩
  have live := forgot.get later key
  rw [Db.deleteExpired, Db.deleteExpired, lookup_keep, lookup_keep]
  exact live

theorem Forgot.pruneOldNonces (forgot : Forgot t db db') (cutoff : Int) :
    Forgot t (db.pruneOldNonces cutoff) (db'.pruneOldNonces cutoff) :=
  ⟨by rw [Db.pruneOldNonces, Db.pruneOldNonces, forgot.nonceLog], forgot.rows⟩

theorem put_fst (args : PutArgs) (secs : Int) :
    (db.put args now secs).1 = true ↔ ¬ maxValueSize < args.value.utf8ByteSize ∧
      db.isNonceSeen args.key args.nonce = false ∧
        ∀ seq, db.storedSeq args.key = some seq → seq < args.seq := by
  rw [Db.put]
  split
  · next large => simp [large]
  · next fits =>
    rw [and_iff_right fits, afterNonce]
    cases db.isNonceSeen args.key args.nonce with
    | true => simp
    | false =>
      rw [afterSeq]
      cases db.storedSeq args.key with
      | none => simp
      | some existing =>
        by_cases stale : args.seq ≤ existing
        · simp [stale]
        · simp [stale, Int64.not_le.mp stale]

theorem put_snd (args : PutArgs) (secs : Int) :
    (db.put args now secs).2 =
      if (db.put args now secs).1 then db.commitPut args now secs else db := by
  rw [Db.put]
  split
  · rfl
  · split
    · rfl
    · split <;> rfl

/-- A put is answered alike unless the sequence number of an expired row alone refuses it. -/
theorem Forgot.put_fst (forgot : Forgot t db db') (args : PutArgs) (secs : Int)
    (ignores : ∀ key, db'.kvStore.lookup key ≠ db.kvStore.lookup key →
      Ignores db key (.put args secs)) :
    (db'.put args now secs).1 = (db.put args now secs).1 := by
  have seen : db'.isNonceSeen args.key args.nonce = db.isNonceSeen args.key args.nonce := by
    rw [Db.isNonceSeen, Db.isNonceSeen, forgot.nonceLog]
  rw [Bool.eq_iff_iff, DhtStore.put_fst, DhtStore.put_fst, seen, Db.storedSeq, Db.storedSeq]
  by_cases same : db'.kvStore.lookup args.key = db.kvStore.lookup args.key
  · rw [same]
  · have gone := ((forgot.rows args.key).resolve_left same).1
    rw [gone]
    constructor
    · rintro ⟨fits, fresh, -⟩
      refine ⟨fits, fresh, ?_⟩
      rcases ignores args.key same rfl with large | seen | newer
      · exact absurd large fits
      · rw [fresh] at seen
        cases seen
      · exact newer
    · rintro ⟨fits, fresh, -⟩
      exact ⟨fits, fresh, fun seq none_ => by cases none_⟩

/-- An operation that ignores the forgotten rows is answered alike, and leaves no other
difference. -/
theorem Forgot.operate (forgot : Forgot t db db') (later : t ≤ now) (op : Operation)
    (ignores : ∀ key, db'.kvStore.lookup key ≠ db.kvStore.lookup key → Ignores db key op) :
    (operate db' (now, op)).1 = (operate db (now, op)).1 ∧
      Forgot t (operate db (now, op)).2 (operate db' (now, op)).2 := by
  cases op with
  | get key => exact ⟨congrArg Reply.record (forgot.get later key), forgot⟩
  | hasKey key =>
    refine ⟨congrArg Reply.flag ?_, forgot⟩
    by_cases same : db'.kvStore.lookup key = db.kvStore.lookup key
    · rw [Db.hasKey, Db.hasKey, same]
    · exact absurd rfl (ignores key same)
  | countKeys =>
    exact ⟨congrArg Reply.count (countKeys_congr fun key => forgot.get later key), forgot⟩
  | isNonceSeen key nonce =>
    refine ⟨congrArg Reply.flag ?_, forgot⟩
    rw [Db.isNonceSeen, Db.isNonceSeen, forgot.nonceLog]
  | put args secs =>
    have answer := @Forgot.put_fst t now db db' forgot args secs ignores
    refine ⟨congrArg Reply.flag answer, ?_⟩
    show Forgot t (db.put args now secs).2 (db'.put args now secs).2
    rw [put_snd, put_snd, answer]
    split
    · exact (forgot.insertNonce _ _ _).replaceRow _ _
    · exact forgot
  | putBlob key value salt publisherFp ttl sig seq =>
    simp only [DhtStore.operate, Db.putBlob]
    split
    · exact ⟨rfl, forgot⟩
    · exact ⟨rfl, forgot.replaceRow _ _⟩
  | deleteExpired => exact ⟨rfl, forgot.deleteExpired later⟩
  | pruneOldNonces cutoff => exact ⟨rfl, forgot.pruneOldNonces cutoff⟩

/-- Also in a whole run. -/
theorem Forgot.outputs (forgot : Forgot t db db') (ops : List (ℚ × Operation))
    (later : ∀ a ∈ ops, t ≤ a.1)
    (ignores : Mealy.Along DhtStore.operate (IgnoresExpired t) db ops) :
    Mealy.outputs DhtStore.operate db' ops = Mealy.outputs DhtStore.operate db ops := by
  induction ops generalizing db db' with
  | nil => rfl
  | cons a rest ih =>
    obtain ⟨now, op⟩ := a
    obtain ⟨first, others⟩ := List.forall_mem_cons.mp later
    obtain ⟨answer, next⟩ := forgot.operate first op fun key differ =>
      ignores.1 key ((forgot.rows key).resolve_left differ).2
    rw [Mealy.outputs, Mealy.outputs, answer, ih next others ignores.2]

/-- An expired row makes a difference to exactly the operations that do not ignore it. -/
theorem operate_without_iff {key : String} (expired : ExpiredAt db key now) (op : Operation) :
    (operate (db.without key) (now, op)).1 = (operate db (now, op)).1 ↔ Ignores db key op := by
  have gone : (db.without key).kvStore.lookup key = none := AList.lookup_erase ..
  constructor
  · intro same
    cases op with
    | hasKey asked =>
      rintro rfl
      obtain ⟨row, found, -⟩ := expired
      have answers := Reply.flag.inj same
      rw [Db.hasKey, Db.hasKey, gone, found] at answers
      cases answers
    | put args secs =>
      rintro rfl
      by_cases large : maxValueSize < args.value.utf8ByteSize
      · exact .inl large
      · cases seen : db.isNonceSeen args.key args.nonce with
        | true => exact .inr (.inl rfl)
        | false =>
          have accepted : ((db.without args.key).put args now secs).1 = true := by
            refine (put_fst args secs).mpr ⟨large, seen, fun seq stored => ?_⟩
            rw [Db.storedSeq, gone] at stored
            cases stored
          have answers : ((db.without args.key).put args now secs).1 =
            (db.put args now secs).1 := Reply.flag.inj same
          rw [accepted] at answers
          exact .inr (.inr ((put_fst args secs).mp answers.symm).2.2)
    | _ => trivial
  · intro ignores
    refine ((forgot_without expired).operate le_rfl op fun other differ => ?_).1
    have here : other = key := by
      by_contra different
      exact differ (AList.lookup_erase_ne different)
    exact here ▸ ignores

/-- A registration after `get` has found nothing is refused by any row that expired with a
number from 0 on. -/
theorem register_iff {key : String} (expired : ExpiredAt db key now) {args : PutArgs}
    {timestamp : Int64} (secs : Int) (asked : args.key = key)
    (seq : args.seq = dhtRegisterSeq (db.get key now).isSome timestamp)
    (fits : ¬ maxValueSize < args.value.utf8ByteSize)
    (fresh : db.isNonceSeen key args.nonce = false) :
    (db.put args now secs).1 = true ↔ ∀ existing, db.storedSeq key = some existing →
      existing < 0 := by
  subst asked
  have none_ : db.get args.key now = none := by
    obtain ⟨row, found, stale⟩ := expired
    rw [Db.get, found, Option.filter_some]
    simp [stale]
  rw [none_] at seq
  have zero : args.seq = 0 := seq
  rw [put_fst, zero, and_iff_right fits, and_iff_right fresh]

end

/-- An expired row is absent for exactly the operations that ignore it; a registration after
`get` has found nothing is accepted only over a negative number; and a deletion of expired
rows is not noticed by a run that ignores them. -/
theorem expired_absent_iff (db : Db) (now : ℚ) :
    (∀ key, ExpiredAt db key now → ∀ op,
      ((operate (db.without key) (now, op)).1 = (operate db (now, op)).1 ↔ Ignores db key op)) ∧
    (∀ key, ExpiredAt db key now → ∀ (args : PutArgs) timestamp secs,
      args.key = key → args.seq = dhtRegisterSeq (db.get key now).isSome timestamp →
      ¬ maxValueSize < args.value.utf8ByteSize → db.isNonceSeen key args.nonce = false →
      ((db.put args now secs).1 = true ↔
        ∀ existing, db.storedSeq key = some existing → existing < 0)) ∧
    ∀ ops : List (ℚ × Operation), (∀ a ∈ ops, now ≤ a.1) →
      Mealy.Along operate (IgnoresExpired now) db ops →
      Mealy.outputs operate (db.deleteExpired now) ops = Mealy.outputs operate db ops :=
  ⟨fun _ expired op => operate_without_iff expired op,
    fun _ expired _ _ secs asked seq fits fresh => register_iff expired secs asked seq fits fresh,
    fun ops later ignores => (forgot_deleteExpired db now).outputs ops later ignores⟩

/-- One record, which has expired at 60. -/
def expiredDb : Db :=
  ⟨AList.singleton "k" ⟨"v", "", 1700000000, "AB", 0, 60, "s"⟩, ∅⟩

theorem expiredDb_expiredAt : ExpiredAt expiredDb "k" 60 :=
  ⟨_, rfl, le_rfl⟩

/-- The client is told that its key is not there, and its registration is refused. -/
theorem not_expired_absent :
    (expiredDb.put (record 0 9) 60 60).1 = false ∧
      ((expiredDb.without "k").put (record 0 9) 60 60).1 = true ∧
      ¬ ∀ (db : Db) key now, ExpiredAt db key now → ∀ op,
        (operate (db.without key) (now, op)).1 = (operate db (now, op)).1 := by
  have refused : (expiredDb.put (record 0 9) 60 60).1 = false := rfl
  have stored : ((expiredDb.without "k").put (record 0 9) 60 60).1 = true := rfl
  refine ⟨refused, stored, fun absent => ?_⟩
  have same := absent expiredDb "k" 60 expiredDb_expiredAt (.put (record 0 9) 60)
  have answers : ((expiredDb.without "k").put (record 0 9) 60 60).1 =
    (expiredDb.put (record 0 9) 60 60).1 := Reply.flag.inj same
  rw [refused, stored] at answers
  cases answers

theorem expired_absent_iff_expiredDb :
    ExpiredAt expiredDb "k" 60 ∧
      (operate (expiredDb.without "k") (60, .countKeys)).1 =
        (operate expiredDb (60, .countKeys)).1 ∧
      Mealy.outputs operate (expiredDb.deleteExpired 60) [(60, .get "k")] =
        Mealy.outputs operate expiredDb [(60, .get "k")] := by
  refine ⟨expiredDb_expiredAt, ?_, ?_⟩
  · exact ((expired_absent_iff expiredDb 60).1 "k" expiredDb_expiredAt .countKeys).mpr trivial
  · refine (expired_absent_iff expiredDb 60).2.2 [(60, .get "k")] (fun a member => ?_) ?_
    · rw [List.mem_singleton.mp member]
    · exact ⟨fun _ _ => trivial, trivial⟩

end DhtStore

import AddMessenger.Mealy
import AddMessenger.MessageStore
import AddMessenger.SqlTables

/-!
# A store that was plaintext once

`MessageStore::open` of `client/src/main.rs` on a database whose tables may be those of an
older build, `migrate_legacy_plaintext_store`, and the statements of the store at the level
of SQL: columns, NOT NULL and UNIQUE constraints, keys that count up.

A text under the database key is kept as the text it decrypts to. A statement that fails for
other reasons than a constraint (a locked file, a full disk) is left out.
-/

namespace StoreMigration

open ByteStrings SqlTables
open MessageStore (blindIndex)

inductive Value where
  | text (s : String)
  | sealed (s : String)
  | int (n : Int64)
  deriving DecidableEq

inductive MessageColumn where
  | fromNid
  | toNid
  | timestamp
  | readReceiptAt
  | messageId
  | fromNidEnc
  | toNidEnc
  | ciphertext
  | timestampEnc
  | delivered
  | status
  | statusUpdatedAt
  | readReceiptAtEnc
  | messageIdEnc
  | messageIdIdx
  deriving DecidableEq

inductive SessionColumn where
  | peerNid
  | peerNidIdx
  | peerNidEnc
  | sessionData
  | updatedAt
  deriving DecidableEq

abbrev Messages := Table MessageColumn Value

abbrev Sessions := Table SessionColumn Value

/-- `CREATE TABLE IF NOT EXISTS messages`; `id` is the key of a row. -/
def messagesSchema : Schema MessageColumn where
  columns := [.fromNidEnc, .toNidEnc, .ciphertext, .timestampEnc, .delivered, .status,
    .statusUpdatedAt, .readReceiptAtEnc, .messageIdEnc, .messageIdIdx]
  notNull := [.fromNidEnc, .toNidEnc, .ciphertext, .timestampEnc, .delivered, .status,
    .statusUpdatedAt, .messageIdEnc, .messageIdIdx]
  unique := [.messageIdIdx]

def sessionsSchema : Schema SessionColumn where
  columns := [.peerNidIdx, .peerNidEnc, .sessionData, .updatedAt]
  notNull := [.peerNidIdx, .peerNidEnc, .sessionData, .updatedAt]
  unique := [.peerNidIdx]

/-- The tables of a build before the metadata was encrypted. -/
def legacyMessagesSchema : Schema MessageColumn where
  columns := [.fromNid, .toNid, .ciphertext, .timestamp, .delivered, .status, .statusUpdatedAt,
    .readReceiptAt, .messageId]
  notNull := [.fromNid, .toNid, .ciphertext, .timestamp, .delivered, .status, .statusUpdatedAt,
    .messageId]
  unique := [.messageId]

def legacySessionsSchema : Schema SessionColumn where
  columns := [.peerNid, .sessionData, .updatedAt]
  notNull := [.peerNid, .sessionData, .updatedAt]
  unique := [.peerNid]

/-- A transition in `message_history`. -/
structure HistoryRow where
  messageIdIdx : String
  messageId : String
  fromNid : String
  toNid : String
  oldStatus : UInt8
  newStatus : UInt8
  statusUpdatedAt : String
  transitionReason : String

/-- What is on disk; a table may not be there yet. -/
structure Disk where
  messages : Option Messages
  sessions : Option Sessions
  history : Option (List HistoryRow)

/-- An open store. Each connection of the pool has the key of its last insert. -/
structure Database where
  messages : Messages
  sessions : Sessions
  history : List HistoryRow
  lastInsertRowid : Nat → Int

variable (S : Signatures.Primitives) (key : Bytes)

/-- `try_get` of a text; a row that is migrated has no encrypted column yet. -/
def tryGet : Option Value → Except String String
  | some (.text s) => .ok s
  | _ => .error "unexpected null or type"

def migrateMessage (t : Messages) (row : Int × Record MessageColumn Value) :
    Except String Messages := do
  let fromNid ← tryGet (row.2 .fromNid)
  let toNid ← tryGet (row.2 .toNid)
  let timestamp ← tryGet (row.2 .timestamp)
  let messageId ← tryGet (row.2 .messageId)
  let readReceiptAt := (tryGet (row.2 .readReceiptAt)).toOption
  let body ← tryGet (row.2 .ciphertext)
  .ok (t.update (fun r => r.1 == row.1) fun
    | .fromNidEnc => some (some (.sealed fromNid))
    | .toNidEnc => some (some (.sealed toNid))
    | .timestampEnc => some (some (.sealed timestamp))
    | .messageIdEnc => some (some (.sealed messageId))
    | .messageIdIdx => some (some (.text (blindIndex S key messageId)))
    | .readReceiptAtEnc => some (readReceiptAt.map .sealed)
    | .ciphertext => some (some (.sealed body))
    | _ => none)

def migrateSession (t : Sessions) (row : Int × Record SessionColumn Value) :
    Except String Sessions := do
  let peerNid ← tryGet (row.2 .peerNid)
  let sessionData ← tryGet (row.2 .sessionData)
  .ok (t.update (fun r => r.1 == row.1) fun
    | .peerNidIdx => some (some (.text (blindIndex S key peerNid)))
    | .peerNidEnc => some (some (.sealed peerNid))
    | .sessionData => some (some (.sealed sessionData))
    | _ => none)

def addMessageColumns (t : Messages) : Messages :=
  if MessageColumn.fromNidEnc ∈ t.schema.columns then t
  else
    ((((((t.addColumn .fromNidEnc).addColumn .toNidEnc).addColumn .timestampEnc).addColumn
      .readReceiptAtEnc).addColumn .messageIdEnc).addColumn .messageIdIdx)

def addSessionColumns (t : Sessions) : Sessions :=
  if SessionColumn.peerNidEnc ∈ t.schema.columns then t
  else (t.addColumn .peerNidIdx).addColumn .peerNidEnc

/-- The rows that are not encrypted yet; no rows where the plaintext columns do not exist and
the query fails. -/
def legacyMessageRows (t : Messages) : List (Int × Record MessageColumn Value) :=
  if [.fromNid, .toNid, .timestamp, .messageId, .readReceiptAt].all (· ∈ t.schema.columns) then
    t.rows.filter fun row => (row.2 .fromNidEnc).isNone
  else []

def legacySessionRows (t : Sessions) : List (Int × Record SessionColumn Value) :=
  if SessionColumn.peerNid ∈ t.schema.columns then
    t.rows.filter fun row => (row.2 .peerNidEnc).isNone
  else []

def migrateLegacyPlaintextStore (db : Database) : Except String Database := do
  let messages := addMessageColumns db.messages
  let sessions := addSessionColumns db.sessions
  let messages ← (legacyMessageRows messages).foldlM (migrateMessage S key) messages
  let sessions ← (legacySessionRows sessions).foldlM (migrateSession S key) sessions
  .ok { db with messages := messages, sessions := sessions }

def openStore (disk : Disk) : Except String Database :=
  migrateLegacyPlaintextStore S key {
    messages := disk.messages.getD ⟨messagesSchema, [], 0⟩
    sessions := disk.sessions.getD ⟨sessionsSchema, [], 0⟩
    history := disk.history.getD []
    lastInsertRowid := fun _ => 0 }

def decrypt : Value → Option String
  | .sealed s => some s
  | _ => none

structure MessageRow where
  id : Int
  fromNidEnc : Value
  toNidEnc : Value
  ciphertext : Value
  timestampEnc : Value
  delivered : Int64
  status : Int64
  statusUpdatedAt : String
  readReceiptAtEnc : Option Value
  messageIdEnc : Value

structure StoredMessage where
  id : Int
  fromNid : String
  toNid : String
  ciphertext : String
  timestamp : String
  delivered : Bool
  status : UInt8
  statusUpdatedAt : String
  readReceiptAt : Option String
  messageId : String
  deriving DecidableEq

def getText : Option Value → Except String Value
  | some (.text s) => .ok (.text s)
  | some (.sealed s) => .ok (.sealed s)
  | _ => .error "unexpected null or type"

def getInt : Option Value → Except String Int64
  | some (.int n) => .ok n
  | _ => .error "unexpected null or type"

/-- `sqlx::FromRow`. -/
def MessageRow.fromRow (row : Int × Record MessageColumn Value) : Except String MessageRow := do
  let fromNidEnc ← getText (row.2 .fromNidEnc)
  let toNidEnc ← getText (row.2 .toNidEnc)
  let ciphertext ← getText (row.2 .ciphertext)
  let timestampEnc ← getText (row.2 .timestampEnc)
  let delivered ← getInt (row.2 .delivered)
  let status ← getInt (row.2 .status)
  let statusUpdatedAt ← tryGet (row.2 .statusUpdatedAt)
  let messageIdEnc ← getText (row.2 .messageIdEnc)
  .ok ⟨row.1, fromNidEnc, toNidEnc, ciphertext, timestampEnc, delivered, status, statusUpdatedAt,
    row.2 .readReceiptAtEnc, messageIdEnc⟩

/-- `as u8` of a status. -/
def asU8 (n : Int64) : UInt8 := n.toUInt64.toUInt8

def MessageRow.stored (r : MessageRow) : Option StoredMessage := do
  let pt ← decrypt r.ciphertext
  let fromNid ← decrypt r.fromNidEnc
  let toNid ← decrypt r.toNidEnc
  let timestamp ← decrypt r.timestampEnc
  let messageId ← decrypt r.messageIdEnc
  some {
    id := r.id
    fromNid := fromNid
    toNid := toNid
    ciphertext := pt
    timestamp := timestamp
    delivered := r.delivered ≠ 0
    status := asU8 r.status
    statusUpdatedAt := r.statusUpdatedAt
    readReceiptAt := r.readReceiptAtEnc.bind decrypt
    messageId := messageId }

/-- A negative limit is none. -/
def limited {Row : Type} (limit : Int64) (rows : List Row) : List Row :=
  if limit < 0 then rows else rows.take limit.toInt.toNat

def Database.getMessages (db : Database) (limit : Int64) : Except String (List StoredMessage) :=
  ((limited limit db.messages.rows.reverse).mapM MessageRow.fromRow).map fun rows =>
    rows.filterMap MessageRow.stored

def deliveredOf (status : UInt8) : Int64 := if 2 ≤ status then 1 else 0

/-- The values of the insert. -/
def messageRecord (fromNid toNid ciphertext : String) (status : UInt8)
    (messageId now : String) : Record MessageColumn Value
  | .fromNidEnc => some (.sealed fromNid)
  | .toNidEnc => some (.sealed toNid)
  | .ciphertext => some (.sealed ciphertext)
  | .timestampEnc => some (.sealed now)
  | .delivered => some (.int (deliveredOf status))
  | .status => some (.int status.toUInt64.toInt64)
  | .statusUpdatedAt => some (.text now)
  | .messageIdEnc => some (.sealed messageId)
  | .messageIdIdx => some (.text (blindIndex S key messageId))
  | _ => none

def Database.storeMessage (db : Database) (conn : Nat) (fromNid toNid ciphertext : String)
    (status : UInt8) (messageId now : String) : Int × Database :=
  let record := messageRecord S key fromNid toNid ciphertext status messageId now
  match db.messages.insertOrIgnore record with
  | (some id, messages) =>
    (id, { db with
      messages := messages
      lastInsertRowid := Function.update db.lastInsertRowid conn id })
  | (none, _) => (db.lastInsertRowid conn, db)

def transitionReason (status : UInt8) : String :=
  if status = 1 then "relay_ack"
  else if status = 2 then "delivered"
  else if status = 3 then "read_receipt"
  else "status_change"

/-- The row of a message id. -/
def hasIdx (midIdx : String) (row : Int × Record MessageColumn Value) : Bool :=
  row.2 .messageIdIdx == some (.text midIdx)

def statusValues (status : UInt8) (now : String) : MessageColumn → Option (Option Value)
  | .status => some (some (.int status.toUInt64.toInt64))
  | .statusUpdatedAt => some (some (.text now))
  | .delivered => some (some (.int (deliveredOf status)))
  | _ => none

def Database.updateMessageStatus (db : Database) (conn : Nat) (messageId : String)
    (status : UInt8) (now : String) : Except String Bool × Database :=
  let midIdx := blindIndex S key messageId
  match ((db.messages.rows.filter (hasIdx midIdx)).map MessageRow.fromRow).head? with
  | none => (.ok false, db)
  | some (.error e) => (.error e, db)
  | some (.ok current) =>
    let entry : HistoryRow := ⟨midIdx, messageId, (decrypt current.fromNidEnc).getD "",
      (decrypt current.toNidEnc).getD "", asU8 current.status, status, now,
      transitionReason status⟩
    (.ok true, { db with
      messages := db.messages.update (hasIdx midIdx) (statusValues status now)
      history := db.history ++ [entry]
      lastInsertRowid := Function.update db.lastInsertRowid conn (db.history.length + 1) })

def sessionRecord (peerNid sessionJson now : String) : Record SessionColumn Value
  | .peerNidIdx => some (.text (blindIndex S key peerNid))
  | .peerNidEnc => some (.sealed peerNid)
  | .sessionData => some (.sealed sessionJson)
  | .updatedAt => some (.text now)
  | _ => none

def Database.saveSession (db : Database) (conn : Nat) (peerNid sessionJson now : String) :
    Except String Unit × Database :=
  let record := sessionRecord S key peerNid sessionJson now
  match db.sessions.upsert .peerNidIdx record [.peerNidEnc, .sessionData, .updatedAt] with
  | .error e => (.error e, db)
  | .ok (some id, sessions) =>
    (.ok (), { db with
      sessions := sessions
      lastInsertRowid := Function.update db.lastInsertRowid conn id })
  | .ok (none, sessions) => (.ok (), { db with sessions := sessions })

def Database.loadSession (db : Database) (peerNid : String) : Except String (Option String) :=
  let nidIdx := blindIndex S key peerNid
  match ((db.sessions.rows.filter fun row => row.2 .peerNidIdx == some (.text nidIdx)).map
    fun row => getText (row.2 .sessionData)).head? with
  | none => .ok none
  | some (.error e) => .error e
  | some (.ok data) =>
    match decrypt data with
    | none => .error "decryption failed"
    | some json => .ok (some json)

/-- A call on a store, with the connection it gets and the time. -/
inductive Call where
  | storeMessage (conn : Nat) (fromNid toNid ciphertext : String) (status : UInt8)
      (messageId now : String)
  | updateMessageStatus (conn : Nat) (messageId : String) (status : UInt8) (now : String)
  | saveSession (conn : Nat) (peerNid sessionJson now : String)
  | loadSession (peerNid : String)
  | getMessages (limit : Int64)

inductive Answer where
  | stored (rowid : Int)
  | updated (result : Except String Bool)
  | saved (result : Except String Unit)
  | session (result : Except String (Option String))
  | messages (result : Except String (List StoredMessage))

def step (db : Database) : Call → Answer × Database
  | .storeMessage conn fromNid toNid ciphertext status messageId now =>
    (db.storeMessage S key conn fromNid toNid ciphertext status messageId now).map .stored id
  | .updateMessageStatus conn messageId status now =>
    (db.updateMessageStatus S key conn messageId status now).map .updated id
  | .saveSession conn peerNid sessionJson now =>
    (db.saveSession S key conn peerNid sessionJson now).map .saved id
  | .loadSession peerNid => (.session (db.loadSession S key peerNid), db)
  | .getMessages limit => (.messages (db.getMessages limit), db)

structure LegacyMessage where
  id : Int
  fromNid : String
  toNid : String
  ciphertext : String
  timestamp : String
  delivered : Int64
  status : Int64
  statusUpdatedAt : String
  readReceiptAt : Option String
  messageId : String

structure LegacySession where
  id : Int
  peerNid : String
  sessionData : String
  updatedAt : String

/-- A database of the old schema, with any rows that the schema allows. -/
structure LegacyDb where
  messages : List LegacyMessage
  sessions : List LegacySession
  messagesSeq : Int
  sessionsSeq : Int
  messagesAscending : (messages.map (·.id)).Pairwise (· < ·)
  sessionsAscending : (sessions.map (·.id)).Pairwise (· < ·)
  messagesBelow : ∀ m ∈ messages, m.id ≤ messagesSeq
  sessionsBelow : ∀ s ∈ sessions, s.id ≤ sessionsSeq
  messageIds : (messages.map (·.messageId)).Nodup
  peerNids : (sessions.map (·.peerNid)).Nodup

def LegacyMessage.row (m : LegacyMessage) : Int × Record MessageColumn Value :=
  (m.id, fun
    | .fromNid => some (.text m.fromNid)
    | .toNid => some (.text m.toNid)
    | .ciphertext => some (.text m.ciphertext)
    | .timestamp => some (.text m.timestamp)
    | .delivered => some (.int m.delivered)
    | .status => some (.int m.status)
    | .statusUpdatedAt => some (.text m.statusUpdatedAt)
    | .readReceiptAt => m.readReceiptAt.map .text
    | .messageId => some (.text m.messageId)
    | _ => none)

def LegacySession.row (s : LegacySession) : Int × Record SessionColumn Value :=
  (s.id, fun
    | .peerNid => some (.text s.peerNid)
    | .sessionData => some (.text s.sessionData)
    | .updatedAt => some (.text s.updatedAt)
    | _ => none)

def LegacyDb.disk (legacy : LegacyDb) : Disk where
  messages := some ⟨legacyMessagesSchema, legacy.messages.map (·.row), legacy.messagesSeq⟩
  sessions := some ⟨legacySessionsSchema, legacy.sessions.map (·.row), legacy.sessionsSeq⟩
  history := none

/-- The message as a store of the current schema has it. -/
def LegacyMessage.freshRow (m : LegacyMessage) : Int × Record MessageColumn Value :=
  (m.id, fun
    | .fromNidEnc => some (.sealed m.fromNid)
    | .toNidEnc => some (.sealed m.toNid)
    | .ciphertext => some (.sealed m.ciphertext)
    | .timestampEnc => some (.sealed m.timestamp)
    | .delivered => some (.int m.delivered)
    | .status => some (.int m.status)
    | .statusUpdatedAt => some (.text m.statusUpdatedAt)
    | .readReceiptAtEnc => m.readReceiptAt.map .sealed
    | .messageIdEnc => some (.sealed m.messageId)
    | .messageIdIdx => some (.text (blindIndex S key m.messageId))
    | _ => none)

def LegacySession.freshRow (s : LegacySession) : Int × Record SessionColumn Value :=
  (s.id, fun
    | .peerNidIdx => some (.text (blindIndex S key s.peerNid))
    | .peerNidEnc => some (.sealed s.peerNid)
    | .sessionData => some (.sealed s.sessionData)
    | .updatedAt => some (.text s.updatedAt)
    | _ => none)

/-- A store of the current schema that has the legacy messages and sessions. -/
def LegacyDb.fresh (legacy : LegacyDb) : Database where
  messages := ⟨messagesSchema, legacy.messages.map (·.freshRow S key), legacy.messagesSeq⟩
  sessions := ⟨sessionsSchema, legacy.sessions.map (·.freshRow S key), legacy.sessionsSeq⟩
  history := []
  lastInsertRowid := fun _ => 0

/-- The answers of the calls, and what is read at the end, are those of the fresh store. -/
def BehavesFresh (legacy : LegacyDb) (calls : List Call) : Prop :=
  ∃ db, openStore S key legacy.disk = .ok db ∧
    Mealy.outputs (step S key) db (calls ++ [.getMessages (-1)]) =
      Mealy.outputs (step S key) (legacy.fresh S key) (calls ++ [.getMessages (-1)])

/-- The call saves no session and stores no message but one whose id the legacy database
has. -/
def Harmless (legacy : LegacyDb) : Call → Prop
  | .storeMessage _ _ _ _ _ messageId _ =>
    ∃ m ∈ legacy.messages, blindIndex S key m.messageId = blindIndex S key messageId
  | .saveSession _ _ _ _ => False
  | _ => True

variable {S key}

/-- A text column of a legacy row. -/
def plain : Option Value → String
  | some (.text s) => s
  | _ => ""

/-- What the migration assigns to a row. -/
def messageValues (S : Signatures.Primitives) (key : Bytes)
    (row : Int × Record MessageColumn Value) : MessageColumn → Option (Option Value)
  | .fromNidEnc => some (some (.sealed (plain (row.2 .fromNid))))
  | .toNidEnc => some (some (.sealed (plain (row.2 .toNid))))
  | .timestampEnc => some (some (.sealed (plain (row.2 .timestamp))))
  | .messageIdEnc => some (some (.sealed (plain (row.2 .messageId))))
  | .messageIdIdx => some (some (.text (blindIndex S key (plain (row.2 .messageId)))))
  | .readReceiptAtEnc => some ((tryGet (row.2 .readReceiptAt)).toOption.map .sealed)
  | .ciphertext => some (some (.sealed (plain (row.2 .ciphertext))))
  | _ => none

def sessionValues (S : Signatures.Primitives) (key : Bytes)
    (row : Int × Record SessionColumn Value) : SessionColumn → Option (Option Value)
  | .peerNidIdx => some (some (.text (blindIndex S key (plain (row.2 .peerNid)))))
  | .peerNidEnc => some (some (.sealed (plain (row.2 .peerNid))))
  | .sessionData => some (some (.sealed (plain (row.2 .sessionData))))
  | _ => none

theorem migrateMessage_row (m : LegacyMessage) (t : Messages) :
    migrateMessage S key t m.row =
      .ok (t.update (fun r => r.1 == m.row.1) (messageValues S key m.row)) := rfl

theorem migrateSession_row (s : LegacySession) (t : Sessions) :
    migrateSession S key t s.row =
      .ok (t.update (fun r => r.1 == s.row.1) (sessionValues S key s.row)) := rfl

variable (S key) in
/-- The legacy tables with their new columns filled in. -/
def LegacyDb.migrated (legacy : LegacyDb) : Database where
  messages := { addMessageColumns ⟨legacyMessagesSchema, [], legacy.messagesSeq⟩ with
    rows := (legacy.messages.map (·.row)).map fun row =>
      (row.1, assign (messageValues S key row) row.2) }
  sessions := { addSessionColumns ⟨legacySessionsSchema, [], legacy.sessionsSeq⟩ with
    rows := (legacy.sessions.map (·.row)).map fun row =>
      (row.1, assign (sessionValues S key row) row.2) }
  history := []
  lastInsertRowid := fun _ => 0

theorem migrate_eq {db : Database} {messages : Messages} {sessions : Sessions}
    (first : (legacyMessageRows (addMessageColumns db.messages)).foldlM (migrateMessage S key)
      (addMessageColumns db.messages) = .ok messages)
    (second : (legacySessionRows (addSessionColumns db.sessions)).foldlM (migrateSession S key)
      (addSessionColumns db.sessions) = .ok sessions) :
    migrateLegacyPlaintextStore S key db =
      .ok { db with messages := messages, sessions := sessions } := by
  rw [migrateLegacyPlaintextStore, first, second]
  rfl

theorem openStore_legacy (legacy : LegacyDb) :
    openStore S key legacy.disk = .ok (legacy.migrated S key) := by
  let messages : Messages := addMessageColumns
    ⟨legacyMessagesSchema, legacy.messages.map (·.row), legacy.messagesSeq⟩
  let sessions : Sessions := addSessionColumns
    ⟨legacySessionsSchema, legacy.sessions.map (·.row), legacy.sessionsSeq⟩
  have messageRows : legacyMessageRows messages = messages.rows := by
    refine List.filter_eq_self.mpr fun row member => ?_
    obtain ⟨m, -, rfl⟩ := List.mem_map.mp member
    rfl
  have sessionRows : legacySessionRows sessions = sessions.rows := by
    refine List.filter_eq_self.mpr fun row member => ?_
    obtain ⟨s, -, rfl⟩ := List.mem_map.mp member
    rfl
  have migratedMessages : messages.rows.foldlM (migrateMessage S key) messages =
      .ok (legacy.migrated S key).messages := by
    refine Table.foldlM_update_all ?_ ?_
    · intro row member u
      obtain ⟨m, -, rfl⟩ := List.mem_map.mp member
      exact migrateMessage_row m u
    · exact (List.map_map ..).symm ▸ legacy.messagesAscending
  have migratedSessions : sessions.rows.foldlM (migrateSession S key) sessions =
      .ok (legacy.migrated S key).sessions := by
    refine Table.foldlM_update_all ?_ ?_
    · intro row member u
      obtain ⟨s, -, rfl⟩ := List.mem_map.mp member
      exact migrateSession_row s u
    · exact (List.map_map ..).symm ▸ legacy.sessionsAscending
  rw [← messageRows] at migratedMessages
  rw [← sessionRows] at migratedSessions
  exact migrate_eq migratedMessages migratedSessions

/-- The row can be read and decrypted. -/
structure Shown (row : Int × Record MessageColumn Value) : Prop where
  fromNid : ∃ s, row.2 .fromNidEnc = some (.sealed s)
  toNid : ∃ s, row.2 .toNidEnc = some (.sealed s)
  ciphertext : ∃ s, row.2 .ciphertext = some (.sealed s)
  timestamp : ∃ s, row.2 .timestampEnc = some (.sealed s)
  delivered : ∃ n, row.2 .delivered = some (.int n)
  status : ∃ n, row.2 .status = some (.int n)
  statusUpdatedAt : ∃ s, row.2 .statusUpdatedAt = some (.text s)
  messageId : ∃ s, row.2 .messageIdEnc = some (.sealed s)

theorem Shown.read {row : Int × Record MessageColumn Value} (shown : Shown row) :
    ∃ r message, MessageRow.fromRow row = .ok r ∧ r.stored = some message := by
  obtain ⟨⟨a, fromNid⟩, ⟨b, toNid⟩, ⟨c, ciphertext⟩, ⟨d, timestamp⟩, ⟨e, delivered⟩, ⟨f, status⟩,
    ⟨g, statusUpdatedAt⟩, ⟨h, messageId⟩⟩ := shown
  refine ⟨⟨row.1, .sealed a, .sealed b, .sealed c, .sealed d, e, f, g, row.2 .readReceiptAtEnc,
    .sealed h⟩, _, ?_, rfl⟩
  rw [MessageRow.fromRow, fromNid, toNid, ciphertext, timestamp, delivered, status,
    statusUpdatedAt, messageId]
  rfl

/-- Neither the status nor the time of a change hides a row. -/
theorem Shown.assign_status {row : Int × Record MessageColumn Value} (shown : Shown row)
    (status : UInt8) (now : String) : Shown (row.1, assign (statusValues status now) row.2) where
  fromNid := shown.fromNid
  toNid := shown.toNid
  ciphertext := shown.ciphertext
  timestamp := shown.timestamp
  delivered := ⟨_, rfl⟩
  status := ⟨_, rfl⟩
  statusUpdatedAt := ⟨_, rfl⟩
  messageId := shown.messageId

theorem shown_messageRecord (id : Int) (fromNid toNid ciphertext messageId now : String)
    (status : UInt8) :
    Shown (id, messageRecord S key fromNid toNid ciphertext status messageId now) :=
  ⟨⟨_, rfl⟩, ⟨_, rfl⟩, ⟨_, rfl⟩, ⟨_, rfl⟩, ⟨_, rfl⟩, ⟨_, rfl⟩, ⟨_, rfl⟩, ⟨_, rfl⟩⟩

def AllShown (db : Database) : Prop := ∀ row ∈ db.messages.rows, Shown row

theorem AllShown.update {t : Messages} (shown : ∀ row ∈ t.rows, Shown row)
    (test : Int × Record MessageColumn Value → Bool) (status : UInt8) (now : String) :
    ∀ row ∈ (t.update test (statusValues status now)).rows, Shown row := by
  intro row member
  obtain ⟨before, there, rfl⟩ := List.mem_map.mp member
  split
  · exact (shown before there).assign_status status now
  · exact shown before there

/-- A read without a limit shows every row. -/
theorem length_getMessages {db : Database} (shown : AllShown db) :
    ∃ messages, db.getMessages (-1) = .ok messages ∧
      messages.length = db.messages.rows.length := by
  have all : ∀ rows : List (Int × Record MessageColumn Value), (∀ row ∈ rows, Shown row) →
      ∃ found, rows.mapM MessageRow.fromRow = .ok found ∧
        (found.filterMap MessageRow.stored).length = rows.length := by
    intro rows
    induction rows with
    | nil => exact fun _ => ⟨[], rfl, rfl⟩
    | cons row rest ih =>
      intro each
      obtain ⟨r, message, read, stored⟩ := (each row List.mem_cons_self).read
      obtain ⟨found, reads, length⟩ := ih fun other member =>
        each other (List.mem_cons_of_mem _ member)
      refine ⟨r :: found, ?_, ?_⟩
      · rw [List.mapM_cons, read, reads]
        rfl
      · rw [List.filterMap_cons_some stored, List.length_cons, length, List.length_cons]
  obtain ⟨found, reads, length⟩ := all db.messages.rows.reverse fun row member =>
    shown row (List.mem_reverse.mp member)
  refine ⟨found.filterMap MessageRow.stored, ?_, length.trans List.length_reverse⟩
  have unlimited : limited (-1) db.messages.rows.reverse = db.messages.rows.reverse := rfl
  rw [Database.getMessages, unlimited, reads]
  rfl

/-- A table of the old schema still has its constraints, and none on the blind index of a
session. -/
structure Migrated (db : Database) : Prop where
  required : .fromNid ∈ db.messages.schema.notNull
  untargeted : .peerNidIdx ∉ db.sessions.schema.unique
  shown : AllShown db

structure Fresh (db : Database) : Prop where
  messages : db.messages.schema = messagesSchema
  sessions : db.sessions.schema = sessionsSchema
  shown : AllShown db

section

variable {db : Database} {conn : Nat} {fromNid toNid ciphertext messageId now : String}
  {status : UInt8} {peerNid sessionJson : String}

/-- Every new message violates a constraint of the old columns and is dropped. -/
theorem storeMessage_migrated (migrated : Migrated db) :
    db.storeMessage S key conn fromNid toNid ciphertext status messageId now =
      (db.lastInsertRowid conn, db) := by
  have dropped : db.messages.insertOrIgnore
      (messageRecord S key fromNid toNid ciphertext status messageId now) = (none, db.messages) :=
    Table.insertOrIgnore_of_incomplete migrated.required rfl
  simp only [Database.storeMessage, dropped]

/-- The blind index is no target for a conflict, and the statement is refused. -/
theorem saveSession_migrated (migrated : Migrated db) :
    ∃ e, db.saveSession S key conn peerNid sessionJson now = (.error e, db) := by
  refine ⟨"ON CONFLICT clause does not match any PRIMARY KEY or UNIQUE constraint", ?_⟩
  simp only [Database.saveSession, Table.upsert, if_pos migrated.untargeted]

theorem clashes_messageRecord :
    db.messages.clashes (messageRecord S key fromNid toNid ciphertext status messageId now)
      .messageIdIdx = db.messages.rows.any (hasIdx (blindIndex S key messageId)) := rfl

/-- A message id that is there is ignored. -/
theorem storeMessage_known (fresh : Fresh db)
    (known : db.messages.rows.any (hasIdx (blindIndex S key messageId)) = true) :
    db.storeMessage S key conn fromNid toNid ciphertext status messageId now =
      (db.lastInsertRowid conn, db) := by
  have dropped : db.messages.insertOrIgnore
      (messageRecord S key fromNid toNid ciphertext status messageId now) =
        (none, db.messages) := by
    refine Table.insertOrIgnore_of_clash (c := .messageIdIdx) ?_ known
    rw [fresh.messages]
    exact List.mem_singleton.mpr rfl
  simp only [Database.storeMessage, dropped]

/-- A new one is stored. -/
theorem storeMessage_new (fresh : Fresh db)
    (unknown : db.messages.rows.any (hasIdx (blindIndex S key messageId)) = false) :
    db.storeMessage S key conn fromNid toNid ciphertext status messageId now =
      (db.messages.seq + 1, { db with
        messages := db.messages.append
          (messageRecord S key fromNid toNid ciphertext status messageId now)
        lastInsertRowid := Function.update db.lastInsertRowid conn (db.messages.seq + 1) }) := by
  have inserted : db.messages.insertOrIgnore
      (messageRecord S key fromNid toNid ciphertext status messageId now) =
        (some (db.messages.seq + 1), db.messages.append
          (messageRecord S key fromNid toNid ciphertext status messageId now)) := by
    rw [Table.insertOrIgnore, Table.complete, fresh.messages]
    simp only [messagesSchema, List.any_cons, clashes_messageRecord, unknown, List.any_nil]
    rfl
  simp only [Database.storeMessage, inserted]

theorem saveSession_fresh (fresh : Fresh db) :
    (db.saveSession S key conn peerNid sessionJson now).1 = .ok () ∧
      (db.saveSession S key conn peerNid sessionJson now).2.messages = db.messages ∧
      (db.saveSession S key conn peerNid sessionJson now).2.sessions.schema =
        db.sessions.schema := by
  have complete : db.sessions.complete (sessionRecord S key peerNid sessionJson now) = true := by
    rw [Table.complete, fresh.sessions]
    rfl
  obtain ⟨id, after, written, schema⟩ := Table.upsert_ok
    [.peerNidEnc, .sessionData, .updatedAt] (congrArg Schema.unique fresh.sessions) complete
  simp only [Database.saveSession, written]
  cases id with
  | none => exact ⟨rfl, rfl, schema⟩
  | some id => exact ⟨rfl, rfl, schema⟩

/-- The blind indexes of the messages. -/
def Database.idxs (db : Database) : List (Option Value) :=
  db.messages.rows.map fun row => row.2 .messageIdIdx

/-- What a change of status leaves alone. -/
structure Frame (db after : Database) : Prop where
  messages : after.messages.schema = db.messages.schema
  sessions : after.sessions.schema = db.sessions.schema
  length : after.messages.rows.length = db.messages.rows.length
  shown : AllShown db → AllShown after
  idxs : after.idxs = db.idxs

theorem Frame.refl (db : Database) : Frame db db := ⟨rfl, rfl, rfl, id, rfl⟩

theorem updateMessageStatus_frame :
    Frame db (db.updateMessageStatus S key conn messageId status now).2 := by
  rw [Database.updateMessageStatus]
  split
  · exact Frame.refl db
  · exact Frame.refl db
  · refine ⟨rfl, rfl, Table.length_update .., fun shown => AllShown.update shown _ status now, ?_⟩
    simp only [Database.idxs, Table.update, List.map_map]
    refine List.map_congr_left fun row _ => ?_
    simp only [Function.comp_apply]
    split
    · rfl
    · rfl

end

/-- No call gets a row into a migrated table. -/
theorem step_migrated {db : Database} (migrated : Migrated db) (call : Call) :
    Migrated (step S key db call).2 ∧
      (step S key db call).2.messages.rows.length = db.messages.rows.length := by
  cases call with
  | storeMessage conn fromNid toNid ciphertext status messageId now =>
    simp only [step, storeMessage_migrated migrated, Prod.map, id_eq, and_true]
    exact migrated
  | updateMessageStatus conn messageId status now =>
    have frame := @updateMessageStatus_frame S key db conn messageId now status
    exact ⟨⟨frame.messages ▸ migrated.required, frame.sessions ▸ migrated.untargeted,
      frame.shown migrated.shown⟩, frame.length⟩
  | saveSession conn peerNid sessionJson now =>
    obtain ⟨e, refused⟩ :=
      @saveSession_migrated S key db conn now peerNid sessionJson migrated
    simp only [step, refused, Prod.map, id_eq, and_true]
    exact migrated
  | loadSession peerNid => exact ⟨migrated, rfl⟩
  | getMessages limit => exact ⟨migrated, rfl⟩

theorem step_fresh {db : Database} (fresh : Fresh db) (call : Call) :
    Fresh (step S key db call).2 ∧
      db.messages.rows.length ≤ (step S key db call).2.messages.rows.length := by
  cases call with
  | storeMessage conn fromNid toNid ciphertext status messageId now =>
    cases known : db.messages.rows.any (hasIdx (blindIndex S key messageId)) with
    | true =>
      simp only [step, storeMessage_known fresh known, Prod.map, id_eq, le_refl, and_true]
      exact fresh
    | false =>
      simp only [step, storeMessage_new fresh known, Prod.map, id_eq, Table.append,
        List.length_append]
      refine ⟨⟨fresh.messages, fresh.sessions, ?_⟩, Nat.le_add_right _ _⟩
      intro row member
      rcases List.mem_append.mp member with before | last
      · exact fresh.shown row before
      · rw [List.mem_singleton.mp last]
        exact shown_messageRecord ..
  | updateMessageStatus conn messageId status now =>
    have frame := @updateMessageStatus_frame S key db conn messageId now status
    exact ⟨⟨frame.messages.trans fresh.messages, frame.sessions.trans fresh.sessions,
      frame.shown fresh.shown⟩, frame.length.ge⟩
  | saveSession conn peerNid sessionJson now =>
    obtain ⟨-, messages, sessions⟩ :=
      @saveSession_fresh S key db conn now peerNid sessionJson fresh
    refine ⟨⟨?_, sessions.trans fresh.sessions, ?_⟩, ?_⟩
    · exact (congrArg Table.schema messages).trans fresh.messages
    · intro row member
      exact fresh.shown row (messages ▸ member)
    · exact (congrArg (·.rows.length) messages).ge
  | loadSession peerNid => exact ⟨fresh, Nat.le_refl _⟩
  | getMessages limit => exact ⟨fresh, Nat.le_refl _⟩

/-- Two stores have the same values in the columns of the current schema. -/
structure Like (m f : Database) : Prop where
  messages : Alike messagesSchema.columns m.messages f.messages
  sessions : Alike sessionsSchema.columns m.sessions f.sessions
  history : m.history = f.history
  rowids : m.lastInsertRowid = f.lastInsertRowid

theorem reads_fromRow : Reads messagesSchema.columns MessageRow.fromRow := fun _ => rfl

theorem reads_hasIdx (midIdx : String) : Reads messagesSchema.columns (hasIdx midIdx) :=
  fun _ => rfl

theorem limited_map {Row Result : Type} (limit : Int64) (f : Row → Result) (rows : List Row) :
    limited limit (rows.map f) = (limited limit rows).map f := by
  rw [limited, limited]
  split
  · rfl
  · exact List.map_take.symm

section

variable {m f : Database}

theorem getMessages_like (like : Like m f) (limit : Int64) :
    m.getMessages limit = f.getMessages limit := by
  have through : ∀ db : Database, (limited limit db.messages.rows.reverse).mapM MessageRow.fromRow =
      (limited limit (db.messages.rows.map MessageRow.fromRow).reverse).mapM id := by
    intro db
    rw [← List.map_reverse, limited_map, List.mapM_map]
    rfl
  rw [Database.getMessages, Database.getMessages, through m, through f,
    like.messages.map_eq reads_fromRow]

theorem loadSession_like (like : Like m f) (peerNid : String) :
    m.loadSession S key peerNid = f.loadSession S key peerNid := by
  rw [Database.loadSession, Database.loadSession,
    like.sessions.select_eq (fun _ => rfl) fun _ => rfl]

theorem updateMessageStatus_like (like : Like m f) (conn : Nat) (messageId : String)
    (status : UInt8) (now : String) :
    (m.updateMessageStatus S key conn messageId status now).1 =
        (f.updateMessageStatus S key conn messageId status now).1 ∧
      Like (m.updateMessageStatus S key conn messageId status now).2
        (f.updateMessageStatus S key conn messageId status now).2 := by
  rw [Database.updateMessageStatus, Database.updateMessageStatus,
    like.messages.select_eq (reads_hasIdx _) reads_fromRow]
  split
  · exact ⟨rfl, like⟩
  · exact ⟨rfl, like⟩
  · refine ⟨rfl, like.messages.update (reads_hasIdx _) _, like.sessions, ?_, ?_⟩
    · simp only [like.history]
    · simp only [like.history, like.rowids]

end

/-- In a store whose messages have these blind indexes the call saves no session and stores
nothing new. -/
def HarmlessIn (S : Signatures.Primitives) (key : Bytes) (idxs : List (Option Value)) :
    Call → Prop
  | .storeMessage _ _ _ _ _ messageId _ => some (.text (blindIndex S key messageId)) ∈ idxs
  | .saveSession _ _ _ _ => False
  | _ => True

theorem any_hasIdx {db : Database} {midIdx : String} :
    db.messages.rows.any (hasIdx midIdx) = true ↔ some (.text midIdx) ∈ db.idxs := by
  simp only [List.any_eq_true, hasIdx, beq_iff_eq, Database.idxs, List.mem_map]

theorem step_like {m f : Database} (like : Like m f) (migrated : Migrated m) (fresh : Fresh f)
    {call : Call} (harmless : HarmlessIn S key f.idxs call) :
    (step S key m call).1 = (step S key f call).1 ∧
      Like (step S key m call).2 (step S key f call).2 ∧ (step S key f call).2.idxs = f.idxs := by
  cases call with
  | storeMessage conn fromNid toNid ciphertext status messageId now =>
    simp only [step, storeMessage_migrated migrated,
      storeMessage_known fresh (any_hasIdx.mpr harmless), Prod.map, id_eq, like.rowids, true_and,
      and_true]
    exact like
  | updateMessageStatus conn messageId status now =>
    have alike := @updateMessageStatus_like S key m f like conn messageId status now
    have frame := @updateMessageStatus_frame S key f conn messageId now status
    exact ⟨congrArg Answer.updated alike.1, alike.2, frame.idxs⟩
  | saveSession conn peerNid sessionJson now => exact harmless.elim
  | loadSession peerNid =>
    exact ⟨congrArg Answer.session (loadSession_like like peerNid), like, rfl⟩
  | getMessages limit => exact ⟨congrArg Answer.messages (getMessages_like like limit), like, rfl⟩

/-- Once a message is missing, the last read tells. -/
theorem outputs_ne_of_missing {m f : Database} (migrated : Migrated m) (fresh : Fresh f)
    (missing : m.messages.rows.length < f.messages.rows.length) (calls : List Call) :
    Mealy.outputs (step S key) m (calls ++ [.getMessages (-1)]) ≠
      Mealy.outputs (step S key) f (calls ++ [.getMessages (-1)]) := by
  induction calls generalizing m f with
  | nil =>
    intro same
    obtain ⟨fewer, readFewer, countFewer⟩ := length_getMessages migrated.shown
    obtain ⟨more, readMore, countMore⟩ := length_getMessages fresh.shown
    have answers := Answer.messages.inj (List.cons.inj same).1
    rw [readFewer, readMore] at answers
    rw [Except.ok.inj answers] at countFewer
    omega
  | cons call rest ih =>
    intro same
    obtain ⟨migrated', unchanged⟩ := @step_migrated S key m migrated call
    obtain ⟨fresh', more⟩ := @step_fresh S key f fresh call
    exact ih migrated' fresh' (by omega) (List.cons.inj same).2

theorem outputs_eq_iff {m f : Database} (like : Like m f) (migrated : Migrated m)
    (fresh : Fresh f) (calls : List Call) :
    Mealy.outputs (step S key) m (calls ++ [.getMessages (-1)]) =
        Mealy.outputs (step S key) f (calls ++ [.getMessages (-1)]) ↔
      ∀ call ∈ calls, HarmlessIn S key f.idxs call := by
  induction calls generalizing m f with
  | nil =>
    refine iff_of_true ?_ fun call none => by cases none
    exact congrArg (fun result => [Answer.messages result]) (getMessages_like like (-1))
  | cons call rest ih =>
    obtain ⟨migrated', unchanged⟩ := @step_migrated S key m migrated call
    obtain ⟨fresh', -⟩ := @step_fresh S key f fresh call
    by_cases harmless : HarmlessIn S key f.idxs call
    · obtain ⟨answer, like', idxs⟩ := step_like like migrated fresh harmless
      have later := ih like' migrated' fresh'
      rw [idxs] at later
      simp only [List.cons_append, Mealy.outputs, List.cons.injEq, answer, true_and, later,
        List.forall_mem_cons, harmless]
    · refine iff_of_false ?_ fun all => harmless (all call List.mem_cons_self)
      intro same
      obtain ⟨head, tail⟩ := List.cons.inj same
      cases call with
      | storeMessage conn fromNid toNid ciphertext status messageId now =>
        have unknown : f.messages.rows.any (hasIdx (blindIndex S key messageId)) = false :=
          Bool.eq_false_iff.mpr fun known => harmless (any_hasIdx.mp known)
        refine outputs_ne_of_missing migrated' fresh' ?_ rest tail
        rw [unchanged, like.messages.length_eq]
        simp only [step, storeMessage_new fresh unknown, Prod.map, id_eq, Table.append,
          List.length_append, List.length_singleton]
        exact Nat.lt_succ_self _
      | saveSession conn peerNid sessionJson now =>
        obtain ⟨e, refused⟩ := @saveSession_migrated S key m conn now peerNid sessionJson migrated
        have accepted := (@saveSession_fresh S key f conn now peerNid sessionJson fresh).1
        have results : (m.saveSession S key conn peerNid sessionJson now).1 =
            (f.saveSession S key conn peerNid sessionJson now).1 := Answer.saved.inj head
        rw [refused, accepted] at results
        cases results
      | updateMessageStatus conn messageId status now => exact harmless trivial
      | loadSession peerNid => exact harmless trivial
      | getMessages limit => exact harmless trivial

theorem migrated_fresh_like (legacy : LegacyDb) :
    Like (legacy.migrated S key) (legacy.fresh S key) := by
  refine ⟨?_, ?_, rfl, rfl⟩
  · simp only [Alike, LegacyDb.migrated, LegacyDb.fresh, List.map_map]
    refine List.map_congr_left fun m _ => Prod.ext rfl (funext fun c => ?_)
    cases c with
    | readReceiptAtEnc =>
      cases receipt : m.readReceiptAt with
      | none => simp [restrict, assign, messageValues, LegacyMessage.row, LegacyMessage.freshRow,
          receipt, tryGet, Except.toOption]
      | some text => simp [restrict, assign, messageValues, LegacyMessage.row,
          LegacyMessage.freshRow, receipt, tryGet, Except.toOption]
    | _ => rfl
  · simp only [Alike, LegacyDb.migrated, LegacyDb.fresh, List.map_map]
    refine List.map_congr_left fun s _ => Prod.ext rfl (funext fun c => ?_)
    cases c with
    | _ => rfl

theorem legacy_migrated (legacy : LegacyDb) : Migrated (legacy.migrated S key) where
  required := List.mem_cons_self
  untargeted := (by decide : SessionColumn.peerNidIdx ∉ [SessionColumn.peerNid])
  shown := by
    intro row member
    obtain ⟨before, there, rfl⟩ := List.mem_map.mp member
    obtain ⟨m, -, rfl⟩ := List.mem_map.mp there
    exact ⟨⟨_, rfl⟩, ⟨_, rfl⟩, ⟨_, rfl⟩, ⟨_, rfl⟩, ⟨_, rfl⟩, ⟨_, rfl⟩, ⟨_, rfl⟩, ⟨_, rfl⟩⟩

theorem legacy_fresh (legacy : LegacyDb) : Fresh (legacy.fresh S key) where
  messages := rfl
  sessions := rfl
  shown := by
    intro row member
    obtain ⟨m, -, rfl⟩ := List.mem_map.mp member
    exact ⟨⟨_, rfl⟩, ⟨_, rfl⟩, ⟨_, rfl⟩, ⟨_, rfl⟩, ⟨_, rfl⟩, ⟨_, rfl⟩, ⟨_, rfl⟩, ⟨_, rfl⟩⟩

theorem harmlessIn_fresh (legacy : LegacyDb) (call : Call) :
    HarmlessIn S key (legacy.fresh S key).idxs call ↔ Harmless S key legacy call := by
  cases call with
  | storeMessage conn fromNid toNid ciphertext status messageId now =>
    simp only [HarmlessIn, Harmless, Database.idxs, LegacyDb.fresh, List.map_map, List.mem_map,
      Function.comp_apply, LegacyMessage.freshRow, Option.some.injEq, Value.text.injEq]
  | _ => exact Iff.rfl

/-- The opened database against the fresh one. -/
theorem behavesFresh_iff_outputs {legacy : LegacyDb} {calls : List Call} :
    BehavesFresh S key legacy calls ↔
      Mealy.outputs (step S key) (legacy.migrated S key) (calls ++ [.getMessages (-1)]) =
        Mealy.outputs (step S key) (legacy.fresh S key) (calls ++ [.getMessages (-1)]) := by
  rw [BehavesFresh, openStore_legacy]
  constructor
  · rintro ⟨db, opened, same⟩
    rwa [Except.ok.inj opened]
  · intro same
    exact ⟨_, rfl, same⟩

theorem legacy_outputs_iff (legacy : LegacyDb) (calls : List Call) :
    Mealy.outputs (step S key) (legacy.migrated S key) (calls ++ [.getMessages (-1)]) =
        Mealy.outputs (step S key) (legacy.fresh S key) (calls ++ [.getMessages (-1)]) ↔
      ∀ call ∈ calls, HarmlessIn S key (legacy.fresh S key).idxs call :=
  outputs_eq_iff (migrated_fresh_like legacy) (legacy_migrated legacy) (legacy_fresh legacy) calls

variable (S key) in
/-- A migrated store behaves like a fresh one exactly over the calls that save no session and
store no message but one whose id was there before. -/
theorem behavesFresh_iff_harmless (legacy : LegacyDb) (calls : List Call) :
    BehavesFresh S key legacy calls ↔ ∀ call ∈ calls, Harmless S key legacy call := by
  rw [behavesFresh_iff_outputs, legacy_outputs_iff]
  exact forall₂_congr fun call _ => harmlessIn_fresh legacy call

/-- One message and one session. -/
def smallLegacy : LegacyDb where
  messages := [⟨1, "NN-old-from", "NN-old-to", "cipher-blob", "2026-01-01T00:00:00Z", 0, 0,
    "2026-01-01T00:00:00Z", none, "legacy-mid-1"⟩]
  sessions := [⟨1, "NN-old-peer", "old-session", "2026-01-01T00:00:00Z"⟩]
  messagesSeq := 1
  sessionsSeq := 1
  messagesAscending := List.pairwise_singleton ..
  sessionsAscending := List.pairwise_singleton ..
  messagesBelow := by simp
  sessionsBelow := by simp
  messageIds := List.nodup_singleton _
  peerNids := List.nodup_singleton _

/-- A new message is not stored, and no session can be saved. -/
theorem writes_lost :
    ¬ BehavesFresh Signatures.sumScheme [] smallLegacy
        [.storeMessage 0 "NN-a" "NN-b" "hello" 0 "mid-2" "2026-07-19T00:00:00Z"] ∧
      ¬ BehavesFresh Signatures.sumScheme [] smallLegacy
        [.saveSession 0 "NN-old-peer" "new-session" "2026-07-19T00:00:00Z"] := by
  rw [behavesFresh_iff_outputs, behavesFresh_iff_outputs, legacy_outputs_iff, legacy_outputs_iff]
  constructor
  · intro harmless
    have known : some (.text (blindIndex Signatures.sumScheme [] "mid-2")) ∈
        (smallLegacy.fresh Signatures.sumScheme []).idxs := harmless _ List.mem_cons_self
    revert known
    decide +kernel
  · intro harmless
    exact harmless _ List.mem_cons_self

end StoreMigration

import Mathlib.Data.List.Sort
import AddMessenger.ByteStrings
import AddMessenger.Mealy
import AddMessenger.Tables

/-!
# The mailboxes of a relay

`RelayState` of `relay/src/main.rs`: mail is kept in capped mailboxes in memory
and, when a pool is configured, in the table `mailbox_entries`. A mailbox is keyed
by a tag that rotates every hour, or by the recipient when no secret is set.

Each clock reading and the outcome of each SQL statement is an argument of the
operation that makes it. HMAC, SHA-256 and the truth value SQLite gives a text are
parameters. `serial` and `log` number the calls of `storeMessage`; no operation
reads them, they only name the messages.
-/

namespace RelayMailbox

open ByteStrings Mealy Tables

def maxMailboxSize : Nat := 1000

def maxEntriesPerSender : Nat := 10

/-- Seven days. -/
def mailboxTtlSeconds : UInt64 := 86400 * 7

def routingBucketSecs : UInt64 := 60

def routingEpochSecs : UInt64 := 3600

structure Config where
  sharedSecret : Option String
  hmac : String → String → {b : Bytes // b.length = 32}
  sha256 : Bytes → {b : Bytes // b.length = 32}
  sqlTruthy : String → Bool

structure MailboxEntry where
  messageId : String
  signedBlob : String
  senderNid : String
  senderFp : String
  seq : Int64
  storedAt : UInt64
  deliveryStatus : UInt8
  statusUpdatedAt : UInt64
  readReceiptAt : Option UInt64
  serial : Nat
  deriving DecidableEq

structure Mailbox where
  entries : List MailboxEntry
  maxSize : Nat
  deriving DecidableEq

/-- A row of `mailbox_entries`. -/
structure Row where
  recipientNid : String
  recipientTag : String
  signedBlob : String
  senderNid : String
  senderFp : String
  seq : Int64
  storedAt : Int64
  delivered : Bool
  serial : Nat
  deriving DecidableEq

structure MailboxStoreRequest where
  recipientNid : String
  senderNid : String
  senderFp : String
  signedBlob : String
  seq : Int64
  deriving DecidableEq

/-- One call of `storeMessage`: the request, its tag and its coarse time. -/
structure Stored where
  req : MailboxStoreRequest
  tag : Option String
  storedAt : UInt64
  deriving DecidableEq

structure RelayState where
  mailboxes : String → Option Mailbox
  db : Option (List Row)
  log : List Stored

variable (cfg : Config)

def sha256Hex (data : Bytes) : String := hexEncode (cfg.sha256 data)

def computeHmac (data secret : String) : String := hexEncode (cfg.hmac data secret)

def routingEpoch (now : UInt64) : UInt64 := now / routingEpochSecs

def recipientTag (nid : String) (epoch : UInt64) : Option String :=
  cfg.sharedSecret.map fun s => computeHmac cfg (nid ++ "|" ++ toString epoch) s

/-- The tags of the current and the previous epoch. -/
def mailboxTags (recipientNid : String) (now : UInt64) : List String :=
  let epoch := routingEpoch now
  (recipientTag cfg recipientNid epoch).toList ++
    if epoch > 0 then (recipientTag cfg recipientNid (epoch - 1)).toList else []

def mailboxKeys (recipientNid : String) (now : UInt64) : List String :=
  mailboxTags cfg recipientNid now ++ [recipientNid]

namespace Mailbox

def new (maxSize : Nat) : Mailbox := ⟨[], maxSize⟩

/-- The entries left after making room for one more from `senderFp`. -/
def makeRoom (mb : Mailbox) (senderFp : String) : List MailboxEntry :=
  if mb.entries.countP (fun e => e.senderFp = senderFp) ≥ maxEntriesPerSender then
    mb.entries.eraseP fun e => e.senderFp = senderFp
  else if mb.entries.length ≥ mb.maxSize then mb.entries.tail
  else mb.entries

def store (mb : Mailbox) (entry : MailboxEntry) : Mailbox :=
  { mb with entries := mb.makeRoom entry.senderFp ++ [entry] }

def isLive (now : UInt64) (e : MailboxEntry) : Bool := now - e.storedAt < mailboxTtlSeconds

def fetchAll (mb : Mailbox) (now : UInt64) : List MailboxEntry := mb.entries.filter (isLive now)

def fetchUndelivered (mb : Mailbox) (now : UInt64) : List MailboxEntry :=
  mb.entries.filter fun e => isLive now e && e.deliveryStatus < 2

/-- Mark the first entry with this `seq` as delivered. -/
def markDelivered (seq : Int64) (now : UInt64) (mb : Mailbox) : Mailbox :=
  { mb with
    entries := updateFirst (fun e => e.seq = seq)
      (fun e => { e with deliveryStatus := 2, statusUpdatedAt := now }) mb.entries }

/-- Drop the entries of one sender; without a sender, keep all. -/
def retainOthers (senderFp : Option String) (mb : Mailbox) : Mailbox :=
  { mb with entries := mb.entries.filter fun e => senderFp.all fun fp => e.senderFp ≠ fp }

def dropExpired (now : UInt64) (mb : Mailbox) : Mailbox :=
  { mb with entries := mb.entries.filter (isLive now) }

end Mailbox

/-- `recipient_tag IN (keys) OR recipient_nid IN (keys)`. -/
def Row.addressed (keys : List String) (row : Row) : Bool :=
  row.recipientTag ∈ keys ∨ row.recipientNid ∈ keys

/-- What the select of `fetchMessages` and the update of `ackMessage` have in common. -/
def Row.pending (keys : List String) (row : Row) : Bool := row.addressed keys && !row.delivered

/-- The filter by sender ends up inside the parentheses of the second `IN`: its
last element is the integer value of `nid AND sender_fp = fp`. -/
def Row.purged (tags : List String) (nid : String) (senderFp : Option String) (row : Row) : Bool :=
  row.recipientTag ∈ tags ++ [nid] ∨
    row.recipientNid ∈ tags ++ [match senderFp with
      | none => nid
      | some fp => if cfg.sqlTruthy nid ∧ row.senderFp = fp then "1" else "0"]

def Row.toEntry (row : Row) : MailboxEntry where
  messageId := sha256Hex cfg (asBytes row.signedBlob)
  signedBlob := row.signedBlob
  senderNid := row.senderNid
  senderFp := row.senderFp
  seq := row.seq
  storedAt := row.storedAt.toUInt64
  deliveryStatus := 0
  statusUpdatedAt := row.storedAt.toUInt64
  readReceiptAt := none
  serial := row.serial

inductive Operation where
  | storeMessage (req : MailboxStoreRequest) (epochNow now : UInt64) (dbError : Option String)
  | fetchMessages (recipientNid : String) (now : UInt64) (readNow : String → UInt64) (sqlOk : Bool)
  | ackMessage (recipientNid : String) (seq : Int64) (keysNow now : UInt64) (sqlOk : Bool)
  | purgeAllMessages (recipientNid : String) (senderFp : Option String) (now : UInt64)
      (sqlOk : Bool)
  | cleanupExpired (now : UInt64) (sqlOk : Bool)

inductive Answer where
  | stored (result : Except String Unit)
  | fetched (entries : List MailboxEntry)
  | done

namespace Stored

def key (m : Stored) : String := m.tag.getD m.req.recipientNid

/-- The entry a call pushes to the mailbox in memory. -/
def entry (m : Stored) (serial : Nat) : MailboxEntry where
  messageId := sha256Hex cfg (asBytes m.req.signedBlob)
  signedBlob := m.req.signedBlob
  senderNid := m.req.senderNid
  senderFp := m.req.senderFp
  seq := m.req.seq
  storedAt := m.storedAt
  deliveryStatus := 1
  statusUpdatedAt := m.storedAt
  readReceiptAt := none
  serial := serial

/-- The row a call inserts. -/
def row (m : Stored) (serial : Nat) : Row where
  recipientNid := if m.tag.isSome then "" else m.req.recipientNid
  recipientTag := m.tag.getD ""
  signedBlob := m.req.signedBlob
  senderNid := m.req.senderNid
  senderFp := m.req.senderFp
  seq := m.req.seq
  storedAt := m.storedAt.toInt64
  delivered := false
  serial := serial

end Stored

def storing (req : MailboxStoreRequest) (epochNow now : UInt64) : Stored where
  req := req
  tag := recipientTag cfg req.recipientNid (routingEpoch epochNow)
  storedAt := (now / routingBucketSecs) * routingBucketSecs

def storeMessage (s : RelayState) (req : MailboxStoreRequest) (epochNow now : UInt64)
    (dbError : Option String) : Except String Unit × RelayState :=
  let m := storing cfg req epochNow now
  let serial := s.log.length
  let mailbox := (s.mailboxes m.key).getD (Mailbox.new maxMailboxSize)
  let s := { s with
    mailboxes := Function.update s.mailboxes m.key (some (mailbox.store (m.entry cfg serial)))
    log := s.log ++ [m] }
  match s.db, dbError with
  | none, _ => (.ok (), s)
  | some _, some e => (.error ("db store error: " ++ e), s)
  | some rows, none => (.ok (), { s with db := some (rows ++ [m.row serial]) })

/-- The answer of the database; empty without a pool or when the query fails. -/
def selectRows (s : RelayState) (keys : List String) (sqlOk : Bool) : List MailboxEntry :=
  match s.db with
  | none => []
  | some rows =>
    if sqlOk then
      ((rows.filter (Row.pending keys)).insertionSort (fun a b => a.seq ≤ b.seq)).map
        (Row.toEntry cfg)
    else []

/-- The entries in memory of the first key that has any; each mailbox is read at
its own time. -/
def scanMailboxes (s : RelayState) (readNow : String → UInt64) : List String → List MailboxEntry
  | [] => []
  | k :: rest =>
    match s.mailboxes k with
    | none => scanMailboxes s readNow rest
    | some mb =>
      let e := mb.fetchAll (readNow k)
      if e.isEmpty then scanMailboxes s readNow rest else e

def fetchMessages (s : RelayState) (recipientNid : String) (now : UInt64)
    (readNow : String → UInt64) (sqlOk : Bool) : List MailboxEntry :=
  let keys := mailboxKeys cfg recipientNid now
  let entries := selectRows cfg s keys sqlOk
  if entries.isEmpty then scanMailboxes s readNow keys else entries

/-- A statement that changes the rows, if it succeeds. -/
def execute (s : RelayState) (sqlOk : Bool) (f : List Row → List Row) : RelayState :=
  if sqlOk then { s with db := s.db.map f } else s

def markRows (keys : List String) (seq : Int64) (rows : List Row) : List Row :=
  rows.map fun row =>
    if row.pending keys ∧ row.seq = seq then { row with delivered := true } else row

def ackMessage (s : RelayState) (recipientNid : String) (seq : Int64) (keysNow now : UInt64)
    (sqlOk : Bool) : RelayState :=
  let keys := mailboxKeys cfg recipientNid keysNow
  let s := { s with mailboxes := modifyAll s.mailboxes keys (Mailbox.markDelivered seq now) }
  execute s sqlOk (markRows keys seq)

def purgeAllMessages (s : RelayState) (recipientNid : String) (senderFp : Option String)
    (now : UInt64) (sqlOk : Bool) : RelayState :=
  let keys := mailboxKeys cfg recipientNid now
  let s := { s with mailboxes := modifyAll s.mailboxes keys (Mailbox.retainOthers senderFp) }
  execute s sqlOk fun rows => rows.filter fun row =>
    !row.purged cfg (mailboxTags cfg recipientNid now) recipientNid senderFp

def cleanupExpired (s : RelayState) (now : UInt64) (sqlOk : Bool) : RelayState :=
  let s := { s with mailboxes := fun k =>
    ((s.mailboxes k).map (Mailbox.dropExpired now)).filter fun mb => !mb.entries.isEmpty }
  let cutoff := (now - mailboxTtlSeconds).toInt64
  execute s sqlOk fun rows => rows.filter fun row => !(row.storedAt < cutoff && row.delivered)

def step (s : RelayState) : Operation → Answer × RelayState
  | .storeMessage req epochNow now dbError =>
    (storeMessage cfg s req epochNow now dbError).map .stored id
  | .fetchMessages recipientNid now readNow sqlOk =>
    (.fetched (fetchMessages cfg s recipientNid now readNow sqlOk), s)
  | .ackMessage recipientNid seq keysNow now sqlOk =>
    (.done, ackMessage cfg s recipientNid seq keysNow now sqlOk)
  | .purgeAllMessages recipientNid senderFp now sqlOk =>
    (.done, purgeAllMessages cfg s recipientNid senderFp now sqlOk)
  | .cleanupExpired now sqlOk => (.done, cleanupExpired s now sqlOk)

/-- A relay without mail, with an empty table if it has a pool. -/
def empty (pool : Bool) : RelayState where
  mailboxes := fun _ => none
  db := if pool then some [] else none
  log := []

/-- A small configuration: digests are byte sums, no text counts as true. -/
def sumConfig (sharedSecret : Option String) : Config where
  sharedSecret := sharedSecret
  hmac := fun data _ => ⟨List.replicate 32 (asBytes data).sum, List.length_replicate⟩
  sha256 := fun data => ⟨List.replicate 32 data.sum, List.length_replicate⟩
  sqlTruthy := fun _ => false

section

variable (s : RelayState)

@[simp] theorem execute_mailboxes (sqlOk : Bool) (f : List Row → List Row) :
    (execute s sqlOk f).mailboxes = s.mailboxes := by
  cases sqlOk <;> rfl

@[simp] theorem execute_log (sqlOk : Bool) (f : List Row → List Row) :
    (execute s sqlOk f).log = s.log := by
  cases sqlOk <;> rfl

theorem execute_db (sqlOk : Bool) (f : List Row → List Row) :
    (execute s sqlOk f).db = if sqlOk then s.db.map f else s.db := by
  cases sqlOk <;> rfl

theorem storeMessage_mailboxes (req : MailboxStoreRequest) (epochNow now : UInt64)
    (dbError : Option String) :
    (storeMessage cfg s req epochNow now dbError).2.mailboxes =
      let m := storing cfg req epochNow now
      Function.update s.mailboxes m.key
        (some (((s.mailboxes m.key).getD (Mailbox.new maxMailboxSize)).store
          (m.entry cfg s.log.length))) := by
  unfold storeMessage
  cases s.db <;> cases dbError <;> rfl

theorem storeMessage_log (req : MailboxStoreRequest) (epochNow now : UInt64)
    (dbError : Option String) :
    (storeMessage cfg s req epochNow now dbError).2.log =
      s.log ++ [storing cfg req epochNow now] := by
  unfold storeMessage
  cases s.db <;> cases dbError <;> rfl

theorem storeMessage_db (req : MailboxStoreRequest) (epochNow now : UInt64)
    (dbError : Option String) :
    (storeMessage cfg s req epochNow now dbError).2.db =
      if dbError.isSome then s.db
      else s.db.map (· ++ [(storing cfg req epochNow now).row s.log.length]) := by
  unfold storeMessage
  cases pool : s.db <;> cases dbError <;> simp

theorem ackMessage_mailboxes (recipientNid : String) (seq : Int64) (keysNow now : UInt64)
    (sqlOk : Bool) (k : String) :
    (ackMessage cfg s recipientNid seq keysNow now sqlOk).mailboxes k =
      if k ∈ mailboxKeys cfg recipientNid keysNow then
        (s.mailboxes k).map (Mailbox.markDelivered seq now)
      else s.mailboxes k := by
  simp only [ackMessage, execute_mailboxes]
  refine modifyAll_apply (fun mb => ?_) _ _ _
  simp only [Mailbox.markDelivered]
  rw [updateFirst_idempotent]
  · exact fun _ same => same
  · exact fun _ => rfl

theorem purgeAllMessages_mailboxes (recipientNid : String) (senderFp : Option String)
    (now : UInt64) (sqlOk : Bool) (k : String) :
    (purgeAllMessages cfg s recipientNid senderFp now sqlOk).mailboxes k =
      if k ∈ mailboxKeys cfg recipientNid now then
        (s.mailboxes k).map (Mailbox.retainOthers senderFp)
      else s.mailboxes k := by
  simp only [purgeAllMessages, execute_mailboxes]
  refine modifyAll_apply (fun mb => ?_) _ _ _
  simp only [Mailbox.retainOthers, List.filter_filter, Bool.and_self]

theorem makeRoom_sublist (mb : Mailbox) (senderFp : String) :
    (mb.makeRoom senderFp).Sublist mb.entries := by
  unfold Mailbox.makeRoom
  split
  · exact List.eraseP_sublist
  · split
    · exact List.tail_sublist _
    · exact List.Sublist.refl _

end

end RelayMailbox

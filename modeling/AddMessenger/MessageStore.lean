import AddMessenger.Ratchet
import AddMessenger.Signatures

/-!
# What a client stores

`MessageStore` of `client/src/main.rs`: the table of ratchet sessions and the table
of messages, both looked up by the blind index of a text, and the padding a message
is given before it is encrypted.

A row is the value its encrypted columns decrypt to, and no time is kept in it.
-/

namespace MessageStore

open ByteStrings Ratchet

def bucketSize (totalLen : Nat) : Nat :=
  if totalLen ≤ 256 then 256
  else if totalLen ≤ 512 then 512
  else if totalLen ≤ 1024 then 1024
  else if totalLen ≤ 2048 then 2048
  else if totalLen ≤ 4096 then 4096
  else if totalLen ≤ 8192 then 8192
  else if totalLen ≤ 16384 then 16384
  else if totalLen ≤ 32768 then 32768
  else 65536

/-- The padded text, or nothing where `bucket_size - msg_len - 1` underflows and the
call panics. The header keeps the low byte of the padding's length. -/
def padMessageBucket (message : String) (random : Nat → UInt8) : Option String :=
  let msgBytes := asBytes message
  let bucket := bucketSize (msgBytes.length + 1)
  if bucket < msgBytes.length + 1 then none
  else
    let padLen := bucket - msgBytes.length - 1
    some (hexEncode (UInt8.ofNat padLen :: msgBytes ++ (List.range padLen).map random))

/-- `lossy` is `String::from_utf8_lossy`, `hexError` the text of a failed `hex::decode`. -/
def unpadMessageBucket (lossy : Bytes → String) (hexError : String → String)
    (paddedHex : String) : Except String String :=
  match hexDecode paddedHex with
  | none => .error (hexError paddedHex)
  | some [] => .error "empty padded message"
  | some (header :: rest) =>
    let padLen := header.toNat
    if rest.length + 1 < padLen + 1 then .error "invalid padding length"
    else .ok (lossy (rest.take (rest.length - padLen)))

/-- Messages of up to 65535 bytes find a bucket. -/
theorem padMessageBucket_isSome {message : String} {random : Nat → UInt8} :
    (padMessageBucket message random).isSome = true ↔ (asBytes message).length < 65536 := by
  have room : ¬ bucketSize ((asBytes message).length + 1) < (asBytes message).length + 1 ↔
      (asBytes message).length < 65536 := by
    unfold bucketSize
    split_ifs <;> omega
  rw [← room, padMessageBucket]
  split
  · rename_i tooLong
    simp [tooLong]
  · rename_i fits
    simp [fits]

structure MessageRow where
  fromNid : String
  toNid : String
  ciphertext : String
  status : UInt8
  messageId : String
  messageIdIdx : String
  deriving DecidableEq

/-- The messages stand in the order of their ids. -/
structure Store where
  dbKey : Bytes
  sessions : String → Option RatchetState
  messages : List MessageRow

/-- A store with no sessions and no messages. -/
def Store.empty (dbKey : Bytes) : Store where
  dbKey := dbKey
  sessions := fun _ => none
  messages := []

variable (S : Signatures.Primitives)

def blindIndex (dbKey : Bytes) (value : String) : String :=
  hexEncode ((S.hmacSha256 dbKey (asBytes value)).val.take 16)

def sha256Hex (data : Bytes) : String := hexEncode (S.sha256 data).val

theorem sha256Hex_inj {S : Signatures.Primitives} {a b : Bytes} :
    sha256Hex S a = sha256Hex S b ↔ S.sha256 a = S.sha256 b := by
  constructor
  · intro same
    have bytes := congrArg hexDecode same
    rw [sha256Hex, sha256Hex, hexDecode_hexEncode, hexDecode_hexEncode] at bytes
    exact Subtype.ext (Option.some.inj bytes)
  · intro same
    rw [sha256Hex, sha256Hex, same]

def loadSession (store : Store) (peerNid : String) : Option RatchetState :=
  store.sessions (blindIndex S store.dbKey peerNid)

/-- `written` is the answer of the database. -/
def saveSession (store : Store) (peerNid : String) (session : RatchetState)
    (written : Except String Unit) : Store :=
  match written with
  | .error _ => store
  | .ok () =>
    { store with
      sessions := Function.update store.sessions (blindIndex S store.dbKey peerNid)
        (some session) }

/-- `INSERT OR IGNORE` on a unique index: a second row of one message id is dropped. -/
def storeMessage (store : Store) (fromNid toNid ciphertext : String) (status : UInt8)
    (messageId : String) : Store :=
  let midIdx := blindIndex S store.dbKey messageId
  if store.messages.any fun row => row.messageIdIdx == midIdx then store
  else
    { store with
      messages := store.messages ++ [⟨fromNid, toNid, ciphertext, status, messageId, midIdx⟩] }

/-- The newest messages first. -/
def getMessages (store : Store) (limit : Nat) : List MessageRow :=
  store.messages.reverse.take limit

def updateMessageStatus (store : Store) (messageId : String) (status : UInt8) : Store :=
  let midIdx := blindIndex S store.dbKey messageId
  { store with
    messages := store.messages.map fun row =>
      if row.messageIdIdx == midIdx then { row with status := status } else row }

section

variable {S} {store : Store} {nid : String} {session : RatchetState}

@[simp] theorem saveSession_dbKey {written : Except String Unit} :
    (saveSession S store nid session written).dbKey = store.dbKey := by
  cases written with
  | error e => rfl
  | ok u => rfl

/-- What was written is what is loaded. -/
@[simp] theorem loadSession_saveSession :
    loadSession S (saveSession S store nid session (.ok ())) nid = some session := by
  simp [loadSession, saveSession]

@[simp] theorem storeMessage_sessions {fromNid toNid ciphertext messageId : String}
    {status : UInt8} :
    (storeMessage S store fromNid toNid ciphertext status messageId).sessions = store.sessions := by
  rw [storeMessage]
  split
  · rfl
  · rfl

@[simp] theorem storeMessage_dbKey {fromNid toNid ciphertext messageId : String} {status : UInt8} :
    (storeMessage S store fromNid toNid ciphertext status messageId).dbKey = store.dbKey := by
  rw [storeMessage]
  split
  · rfl
  · rfl

end

end MessageStore

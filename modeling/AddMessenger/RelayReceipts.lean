import AddMessenger.RelayTracking

/-!
# Read receipts and deletions

The two requests that name a message by its id. `relay-read-receipt` marks it as
read and `relay-delete` removes it, both in the mailbox under the raw null id, and
both compare the id with the `signed_blob` column of the table.

The operations here are what the handlers do once a request is accepted; a run mixes
them with the operations on mailboxes in any order.
-/

namespace RelayReceipts

open ByteStrings Mealy RelayMailbox RelayTracking Tables

/-- The status and time of an update; a read receipt is remembered with its time. -/
def advance (newStatus : UInt8) (now : UInt64) (e : MailboxEntry) : MailboxEntry :=
  if e.deliveryStatus < newStatus then
    { e with
      deliveryStatus := newStatus
      statusUpdatedAt := now
      readReceiptAt := if newStatus = 3 then some now else e.readReceiptAt }
  else e

def updateDeliveryStatus (mb : Mailbox) (messageId : String) (newStatus : UInt8) (now : UInt64) :
    Bool × Mailbox :=
  ((mb.entries.find? fun e => e.messageId = messageId).any fun e => e.deliveryStatus < newStatus,
    { mb with
      entries := updateFirst (fun e => e.messageId = messageId) (advance newStatus now)
        mb.entries })

def markRead (mb : Mailbox) (messageId : String) (now : UInt64) : Bool × Mailbox :=
  updateDeliveryStatus mb messageId 3 now

def removeMessage (mb : Mailbox) (messageId : String) : Bool × Mailbox :=
  (mb.entries.any fun e => e.messageId = messageId,
    { mb with entries := mb.entries.eraseP fun e => e.messageId = messageId })

/-- `recipient_nid = ? AND signed_blob = ?`, with the message id bound to the second. -/
def named (recipientNid messageId : String) (row : Row) : Bool :=
  row.recipientNid = recipientNid ∧ row.signedBlob = messageId

def markNamed (recipientNid messageId : String) (rows : List Row) : List Row :=
  rows.map fun row =>
    if named recipientNid messageId row then { row with delivered := true } else row

/-- What an accepted `relay-read-receipt` does to the mail. -/
def receiveReceipt (s : RelayState) (recipientNid messageId : String) (now : UInt64)
    (sqlOk : Bool) : RelayState :=
  let s := { s with
    mailboxes := modifyAt s.mailboxes recipientNid fun mb => (markRead mb messageId now).2 }
  execute s sqlOk (markNamed recipientNid messageId)

/-- What an accepted `relay-delete` does to the mail. -/
def deleteMessage (s : RelayState) (recipientNid messageId : String) (sqlOk : Bool) :
    RelayState :=
  let s := { s with
    mailboxes := modifyAt s.mailboxes recipientNid fun mb => (removeMessage mb messageId).2 }
  execute s sqlOk fun rows => rows.filter fun row => !named recipientNid messageId row

inductive MailOperation where
  | mailbox (op : Operation)
  | readReceipt (recipientNid messageId : String) (now : UInt64) (sqlOk : Bool)
  | delete (recipientNid messageId : String) (sqlOk : Bool)

variable (cfg : Config)

def mailStep (s : RelayState) : MailOperation → Answer × RelayState
  | .mailbox op => step cfg s op
  | .readReceipt recipientNid messageId now sqlOk =>
    (.done, receiveReceipt s recipientNid messageId now sqlOk)
  | .delete recipientNid messageId sqlOk => (.done, deleteMessage s recipientNid messageId sqlOk)

variable {cfg} {s : RelayState}

theorem advance_identity (newStatus : UInt8) (now : UInt64) (e : MailboxEntry) :
    identity (advance newStatus now e) = identity e := by
  unfold advance
  split <;> rfl

theorem advance_read {e : MailboxEntry} (bounded : e.deliveryStatus ≤ 3) (now : UInt64) :
    (advance 3 now e).deliveryStatus = 3 := by
  unfold advance
  split
  · rfl
  · rename_i beyond
    exact UInt8.le_antisymm bounded (UInt8.not_lt.mp beyond)

theorem modifyAt_mailboxes {f : Mailbox → Mailbox} (r k : String) :
    modifyAt s.mailboxes r f k = if k = r then (s.mailboxes k).map f else s.mailboxes k := by
  by_cases here : k = r
  · subst here
    simp [modifyAt]
  · simp [modifyAt, here]

theorem receiveReceipt_mailboxes (r id : String) (now : UInt64) (sqlOk : Bool) (k : String) :
    (receiveReceipt s r id now sqlOk).mailboxes k =
      if k = r then (s.mailboxes k).map fun mb => (markRead mb id now).2 else s.mailboxes k := by
  simp only [receiveReceipt, execute_mailboxes, modifyAt_mailboxes]

theorem deleteMessage_mailboxes (r id : String) (sqlOk : Bool) (k : String) :
    (deleteMessage s r id sqlOk).mailboxes k =
      if k = r then (s.mailboxes k).map fun mb => (removeMessage mb id).2 else s.mailboxes k := by
  simp only [deleteMessage, execute_mailboxes, modifyAt_mailboxes]

theorem map_markNamed (r id : String) (rows : List Row) :
    (markNamed r id rows).map rowIdentity = rows.map rowIdentity := by
  simp only [markNamed, List.map_map]
  refine List.map_congr_left fun row _ => ?_
  simp only [Function.comp_apply]
  split <;> rfl

theorem receiveReceipt_shrinks (r id : String) (now : UInt64) (sqlOk : Bool) :
    Shrinks s (receiveReceipt s r id now sqlOk) where
  mailboxes := fun k after found => by
    rw [receiveReceipt_mailboxes] at found
    refine modified_sublist (fun mb => ?_) found
    simp only [markRead, updateDeliveryStatus]
    rw [map_updateFirst (advance_identity 3 now)]
  rows := fun after found => by
    obtain ⟨before, held, fewer⟩ := execute_rows
      (fun rows => (map_markNamed r id rows).symm ▸ List.Sublist.refl _) found
    exact ⟨before, held, fewer⟩
  log := by simp [receiveReceipt]

theorem deleteMessage_shrinks (r id : String) (sqlOk : Bool) :
    Shrinks s (deleteMessage s r id sqlOk) where
  mailboxes := fun k after found => by
    rw [deleteMessage_mailboxes] at found
    exact modified_sublist (fun mb => List.eraseP_sublist.map identity) found
  rows := fun after found => by
    obtain ⟨before, held, fewer⟩ := execute_rows
      (fun rows => List.filter_sublist.map rowIdentity) found
    exact ⟨before, held, fewer⟩
  log := by simp [deleteMessage]

theorem mailStep_recorded (op : MailOperation) (recorded : Recorded cfg s) :
    Recorded cfg (mailStep cfg s op).2 := by
  cases op with
  | mailbox op => exact step_recorded op recorded
  | readReceipt r id now sqlOk => exact recorded.of_shrinks (receiveReceipt_shrinks r id now sqlOk)
  | delete r id sqlOk => exact recorded.of_shrinks (deleteMessage_shrinks r id sqlOk)

theorem mailFinal_recorded (pool : Bool) (ops : List MailOperation) :
    Recorded cfg (final (mailStep cfg) (empty pool) ops) :=
  final_preserved (Recorded cfg) (fun _ op => mailStep_recorded op) (empty_recorded pool) ops

variable (cfg) in
/-- The operation leaves the entry of call `n` in memory. -/
def MailSparesEntry (m : Stored) (n : Nat) (s : RelayState) : MailOperation → Prop
  | .mailbox op => SparesEntry cfg m n s op
  | .readReceipt .. => True
  | .delete r id _ => m.key = r → ∀ mb, s.mailboxes m.key = some mb → ∀ e,
    mb.entries.find? (fun e => e.messageId = id) = some e → e.serial ≠ n

variable (cfg) in
/-- The operation leaves the row of call `n` in the table, undelivered. -/
def MailSparesRow (m : Stored) (n : Nat) : MailOperation → Prop
  | .mailbox op => SparesRow cfg m n op
  | .readReceipt r id _ sqlOk => sqlOk = true → named r id (m.row n) = false
  | .delete r id sqlOk => sqlOk = true → named r id (m.row n) = false

section

variable {m : Stored} {n : Nat} (recorded : Recorded cfg s) (logged : s.log[n]? = some m)
include recorded logged

omit recorded in
theorem mailStep_logged (op : MailOperation) : (mailStep cfg s op).2.log[n]? = some m := by
  cases op with
  | mailbox op => exact step_logged logged op
  | readReceipt r id now sqlOk =>
    exact (congrArg (·[n]?) (receiveReceipt_shrinks r id now sqlOk).log).trans logged
  | delete r id sqlOk =>
    exact (congrArg (·[n]?) (deleteMessage_shrinks r id sqlOk).log).trans logged

omit recorded logged in
theorem held_receipt (r id : String) (now : UInt64) (sqlOk : Bool) :
    Held m n (receiveReceipt s r id now sqlOk) ↔ Held m n s := by
  have serials : ∀ mb : Mailbox, (∃ e ∈ (markRead mb id now).2.entries, e.serial = n) ↔
      ∃ e ∈ mb.entries, e.serial = n := by
    intro mb
    simp only [markRead, updateDeliveryStatus]
    rw [← List.mem_map, ← List.mem_map, serials_eq, map_updateFirst (advance_identity 3 now),
      ← serials_eq]
  simp only [Held, receiveReceipt_mailboxes]
  by_cases here : m.key = r
  · simp only [here, if_true, Option.map_eq_some_iff, exists_exists_and_eq_and, serials]
  · simp only [here, if_false]

omit logged in
theorem held_delete (r id : String) (sqlOk : Bool) :
    Held m n (deleteMessage s r id sqlOk) ↔
      Held m n s ∧ MailSparesEntry cfg m n s (.delete r id sqlOk) := by
  simp only [Held, MailSparesEntry, deleteMessage_mailboxes]
  by_cases here : m.key = r
  · simp only [here, if_true, Option.map_eq_some_iff, exists_exists_and_eq_and, forall_const,
      removeMessage]
    constructor
    · rintro ⟨mb, found, e, kept, serial⟩
      refine ⟨⟨mb, found, e, List.mem_of_mem_eraseP kept, serial⟩, ?_⟩
      intro mb' found' hit first same
      obtain rfl := Option.some.inj (found.symm.trans found')
      obtain ⟨front, back, split, erased⟩ := eraseP_of_find first
      -- serials are distinct, so the erased entry was the only one of this call
      rw [erased] at kept
      exact serial_ne_of_split (recorded.ordered r mb found) split kept (serial.trans same.symm)
    · rintro ⟨⟨mb, found, e, member, serial⟩, spared⟩
      refine ⟨mb, found, e, ?_, serial⟩
      cases first : mb.entries.find? (fun e => e.messageId = id) with
      | none =>
        rw [List.eraseP_of_forall_not (List.find?_eq_none.mp first)]
        exact member
      | some hit =>
        obtain ⟨front, back, split, erased⟩ := eraseP_of_find first
        have different : e ≠ hit := fun same => spared mb found hit first (same ▸ serial)
        rw [split] at member
        rw [erased]
        simp only [List.mem_append, List.mem_cons] at member ⊢
        tauto
  · simp [here]

theorem held_mailStep (op : MailOperation) :
    Held m n (mailStep cfg s op).2 ↔ Held m n s ∧ MailSparesEntry cfg m n s op := by
  cases op with
  | mailbox op => exact held_step recorded logged op
  | readReceipt r id now sqlOk =>
    exact (held_receipt r id now sqlOk).trans (and_iff_left trivial).symm
  | delete r id sqlOk => exact held_delete recorded r id sqlOk

theorem inTable_receipt (r id : String) (now : UInt64) (sqlOk : Bool) :
    InTable n (receiveReceipt s r id now sqlOk) ↔
      InTable n s ∧ MailSparesRow cfg m n (.readReceipt r id now sqlOk) := by
  cases sqlOk with
  | false => simp [InTable, MailSparesRow, receiveReceipt, execute]
  | true =>
    simp only [InTable, MailSparesRow, receiveReceipt, execute_db, if_true,
      Option.map_eq_some_iff, exists_exists_and_eq_and, forall_const]
    constructor
    · rintro ⟨rows, found, after, member, serial, undelivered⟩
      obtain ⟨row, inside, rfl⟩ := List.mem_map.mp member
      split at undelivered
      · exact absurd undelivered Bool.noConfusion
      · rename_i unnamed
        rw [if_neg unnamed] at serial
        rw [← rowIdentity_of_serial recorded logged found inside serial]
        exact ⟨⟨rows, found, row, inside, serial, undelivered⟩, Bool.eq_false_iff.mpr unnamed⟩
    · rintro ⟨⟨rows, found, row, inside, serial, undelivered⟩, unnamed⟩
      rw [← rowIdentity_of_serial recorded logged found inside serial] at unnamed
      exact ⟨rows, found, row, List.mem_map.mpr
        ⟨row, inside, if_neg (Bool.eq_false_iff.mp unnamed)⟩, serial, undelivered⟩

theorem inTable_delete (r id : String) (sqlOk : Bool) :
    InTable n (deleteMessage s r id sqlOk) ↔
      InTable n s ∧ MailSparesRow cfg m n (.delete r id sqlOk) := by
  cases sqlOk with
  | false => simp [InTable, MailSparesRow, deleteMessage, execute]
  | true =>
    simp only [InTable, MailSparesRow, deleteMessage, execute_db, if_true,
      Option.map_eq_some_iff, exists_exists_and_eq_and, forall_const, List.mem_filter,
      Bool.not_eq_true']
    constructor
    · rintro ⟨rows, found, row, ⟨inside, unnamed⟩, serial, undelivered⟩
      rw [← rowIdentity_of_serial recorded logged found inside serial]
      exact ⟨⟨rows, found, row, inside, serial, undelivered⟩, unnamed⟩
    · rintro ⟨⟨rows, found, row, inside, serial, undelivered⟩, unnamed⟩
      rw [← rowIdentity_of_serial recorded logged found inside serial] at unnamed
      exact ⟨rows, found, row, ⟨inside, unnamed⟩, serial, undelivered⟩

theorem inTable_mailStep (op : MailOperation) :
    InTable n (mailStep cfg s op).2 ↔ InTable n s ∧ MailSparesRow cfg m n op := by
  cases op with
  | mailbox op => exact inTable_step recorded logged op
  | readReceipt r id now sqlOk => exact inTable_receipt recorded logged r id now sqlOk
  | delete r id sqlOk => exact inTable_delete recorded logged r id sqlOk

theorem held_mailRun (ops : List MailOperation) :
    Held m n (final (mailStep cfg) s ops) ↔
      Held m n s ∧ Along (mailStep cfg) (MailSparesEntry cfg m n) s ops :=
  final_iff_along (fun s => Recorded cfg s ∧ s.log[n]? = some m)
    (fun _ op inv => ⟨mailStep_recorded op inv.1, mailStep_logged inv.2 op⟩)
    (fun _ op inv => held_mailStep inv.1 inv.2 op) ⟨recorded, logged⟩ ops

theorem inTable_mailRun (ops : List MailOperation) :
    InTable n (final (mailStep cfg) s ops) ↔
      InTable n s ∧ Along (mailStep cfg) (fun _ => MailSparesRow cfg m n) s ops :=
  final_iff_along (fun s => Recorded cfg s ∧ s.log[n]? = some m)
    (fun _ op inv => ⟨mailStep_recorded op inv.1, mailStep_logged inv.2 op⟩)
    (fun _ op inv => inTable_mailStep inv.1 inv.2 op) ⟨recorded, logged⟩ ops

end

variable (cfg) in
/-- How an operation moves an entry that stays in mailbox `mb` under `k`. -/
inductive Moves (k : String) (mb : Mailbox) :
    MailOperation → MailboxEntry → MailboxEntry → Prop where
  | unchanged (op : MailOperation) (e : MailboxEntry) : Moves k mb op e e
  | acked {r : String} {seq : Int64} {keysNow now : UInt64} {sqlOk : Bool} {e : MailboxEntry}
      (candidate : k ∈ mailboxKeys cfg r keysNow)
      (first : mb.entries.find? (fun e => e.seq = seq) = some e) :
      Moves k mb (.mailbox (.ackMessage r seq keysNow now sqlOk)) e
        { e with deliveryStatus := 2, statusUpdatedAt := now }
  | read {id : String} {now : UInt64} {sqlOk : Bool} {e : MailboxEntry}
      (first : mb.entries.find? (fun e => e.messageId = id) = some e)
      (unread : e.deliveryStatus < 3) :
      Moves k mb (.readReceipt k id now sqlOk) e
        { e with deliveryStatus := 3, statusUpdatedAt := now, readReceiptAt := some now }

/-- An entry of the updated list is the update of the first match or was there before. -/
theorem mem_updateFirst {test : MailboxEntry → Bool} {f : MailboxEntry → MailboxEntry}
    {entries : List MailboxEntry} {e : MailboxEntry} (member : e ∈ updateFirst test f entries) :
    e ∈ entries ∨ ∃ hit ∈ entries, entries.find? test = some hit ∧ e = f hit := by
  cases first : entries.find? test with
  | none =>
    rw [updateFirst_of_none first] at member
    exact Or.inl member
  | some hit =>
    obtain ⟨front, back, split, updated⟩ := updateFirst_of_some (f := f) first
    rw [updated] at member
    rw [split]
    simp only [List.mem_append, List.mem_cons, Option.some.injEq] at member ⊢
    rcases member with early | rfl | late
    · exact Or.inl (Or.inl early)
    · exact Or.inr ⟨hit, Or.inr (Or.inl rfl), rfl, rfl⟩
    · exact Or.inl (Or.inr (Or.inr late))

theorem mem_updateFirst_of_ne {test : MailboxEntry → Bool} {f : MailboxEntry → MailboxEntry}
    {entries : List MailboxEntry} {e : MailboxEntry} (member : e ∈ entries)
    (other : entries.find? test ≠ some e) : e ∈ updateFirst test f entries := by
  cases first : entries.find? test with
  | none =>
    rw [updateFirst_of_none first]
    exact member
  | some hit =>
    obtain ⟨front, back, split, updated⟩ := updateFirst_of_some (f := f) first
    have different : e ≠ hit := fun same => other (same ▸ first)
    rw [split] at member
    rw [updated]
    simp only [List.mem_append, List.mem_cons] at member ⊢
    tauto

/-- Every entry after an operation is the new one of a store or was there before. -/
theorem mailStep_entry (op : MailOperation) {k : String} {after : Mailbox}
    (found : (mailStep cfg s op).2.mailboxes k = some after) {e : MailboxEntry}
    (member : e ∈ after.entries) :
    (∃ m : Stored, e = m.entry cfg s.log.length) ∨
      ∃ mb old, s.mailboxes k = some mb ∧ old ∈ mb.entries ∧ Moves cfg k mb op old e := by
  cases op with
  | mailbox op =>
    cases op with
    | storeMessage req epochNow now dbError =>
      rcases storeMessage_mailbox req epochNow now dbError found with
        same | ⟨-, before, source, made⟩
      · exact Or.inr ⟨after, e, same, member, .unchanged _ e⟩
      · rw [made] at member
        rcases List.mem_append.mp member with kept | isNew
        · have inside := (makeRoom_sublist before req.senderFp).subset kept
          rcases source with held | none
          · exact Or.inr ⟨before, e, held, inside, .unchanged _ e⟩
          · rw [none] at inside
            exact absurd inside List.not_mem_nil
        · exact Or.inl ⟨_, List.mem_singleton.mp isNew⟩
    | fetchMessages r now readNow sqlOk => exact Or.inr ⟨after, e, found, member, .unchanged _ e⟩
    | ackMessage r seq keysNow now sqlOk =>
      simp only [mailStep, step, ackMessage_mailboxes] at found
      split at found
      · rename_i candidate
        obtain ⟨mb, held, rfl⟩ := Option.map_eq_some_iff.mp found
        rcases mem_updateFirst member with old | ⟨hit, inside, first, rfl⟩
        · exact Or.inr ⟨mb, e, held, old, .unchanged _ e⟩
        · exact Or.inr ⟨mb, hit, held, inside, .acked candidate first⟩
      · exact Or.inr ⟨after, e, found, member, .unchanged _ e⟩
    | purgeAllMessages r senderFp now sqlOk =>
      simp only [mailStep, step, purgeAllMessages_mailboxes] at found
      split at found
      · obtain ⟨mb, held, rfl⟩ := Option.map_eq_some_iff.mp found
        exact Or.inr ⟨mb, e, held, (List.mem_filter.mp member).1, .unchanged _ e⟩
      · exact Or.inr ⟨after, e, found, member, .unchanged _ e⟩
    | cleanupExpired now sqlOk =>
      simp only [mailStep, step, cleanupExpired, execute_mailboxes] at found
      obtain ⟨mapped, -⟩ := Option.filter_eq_some_iff.mp found
      obtain ⟨mb, held, rfl⟩ := Option.map_eq_some_iff.mp mapped
      exact Or.inr ⟨mb, e, held, (List.mem_filter.mp member).1, .unchanged _ e⟩
  | readReceipt r id now sqlOk =>
    simp only [mailStep, receiveReceipt_mailboxes] at found
    split at found
    · rename_i here
      subst here
      obtain ⟨mb, held, rfl⟩ := Option.map_eq_some_iff.mp found
      rcases mem_updateFirst member with old | ⟨hit, inside, first, rfl⟩
      · exact Or.inr ⟨mb, e, held, old, .unchanged _ e⟩
      · refine Or.inr ⟨mb, hit, held, inside, ?_⟩
        unfold advance
        split
        · rename_i unread
          exact .read first unread
        · exact .unchanged _ hit
    · exact Or.inr ⟨after, e, found, member, .unchanged _ e⟩
  | delete r id sqlOk =>
    simp only [mailStep, deleteMessage_mailboxes] at found
    split at found
    · obtain ⟨mb, held, rfl⟩ := Option.map_eq_some_iff.mp found
      exact Or.inr ⟨mb, e, held, List.mem_of_mem_eraseP member, .unchanged _ e⟩
    · exact Or.inr ⟨after, e, found, member, .unchanged _ e⟩

/-- No status is beyond `read`. -/
def StatusBounded (s : RelayState) : Prop :=
  ∀ k mb, s.mailboxes k = some mb → ∀ e ∈ mb.entries, e.deliveryStatus ≤ 3

theorem mailStep_statusBounded (op : MailOperation) (bounded : StatusBounded s) :
    StatusBounded (mailStep cfg s op).2 := by
  intro k after found e member
  rcases mailStep_entry op found member with ⟨m, rfl⟩ | ⟨mb, old, held, inside, moves⟩
  · exact (by decide : (1 : UInt8) ≤ 3)
  · cases moves with
    | unchanged => exact bounded k mb held e inside
    | acked => exact (by decide : (2 : UInt8) ≤ 3)
    | read => exact UInt8.le_refl 3

theorem mailFinal_statusBounded (pool : Bool) (ops : List MailOperation) :
    StatusBounded (final (mailStep cfg) (empty pool) ops) := by
  refine final_preserved StatusBounded (fun _ op => mailStep_statusBounded op) ?_ ops
  intro k mb found
  cases found

/-- A run in which a fetch for the recipient returns `entry`, up to the moment a
request that names it is accepted. -/
structure Naming where
  pool : Bool
  front : List MailOperation
  recipientNid : String
  fetchNow : UInt64
  fetchReadNow : String → UInt64
  fetchOk : Bool
  entry : MailboxEntry
  middle : List MailOperation

/-- What follows a deletion, up to a later fetch for the same recipient. -/
structure LaterFetch where
  between : List MailOperation
  now : UInt64
  readNow : String → UInt64
  sqlOk : Bool

namespace Naming

variable (cfg : Config) (q : Naming)

def atFetch : RelayState := final (mailStep cfg) (empty q.pool) q.front

def fetched : List MailboxEntry :=
  fetchMessages cfg (q.atFetch cfg) q.recipientNid q.fetchNow q.fetchReadNow q.fetchOk

def atRequest : RelayState := final (mailStep cfg) (q.atFetch cfg) q.middle

/-- The state after the accepted deletion. -/
def deleted (deleteOk : Bool) : RelayState :=
  deleteMessage (q.atRequest cfg) q.recipientNid q.entry.messageId deleteOk

/-- The state after the accepted read receipt. -/
def receipted (now : UInt64) (receiptOk : Bool) : RelayState :=
  receiveReceipt (q.atRequest cfg) q.recipientNid q.entry.messageId now receiptOk

def atLater (deleteOk : Bool) (later : LaterFetch) : RelayState :=
  final (mailStep cfg) (q.deleted cfg deleteOk) later.between

def laterKeys (later : LaterFetch) : List String := mailboxKeys cfg q.recipientNid later.now

def laterAnswer (deleteOk : Bool) (later : LaterFetch) : List MailboxEntry :=
  fetchMessages cfg (q.atLater cfg deleteOk later) q.recipientNid later.now later.readNow
    later.sqlOk

end Naming

variable (cfg) in
/-- The fetch returned the entry, and its call stored `m`. -/
structure Fetched (q : Naming) (m : Stored) : Prop where
  returned : q.entry ∈ q.fetched cfg
  logged : (q.atRequest cfg).log[q.entry.serial]? = some m

variable (cfg) in
/-- The message is its own digest, and was stored under the recipient's null id. -/
def SelfNamed (recipientNid : String) (m : Stored) : Prop :=
  (m.row 0).recipientNid = recipientNid ∧
    m.req.signedBlob = sha256Hex cfg (asBytes m.req.signedBlob)

/-- Call `n` is the first entry with this id in the mailbox under the null id. -/
def FirstNamed (s : RelayState) (recipientNid messageId : String) (n : Nat) : Prop :=
  ∃ mb e, s.mailboxes recipientNid = some mb ∧
    mb.entries.find? (fun e => e.messageId = messageId) = some e ∧ e.serial = n

variable (cfg) in
/-- When a fetch after the deletion leaves the message out. -/
structure Erased (q : Naming) (m : Stored) (deleteOk : Bool) (later : LaterFetch) : Prop where
  table : SqlAnswers (q.atLater cfg deleteOk later) (q.laterKeys cfg later) later.sqlOk →
    (deleteOk = true ∧ SelfNamed cfg q.recipientNid m) ∨
      ¬ InTable q.entry.serial (q.atRequest cfg) ∨
      (∃ op ∈ later.between, ¬ MailSparesRow cfg m q.entry.serial op) ∨
      (m.key ∉ q.laterKeys cfg later ∧ "" ∉ q.laterKeys cfg later)
  memory : ¬ SqlAnswers (q.atLater cfg deleteOk later) (q.laterKeys cfg later) later.sqlOk →
    FirstNamed (q.atRequest cfg) q.recipientNid q.entry.messageId q.entry.serial ∨
      ¬ Held m q.entry.serial (q.atRequest cfg) ∨
      ¬ Along (mailStep cfg) (MailSparesEntry cfg m q.entry.serial) (q.deleted cfg deleteOk)
        later.between ∨
      (q.laterKeys cfg later).find? (hasLive (q.atLater cfg deleteOk later) later.readNow) ≠
        some m.key ∨
      ¬ later.readNow m.key - m.storedAt < mailboxTtlSeconds

/-- Call `n` is read in memory and delivered in the table, wherever it is. -/
def MarkedRead (n : Nat) (s : RelayState) : Prop :=
  (∀ k mb, s.mailboxes k = some mb → ∀ e ∈ mb.entries, e.serial = n → e.deliveryStatus = 3) ∧
    ∀ rows, s.db = some rows → ∀ row ∈ rows, row.serial = n → row.delivered = true

variable (cfg) in
/-- When a read receipt gets to the message in both stores. -/
structure Reached (q : Naming) (m : Stored) (receiptOk : Bool) : Prop where
  memory : Held m q.entry.serial (q.atRequest cfg) →
    FirstNamed (q.atRequest cfg) q.recipientNid q.entry.messageId q.entry.serial ∨
      ∀ k mb, (q.atRequest cfg).mailboxes k = some mb → ∀ e ∈ mb.entries,
        e.serial = q.entry.serial → e.deliveryStatus = 3
  table : InTable q.entry.serial (q.atRequest cfg) →
    receiptOk = true ∧ SelfNamed cfg q.recipientNid m

section

variable {q : Naming} {m : Stored}

theorem atFetch_recorded : Recorded cfg (q.atFetch cfg) := mailFinal_recorded q.pool q.front

theorem atRequest_recorded : Recorded cfg (q.atRequest cfg) :=
  final_preserved (Recorded cfg) (fun _ op => mailStep_recorded op) atFetch_recorded q.middle

theorem atRequest_statusBounded : StatusBounded (q.atRequest cfg) :=
  final_preserved StatusBounded (fun _ op => mailStep_statusBounded op)
    (mailFinal_statusBounded q.pool q.front) q.middle

theorem logged_mailRun {n : Nat} (logged : s.log[n]? = some m) (ops : List MailOperation) :
    (final (mailStep cfg) s ops).log[n]? = some m :=
  final_preserved (fun s : RelayState => s.log[n]? = some m)
    (fun _ op logged => mailStep_logged logged op) logged ops

/-- A fetch answers with the digest of the blob as the id. -/
theorem fetched_messageId {e : MailboxEntry} {r : String} {now : UInt64}
    {readNow : String → UInt64} {sqlOk : Bool} (recorded : Recorded cfg s)
    (returned : e ∈ fetchMessages cfg s r now readNow sqlOk) :
    ∃ m, s.log[e.serial]? = some m ∧ e.messageId = sha256Hex cfg (asBytes m.req.signedBlob) := by
  by_cases answers : SqlAnswers s (mailboxKeys cfg r now) sqlOk
  · rw [fetchMessages_of_answers answers, mem_selectRows] at returned
    obtain ⟨-, rows, found, row, inside, -, rfl⟩ := returned
    obtain ⟨m, logged, isRow⟩ := recorded.rows rows found row inside
    have blob : row.signedBlob = m.req.signedBlob := congrArg Row.signedBlob isRow
    exact ⟨m, logged, by simp [Row.toEntry, blob]⟩
  · rw [fetchMessages_of_silent answers, mem_scanMailboxes] at returned
    obtain ⟨k, mb, -, found, member⟩ := returned
    obtain ⟨m, logged, -, isEntry⟩ :=
      recorded.entries k mb found e (List.mem_filter.mp member).1
    exact ⟨m, logged, congrArg MailboxEntry.messageId isEntry⟩

theorem deleted_recorded (deleteOk : Bool) : Recorded cfg (q.deleted cfg deleteOk) :=
  atRequest_recorded.of_shrinks (deleteMessage_shrinks _ _ deleteOk)

variable (fetched : Fetched cfg q m)
include fetched

theorem deleted_logged (deleteOk : Bool) :
    (q.deleted cfg deleteOk).log[q.entry.serial]? = some m := by
  rw [Naming.deleted, (deleteMessage_shrinks _ _ deleteOk).log]
  exact fetched.logged

theorem entry_messageId : q.entry.messageId = sha256Hex cfg (asBytes m.req.signedBlob) := by
  obtain ⟨m', logged, digest⟩ := fetched_messageId atFetch_recorded fetched.returned
  have same := (logged_mailRun logged q.middle).symm.trans fetched.logged
  rw [digest, Option.some.inj same]

theorem named_row_iff (n : Nat) :
    named q.recipientNid q.entry.messageId (m.row n) = true ↔ SelfNamed cfg q.recipientNid m := by
  rw [entry_messageId fetched, named, decide_eq_true_iff]
  rfl

theorem inTable_atLater (deleteOk : Bool) (later : LaterFetch) :
    InTable q.entry.serial (q.atLater cfg deleteOk later) ↔
      (InTable q.entry.serial (q.atRequest cfg) ∧
        ¬ (deleteOk = true ∧ SelfNamed cfg q.recipientNid m)) ∧
      ∀ op ∈ later.between, MailSparesRow cfg m q.entry.serial op := by
  rw [Naming.atLater, inTable_mailRun (deleted_recorded deleteOk)
    (deleted_logged fetched deleteOk), along_mem, Naming.deleted,
    inTable_delete atRequest_recorded fetched.logged, MailSparesRow, ← Bool.not_eq_true,
    named_row_iff fetched, not_and]

theorem spares_iff_not_firstNamed (deleteOk : Bool) :
    MailSparesEntry cfg m q.entry.serial (q.atRequest cfg)
        (.delete q.recipientNid q.entry.messageId deleteOk) ↔
      ¬ FirstNamed (q.atRequest cfg) q.recipientNid q.entry.messageId q.entry.serial := by
  constructor
  · rintro spared ⟨mb, e, found, first, serial⟩
    obtain ⟨here, -⟩ := identity_of_serial atRequest_recorded fetched.logged found
      (List.mem_of_find?_eq_some first) serial
    exact spared here.symm mb (here ▸ found) e first serial
  · intro other here mb found e first serial
    exact other ⟨mb, e, here ▸ found, first, serial⟩

theorem held_atLater (deleteOk : Bool) (later : LaterFetch) :
    Held m q.entry.serial (q.atLater cfg deleteOk later) ↔
      (Held m q.entry.serial (q.atRequest cfg) ∧
        ¬ FirstNamed (q.atRequest cfg) q.recipientNid q.entry.messageId q.entry.serial) ∧
      Along (mailStep cfg) (MailSparesEntry cfg m q.entry.serial) (q.deleted cfg deleteOk)
        later.between := by
  rw [Naming.atLater, held_mailRun (deleted_recorded deleteOk) (deleted_logged fetched deleteOk),
    ← spares_iff_not_firstNamed fetched deleteOk, ← held_delete atRequest_recorded]
  rfl

theorem absent_iff_erased (deleteOk : Bool) (later : LaterFetch) :
    ¬ Returned q.entry.serial (q.laterAnswer cfg deleteOk later) ↔
      Erased cfg q m deleteOk later := by
  have recorded : Recorded cfg (q.atLater cfg deleteOk later) :=
    final_preserved (Recorded cfg) (fun _ op => mailStep_recorded op)
      (deleted_recorded deleteOk) later.between
  have logged : (q.atLater cfg deleteOk later).log[q.entry.serial]? = some m :=
    logged_mailRun (deleted_logged fetched deleteOk) later.between
  rw [Naming.laterAnswer, absent_fetch recorded logged, inTable_atLater fetched,
    held_atLater fetched, row_addressed]
  constructor
  · rintro ⟨table, memory⟩
    refine ⟨fun answers => ?_, fun silent => ?_⟩
    · by_contra kept
      push Not at kept
      obtain ⟨unnamed, inserted, spared, addressed⟩ := kept
      exact table answers ⟨⟨⟨inserted, fun hit => unnamed hit.1 hit.2⟩, spared⟩,
        or_iff_not_imp_left.mpr addressed⟩
    · by_contra kept
      push Not at kept
      obtain ⟨unnamed, held, spared, first, young⟩ := kept
      exact memory silent ⟨first, ⟨⟨held, unnamed⟩, spared⟩, young⟩
  · rintro ⟨table, memory⟩
    refine ⟨fun answers => ?_, fun silent => ?_⟩
    · rintro ⟨⟨⟨inserted, unnamed⟩, spared⟩, addressed⟩
      rcases table answers with hit | missing | ⟨op, member, taken⟩ | ⟨noKey, noEmpty⟩
      · exact unnamed hit
      · exact missing inserted
      · exact taken (spared op member)
      · exact addressed.elim noKey noEmpty
    · rintro ⟨first, ⟨⟨held, unnamed⟩, spared⟩, young⟩
      rcases memory silent with hit | gone | taken | other | expired
      · exact unnamed hit
      · exact gone held
      · exact taken spared
      · exact other first
      · exact expired young

omit fetched in
/-- The table has no undelivered row of the call. -/
theorem delivered_iff_not_inTable {n : Nat} :
    (∀ rows, s.db = some rows → ∀ row ∈ rows, row.serial = n → row.delivered = true) ↔
      ¬ InTable n s := by
  constructor
  · rintro delivered ⟨rows, found, row, member, serial, undelivered⟩
    exact absurd ((delivered rows found row member serial).symm.trans undelivered)
      Bool.noConfusion
  · intro absent rows found row member serial
    by_contra undelivered
    exact absent ⟨rows, found, row, member, serial, Bool.eq_false_iff.mpr undelivered⟩

omit fetched in
/-- An entry the receipt does not find keeps its status. -/
theorem mem_receipted {k : String} {mb : Mailbox} {e : MailboxEntry} (now : UInt64)
    (receiptOk : Bool) (found : (q.atRequest cfg).mailboxes k = some mb) (member : e ∈ mb.entries)
    (other : k = q.recipientNid →
      mb.entries.find? (fun e => e.messageId = q.entry.messageId) ≠ some e) :
    ∃ after, (q.receipted cfg now receiptOk).mailboxes k = some after ∧ e ∈ after.entries := by
  rw [Naming.receipted, receiveReceipt_mailboxes]
  split
  · rename_i here
    refine ⟨_, congrArg _ found, ?_⟩
    exact mem_updateFirst_of_ne member (other here)
  · exact ⟨mb, found, member⟩

theorem key_of_receipted (now : UInt64) (receiptOk : Bool) {k : String} {after : Mailbox}
    (found : (q.receipted cfg now receiptOk).mailboxes k = some after) {e : MailboxEntry}
    (member : e ∈ after.entries) (serial : e.serial = q.entry.serial) : k = m.key := by
  have shrinks := receiveReceipt_shrinks (s := q.atRequest cfg) q.recipientNid q.entry.messageId
    now receiptOk
  have logged : (q.receipted cfg now receiptOk).log[q.entry.serial]? = some m := by
    rw [Naming.receipted, shrinks.log]
    exact fetched.logged
  exact (identity_of_serial (atRequest_recorded.of_shrinks shrinks) logged found member serial).1

theorem status_of_firstNamed (now : UInt64) (receiptOk : Bool)
    (first : FirstNamed (q.atRequest cfg) q.recipientNid q.entry.messageId q.entry.serial)
    {k : String} {after : Mailbox}
    (found : (q.receipted cfg now receiptOk).mailboxes k = some after) (here : k = m.key)
    {e : MailboxEntry} (member : e ∈ after.entries) (serial : e.serial = q.entry.serial) :
    e.deliveryStatus = 3 := by
  obtain ⟨mb, hit, held, first, hitSerial⟩ := first
  rw [Naming.receipted, receiveReceipt_mailboxes] at found
  have isHit := List.mem_of_find?_eq_some first
  have same : k = q.recipientNid := here.trans
    (identity_of_serial atRequest_recorded fetched.logged held isHit hitSerial).1.symm
  rw [if_pos same, same, held] at found
  obtain rfl := Option.some.inj found
  obtain ⟨front, back, split, updated⟩ := updateFirst_of_some (f := advance 3 now) first
  have alone : e ∉ front ++ back := fun beside =>
    serial_ne_of_split (atRequest_recorded.ordered _ mb held) split beside
      (serial.trans hitSerial.symm)
  simp only [markRead, updateDeliveryStatus, updated, List.mem_append, List.mem_cons] at member
  obtain rfl : e = advance 3 now hit := by
    rw [List.mem_append] at alone
    tauto
  exact advance_read (atRequest_statusBounded _ mb held hit isHit) now

omit fetched in
theorem status_of_read (now : UInt64) (receiptOk : Bool)
    (read : ∀ k mb, (q.atRequest cfg).mailboxes k = some mb → ∀ e ∈ mb.entries,
      e.serial = q.entry.serial → e.deliveryStatus = 3) {k : String} {after : Mailbox}
    (found : (q.receipted cfg now receiptOk).mailboxes k = some after) {e : MailboxEntry}
    (member : e ∈ after.entries) (serial : e.serial = q.entry.serial) : e.deliveryStatus = 3 := by
  rw [Naming.receipted, receiveReceipt_mailboxes] at found
  split at found
  · obtain ⟨mb, held, rfl⟩ := Option.map_eq_some_iff.mp found
    rcases mem_updateFirst member with old | ⟨hit, inside, -, rfl⟩
    · exact read k mb held e old serial
    · have same : hit.serial = q.entry.serial :=
        (congrArg MailboxEntry.serial (advance_identity 3 now hit)).symm.trans serial
      exact advance_read (by rw [read k mb held hit inside same]; exact UInt8.le_refl 3) now
  · exact read k after found e member serial

theorem markedRead_iff_reached (now : UInt64) (receiptOk : Bool) :
    MarkedRead q.entry.serial (q.receipted cfg now receiptOk) ↔ Reached cfg q m receiptOk := by
  have table : ¬ InTable q.entry.serial (q.receipted cfg now receiptOk) ↔
      (InTable q.entry.serial (q.atRequest cfg) →
        receiptOk = true ∧ SelfNamed cfg q.recipientNid m) := by
    rw [Naming.receipted, inTable_receipt atRequest_recorded fetched.logged, MailSparesRow,
      ← Bool.not_eq_true, named_row_iff fetched]
    tauto
  rw [MarkedRead, delivered_iff_not_inTable, table]
  constructor
  · rintro ⟨read, inTable⟩
    refine ⟨fun _ => ?_, inTable⟩
    by_cases first : FirstNamed (q.atRequest cfg) q.recipientNid q.entry.messageId q.entry.serial
    · exact Or.inl first
    · refine Or.inr fun k mb found e member serial => ?_
      obtain ⟨after, foundAfter, stays⟩ := mem_receipted now receiptOk found member
        (fun here hit => first ⟨mb, e, here ▸ found, hit, serial⟩)
      exact read k after foundAfter e stays serial
  · rintro ⟨memory, inTable⟩
    refine ⟨fun k after found e member serial => ?_, inTable⟩
    have here := key_of_receipted fetched now receiptOk found member serial
    have held : Held m q.entry.serial (q.atRequest cfg) :=
      (held_receipt _ _ now receiptOk).mp ⟨after, here ▸ found, e, member, serial⟩
    rcases memory held with first | read
    · exact status_of_firstNamed fetched now receiptOk first found here member serial
    · exact status_of_read now receiptOk read found member serial

end

variable (cfg) in
/-- After a fetch has returned a message, a deletion that names it keeps it out of a
later fetch exactly if it is `Erased` there, and a read receipt that names it marks it
exactly if it is `Reached`. -/
theorem named_message_iff (q : Naming) (m : Stored) (fetched : Fetched cfg q m) :
    (∀ deleteOk later, ¬ Returned q.entry.serial (q.laterAnswer cfg deleteOk later) ↔
        Erased cfg q m deleteOk later) ∧
      ∀ now receiptOk, MarkedRead q.entry.serial (q.receipted cfg now receiptOk) ↔
        Reached cfg q m receiptOk :=
  ⟨absent_iff_erased fetched, markedRead_iff_reached fetched⟩

/-- One message, stored without a secret and fetched from memory or from the table. -/
def promptNaming (pool : Bool) : Naming where
  pool := pool
  front := [.mailbox (.storeMessage ⟨"NN-R", "NN-S", "fp-s", "blob", 1⟩ 60 60 none)]
  recipientNid := "NN-R"
  fetchNow := 60
  fetchReadNow := fun _ => 60
  fetchOk := true
  entry :=
    { messageId := sha256Hex (sumConfig none) (asBytes "blob")
      signedBlob := "blob"
      senderNid := "NN-S"
      senderFp := "fp-s"
      seq := 1
      storedAt := 60
      deliveryStatus := if pool then 0 else 1
      statusUpdatedAt := 60
      readReceiptAt := none
      serial := 0 }
  middle := []

def namedMessage : Stored := ⟨⟨"NN-R", "NN-S", "fp-s", "blob", 1⟩, none, 60⟩

def sameMinute : LaterFetch := ⟨[], 60, fun _ => 60, true⟩

/-- Without a pool, a deletion and a receipt get to the message. -/
theorem named_message_iff_inMemory :
    Fetched (sumConfig none) (promptNaming false) namedMessage ∧
      Erased (sumConfig none) (promptNaming false) namedMessage true sameMinute ∧
      Reached (sumConfig none) (promptNaming false) namedMessage true := by
  have fetched : Fetched (sumConfig none) (promptNaming false) namedMessage :=
    ⟨by decide +kernel, by decide +kernel⟩
  obtain ⟨deletes, receipts⟩ := named_message_iff (sumConfig none) _ _ fetched
  refine ⟨fetched, (deletes true sameMinute).mp ?_, (receipts 60 true).mp ⟨?_, ?_⟩⟩
  · decide +kernel
  · intro k mb found e member serial
    by_cases here : k = "NN-R"
    · subst here
      obtain rfl := Option.some.inj found
      clear serial
      revert e
      decide +kernel
    · simp [Naming.receipted, receiveReceipt_mailboxes, promptNaming, here, Naming.atRequest,
        Naming.atFetch, mailStep, step, storeMessage_mailboxes, storing, Stored.key, recipientTag,
        sumConfig, empty] at found
  · intro rows found
    cases found

/-- With a pool, the row has the blob where the statements look for its digest: the
deleted message comes back, and the receipt leaves its row undelivered. -/
theorem named_message_stays_in_table :
    Fetched (sumConfig none) (promptNaming true) namedMessage ∧
      Returned 0 ((promptNaming true).laterAnswer (sumConfig none) true sameMinute) ∧
      ¬ MarkedRead 0 ((promptNaming true).receipted (sumConfig none) 60 true) := by
  refine ⟨⟨by decide +kernel, by decide +kernel⟩, ?_, fun marked => ?_⟩
  · decide +kernel
  · have delivered := marked.2 _ rfl
    revert delivered
    decide +kernel

end RelayReceipts

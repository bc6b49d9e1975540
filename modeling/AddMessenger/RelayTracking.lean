import AddMessenger.RelayMailbox

/-!
# Following one message through a relay

Every entry in memory and every row of the table goes back to one call of
`storeMessage`. From there on an operation either spares a message or takes it
away, in memory and in the table independently, and what is taken away does not
come back: so a message is there exactly if every operation since has spared it.
-/

namespace RelayTracking

open Mealy RelayMailbox Tables

/-- An entry without its delivery state. -/
def identity (e : MailboxEntry) : MailboxEntry :=
  { e with deliveryStatus := 1, statusUpdatedAt := e.storedAt, readReceiptAt := none }

/-- A row without its delivery state. -/
def rowIdentity (row : Row) : Row := { row with delivered := false }

variable (cfg : Config)

/-- Entries and rows agree with the log of calls. -/
structure Recorded (s : RelayState) : Prop where
  entries : ∀ k mb, s.mailboxes k = some mb → ∀ e ∈ mb.entries,
    ∃ m, s.log[e.serial]? = some m ∧ m.key = k ∧ identity e = m.entry cfg e.serial
  ordered : ∀ k mb, s.mailboxes k = some mb → (mb.entries.map (·.serial)).Pairwise (· < ·)
  rows : ∀ rows, s.db = some rows → ∀ row ∈ rows,
    ∃ m, s.log[row.serial]? = some m ∧ rowIdentity row = m.row row.serial

/-- Nothing is in `t` that was not in `s`, up to delivery state. -/
structure Shrinks (s t : RelayState) : Prop where
  mailboxes : ∀ k after, t.mailboxes k = some after →
    ∃ before, s.mailboxes k = some before ∧
      (after.entries.map identity).Sublist (before.entries.map identity)
  rows : ∀ after, t.db = some after →
    ∃ before, s.db = some before ∧ (after.map rowIdentity).Sublist (before.map rowIdentity)
  log : t.log = s.log

variable {cfg} {s t : RelayState}

theorem execute_rows {sqlOk : Bool} {f : List Row → List Row}
    (fewer : ∀ rows, ((f rows).map rowIdentity).Sublist (rows.map rowIdentity))
    {after : List Row} (found : (execute s sqlOk f).db = some after) :
    ∃ before, s.db = some before ∧
      (after.map rowIdentity).Sublist (before.map rowIdentity) := by
  rw [execute_db] at found
  cases sqlOk with
  | false => exact ⟨after, found, List.Sublist.refl _⟩
  | true =>
    obtain ⟨before, held, rfl⟩ := Option.map_eq_some_iff.mp found
    exact ⟨before, held, fewer before⟩

/-- A mailbox changed under some condition still holds only what it held. -/
theorem modified_sublist {f : Mailbox → Mailbox} {chosen : Prop} [Decidable chosen] {k : String}
    (fewer : ∀ mb, ((f mb).entries.map identity).Sublist (mb.entries.map identity))
    {after : Mailbox}
    (found : (if chosen then (s.mailboxes k).map f else s.mailboxes k) = some after) :
    ∃ before, s.mailboxes k = some before ∧
      (after.entries.map identity).Sublist (before.entries.map identity) := by
  split at found
  · obtain ⟨before, held, rfl⟩ := Option.map_eq_some_iff.mp found
    exact ⟨before, held, fewer before⟩
  · exact ⟨after, found, List.Sublist.refl _⟩

theorem map_markRows (keys : List String) (seq : Int64) (rows : List Row) :
    (markRows keys seq rows).map rowIdentity = rows.map rowIdentity := by
  simp only [markRows, List.map_map]
  refine List.map_congr_left fun row _ => ?_
  simp only [Function.comp_apply]
  split <;> rfl

theorem map_markDelivered (seq : Int64) (now : UInt64) (mb : Mailbox) :
    (mb.markDelivered seq now).entries.map identity = mb.entries.map identity := by
  apply map_updateFirst
  intro e
  rfl

theorem ackMessage_shrinks (recipientNid : String) (seq : Int64) (keysNow now : UInt64)
    (sqlOk : Bool) : Shrinks s (ackMessage cfg s recipientNid seq keysNow now sqlOk) where
  mailboxes := fun k after found => by
    rw [ackMessage_mailboxes] at found
    refine modified_sublist (fun mb => ?_) found
    rw [map_markDelivered]
  rows := fun after found => by
    obtain ⟨before, held, fewer⟩ := execute_rows
      (fun rows => (map_markRows _ seq rows).symm ▸ List.Sublist.refl _) found
    exact ⟨before, held, fewer⟩
  log := by simp [ackMessage]

theorem purgeAllMessages_shrinks (recipientNid : String) (senderFp : Option String)
    (now : UInt64) (sqlOk : Bool) :
    Shrinks s (purgeAllMessages cfg s recipientNid senderFp now sqlOk) where
  mailboxes := fun k after found => by
    rw [purgeAllMessages_mailboxes] at found
    exact modified_sublist (fun mb => List.filter_sublist.map identity) found
  rows := fun after found => by
    obtain ⟨before, held, fewer⟩ := execute_rows
      (fun rows => List.filter_sublist.map rowIdentity) found
    exact ⟨before, held, fewer⟩
  log := by simp [purgeAllMessages]

theorem cleanupExpired_shrinks (now : UInt64) (sqlOk : Bool) :
    Shrinks s (cleanupExpired s now sqlOk) where
  mailboxes := fun k after found => by
    simp only [cleanupExpired, execute_mailboxes] at found
    obtain ⟨mapped, -⟩ := Option.filter_eq_some_iff.mp found
    obtain ⟨before, held, rfl⟩ := Option.map_eq_some_iff.mp mapped
    exact ⟨before, held, List.filter_sublist.map identity⟩
  rows := fun after found => by
    obtain ⟨before, held, fewer⟩ := execute_rows
      (fun rows => List.filter_sublist.map rowIdentity) found
    exact ⟨before, held, fewer⟩
  log := by simp [cleanupExpired]

theorem serials_eq (entries : List MailboxEntry) :
    entries.map (·.serial) = (entries.map identity).map (·.serial) := by
  simp [Function.comp_def, identity]

/-- Next to an entry there is no other of the same call. -/
theorem serial_ne_of_split {entries front back : List MailboxEntry} {hit e : MailboxEntry}
    (sorted : (entries.map (·.serial)).Pairwise (· < ·)) (split : entries = front ++ hit :: back)
    (beside : e ∈ front ++ back) : e.serial ≠ hit.serial := by
  rw [split, List.map_append, List.map_cons, List.pairwise_append] at sorted
  obtain ⟨-, fromHit, across⟩ := sorted
  rcases List.mem_append.mp beside with early | late
  · exact (across _ (List.mem_map_of_mem early) _ List.mem_cons_self).ne
  · exact ((List.pairwise_cons.mp fromHit).1 _ (List.mem_map_of_mem late)).ne'

theorem Recorded.of_shrinks (recorded : Recorded cfg s) (shrinks : Shrinks s t) :
    Recorded cfg t where
  entries := fun k after found e member => by
    obtain ⟨before, held, fewer⟩ := shrinks.mailboxes k after found
    obtain ⟨old, oldMember, same⟩ :=
      List.mem_map.mp (fewer.subset (List.mem_map_of_mem member))
    have serial : (identity old).serial = (identity e).serial := congrArg _ same
    obtain ⟨m, logged, key, isEntry⟩ := recorded.entries k before held old oldMember
    rw [show old.serial = e.serial from serial] at logged isEntry
    exact ⟨m, shrinks.log ▸ logged, key, same ▸ isEntry⟩
  ordered := fun k after found => by
    obtain ⟨before, held, fewer⟩ := shrinks.mailboxes k after found
    have sorted := recorded.ordered k before held
    rw [serials_eq] at sorted ⊢
    exact sorted.sublist (fewer.map _)
  rows := fun after found row member => by
    obtain ⟨before, held, fewer⟩ := shrinks.rows after found
    obtain ⟨old, oldMember, same⟩ :=
      List.mem_map.mp (fewer.subset (List.mem_map_of_mem member))
    have serial : (rowIdentity old).serial = (rowIdentity row).serial := congrArg _ same
    obtain ⟨m, logged, isRow⟩ := recorded.rows before held old oldMember
    rw [show old.serial = row.serial from serial] at logged isRow
    exact ⟨m, shrinks.log ▸ logged, same ▸ isRow⟩

theorem getElem?_of_logged {log : List Stored} {n : Nat} {m : Stored} (m' : Stored)
    (logged : log[n]? = some m) : (log ++ [m'])[n]? = some m := by
  rw [List.getElem?_append_left (List.getElem?_eq_some_iff.mp logged).1, logged]

theorem serial_lt (recorded : Recorded cfg s) {k : String} {mb : Mailbox}
    (found : s.mailboxes k = some mb) {e : MailboxEntry} (member : e ∈ mb.entries) :
    e.serial < s.log.length := by
  obtain ⟨m, logged, -⟩ := recorded.entries k mb found e member
  exact (List.getElem?_eq_some_iff.mp logged).1

/-- A mailbox after a store: what was there, less what made room, and the new entry. -/
theorem storeMessage_mailbox (req : MailboxStoreRequest) (epochNow now : UInt64)
    (dbError : Option String) {k : String} {after : Mailbox}
    (found : (storeMessage cfg s req epochNow now dbError).2.mailboxes k = some after) :
    s.mailboxes k = some after ∨
      k = (storing cfg req epochNow now).key ∧ ∃ before : Mailbox,
        (s.mailboxes k = some before ∨ before.entries = []) ∧
        after.entries = before.makeRoom req.senderFp ++
          [(storing cfg req epochNow now).entry cfg s.log.length] := by
  rw [storeMessage_mailboxes] at found
  by_cases here : k = (storing cfg req epochNow now).key
  · subst here
    simp only [Function.update_self, Option.some.injEq] at found
    subst found
    refine Or.inr ⟨rfl, _, ?_, rfl⟩
    cases s.mailboxes (storing cfg req epochNow now).key with
    | none => exact Or.inr rfl
    | some mb => exact Or.inl rfl
  · simp only [Function.update_of_ne here] at found
    exact Or.inl found

theorem storeMessage_recorded (recorded : Recorded cfg s) (req : MailboxStoreRequest)
    (epochNow now : UInt64) (dbError : Option String) :
    Recorded cfg (storeMessage cfg s req epochNow now dbError).2 where
  entries := fun k after found e member => by
    rw [storeMessage_log]
    rcases storeMessage_mailbox req epochNow now dbError found with
      old | ⟨rfl, before, source, made⟩
    · obtain ⟨m, logged, rest⟩ := recorded.entries k after old e member
      exact ⟨m, getElem?_of_logged _ logged, rest⟩
    · rw [made] at member
      rcases List.mem_append.mp member with kept | isNew
      · have inside := (makeRoom_sublist before req.senderFp).subset kept
        rcases source with held | none
        · obtain ⟨m, logged, rest⟩ := recorded.entries _ before held e inside
          exact ⟨m, getElem?_of_logged _ logged, rest⟩
        · rw [none] at inside
          exact absurd inside List.not_mem_nil
      · obtain rfl := List.mem_singleton.mp isNew
        exact ⟨_, List.getElem?_concat_length, rfl, rfl⟩
  ordered := fun k after found => by
    rcases storeMessage_mailbox req epochNow now dbError found with
      old | ⟨rfl, before, source, made⟩
    · exact recorded.ordered k after old
    · rw [made, List.map_append, List.pairwise_append]
      have fewer := (makeRoom_sublist before req.senderFp).map (·.serial)
      rcases source with held | none
      · refine ⟨(recorded.ordered _ before held).sublist fewer, List.pairwise_singleton _ _, ?_⟩
        intro a old b new
        obtain ⟨e, member, rfl⟩ := List.mem_map.mp (fewer.subset old)
        obtain rfl := List.mem_singleton.mp new
        exact serial_lt recorded held member
      · rw [none] at fewer
        rw [List.sublist_nil.mp fewer]
        exact ⟨List.Pairwise.nil, List.pairwise_singleton _ _, fun _ old => nomatch old⟩
  rows := fun after found row member => by
    rw [storeMessage_log]
    rw [storeMessage_db] at found
    split at found
    · obtain ⟨m, logged, isRow⟩ := recorded.rows after found row member
      exact ⟨m, getElem?_of_logged _ logged, isRow⟩
    · obtain ⟨before, held, rfl⟩ := Option.map_eq_some_iff.mp found
      rcases List.mem_append.mp member with old | isNew
      · obtain ⟨m, logged, isRow⟩ := recorded.rows before held row old
        exact ⟨m, getElem?_of_logged _ logged, isRow⟩
      · obtain rfl := List.mem_singleton.mp isNew
        exact ⟨_, List.getElem?_concat_length, rfl⟩

theorem step_recorded (op : Operation) (recorded : Recorded cfg s) :
    Recorded cfg (step cfg s op).2 := by
  cases op with
  | storeMessage req epochNow now dbError =>
    exact storeMessage_recorded recorded req epochNow now dbError
  | fetchMessages recipientNid now readNow sqlOk => exact recorded
  | ackMessage recipientNid seq keysNow now sqlOk =>
    exact recorded.of_shrinks (ackMessage_shrinks recipientNid seq keysNow now sqlOk)
  | purgeAllMessages recipientNid senderFp now sqlOk =>
    exact recorded.of_shrinks (purgeAllMessages_shrinks recipientNid senderFp now sqlOk)
  | cleanupExpired now sqlOk => exact recorded.of_shrinks (cleanupExpired_shrinks now sqlOk)

theorem empty_recorded (pool : Bool) : Recorded cfg (empty pool) where
  entries := fun _ _ found => nomatch found
  ordered := fun _ _ found => nomatch found
  rows := fun rows found row member => by
    cases pool with
    | false => exact nomatch found
    | true =>
      obtain rfl := Option.some.inj found
      exact nomatch member

theorem final_recorded (pool : Bool) (ops : List Operation) :
    Recorded cfg (final (step cfg) (empty pool) ops) :=
  final_preserved (Recorded cfg) (fun _ op => step_recorded op) (empty_recorded pool) ops

/-- A relay keeps its pool, or keeps having none. -/
theorem step_db_isSome (op : Operation) : (step cfg s op).2.db.isSome = s.db.isSome := by
  cases op with
  | storeMessage req epochNow now dbError =>
    simp only [step, Prod.map_snd, id_eq, storeMessage_db]
    split <;> simp
  | fetchMessages recipientNid now readNow sqlOk => rfl
  | ackMessage recipientNid seq keysNow now sqlOk =>
    simp only [step, ackMessage, execute_db]
    split <;> simp
  | purgeAllMessages recipientNid senderFp now sqlOk =>
    simp only [step, purgeAllMessages, execute_db]
    split <;> simp
  | cleanupExpired now sqlOk =>
    simp only [step, cleanupExpired, execute_db]
    split <;> simp

theorem final_db_isSome (ops : List Operation) :
    (final (step cfg) s ops).db.isSome = s.db.isSome :=
  final_preserved (fun t : RelayState => t.db.isSome = s.db.isSome)
    (fun _ op same => (step_db_isSome op).trans same) rfl ops

/-- Call `n` of the log, the message `m`, is in its mailbox in memory. -/
def Held (m : Stored) (n : Nat) (s : RelayState) : Prop :=
  ∃ mb, s.mailboxes m.key = some mb ∧ ∃ e ∈ mb.entries, e.serial = n

/-- The row of call `n` is in the table and not delivered. -/
def InTable (n : Nat) (s : RelayState) : Prop :=
  ∃ rows, s.db = some rows ∧ ∃ row ∈ rows, row.serial = n ∧ row.delivered = false

/-- A call puts its entry into memory. -/
theorem held_new (req : MailboxStoreRequest) (epochNow now : UInt64) (dbError : Option String) :
    Held (storing cfg req epochNow now) s.log.length
      (storeMessage cfg s req epochNow now dbError).2 := by
  simp only [Held, storeMessage_mailboxes, Function.update_self]
  exact ⟨_, rfl, _, List.mem_append_right _ (List.mem_singleton_self _), rfl⟩

/-- A call puts its row into the table if there is one and the insert succeeds. -/
theorem inTable_new (recorded : Recorded cfg s) (req : MailboxStoreRequest)
    (epochNow now : UInt64) (dbError : Option String) :
    InTable s.log.length (storeMessage cfg s req epochNow now dbError).2 ↔
      dbError = none ∧ s.db.isSome = true := by
  have fresh : ∀ rows, s.db = some rows → ∀ row ∈ rows, row.serial ≠ s.log.length := by
    intro rows found row member same
    obtain ⟨m, logged, -⟩ := recorded.rows rows found row member
    exact (List.getElem?_eq_some_iff.mp logged).1.ne same
  simp only [InTable, storeMessage_db]
  cases dbError with
  | some e =>
    simp only [Option.isSome_some, if_true, reduceCtorEq, false_and, iff_false]
    rintro ⟨rows, found, row, member, serial, -⟩
    exact fresh rows found row member serial
  | none =>
    simp only [Option.isSome_none, Bool.false_eq_true, if_false, true_and]
    constructor
    · rintro ⟨rows, found, -⟩
      obtain ⟨before, held, -⟩ := Option.map_eq_some_iff.mp found
      exact Option.isSome_iff_exists.mpr ⟨before, held⟩
    · intro pool
      obtain ⟨rows, found⟩ := Option.isSome_iff_exists.mp pool
      exact ⟨_, Option.map_eq_some_iff.mpr ⟨rows, found, rfl⟩, _,
        List.mem_append_right _ (List.mem_singleton_self _), rfl, rfl⟩

variable (cfg) in
/-- The operation leaves the entry of call `n` in memory. -/
def SparesEntry (m : Stored) (n : Nat) (s : RelayState) : Operation → Prop
  | .storeMessage req epochNow now _ =>
    m.key = (storing cfg req epochNow now).key →
      ∀ mb, s.mailboxes m.key = some mb → ∃ e ∈ mb.makeRoom req.senderFp, e.serial = n
  | .fetchMessages .. => True
  | .ackMessage .. => True
  | .purgeAllMessages recipientNid senderFp now _ =>
    m.key ∈ mailboxKeys cfg recipientNid now → senderFp ≠ some m.req.senderFp
  | .cleanupExpired now _ => now - m.storedAt < mailboxTtlSeconds

variable (cfg) in
/-- The operation leaves the row of call `n` in the table, undelivered. -/
def SparesRow (m : Stored) (n : Nat) : Operation → Prop
  | .storeMessage .. => True
  | .fetchMessages .. => True
  | .ackMessage recipientNid seq keysNow _ sqlOk =>
    sqlOk = true → (m.row n).addressed (mailboxKeys cfg recipientNid keysNow) = true →
      m.req.seq ≠ seq
  | .purgeAllMessages recipientNid senderFp now sqlOk =>
    sqlOk = true → (m.row n).purged cfg (mailboxTags cfg recipientNid now) recipientNid
      senderFp = false
  | .cleanupExpired .. => True

section

variable {m : Stored} {n : Nat} (recorded : Recorded cfg s) (logged : s.log[n]? = some m)
include recorded logged

/-- The entries of call `n` all carry what the call was given. -/
theorem identity_of_serial {mb : Mailbox} {k : String} (found : s.mailboxes k = some mb)
    {e : MailboxEntry} (member : e ∈ mb.entries) (serial : e.serial = n) :
    k = m.key ∧ identity e = m.entry cfg n := by
  obtain ⟨m', logged', key, isEntry⟩ := recorded.entries k mb found e member
  rw [serial, logged] at logged'
  obtain rfl := Option.some.inj logged'
  exact ⟨key.symm, serial ▸ isEntry⟩

theorem rowIdentity_of_serial {rows : List Row} (found : s.db = some rows) {row : Row}
    (member : row ∈ rows) (serial : row.serial = n) : rowIdentity row = m.row n := by
  obtain ⟨m', logged', isRow⟩ := recorded.rows rows found row member
  rw [serial, logged] at logged'
  obtain rfl := Option.some.inj logged'
  exact serial ▸ isRow

omit recorded in
/-- The log only grows: a call keeps its number. -/
theorem step_logged (op : Operation) : (step cfg s op).2.log[n]? = some m := by
  cases op with
  | storeMessage req epochNow now dbError =>
    simp only [step, Prod.map_snd, id_eq, storeMessage_log]
    exact getElem?_of_logged _ logged
  | fetchMessages recipientNid now readNow sqlOk => exact logged
  | ackMessage recipientNid seq keysNow now sqlOk =>
    exact (congrArg (·[n]?)
      (ackMessage_shrinks recipientNid seq keysNow now sqlOk).log).trans logged
  | purgeAllMessages recipientNid senderFp now sqlOk =>
    exact (congrArg (·[n]?)
      (purgeAllMessages_shrinks recipientNid senderFp now sqlOk).log).trans logged
  | cleanupExpired now sqlOk =>
    exact (congrArg (·[n]?) (cleanupExpired_shrinks now sqlOk).log).trans logged

omit recorded in
theorem held_store (req : MailboxStoreRequest) (epochNow now : UInt64)
    (dbError : Option String) :
    Held m n (storeMessage cfg s req epochNow now dbError).2 ↔
      Held m n s ∧ SparesEntry cfg m n s (.storeMessage req epochNow now dbError) := by
  have older : s.log.length ≠ n := (List.getElem?_eq_some_iff.mp logged).1.ne'
  simp only [Held, SparesEntry, storeMessage_mailboxes]
  by_cases here : m.key = (storing cfg req epochNow now).key
  · rw [here]
    simp only [Function.update_self, Option.some.injEq, exists_eq_left', forall_const]
    cases found : s.mailboxes (storing cfg req epochNow now).key with
    | none => simp [Mailbox.store, Mailbox.makeRoom, Mailbox.new, Stored.entry, older]
    | some mb =>
      simp only [Option.getD_some, Mailbox.store, List.mem_append, List.mem_singleton,
        Option.some.injEq, forall_eq', exists_eq_left']
      constructor
      · rintro ⟨e, kept | rfl, serial⟩
        · exact ⟨⟨e, (makeRoom_sublist mb _).subset kept, serial⟩, e, kept, serial⟩
        · exact absurd serial older
      · rintro ⟨-, e, kept, serial⟩
        exact ⟨e, Or.inl kept, serial⟩
  · simp [here]

theorem held_purge (recipientNid : String) (senderFp : Option String) (now : UInt64)
    (sqlOk : Bool) :
    Held m n (purgeAllMessages cfg s recipientNid senderFp now sqlOk) ↔
      Held m n s ∧ SparesEntry cfg m n s (.purgeAllMessages recipientNid senderFp now sqlOk) := by
  simp only [Held, SparesEntry, purgeAllMessages_mailboxes]
  by_cases addressed : m.key ∈ mailboxKeys cfg recipientNid now
  · simp only [addressed, if_true, Option.map_eq_some_iff, exists_exists_and_eq_and, forall_const]
    constructor
    · rintro ⟨mb, found, e, member, serial⟩
      obtain ⟨inside, keeps⟩ := List.mem_filter.mp member
      refine ⟨⟨mb, found, e, inside, serial⟩, fun same => ?_⟩
      have sender : e.senderFp = m.req.senderFp := congrArg MailboxEntry.senderFp
        (identity_of_serial recorded logged found inside serial).2
      simp [same, sender] at keeps
    · rintro ⟨⟨mb, found, e, member, serial⟩, other⟩
      refine ⟨mb, found, e, List.mem_filter.mpr ⟨member, ?_⟩, serial⟩
      have sender : e.senderFp = m.req.senderFp := congrArg MailboxEntry.senderFp
        (identity_of_serial recorded logged found member serial).2
      cases senderFp with
      | none => rfl
      | some fp => simpa [sender] using fun same => other (congrArg some same.symm)
  · simp [addressed]

theorem held_cleanup (now : UInt64) (sqlOk : Bool) :
    Held m n (cleanupExpired s now sqlOk) ↔
      Held m n s ∧ SparesEntry cfg m n s (.cleanupExpired now sqlOk) := by
  simp only [Held, SparesEntry, cleanupExpired, execute_mailboxes]
  have live : ∀ mb, s.mailboxes m.key = some mb → ∀ e ∈ mb.entries, e.serial = n →
      (Mailbox.isLive now e = true ↔ now - m.storedAt < mailboxTtlSeconds) := by
    intro mb found e member serial
    have stored : e.storedAt = m.storedAt := congrArg MailboxEntry.storedAt
      (identity_of_serial recorded logged found member serial).2
    simp [Mailbox.isLive, stored]
  constructor
  · rintro ⟨after, found, e, member, serial⟩
    obtain ⟨mapped, -⟩ := Option.filter_eq_some_iff.mp found
    obtain ⟨mb, held, rfl⟩ := Option.map_eq_some_iff.mp mapped
    obtain ⟨inside, isLive⟩ := List.mem_filter.mp member
    exact ⟨⟨mb, held, e, inside, serial⟩, (live mb held e inside serial).mp isLive⟩
  · rintro ⟨⟨mb, found, e, member, serial⟩, young⟩
    have kept : e ∈ (mb.dropExpired now).entries :=
      List.mem_filter.mpr ⟨member, (live mb found e member serial).mpr young⟩
    refine ⟨mb.dropExpired now, ?_, e, kept, serial⟩
    rw [found]
    exact Option.filter_eq_some_iff.mpr ⟨rfl, by simpa using List.ne_nil_of_mem kept⟩

omit recorded logged in
theorem held_ack (recipientNid : String) (seq : Int64) (keysNow now : UInt64) (sqlOk : Bool) :
    Held m n (ackMessage cfg s recipientNid seq keysNow now sqlOk) ↔ Held m n s := by
  have serials : ∀ mb : Mailbox, (∃ e ∈ (mb.markDelivered seq now).entries, e.serial = n) ↔
      ∃ e ∈ mb.entries, e.serial = n := by
    intro mb
    rw [← List.mem_map, ← List.mem_map, serials_eq, map_markDelivered, ← serials_eq]
  simp only [Held, ackMessage_mailboxes]
  by_cases addressed : m.key ∈ mailboxKeys cfg recipientNid keysNow
  · simp only [addressed, if_true, Option.map_eq_some_iff, exists_exists_and_eq_and, serials]
  · simp only [addressed, if_false]

theorem held_step (op : Operation) :
    Held m n (step cfg s op).2 ↔ Held m n s ∧ SparesEntry cfg m n s op := by
  cases op with
  | storeMessage req epochNow now dbError => exact held_store logged req epochNow now dbError
  | fetchMessages recipientNid now readNow sqlOk => exact (and_iff_left trivial).symm
  | ackMessage recipientNid seq keysNow now sqlOk =>
    exact (held_ack recipientNid seq keysNow now sqlOk).trans
      (and_iff_left trivial).symm
  | purgeAllMessages recipientNid senderFp now sqlOk =>
    exact held_purge recorded logged recipientNid senderFp now sqlOk
  | cleanupExpired now sqlOk => exact held_cleanup recorded logged now sqlOk

theorem inTable_ack (recipientNid : String) (seq : Int64) (keysNow now : UInt64)
    (sqlOk : Bool) :
    InTable n (ackMessage cfg s recipientNid seq keysNow now sqlOk) ↔
      InTable n s ∧ SparesRow cfg m n (.ackMessage recipientNid seq keysNow now sqlOk) := by
  cases sqlOk with
  | false => simp [InTable, SparesRow, ackMessage, execute]
  | true =>
    simp only [InTable, SparesRow, ackMessage, execute_db, if_true, Option.map_eq_some_iff,
      exists_exists_and_eq_and, forall_const]
    constructor
    · rintro ⟨rows, found, after, member, serial, undelivered⟩
      obtain ⟨row, inside, rfl⟩ := List.mem_map.mp member
      split at undelivered
      · exact absurd undelivered Bool.noConfusion
      · rename_i unmarked
        rw [if_neg unmarked] at serial
        have same := rowIdentity_of_serial recorded logged found inside serial
        refine ⟨⟨rows, found, row, inside, serial, undelivered⟩, fun addressed hit => ?_⟩
        apply unmarked
        rw [← same] at addressed
        change row.addressed _ = true at addressed
        have seqs : row.seq = m.req.seq := congrArg Row.seq same
        exact ⟨by simpa [Row.pending, undelivered] using addressed, seqs.trans hit⟩
    · rintro ⟨⟨rows, found, row, inside, serial, undelivered⟩, spared⟩
      have same := rowIdentity_of_serial recorded logged found inside serial
      have unmarked : ¬ (row.pending (mailboxKeys cfg recipientNid keysNow) = true ∧
          row.seq = seq) := by
        rintro ⟨pending, hit⟩
        have seqs : row.seq = m.req.seq := congrArg Row.seq same
        refine spared ?_ (seqs.symm.trans hit)
        rw [← same]
        exact (Bool.and_eq_true_iff.mp pending).1
      exact ⟨rows, found, row, List.mem_map.mpr ⟨row, inside, if_neg unmarked⟩, serial,
        undelivered⟩

theorem inTable_purge (recipientNid : String) (senderFp : Option String) (now : UInt64)
    (sqlOk : Bool) :
    InTable n (purgeAllMessages cfg s recipientNid senderFp now sqlOk) ↔
      InTable n s ∧ SparesRow cfg m n (.purgeAllMessages recipientNid senderFp now sqlOk) := by
  cases sqlOk with
  | false => simp [InTable, SparesRow, purgeAllMessages, execute]
  | true =>
    simp only [InTable, SparesRow, purgeAllMessages, execute_db, if_true, Option.map_eq_some_iff,
      exists_exists_and_eq_and, forall_const, List.mem_filter, Bool.not_eq_true']
    constructor
    · rintro ⟨rows, found, row, ⟨inside, spared⟩, serial, undelivered⟩
      have same := rowIdentity_of_serial recorded logged found inside serial
      rw [← same]
      exact ⟨⟨rows, found, row, inside, serial, undelivered⟩, spared⟩
    · rintro ⟨⟨rows, found, row, inside, serial, undelivered⟩, spared⟩
      have same := rowIdentity_of_serial recorded logged found inside serial
      rw [← same] at spared
      exact ⟨rows, found, row, ⟨inside, spared⟩, serial, undelivered⟩

omit recorded in
theorem inTable_store (req : MailboxStoreRequest) (epochNow now : UInt64)
    (dbError : Option String) :
    InTable n (storeMessage cfg s req epochNow now dbError).2 ↔ InTable n s := by
  have older : s.log.length ≠ n := (List.getElem?_eq_some_iff.mp logged).1.ne'
  simp only [InTable, storeMessage_db]
  cases dbError with
  | some e => simp
  | none =>
    simp only [Option.isSome_none, Bool.false_eq_true, if_false, Option.map_eq_some_iff,
      exists_exists_and_eq_and, List.mem_append, List.mem_singleton]
    constructor
    · rintro ⟨rows, found, row, inside | rfl, serial, undelivered⟩
      · exact ⟨rows, found, row, inside, serial, undelivered⟩
      · exact absurd serial older
    · rintro ⟨rows, found, row, inside, serial, undelivered⟩
      exact ⟨rows, found, row, Or.inl inside, serial, undelivered⟩

omit recorded logged in
theorem inTable_cleanup (now : UInt64) (sqlOk : Bool) :
    InTable n (cleanupExpired s now sqlOk) ↔ InTable n s := by
  cases sqlOk with
  | false => simp [InTable, cleanupExpired, execute]
  | true =>
    simp only [InTable, cleanupExpired, execute_db, if_true, Option.map_eq_some_iff,
      exists_exists_and_eq_and, List.mem_filter]
    constructor
    · rintro ⟨rows, found, row, ⟨inside, -⟩, serial, undelivered⟩
      exact ⟨rows, found, row, inside, serial, undelivered⟩
    · rintro ⟨rows, found, row, inside, serial, undelivered⟩
      exact ⟨rows, found, row, ⟨inside, by simp [undelivered]⟩, serial, undelivered⟩

theorem inTable_step (op : Operation) :
    InTable n (step cfg s op).2 ↔ InTable n s ∧ SparesRow cfg m n op := by
  cases op with
  | storeMessage req epochNow now dbError =>
    exact (inTable_store logged req epochNow now dbError).trans (and_iff_left trivial).symm
  | fetchMessages recipientNid now readNow sqlOk => exact (and_iff_left trivial).symm
  | ackMessage recipientNid seq keysNow now sqlOk =>
    exact inTable_ack recorded logged recipientNid seq keysNow now sqlOk
  | purgeAllMessages recipientNid senderFp now sqlOk =>
    exact inTable_purge recorded logged recipientNid senderFp now sqlOk
  | cleanupExpired now sqlOk =>
    exact (inTable_cleanup now sqlOk).trans (and_iff_left trivial).symm

/-- A message is in memory after a run exactly if it was there and every
operation spared it. -/
theorem held_run (ops : List Operation) :
    Held m n (final (step cfg) s ops) ↔
      Held m n s ∧ Along (step cfg) (SparesEntry cfg m n) s ops :=
  final_iff_along (fun s => Recorded cfg s ∧ s.log[n]? = some m)
    (fun _ op inv => ⟨step_recorded op inv.1, step_logged inv.2 op⟩)
    (fun _ op inv => held_step inv.1 inv.2 op) ⟨recorded, logged⟩ ops

theorem inTable_run (ops : List Operation) :
    InTable n (final (step cfg) s ops) ↔
      InTable n s ∧ Along (step cfg) (fun _ => SparesRow cfg m n) s ops :=
  final_iff_along (fun s => Recorded cfg s ∧ s.log[n]? = some m)
    (fun _ op inv => ⟨step_recorded op inv.1, step_logged inv.2 op⟩)
    (fun _ op inv => inTable_step inv.1 inv.2 op) ⟨recorded, logged⟩ ops

theorem logged_run (ops : List Operation) :
    (final (step cfg) s ops).log[n]? = some m :=
  (final_preserved (fun s => Recorded cfg s ∧ s.log[n]? = some m)
    (fun _ op inv => ⟨step_recorded op inv.1, step_logged inv.2 op⟩) ⟨recorded, logged⟩ ops).2

end

theorem row_addressed (m : Stored) (n : Nat) (keys : List String) :
    (m.row n).addressed keys = true ↔ m.key ∈ keys ∨ "" ∈ keys := by
  cases tag : m.tag with
  | none => simp [Row.addressed, Stored.row, Stored.key, tag, or_comm]
  | some t => simp [Row.addressed, Stored.row, Stored.key, tag]

/-- Call `n` is among the entries. -/
def Returned (n : Nat) (entries : List MailboxEntry) : Prop := ∃ e ∈ entries, e.serial = n

instance (n : Nat) (entries : List MailboxEntry) : Decidable (Returned n entries) :=
  inferInstanceAs (Decidable (∃ e ∈ entries, e.serial = n))

/-- The table has an answer for these keys. -/
def SqlAnswers (s : RelayState) (keys : List String) (sqlOk : Bool) : Prop :=
  sqlOk = true ∧ ∃ rows, s.db = some rows ∧ ∃ row ∈ rows, row.pending keys = true

/-- The mailbox under `k` has an entry that has not expired when it is read. -/
def hasLive (s : RelayState) (readNow : String → UInt64) (k : String) : Bool :=
  match s.mailboxes k with
  | none => false
  | some mb => !(mb.fetchAll (readNow k)).isEmpty

theorem mem_selectRows (keys : List String) (sqlOk : Bool) (e : MailboxEntry) :
    e ∈ selectRows cfg s keys sqlOk ↔ sqlOk = true ∧ ∃ rows, s.db = some rows ∧
      ∃ row ∈ rows, row.pending keys = true ∧ row.toEntry cfg = e := by
  unfold selectRows
  cases s.db <;> cases sqlOk <;> simp [and_assoc]

theorem selectRows_eq_nil (keys : List String) (sqlOk : Bool) :
    selectRows cfg s keys sqlOk = [] ↔ ¬ SqlAnswers s keys sqlOk := by
  rw [List.eq_nil_iff_forall_not_mem]
  constructor
  · rintro none ⟨ok, rows, found, row, member, pending⟩
    exact none _ ((mem_selectRows keys sqlOk _).mpr ⟨ok, rows, found, row, member, pending, rfl⟩)
  · intro silent e member
    obtain ⟨ok, rows, found, row, inside, pending, -⟩ := (mem_selectRows keys sqlOk e).mp member
    exact silent ⟨ok, rows, found, row, inside, pending⟩

theorem fetchMessages_of_answers {recipientNid : String} {now : UInt64} {sqlOk : Bool}
    (answers : SqlAnswers s (mailboxKeys cfg recipientNid now) sqlOk)
    (readNow : String → UInt64) :
    fetchMessages cfg s recipientNid now readNow sqlOk =
      selectRows cfg s (mailboxKeys cfg recipientNid now) sqlOk :=
  if_neg fun none => (selectRows_eq_nil _ _).mp (List.isEmpty_iff.mp none) answers

theorem fetchMessages_of_silent {recipientNid : String} {now : UInt64} {sqlOk : Bool}
    (silent : ¬ SqlAnswers s (mailboxKeys cfg recipientNid now) sqlOk)
    (readNow : String → UInt64) :
    fetchMessages cfg s recipientNid now readNow sqlOk =
      scanMailboxes s readNow (mailboxKeys cfg recipientNid now) :=
  if_pos (List.isEmpty_iff.mpr ((selectRows_eq_nil _ _).mpr silent))

theorem mem_scanMailboxes (readNow : String → UInt64) (keys : List String) (e : MailboxEntry) :
    e ∈ scanMailboxes s readNow keys ↔ ∃ k mb, keys.find? (hasLive s readNow) = some k ∧
      s.mailboxes k = some mb ∧ e ∈ mb.fetchAll (readNow k) := by
  induction keys with
  | nil => simp [scanMailboxes]
  | cons k rest ih =>
    cases found : s.mailboxes k with
    | none => simp only [scanMailboxes, found, ih, List.find?_cons, hasLive]
    | some mb =>
      cases live : (mb.fetchAll (readNow k)).isEmpty with
      | true =>
        simp only [scanMailboxes, found, live, if_true, ih, List.find?_cons, hasLive,
          Bool.not_true]
      | false =>
        simp [scanMailboxes, found, live, hasLive]

section

variable {m : Stored} {n : Nat} (recorded : Recorded cfg s) (logged : s.log[n]? = some m)
include recorded logged

theorem returned_select (keys : List String) (sqlOk : Bool) :
    Returned n (selectRows cfg s keys sqlOk) ↔
      sqlOk = true ∧ InTable n s ∧ (m.row n).addressed keys = true := by
  simp only [Returned, mem_selectRows, InTable]
  constructor
  · rintro ⟨e, ⟨ok, rows, found, row, inside, pending, rfl⟩, serial⟩
    have same := rowIdentity_of_serial recorded logged found inside serial
    obtain ⟨addressed, undelivered⟩ := Bool.and_eq_true_iff.mp pending
    rw [← same]
    exact ⟨ok, ⟨rows, found, row, inside, serial, by simpa using undelivered⟩, addressed⟩
  · rintro ⟨ok, ⟨rows, found, row, inside, serial, undelivered⟩, addressed⟩
    have same := rowIdentity_of_serial recorded logged found inside serial
    rw [← same] at addressed
    exact ⟨row.toEntry cfg, ⟨ok, rows, found, row, inside,
      Bool.and_eq_true_iff.mpr ⟨addressed, by simp [undelivered]⟩, rfl⟩, serial⟩

theorem returned_scan (readNow : String → UInt64) (keys : List String) :
    Returned n (scanMailboxes s readNow keys) ↔
      keys.find? (hasLive s readNow) = some m.key ∧ Held m n s ∧
        readNow m.key - m.storedAt < mailboxTtlSeconds := by
  simp only [Returned, mem_scanMailboxes, Held]
  constructor
  · rintro ⟨e, ⟨k, mb, first, found, member⟩, serial⟩
    obtain ⟨inside, live⟩ := List.mem_filter.mp member
    obtain ⟨rfl, same⟩ := identity_of_serial recorded logged found inside serial
    have stored : e.storedAt = m.storedAt := congrArg MailboxEntry.storedAt same
    exact ⟨first, ⟨mb, found, e, inside, serial⟩, by simpa [Mailbox.isLive, stored] using live⟩
  · rintro ⟨first, ⟨mb, found, e, inside, serial⟩, young⟩
    have stored : e.storedAt = m.storedAt := congrArg MailboxEntry.storedAt
      (identity_of_serial recorded logged found inside serial).2
    exact ⟨e, ⟨m.key, mb, first, found, List.mem_filter.mpr
      ⟨inside, by simpa [Mailbox.isLive, stored] using young⟩⟩, serial⟩

/-- A fetch returns a message that is pending in the table, or, if the table has
no answer, one that is live in the first mailbox with anything live. -/
theorem returned_fetch (recipientNid : String) (now : UInt64) (readNow : String → UInt64)
    (sqlOk : Bool) :
    Returned n (fetchMessages cfg s recipientNid now readNow sqlOk) ↔
      (SqlAnswers s (mailboxKeys cfg recipientNid now) sqlOk →
        InTable n s ∧ (m.row n).addressed (mailboxKeys cfg recipientNid now) = true) ∧
      (¬ SqlAnswers s (mailboxKeys cfg recipientNid now) sqlOk →
        (mailboxKeys cfg recipientNid now).find? (hasLive s readNow) = some m.key ∧
          Held m n s ∧ readNow m.key - m.storedAt < mailboxTtlSeconds) := by
  by_cases answers : SqlAnswers s (mailboxKeys cfg recipientNid now) sqlOk
  · rw [fetchMessages_of_answers answers, returned_select recorded logged]
    constructor
    · rintro ⟨-, table⟩
      exact ⟨fun _ => table, fun silent => absurd answers silent⟩
    · rintro ⟨table, -⟩
      exact ⟨answers.1, table answers⟩
  · rw [fetchMessages_of_silent answers, returned_scan recorded logged]
    constructor
    · intro memory
      exact ⟨fun answered => absurd answered answers, fun _ => memory⟩
    · rintro ⟨-, memory⟩
      exact memory answers

/-- The two ways in which a fetch leaves a message out. -/
theorem absent_fetch (recipientNid : String) (now : UInt64) (readNow : String → UInt64)
    (sqlOk : Bool) :
    ¬ Returned n (fetchMessages cfg s recipientNid now readNow sqlOk) ↔
      (SqlAnswers s (mailboxKeys cfg recipientNid now) sqlOk →
        ¬ (InTable n s ∧ (m.row n).addressed (mailboxKeys cfg recipientNid now) = true)) ∧
      (¬ SqlAnswers s (mailboxKeys cfg recipientNid now) sqlOk →
        ¬ ((mailboxKeys cfg recipientNid now).find? (hasLive s readNow) = some m.key ∧
          Held m n s ∧ readNow m.key - m.storedAt < mailboxTtlSeconds)) := by
  rw [returned_fetch recorded logged]
  by_cases answers : SqlAnswers s (mailboxKeys cfg recipientNid now) sqlOk
  · simp [answers]
  · simp [answers]

end

end RelayTracking

import AddMessenger.RelayTracking

/-!
# Memory against the table

The same operations on a relay with a pool and on one without. Memory is the same
on both; with a pool a fetch is answered from the table whenever that has anything.
The two answers agree as long as every operation takes the same messages out of
memory and out of the table.
-/

namespace RelayAgreement

open Mealy RelayMailbox RelayTracking

/-- What a fetched message is compared by. -/
def view (e : MailboxEntry) : String × String × String × Int64 :=
  (e.signedBlob, e.senderNid, e.senderFp, e.seq)

def messageView (m : Stored) : String × String × String × Int64 :=
  (m.req.signedBlob, m.req.senderNid, m.req.senderFp, m.req.seq)

/-- Every SQL statement of the operation succeeds. -/
def Reliable : Operation → Prop
  | .storeMessage _ _ _ dbError => dbError = none
  | .fetchMessages _ _ _ sqlOk => sqlOk = true
  | .ackMessage _ _ _ _ sqlOk => sqlOk = true
  | .purgeAllMessages _ _ _ sqlOk => sqlOk = true
  | .cleanupExpired _ sqlOk => sqlOk = true

variable (cfg : Config)

def withPool (ops : List Operation) : RelayState := final (step cfg) (empty true) ops

def withoutPool (ops : List Operation) : RelayState := final (step cfg) (empty false) ops

/-- Both relays answer a fetch with the same messages. -/
def Agree (ops : List Operation) (recipientNid : String) (now : UInt64)
    (readNow : String → UInt64) : Prop :=
  ∀ v, v ∈ (fetchMessages cfg (withPool cfg ops) recipientNid now readNow true).map view ↔
    v ∈ (fetchMessages cfg (withoutPool cfg ops) recipientNid now readNow true).map view

/-- The operation takes a message addressed by `keys` out of memory exactly if it
takes it out of the table. -/
def SameEffect (keys : List String) (s : RelayState) (op : Operation) : Prop :=
  ∀ n m, s.log[n]? = some m → (m.row n).addressed keys = true → Held m n s →
    (SparesEntry cfg m n s op ↔ SparesRow cfg m n op)

/-- All mail addressed by `keys` is unexpired and in the first mailbox with mail. -/
def OneMailbox (keys : List String) (s : RelayState) (readNow : String → UInt64) : Prop :=
  ∀ n m, s.log[n]? = some m → (m.row n).addressed keys = true → Held m n s →
    keys.find? (hasLive s readNow) = some m.key ∧
      readNow m.key - m.storedAt < mailboxTtlSeconds

variable {cfg}

/-- The two relays have the same memory. -/
def SameMemory (s t : RelayState) : Prop := s.mailboxes = t.mailboxes ∧ s.log = t.log

theorem step_sameMemory (s t : RelayState) (op : Operation) (same : SameMemory s t) :
    SameMemory (step cfg s op).2 (step cfg t op).2 := by
  obtain ⟨mailboxes, log⟩ := same
  cases op with
  | storeMessage req epochNow now dbError =>
    simp only [SameMemory, step, Prod.map_snd, id_eq, storeMessage_mailboxes, storeMessage_log,
      mailboxes, log, and_self]
  | fetchMessages recipientNid now readNow sqlOk => exact ⟨mailboxes, log⟩
  | ackMessage recipientNid seq keysNow now sqlOk =>
    simp only [SameMemory, step, ackMessage, execute_mailboxes, execute_log, mailboxes, log,
      and_self]
  | purgeAllMessages recipientNid senderFp now sqlOk =>
    simp only [SameMemory, step, purgeAllMessages, execute_mailboxes, execute_log, mailboxes, log,
      and_self]
  | cleanupExpired now sqlOk =>
    simp only [SameMemory, step, cleanupExpired, execute_mailboxes, execute_log, mailboxes, log,
      and_self]

theorem scanMailboxes_sameMemory {s t : RelayState} (same : s.mailboxes = t.mailboxes)
    (readNow : String → UInt64) (keys : List String) :
    scanMailboxes s readNow keys = scanMailboxes t readNow keys := by
  induction keys with
  | nil => rfl
  | cons k rest ih => simp only [scanMailboxes, same, ih]

/-- Without a pool a fetch is the scan the other relay would fall back to. -/
theorem fetch_withoutPool (ops : List Operation) (recipientNid : String) (now : UInt64)
    (readNow : String → UInt64) :
    fetchMessages cfg (withoutPool cfg ops) recipientNid now readNow true =
      scanMailboxes (withPool cfg ops) readNow (mailboxKeys cfg recipientNid now) := by
  have same : SameMemory (withoutPool cfg ops) (withPool cfg ops) :=
    final_related SameMemory step_sameMemory
      (show SameMemory (empty false) (empty true) from ⟨rfl, rfl⟩) ops
  have noPool : (withoutPool cfg ops).db = none :=
    Option.not_isSome_iff_eq_none.mp (Bool.not_eq_true _ ▸ final_db_isSome ops)
  simp only [fetchMessages, selectRows, noPool, List.isEmpty_nil, if_true,
    scanMailboxes_sameMemory same.1]

variable (cfg) in
/-- For the messages addressed by `keys`, being in memory and being pending in the
table is the same. -/
structure Mirror (keys : List String) (s : RelayState) : Prop where
  recorded : Recorded cfg s
  pool : s.db.isSome = true
  both : ∀ n m, s.log[n]? = some m → (m.row n).addressed keys = true →
    (Held m n s ↔ InTable n s)

variable {keys : List String} {s : RelayState}

theorem empty_mirror : Mirror cfg keys (empty true) where
  recorded := empty_recorded true
  pool := rfl
  both := fun _ _ logged => nomatch logged

/-- A call that was in the log before stays mirrored. -/
theorem mirrored_step (mirror : Mirror cfg keys s) {op : Operation}
    (same : SameEffect cfg keys s op) {n : Nat} {m : Stored} (logged : s.log[n]? = some m)
    (addressed : (m.row n).addressed keys = true) :
    Held m n (step cfg s op).2 ↔ InTable n (step cfg s op).2 := by
  have both := mirror.both n m logged addressed
  rw [held_step mirror.recorded logged, inTable_step mirror.recorded logged]
  constructor
  · rintro ⟨held, spares⟩
    exact ⟨both.mp held, (same n m logged addressed held).mp spares⟩
  · rintro ⟨inTable, spares⟩
    have held := both.mpr inTable
    exact ⟨held, (same n m logged addressed held).mpr spares⟩

theorem step_mirror (op : Operation) (mirror : Mirror cfg keys s)
    (ok : Reliable op ∧ SameEffect cfg keys s op) : Mirror cfg keys (step cfg s op).2 := by
  obtain ⟨reliable, same⟩ := ok
  refine ⟨step_recorded op mirror.recorded, (step_db_isSome op).trans mirror.pool, ?_⟩
  intro n m logged addressed
  by_cases old : s.log[n]? = some m
  · exact mirrored_step mirror same old addressed
  · cases op with
    | storeMessage req epochNow now dbError =>
      obtain rfl : dbError = none := reliable
      change (storeMessage cfg s req epochNow now none).2.log[n]? = some m at logged
      rw [storeMessage_log, List.getElem?_append] at logged
      split at logged
      · exact absurd logged old
      · -- the message just stored: both stores have it
        rename_i beyond
        obtain ⟨last, rfl⟩ := List.getElem?_eq_some_iff.mp logged
        have here : n = s.log.length := by
          simp only [List.length_singleton] at last
          omega
        subst here
        simp only [Nat.sub_self, List.getElem_cons_zero]
        exact iff_of_true (held_new req epochNow now none)
          ((inTable_new mirror.recorded req epochNow now none).mpr ⟨rfl, mirror.pool⟩)
    | fetchMessages recipientNid now readNow sqlOk => exact absurd logged old
    | ackMessage recipientNid seq keysNow now sqlOk =>
      exact absurd ((congrArg (·[n]?)
        (ackMessage_shrinks recipientNid seq keysNow now sqlOk).log).symm.trans logged) old
    | purgeAllMessages recipientNid senderFp now sqlOk =>
      exact absurd ((congrArg (·[n]?)
        (purgeAllMessages_shrinks recipientNid senderFp now sqlOk).log).symm.trans logged) old
    | cleanupExpired now sqlOk =>
      exact absurd ((congrArg (·[n]?)
        (cleanupExpired_shrinks now sqlOk).log).symm.trans logged) old

/-- Every entry shows what one call of the log was given. -/
def Traced (s : RelayState) (entries : List MailboxEntry) : Prop :=
  ∀ e ∈ entries, ∃ m, s.log[e.serial]? = some m ∧ view e = messageView m

theorem selectRows_traced (recorded : Recorded cfg s) (keys : List String) (sqlOk : Bool) :
    Traced s (selectRows cfg s keys sqlOk) := by
  intro e member
  obtain ⟨-, rows, found, row, inside, -, rfl⟩ := (mem_selectRows keys sqlOk e).mp member
  obtain ⟨m, logged, isRow⟩ := recorded.rows rows found row inside
  have shown : view ((rowIdentity row).toEntry cfg) = messageView m := by rw [isRow]; rfl
  exact ⟨m, logged, shown⟩

theorem scanMailboxes_traced (recorded : Recorded cfg s) (readNow : String → UInt64)
    (keys : List String) : Traced s (scanMailboxes s readNow keys) := by
  intro e member
  obtain ⟨k, mb, -, found, inside⟩ := (mem_scanMailboxes readNow keys e).mp member
  obtain ⟨m, logged, -, isEntry⟩ :=
    recorded.entries k mb found e (List.mem_filter.mp inside).1
  have shown : view (identity e) = messageView m := by rw [isEntry]; rfl
  exact ⟨m, logged, shown⟩

/-- Answers that return the same calls show the same messages. -/
theorem views_subset {first second : List MailboxEntry} (traced : Traced s first)
    (traced' : Traced s second)
    (returned : ∀ n m, s.log[n]? = some m → Returned n first → Returned n second)
    {v : String × String × String × Int64} (shown : v ∈ first.map view) :
    v ∈ second.map view := by
  obtain ⟨e, member, rfl⟩ := List.mem_map.mp shown
  obtain ⟨m, logged, isView⟩ := traced e member
  obtain ⟨e', member', serial⟩ := returned e.serial m logged ⟨e, member, rfl⟩
  obtain ⟨m', logged', isView'⟩ := traced' e' member'
  rw [serial, logged] at logged'
  obtain rfl := Option.some.inj logged'
  exact List.mem_map.mpr ⟨e', member', isView'.trans isView.symm⟩

/-- On mirrored mail the table and the scan return the same calls. -/
theorem select_iff_scan (mirror : Mirror cfg keys s) {readNow : String → UInt64}
    (one : OneMailbox keys s readNow) {n : Nat} {m : Stored} (logged : s.log[n]? = some m) :
    Returned n (selectRows cfg s keys true) ↔ Returned n (scanMailboxes s readNow keys) := by
  rw [returned_select mirror.recorded logged, returned_scan mirror.recorded logged]
  constructor
  · rintro ⟨-, inTable, addressed⟩
    have held := (mirror.both n m logged addressed).mpr inTable
    obtain ⟨first, young⟩ := one n m logged addressed held
    exact ⟨first, held, young⟩
  · rintro ⟨first, held, -⟩
    have addressed : (m.row n).addressed keys = true :=
      (row_addressed m n keys).mpr (Or.inl (List.mem_of_find?_eq_some first))
    exact ⟨rfl, (mirror.both n m logged addressed).mp held, addressed⟩

variable (cfg) in
/-- If the table has nothing for the recipient, or every operation has done the
same to the recipient's mail in memory and in the table and that mail is unexpired
and in one mailbox, then the two relays answer alike. -/
theorem pool_agrees (ops : List Operation) (reliable : ∀ op ∈ ops, Reliable op)
    (recipientNid : String) (now : UInt64) (readNow : String → UInt64)
    (meets : ¬ SqlAnswers (withPool cfg ops) (mailboxKeys cfg recipientNid now) true ∨
      Along (step cfg) (SameEffect cfg (mailboxKeys cfg recipientNid now)) (empty true) ops ∧
        OneMailbox (mailboxKeys cfg recipientNid now) (withPool cfg ops) readNow) :
    Agree cfg ops recipientNid now readNow := by
  intro v
  rw [fetch_withoutPool]
  by_cases answers : SqlAnswers (withPool cfg ops) (mailboxKeys cfg recipientNid now) true
  · obtain ⟨same, one⟩ := meets.resolve_left (not_not_intro answers)
    have steps := along_and ((along_mem (empty true) ops).mpr reliable) same
    have mirror : Mirror cfg (mailboxKeys cfg recipientNid now) (withPool cfg ops) :=
      final_invariant (Mirror cfg _) (fun _ op => step_mirror op) empty_mirror steps
    have table := selectRows_traced mirror.recorded (mailboxKeys cfg recipientNid now) true
    have memory := scanMailboxes_traced mirror.recorded readNow (mailboxKeys cfg recipientNid now)
    rw [fetchMessages_of_answers answers]
    exact ⟨views_subset table memory fun _ _ logged => (select_iff_scan mirror one logged).mp,
      views_subset memory table fun _ _ logged => (select_iff_scan mirror one logged).mpr⟩
  · rw [fetchMessages_of_silent answers]

/-- One message, stored without a secret. -/
def singleStore : List Operation :=
  [.storeMessage ⟨"NN-R", "NN-S", "fp-s", "first", 1⟩ 60 60 none]

instance (m : Stored) (n : Nat) (s : RelayState) : Decidable (Held m n s) :=
  decidable_of_iff
    (((s.mailboxes m.key).any fun mb => mb.entries.any fun e => e.serial = n) = true)
    (by simp [Held, Option.any_eq_true])

/-- With a secret: a message that a purge removes, and another one that an acknowledgement and a
cleanup leave alone. -/
def purgedAndKept : List Operation :=
  [.storeMessage ⟨"NN-R", "NN-S", "fp-s", "first", 1⟩ 60 60 none,
    .purgeAllMessages "NN-R" (some "fp-s") 70 true,
    .storeMessage ⟨"NN-R", "NN-T", "fp-t", "second", 2⟩ 80 80 none,
    .ackMessage "NN-R" 9 90 90 true, .cleanupExpired 100 true]

theorem pool_agrees_purgedAndKept :
    SqlAnswers (withPool (sumConfig (some "x")) purgedAndKept)
        (mailboxKeys (sumConfig (some "x")) "NN-R" 110) true ∧
      Agree (sumConfig (some "x")) purgedAndKept "NN-R" 110 (fun _ => 110) := by
  refine ⟨⟨rfl, _, rfl, _, List.mem_singleton_self _, by decide +kernel⟩,
    pool_agrees (sumConfig (some "x")) purgedAndKept (by simp [purgedAndKept, Reliable]) "NN-R" 110
      (fun _ => 110) (Or.inr ⟨⟨?_, ?_, ?_, ?_, ?_, trivial⟩, ?_⟩)⟩
  · intro _ _ logged
    cases logged
  · intro n m logged _ _
    cases n with
    | zero =>
      obtain rfl := Option.some.inj logged
      refine iff_of_false ?_ ?_
      · simp only [SparesEntry]
        decide +kernel
      · simp only [SparesRow]
        decide +kernel
    | succ n => cases logged
  · -- the message that was purged is no longer held
    intro n m logged _ held
    cases n with
    | zero =>
      obtain rfl := Option.some.inj logged
      exact absurd held (by decide +kernel)
    | succ n => cases logged
  · intro n m logged _ _
    refine iff_of_true trivial fun _ _ => ?_
    rcases n with _ | _ | n
    · obtain rfl := Option.some.inj logged
      decide
    · obtain rfl := Option.some.inj logged
      decide
    · cases logged
  · intro n m logged _ _
    refine iff_of_true ?_ trivial
    simp only [SparesEntry]
    rcases n with _ | _ | n
    · obtain rfl := Option.some.inj logged
      decide +kernel
    · obtain rfl := Option.some.inj logged
      decide +kernel
    · cases logged
  · intro n m logged _ held
    rcases n with _ | _ | n
    · obtain rfl := Option.some.inj logged
      exact absurd held (by decide +kernel)
    · obtain rfl := Option.some.inj logged
      exact ⟨by decide +kernel, by decide +kernel⟩
    · cases logged

/-- Two messages, the first acknowledged: with a pool only the second is returned,
without one both are. -/
theorem pool_hides_acknowledged :
    ¬ Agree (sumConfig none)
      (singleStore ++ [.storeMessage ⟨"NN-R", "NN-S", "fp-s", "second", 2⟩ 60 60 none,
        .ackMessage "NN-R" 1 60 60 true]) "NN-R" 60 (fun _ => 60) := by
  intro agree
  have returned := (agree ("first", "NN-S", "fp-s", 1)).mpr (by decide +kernel)
  revert returned
  decide +kernel

end RelayAgreement

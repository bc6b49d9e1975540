import AddMessenger.RelayTracking

/-!
# Outstanding and acknowledged mail

When a fetch returns a message that is still outstanding, and when it returns one
that was acknowledged. Tags rotate every hour while mail lives for seven days, the
scan of the mailboxes stops at the first one with mail, and the mailboxes in
memory do not filter by delivery: both answers depend on where a fetch is answered.
-/

namespace RelayDelivery

open Mealy RelayMailbox RelayTracking

variable (cfg : Config)

/-- The clock readings of an operation, in order. -/
def readings : Operation → List UInt64
  | .storeMessage _ epochNow now _ => [epochNow, now]
  | .fetchMessages recipientNid now readNow _ =>
    now :: (mailboxKeys cfg recipientNid now).map readNow
  | .ackMessage _ _ keysNow now _ => [keysNow, now]
  | .purgeAllMessages _ _ now _ => [now]
  | .cleanupExpired now _ => [now]

def Nondecreasing (ops : List Operation) : Prop :=
  (ops.flatMap (readings cfg)).Pairwise (· ≤ ·)

/-- A run that stores a message and later fetches for its recipient. -/
structure Delivery where
  pool : Bool
  before : List Operation
  req : MailboxStoreRequest
  epochNow : UInt64
  storeNow : UInt64
  dbError : Option String
  between : List Operation
  now : UInt64
  readNow : String → UInt64
  sqlOk : Bool

namespace Delivery

variable (d : Delivery)

def store : Operation := .storeMessage d.req d.epochNow d.storeNow d.dbError

def fetch : Operation := .fetchMessages d.req.recipientNid d.now d.readNow d.sqlOk

def atStore : RelayState := final (step cfg) (empty d.pool) d.before

def message : Stored := storing cfg d.req d.epochNow d.storeNow

def number : Nat := (d.atStore cfg).log.length

def stored : RelayState := (step cfg (d.atStore cfg) d.store).2

def atFetch : RelayState := final (step cfg) (d.stored cfg) d.between

def keys : List String := mailboxKeys cfg d.req.recipientNid d.now

def answer : List MailboxEntry :=
  fetchMessages cfg (d.atFetch cfg) d.req.recipientNid d.now d.readNow d.sqlOk

end Delivery

/-- The caps of the mailbox push the message out. -/
def Evicts (m : Stored) (n : Nat) (s : RelayState) : Operation → Prop
  | .storeMessage req epochNow now _ =>
    m.key = (storing cfg req epochNow now).key ∧ ∃ mb, s.mailboxes m.key = some mb ∧
      (∃ e ∈ mb.entries, e.serial = n) ∧ ¬ ∃ e ∈ mb.makeRoom req.senderFp, e.serial = n
  | _ => False

/-- The message has been neither acknowledged nor purged by its recipient, nor
evicted, and is younger than the time to live when its mailbox is read. -/
structure Outstanding (d : Delivery) : Prop where
  clock : Nondecreasing cfg (d.before ++ d.store :: (d.between ++ [d.fetch]))
  unacknowledged : ∀ keysNow now ok,
    .ackMessage d.req.recipientNid d.req.seq keysNow now ok ∉ d.between
  unpurged : ∀ senderFp, senderFp = none ∨ senderFp = some d.req.senderFp → ∀ now ok,
    .purgeAllMessages d.req.recipientNid senderFp now ok ∉ d.between
  unevicted : Along (step cfg) (fun s op => ¬ Evicts cfg (d.message cfg) (d.number cfg) s op)
    (d.stored cfg) d.between
  young : (d.readNow (d.message cfg).key).toNat <
    (d.message cfg).storedAt.toNat + mailboxTtlSeconds.toNat

/-- No purge takes the entry out of memory. -/
def PurgeSpares (m : Stored) : Operation → Prop
  | .purgeAllMessages recipientNid senderFp now _ =>
    m.key ∈ mailboxKeys cfg recipientNid now → senderFp ≠ some m.req.senderFp
  | _ => True

/-- The table answers and still has the row among the keys of the fetch, or memory
answers and the mailbox of the message is the first with mail. -/
structure Found (d : Delivery) : Prop where
  table : SqlAnswers (d.atFetch cfg) (d.keys cfg) d.sqlOk →
    d.dbError = none ∧ (∀ op ∈ d.between, SparesRow cfg (d.message cfg) (d.number cfg) op) ∧
      ((d.message cfg).key ∈ d.keys cfg ∨ "" ∈ d.keys cfg)
  memory : ¬ SqlAnswers (d.atFetch cfg) (d.keys cfg) d.sqlOk →
    (∀ op ∈ d.between, PurgeSpares cfg (d.message cfg) op) ∧
      (d.keys cfg).find? (hasLive (d.atFetch cfg) d.readNow) = some (d.message cfg).key

variable {cfg} {d : Delivery}

theorem stored_recorded : Recorded cfg (d.stored cfg) :=
  step_recorded _ (final_recorded d.pool d.before)

theorem stored_logged : (d.stored cfg).log[d.number cfg]? = some (d.message cfg) := by
  simp only [Delivery.stored, Delivery.store, step, Prod.map_snd, storeMessage_log, id_eq]
  exact List.getElem?_concat_length

theorem stored_held : Held (d.message cfg) (d.number cfg) (d.stored cfg) :=
  held_new d.req d.epochNow d.storeNow d.dbError

theorem stored_inTable :
    InTable (d.number cfg) (d.stored cfg) ↔ d.dbError = none ∧ (d.atStore cfg).db.isSome :=
  inTable_new (final_recorded d.pool d.before) d.req d.epochNow d.storeNow d.dbError

/-- While the table answers, the row is there exactly if it was inserted and
every statement since has spared it. -/
theorem inTable_atFetch (answers : SqlAnswers (d.atFetch cfg) (d.keys cfg) d.sqlOk) :
    InTable (d.number cfg) (d.atFetch cfg) ↔ d.dbError = none ∧
      ∀ op ∈ d.between, SparesRow cfg (d.message cfg) (d.number cfg) op := by
  obtain ⟨-, rows, found, -⟩ := answers
  have pool : (d.atStore cfg).db.isSome = true := by
    rw [← step_db_isSome d.store, ← final_db_isSome d.between]
    exact Option.isSome_iff_exists.mpr ⟨rows, found⟩
  rw [Delivery.atFetch, inTable_run stored_recorded stored_logged, along_mem, stored_inTable]
  simp only [pool, and_true]

theorem storedAt_le (req : MailboxStoreRequest) (epochNow now : UInt64) :
    (storing cfg req epochNow now).storedAt.toNat ≤ now.toNat := by
  have limit := now.toNat_lt
  simp only [storing, routingBucketSecs, UInt64.toNat_mul, UInt64.toNat_div, UInt64.reduceToNat]
  omega

theorem age_lt {storedAt now : UInt64} (past : storedAt.toNat ≤ now.toNat)
    (young : now.toNat < storedAt.toNat + mailboxTtlSeconds.toNat) :
    now - storedAt < mailboxTtlSeconds := by
  rw [UInt64.lt_iff_toNat_lt, UInt64.toNat_sub_of_le _ _ (UInt64.le_iff_toNat_le.mpr past)]
  omega

/-- What happens on the way is read between the two ends of the run. -/
theorem clock_between
    (clock : Nondecreasing cfg (d.before ++ d.store :: (d.between ++ [d.fetch])))
    {k : String} (candidate : k ∈ d.keys cfg) :
    d.storeNow ≤ d.readNow k ∧ ∀ op ∈ d.between, ∀ now ∈ readings cfg op,
      d.storeNow ≤ now ∧ now ≤ d.readNow k := by
  simp only [Nondecreasing, List.flatMap_append, List.flatMap_cons, List.flatMap_nil,
    List.append_nil] at clock
  obtain ⟨-, fromStore, -⟩ := List.pairwise_append.mp clock
  obtain ⟨-, later, beforeRest⟩ := List.pairwise_append.mp fromStore
  obtain ⟨-, -, beforeFetch⟩ := List.pairwise_append.mp later
  have first : d.storeNow ∈ readings cfg d.store := by simp [Delivery.store, readings]
  have last : d.readNow k ∈ readings cfg d.fetch :=
    List.mem_cons_of_mem _ (List.mem_map_of_mem candidate)
  refine ⟨beforeRest _ first _ (List.mem_append_right _ last), fun op member now reading => ?_⟩
  have inside : now ∈ d.between.flatMap (readings cfg) := List.mem_flatMap.mpr ⟨op, member, reading⟩
  exact ⟨beforeRest _ first _ (List.mem_append_left _ inside), beforeFetch _ inside _ last⟩

/-- Outstanding mail is young at every reading since it was stored. -/
theorem young_at (outstanding : Outstanding cfg d) {now : UInt64} (since : d.storeNow ≤ now)
    (upTo : now ≤ d.readNow (d.message cfg).key) :
    now - (d.message cfg).storedAt < mailboxTtlSeconds := by
  have past : (d.message cfg).storedAt.toNat ≤ d.storeNow.toNat :=
    storedAt_le d.req d.epochNow d.storeNow
  rw [UInt64.le_iff_toNat_le] at since upTo
  exact age_lt (past.trans since) (upTo.trans_lt outstanding.young)

theorem atFetch_recorded : Recorded cfg (d.atFetch cfg) :=
  final_preserved (Recorded cfg) (fun _ op => step_recorded op) stored_recorded d.between

theorem atFetch_logged : (d.atFetch cfg).log[d.number cfg]? = some (d.message cfg) :=
  logged_run stored_recorded stored_logged d.between

/-- An outstanding message that no purge reaches is still in memory. -/
theorem held_atFetch (outstanding : Outstanding cfg d)
    (spared : ∀ op ∈ d.between, PurgeSpares cfg (d.message cfg) op)
    (candidate : (d.message cfg).key ∈ d.keys cfg) :
    Held (d.message cfg) (d.number cfg) (d.atFetch cfg) := by
  have cleanups : ∀ op ∈ d.between, ∀ now ok, op = .cleanupExpired now ok →
      now - (d.message cfg).storedAt < mailboxTtlSeconds := by
    rintro op member now ok rfl
    obtain ⟨since, upTo⟩ := (clock_between outstanding.clock candidate).2 _ member now
      (List.mem_singleton_self now)
    exact young_at outstanding since upTo
  have steps := along_and outstanding.unevicted
    ((along_mem (d.stored cfg) d.between).mpr fun op member =>
      (⟨spared op member, cleanups op member⟩ : PurgeSpares cfg (d.message cfg) op ∧
        ∀ now ok, op = .cleanupExpired now ok →
          now - (d.message cfg).storedAt < mailboxTtlSeconds))
  refine (final_invariant (fun s => Recorded cfg s ∧
    s.log[d.number cfg]? = some (d.message cfg) ∧ Held (d.message cfg) (d.number cfg) s)
    ?_ ⟨stored_recorded, stored_logged, stored_held⟩ steps).2.2
  rintro s op ⟨recorded, logged, held⟩ ⟨unevicted, purgeSpares, young⟩
  refine ⟨step_recorded op recorded, step_logged logged op,
    (held_step recorded logged op).mpr ⟨held, ?_⟩⟩
  cases op with
  | storeMessage req epochNow now dbError =>
    intro here mb found
    by_contra gone
    obtain ⟨mb', found', inside⟩ := held
    obtain rfl := Option.some.inj (found.symm.trans found')
    exact unevicted ⟨here, mb, found, inside, gone⟩
  | fetchMessages recipientNid now readNow sqlOk => trivial
  | ackMessage recipientNid seq keysNow now sqlOk => trivial
  | purgeAllMessages recipientNid senderFp now sqlOk => exact purgeSpares
  | cleanupExpired now sqlOk => exact young now sqlOk rfl

/-- Memory only answers with a message that no purge has reached. -/
theorem purgeSpares_of_held (held : Held (d.message cfg) (d.number cfg) (d.atFetch cfg)) :
    ∀ op ∈ d.between, PurgeSpares cfg (d.message cfg) op := by
  have spared := ((held_run stored_recorded stored_logged d.between).mp held).2
  refine (along_mem (d.stored cfg) d.between).mp (along_mono (fun s op spares => ?_) spared)
  cases op with
  | purgeAllMessages recipientNid senderFp now sqlOk => exact spares
  | storeMessage req epochNow now dbError => trivial
  | fetchMessages recipientNid now readNow sqlOk => trivial
  | ackMessage recipientNid seq keysNow now sqlOk => trivial
  | cleanupExpired now sqlOk => trivial

variable (cfg) in
/-- Outstanding mail is returned by a fetch exactly if it is `Found` there. -/
theorem outstanding_returned_iff (d : Delivery) :
    (Outstanding cfg d → Returned (d.number cfg) (d.answer cfg)) ↔
      (Outstanding cfg d → Found cfg d) := by
  refine forall_congr' fun outstanding => ?_
  rw [Delivery.answer, returned_fetch atFetch_recorded atFetch_logged]
  constructor
  · rintro ⟨fromTable, fromMemory⟩
    refine ⟨fun answers => ?_, fun silent => ?_⟩
    · obtain ⟨row, addressed⟩ := fromTable answers
      obtain ⟨inserted, spared⟩ := (inTable_atFetch answers).mp row
      exact ⟨inserted, spared, (row_addressed _ _ _).mp addressed⟩
    · obtain ⟨first, held, -⟩ := fromMemory silent
      exact ⟨purgeSpares_of_held held, first⟩
  · rintro ⟨table, memory⟩
    refine ⟨fun answers => ?_, fun silent => ?_⟩
    · obtain ⟨inserted, spared, addressed⟩ := table answers
      exact ⟨(inTable_atFetch answers).mpr ⟨inserted, spared⟩, (row_addressed _ _ _).mpr addressed⟩
    · obtain ⟨spared, first⟩ := memory silent
      have candidate := List.mem_of_find?_eq_some first
      exact ⟨first, held_atFetch outstanding spared candidate,
        young_at outstanding (clock_between outstanding.clock candidate).1 (UInt64.le_refl _)⟩

/-- A relay with a secret and no pool; the message is stored at the start of an
hour and fetched at `now`. -/
def hourlyDelivery (now : UInt64) : Delivery where
  pool := false
  before := []
  req := ⟨"NN-R", "NN-S", "fp-s", "blob", 1⟩
  epochNow := 3600
  storeNow := 3600
  dbError := none
  between := []
  now := now
  readNow := fun _ => now
  sqlOk := true

theorem outstanding_returned_iff_sameHour :
    Outstanding (sumConfig (some "secret")) (hourlyDelivery 3700) ∧
      Found (sumConfig (some "secret")) (hourlyDelivery 3700) := by
  have outstanding : Outstanding (sumConfig (some "secret")) (hourlyDelivery 3700) :=
    ⟨by unfold Nondecreasing; decide +kernel, fun _ _ _ => List.not_mem_nil,
      fun _ _ _ _ => List.not_mem_nil, trivial, by decide +kernel⟩
  have returned : Returned ((hourlyDelivery 3700).number (sumConfig (some "secret")))
      ((hourlyDelivery 3700).answer (sumConfig (some "secret"))) := by
    decide +kernel
  exact ⟨outstanding, (outstanding_returned_iff _ _).mp (fun _ => returned) outstanding⟩

/-- Two hours later the tag has rotated out of the candidate keys. -/
theorem outstanding_lost_two_hours_later :
    Outstanding (sumConfig (some "secret")) (hourlyDelivery 10800) ∧
      ¬ Returned ((hourlyDelivery 10800).number (sumConfig (some "secret")))
        ((hourlyDelivery 10800).answer (sumConfig (some "secret"))) := by
  refine ⟨⟨by unfold Nondecreasing; decide +kernel, fun _ _ _ => List.not_mem_nil,
    fun _ _ _ _ => List.not_mem_nil, trivial, by decide +kernel⟩, ?_⟩
  decide +kernel

/-- A run that acknowledges a message of `log` and later fetches for the same
recipient. -/
structure Acknowledgement where
  pool : Bool
  before : List Operation
  recipientNid : String
  seq : Int64
  keysNow : UInt64
  ackNow : UInt64
  ackOk : Bool
  between : List Operation
  now : UInt64
  readNow : String → UInt64
  sqlOk : Bool

namespace Acknowledgement

variable (cfg : Config) (a : Acknowledgement)

def atAck : RelayState := final (step cfg) (empty a.pool) a.before

def acknowledged : RelayState :=
  ackMessage cfg (a.atAck cfg) a.recipientNid a.seq a.keysNow a.ackNow a.ackOk

def atFetch : RelayState := final (step cfg) (a.acknowledged cfg) a.between

def ackKeys : List String := mailboxKeys cfg a.recipientNid a.keysNow

def keys : List String := mailboxKeys cfg a.recipientNid a.now

def answer : List MailboxEntry :=
  fetchMessages cfg (a.atFetch cfg) a.recipientNid a.now a.readNow a.sqlOk

end Acknowledgement

variable (cfg) in
/-- Call `n` stored `m` with the acknowledged number, and it is in the recipient's
mailbox, in memory or in the table, when the acknowledgement arrives. -/
structure Acked (a : Acknowledgement) (n : Nat) (m : Stored) : Prop where
  logged : (a.atAck cfg).log[n]? = some m
  sameSeq : m.req.seq = a.seq
  candidate : m.key ∈ a.ackKeys cfg
  present : Held m n (a.atAck cfg) ∨ InTable n (a.atAck cfg)

variable (cfg) in
/-- If the table answers the fetch, the row was marked or is otherwise not selected;
if memory answers, the message is no longer the recipient's to see there. -/
structure Forgotten (a : Acknowledgement) (n : Nat) (m : Stored) : Prop where
  table : SqlAnswers (a.atFetch cfg) (a.keys cfg) a.sqlOk →
    a.ackOk = true ∨ ¬ InTable n (a.atAck cfg) ∨ (∃ op ∈ a.between, ¬ SparesRow cfg m n op) ∨
      (m.key ∉ a.keys cfg ∧ "" ∉ a.keys cfg)
  memory : ¬ SqlAnswers (a.atFetch cfg) (a.keys cfg) a.sqlOk →
    (a.keys cfg).find? (hasLive (a.atFetch cfg) a.readNow) ≠ some m.key ∨
      ¬ Held m n (a.atAck cfg) ∨
      ¬ Along (step cfg) (SparesEntry cfg m n) (a.acknowledged cfg) a.between ∨
      ¬ a.readNow m.key - m.storedAt < mailboxTtlSeconds

section

variable {a : Acknowledgement} {n : Nat} {m : Stored}

theorem atAck_recorded : Recorded cfg (a.atAck cfg) := final_recorded a.pool a.before

theorem acknowledged_recorded : Recorded cfg (a.acknowledged cfg) :=
  atAck_recorded.of_shrinks (ackMessage_shrinks _ _ _ _ _)

variable (acked : Acked cfg a n m)
include acked

theorem acknowledged_logged : (a.acknowledged cfg).log[n]? = some m :=
  step_logged acked.logged (.ackMessage a.recipientNid a.seq a.keysNow a.ackNow a.ackOk)

/-- The statement of the acknowledgement spares the row only if it fails. -/
theorem inTable_acknowledged :
    InTable n (a.acknowledged cfg) ↔ InTable n (a.atAck cfg) ∧ a.ackOk = false := by
  rw [Acknowledgement.acknowledged, inTable_ack atAck_recorded acked.logged]
  refine and_congr_right fun _ => ?_
  cases ok : a.ackOk with
  | false => simp [SparesRow]
  | true =>
    have hit : (m.row n).addressed (mailboxKeys cfg a.recipientNid a.keysNow) = true :=
      (row_addressed m n _).mpr (Or.inl acked.candidate)
    simp [SparesRow, hit, acked.sameSeq]

theorem inTable_afterAck : InTable n (a.atFetch cfg) ↔
    (InTable n (a.atAck cfg) ∧ a.ackOk = false) ∧ ∀ op ∈ a.between, SparesRow cfg m n op := by
  rw [Acknowledgement.atFetch, inTable_run acknowledged_recorded (acknowledged_logged acked),
    along_mem, inTable_acknowledged acked]

/-- In memory the acknowledgement takes nothing away. -/
theorem held_afterAck : Held m n (a.atFetch cfg) ↔ Held m n (a.atAck cfg) ∧
    Along (step cfg) (SparesEntry cfg m n) (a.acknowledged cfg) a.between := by
  rw [Acknowledgement.atFetch, held_run acknowledged_recorded (acknowledged_logged acked),
    Acknowledgement.acknowledged, held_ack]

end

variable (cfg) in
/-- A fetch after an acknowledgement leaves the message out exactly if it is
`Forgotten` there. -/
theorem acknowledged_absent_iff (a : Acknowledgement) (n : Nat) (m : Stored)
    (acked : Acked cfg a n m) : ¬ Returned n (a.answer cfg) ↔ Forgotten cfg a n m := by
  have recorded : Recorded cfg (a.atFetch cfg) := final_preserved (Recorded cfg)
    (fun _ op => step_recorded op) acknowledged_recorded a.between
  have logged : (a.atFetch cfg).log[n]? = some m :=
    logged_run acknowledged_recorded (acknowledged_logged acked) a.between
  rw [Acknowledgement.answer, absent_fetch recorded logged, inTable_afterAck acked,
    held_afterAck acked, row_addressed]
  constructor
  · rintro ⟨table, memory⟩
    refine ⟨fun answers => ?_, fun silent => ?_⟩
    · by_contra kept
      push Not at kept
      obtain ⟨failed, inserted, spared, addressed⟩ := kept
      exact table answers ⟨⟨⟨inserted, Bool.eq_false_iff.mpr failed⟩, spared⟩,
        or_iff_not_imp_left.mpr addressed⟩
    · by_contra kept
      push Not at kept
      obtain ⟨first, inMemory, spared, young⟩ := kept
      exact memory silent ⟨first, ⟨inMemory, spared⟩, young⟩
  · intro forgotten
    refine ⟨fun answers => ?_, fun silent => ?_⟩
    · rintro ⟨⟨⟨inserted, failed⟩, spared⟩, addressed⟩
      rcases forgotten.table answers with ok | missing | ⟨op, member, taken⟩ | ⟨noKey, noEmpty⟩
      · exact absurd (ok.symm.trans failed) Bool.noConfusion
      · exact missing inserted
      · exact taken (spared op member)
      · exact addressed.elim noKey noEmpty
    · rintro ⟨first, ⟨inMemory, spared⟩, young⟩
      rcases forgotten.memory silent with other | gone | taken | expired
      · exact other first
      · exact gone inMemory
      · exact taken spared
      · exact expired young

/-- One message stored and acknowledged within the same minute. -/
def promptAck (pool : Bool) (others : List Operation) : Acknowledgement where
  pool := pool
  before := .storeMessage ⟨"NN-R", "NN-S", "fp-s", "blob", 1⟩ 60 60 none :: others
  recipientNid := "NN-R"
  seq := 1
  keysNow := 60
  ackNow := 60
  ackOk := true
  between := []
  now := 60
  readNow := fun _ => 60
  sqlOk := true

def promptMessage : Stored := ⟨⟨"NN-R", "NN-S", "fp-s", "blob", 1⟩, none, 60⟩

/-- With a pool and a second message waiting, the table answers and the
acknowledged one is left out. -/
theorem acknowledged_absent_iff_otherWaiting :
    ∃ a, Acked (sumConfig none) a 0 promptMessage ∧
      Forgotten (sumConfig none) a 0 promptMessage := by
  let a := promptAck true [.storeMessage ⟨"NN-R", "NN-S", "fp-s", "more", 2⟩ 60 60 none]
  have acked : Acked (sumConfig none) a 0 promptMessage := by
    refine ⟨by decide +kernel, rfl, by decide +kernel, Or.inr ?_⟩
    exact ⟨_, rfl, _, List.mem_cons_self, rfl, rfl⟩
  have absent : ¬ Returned 0 (a.answer (sumConfig none)) := by
    decide +kernel
  exact ⟨a, acked, (acknowledged_absent_iff _ a 0 promptMessage acked).mp absent⟩

/-- Without a pool the acknowledged message comes back. -/
theorem acknowledged_returns_from_memory :
    Acked (sumConfig none) (promptAck false []) 0 promptMessage ∧
      Returned 0 ((promptAck false []).answer (sumConfig none)) := by
  refine ⟨⟨by decide +kernel, rfl, by decide +kernel, Or.inl ?_⟩, ?_⟩
  · exact ⟨_, rfl, _, List.mem_singleton_self _, rfl⟩
  · decide +kernel

end RelayDelivery

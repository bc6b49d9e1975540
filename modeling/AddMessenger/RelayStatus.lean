import AddMessenger.RelayReceipts

/-!
# The delivery status along a run

`updateDeliveryStatus` only moves a status up, `ackMessage` sets it to 2 whatever it
was. So statuses only move up, and read receipts only stand at read messages, exactly
in the runs in which no acknowledgement finds a read message first.
-/

namespace RelayStatus

open Mealy RelayMailbox RelayReceipts RelayTracking Tables

/-- An entry that is in both states has in `t` at least the status it had in `s`. -/
def Forward (s t : RelayState) : Prop :=
  ∀ k before after, s.mailboxes k = some before → t.mailboxes k = some after →
    ∀ e ∈ before.entries, ∀ e' ∈ after.entries, e'.serial = e.serial →
      e.deliveryStatus ≤ e'.deliveryStatus

/-- A read receipt belongs to an entry that is read. -/
def ReceiptsRead (s : RelayState) : Prop :=
  ∀ k mb, s.mailboxes k = some mb → ∀ e ∈ mb.entries, e.readReceiptAt.isSome = true →
    e.deliveryStatus = 3

variable (cfg : Config)

/-- Between any two states of the run the status of an entry does not decrease, and
in each state read receipts belong to read entries. -/
def OnlyForward (pool : Bool) (ops : List MailOperation) : Prop :=
  ∀ front middle back, ops = front ++ middle ++ back →
    Forward (final (mailStep cfg) (empty pool) front)
        (final (mailStep cfg) (empty pool) (front ++ middle)) ∧
      ReceiptsRead (final (mailStep cfg) (empty pool) (front ++ middle))

/-- No candidate mailbox of an acknowledgement has a read message as the first one
with that number. -/
def SparesRead (s : RelayState) : MailOperation → Prop
  | .mailbox (.ackMessage r seq keysNow _ _) =>
    ∀ k ∈ mailboxKeys cfg r keysNow, ∀ mb, s.mailboxes k = some mb → ∀ e,
      mb.entries.find? (fun e => e.seq = seq) = some e → e.deliveryStatus < 3
  | _ => True

variable {cfg} {s t : RelayState}

/-- Every older entry of `t` goes back to one of `s` with at most its status. -/
def Descends (s t : RelayState) : Prop :=
  ∀ k after, t.mailboxes k = some after → ∀ e' ∈ after.entries, e'.serial < s.log.length →
    ∃ before e, s.mailboxes k = some before ∧ e ∈ before.entries ∧ e.serial = e'.serial ∧
      e.deliveryStatus ≤ e'.deliveryStatus

theorem descends_step (op : MailOperation) (spares : SparesRead cfg s op) :
    Descends s (mailStep cfg s op).2 := by
  intro k after found e' member older
  rcases mailStep_entry op found member with ⟨m, rfl⟩ | ⟨mb, e, held, inside, moves⟩
  · exact absurd older (Nat.lt_irrefl _)
  · refine ⟨mb, e, held, inside, ?_⟩
    cases moves with
    | unchanged => exact ⟨rfl, UInt8.le_refl _⟩
    | acked candidate first =>
      refine ⟨rfl, ?_⟩
      have unread := spares k candidate mb held e first
      rw [UInt8.lt_iff_toNat_lt] at unread
      rw [UInt8.le_iff_toNat_le]
      change e.deliveryStatus.toNat ≤ 2
      change e.deliveryStatus.toNat < 3 at unread
      omega
    | read first unread => exact ⟨rfl, UInt8.le_of_lt unread⟩

theorem mailStep_log_length (op : MailOperation) :
    s.log.length ≤ (mailStep cfg s op).2.log.length := by
  by_contra shorter
  have inside : (mailStep cfg s op).2.log.length < s.log.length := Nat.lt_of_not_le shorter
  have logged : (mailStep cfg s op).2.log[(mailStep cfg s op).2.log.length]? = some _ :=
    mailStep_logged (List.getElem?_eq_getElem inside) op
  exact Nat.lt_irrefl _ (List.getElem?_eq_some_iff.mp logged).1

theorem Descends.trans {u : RelayState} (first : Descends s t) (second : Descends t u)
    (grows : s.log.length ≤ t.log.length) : Descends s u := by
  intro k after found e' member older
  obtain ⟨mb, e, held, inside, serial, status⟩ :=
    second k after found e' member (older.trans_le grows)
  obtain ⟨mb₀, e₀, held₀, inside₀, serial₀, status₀⟩ :=
    first k mb held e inside (serial ▸ older)
  exact ⟨mb₀, e₀, held₀, inside₀, serial₀.trans serial, UInt8.le_trans status₀ status⟩

theorem descends_run {ops : List MailOperation}
    (spares : Along (mailStep cfg) (SparesRead cfg) s ops) :
    Descends s (final (mailStep cfg) s ops) := by
  refine (final_invariant (fun t => Descends s t ∧ s.log.length ≤ t.log.length) ?_
    ⟨?_, Nat.le_refl _⟩ spares).1
  · rintro t op ⟨descends, grows⟩ spared
    exact ⟨descends.trans (descends_step op spared) grows,
      grows.trans (mailStep_log_length op)⟩
  · intro k after found e member _
    exact ⟨after, e, found, member, rfl, UInt8.le_refl _⟩

/-- In one mailbox a call has one entry. -/
theorem forward_of_descends (recorded : Recorded cfg s) (descends : Descends s t) :
    Forward s t := by
  intro k before after found foundAfter e member e' member' serial
  obtain ⟨mb, old, held, inside, oldSerial, status⟩ :=
    descends k after foundAfter e' member' (serial ▸ serial_lt recorded found member)
  obtain rfl := Option.some.inj (found.symm.trans held)
  have distinct : (before.entries.map (·.serial)).Nodup :=
    (recorded.ordered k before found).imp Nat.ne_of_lt
  obtain rfl := List.inj_on_of_nodup_map distinct inside member (oldSerial.trans serial)
  exact status

theorem receiptsRead_step (op : MailOperation) (read : ReceiptsRead s)
    (spares : SparesRead cfg s op) : ReceiptsRead (mailStep cfg s op).2 := by
  intro k after found e member receipt
  rcases mailStep_entry op found member with ⟨m, rfl⟩ | ⟨mb, old, held, inside, moves⟩
  · exact absurd receipt Bool.noConfusion
  · cases moves with
    | unchanged => exact read k mb held e inside receipt
    | acked candidate first =>
      have unread := spares k candidate mb held old first
      rw [read k mb held old inside receipt] at unread
      exact absurd unread (by decide)
    | read => rfl

theorem empty_receiptsRead (pool : Bool) : ReceiptsRead (empty pool) := by
  intro k mb found
  exact nomatch found

/-- An acknowledgement sets the first entry with its number to 2. -/
theorem acked_mem {r : String} {seq : Int64} {keysNow now : UInt64} {sqlOk : Bool} {k : String}
    {mb : Mailbox} {e : MailboxEntry} (candidate : k ∈ mailboxKeys cfg r keysNow)
    (found : s.mailboxes k = some mb)
    (first : mb.entries.find? (fun e => e.seq = seq) = some e) :
    ∃ after, (mailStep cfg s (.mailbox (.ackMessage r seq keysNow now sqlOk))).2.mailboxes k =
        some after ∧
      { e with deliveryStatus := 2, statusUpdatedAt := now } ∈ after.entries := by
  refine ⟨mb.markDelivered seq now, ?_, ?_⟩
  · simp only [mailStep, step, ackMessage_mailboxes, candidate, if_true, found, Option.map_some]
  · obtain ⟨front, back, -, updated⟩ := updateFirst_of_some
      (f := fun e => { e with deliveryStatus := 2, statusUpdatedAt := now }) first
    simp only [Mailbox.markDelivered, updated]
    exact List.mem_append_right _ List.mem_cons_self

theorem spares_of_forward (op : MailOperation)
    (forward : Forward s (mailStep cfg s op).2) : SparesRead cfg s op := by
  unfold SparesRead
  split
  · intro k candidate mb found e first
    obtain ⟨after, foundAfter, member⟩ := acked_mem candidate found first
    have status := forward k mb after found foundAfter e (List.mem_of_find?_eq_some first) _
      member rfl
    exact UInt8.lt_of_le_of_lt status (by decide : (2 : UInt8) < 3)
  · trivial

variable (cfg) in
/-- Statuses only move forward along a run exactly if no acknowledgement of the run
finds a read message first. -/
theorem only_forward_iff (pool : Bool) (ops : List MailOperation) :
    OnlyForward cfg pool ops ↔ Along (mailStep cfg) (SparesRead cfg) (empty pool) ops := by
  constructor
  · intro only
    rw [along_iff_split]
    intro front op back split
    have forward := (only front [op] back (by rw [split, List.append_assoc]; rfl)).1
    rw [final_append] at forward
    exact spares_of_forward op forward
  · rintro spares front middle back rfl
    have reached := ((along_append _ _ _).mp spares).1
    obtain ⟨-, later⟩ := (along_append _ _ _).mp reached
    refine ⟨?_, final_invariant ReceiptsRead (fun s op => receiptsRead_step op)
      (empty_receiptsRead pool) reached⟩
    rw [final_append]
    exact forward_of_descends (mailFinal_recorded pool front) (descends_run later)

/-- A read message that is acknowledged afterwards: the receipt of one device and the
acknowledgement of another. -/
def readThenAcked : List MailOperation :=
  [.mailbox (.storeMessage ⟨"NN-R", "NN-S", "fp-s", "blob", 1⟩ 60 60 none),
    .readReceipt "NN-R" (sha256Hex (sumConfig none) (ByteStrings.asBytes "blob")) 61 true,
    .mailbox (.ackMessage "NN-R" 1 62 62 true)]

/-- The status goes from 3 back to 2, and the read receipt stays. -/
theorem acked_after_read_moves_back :
    ¬ OnlyForward (sumConfig none) false readThenAcked := by
  intro only
  have forward := (only (readThenAcked.take 2) (readThenAcked.drop 2) [] rfl).1 "NN-R" _ _ rfl rfl
  revert forward
  decide +kernel

end RelayStatus

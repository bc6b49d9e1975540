import AddMessenger.CappedQueue
import AddMessenger.RelayMailbox

/-!
# What a mailbox keeps

`Mailbox::store` of `relay/src/main.rs` is a push to a queue with a cap on its
length and a share for each sender.
-/

namespace RelayMailbox

open Mealy Tables

namespace Mailbox

/-- The mailbox after storing `entries` one after the other in a new one. -/
def stored (maxSize : Nat) (entries : List MailboxEntry) : Mailbox :=
  entries.foldl store (new maxSize)

/-- What one more `store` does after those of `earlier`. -/
structure StoresFairly (maxSize : Nat) (earlier : List MailboxEntry) (entry : MailboxEntry) :
    Prop where
  length : (stored maxSize (earlier ++ [entry])).entries.length ≤ maxSize
  shares : ∀ fp, (stored maxSize (earlier ++ [entry])).entries.countP (fun e => e.senderFp = fp) ≤
    maxEntriesPerSender
  order : (stored maxSize (earlier ++ [entry])).entries.Sublist (earlier ++ [entry])
  newest : (stored maxSize (earlier ++ [entry])).entries.getLast? = some entry
  /-- At most one entry goes; one of another sender only for a sender below its
  share in a full mailbox, and then the oldest of all. -/
  removal : (stored maxSize (earlier ++ [entry])).entries =
      (stored maxSize earlier).entries ++ [entry] ∨
    ∃ front gone back, (stored maxSize earlier).entries = front ++ gone :: back ∧
      (stored maxSize (earlier ++ [entry])).entries = front ++ back ++ [entry] ∧
      (gone.senderFp ≠ entry.senderFp → (stored maxSize earlier).entries.length = maxSize ∧
        (stored maxSize earlier).entries.countP (fun e => e.senderFp = entry.senderFp) <
          maxEntriesPerSender ∧
        front = [])
  recent : ∀ fp, (stored maxSize (earlier ++ [entry])).entries.filter (fun e => e.senderFp = fp) <:+
    (earlier ++ [entry]).filter fun e => e.senderFp = fp

theorem store_entries (mb : Mailbox) (entry : MailboxEntry) :
    (mb.store entry).entries =
      CappedQueue.push MailboxEntry.senderFp mb.maxSize maxEntriesPerSender mb.entries entry :=
  rfl

theorem stored_concat (maxSize : Nat) (earlier : List MailboxEntry) (entry : MailboxEntry) :
    stored maxSize (earlier ++ [entry]) = (stored maxSize earlier).store entry :=
  List.foldl_append

@[simp] theorem stored_maxSize (maxSize : Nat) (entries : List MailboxEntry) :
    (stored maxSize entries).maxSize = maxSize := by
  induction entries using List.reverseRecOn with
  | nil => rfl
  | append_singleton earlier entry ih =>
    rw [stored_concat]
    exact ih

theorem stored_entries (maxSize : Nat) (entries : List MailboxEntry) :
    (stored maxSize entries).entries = entries.foldl
      (CappedQueue.push MailboxEntry.senderFp maxSize maxEntriesPerSender) [] := by
  induction entries using List.reverseRecOn with
  | nil => rfl
  | append_singleton earlier entry ih =>
    rw [stored_concat, store_entries, stored_maxSize, ih, List.foldl_append]
    rfl

theorem stored_fair {maxSize : Nat} (positive : 1 ≤ maxSize) (entries : List MailboxEntry) :
    CappedQueue.Fair MailboxEntry.senderFp maxSize maxEntriesPerSender entries
      (stored maxSize entries).entries := by
  rw [stored_entries]
  exact CappedQueue.fair_foldl positive (by decide) entries

theorem stored_removal {maxSize : Nat} (positive : 1 ≤ maxSize) (earlier : List MailboxEntry)
    (entry : MailboxEntry) :
    (stored maxSize (earlier ++ [entry])).entries = (stored maxSize earlier).entries ++ [entry] ∨
    ∃ front gone back, (stored maxSize earlier).entries = front ++ gone :: back ∧
      (stored maxSize (earlier ++ [entry])).entries = front ++ back ++ [entry] ∧
      (gone.senderFp ≠ entry.senderFp → (stored maxSize earlier).entries.length = maxSize ∧
        (stored maxSize earlier).entries.countP (fun e => e.senderFp = entry.senderFp) <
          maxEntriesPerSender ∧
        front = []) := by
  rw [stored_concat, store_entries, stored_maxSize, CappedQueue.push]
  have someShare : 0 < maxEntriesPerSender := by decide
  rcases CappedQueue.makeRoom_cases MailboxEntry.senderFp positive someShare
    (stored maxSize earlier).entries entry.senderFp with
    ⟨-, front, gone, back, split, own, -, left⟩ | ⟨below, full, gone, back, split, left⟩ |
      ⟨-, -, left⟩
  · refine .inr ⟨front, gone, back, split, by rw [left], ?_⟩
    intro foreign
    exact absurd own foreign
  · refine .inr ⟨[], gone, back, split, by rw [left, List.nil_append], ?_⟩
    intro _
    exact ⟨Nat.le_antisymm (stored_fair positive earlier).length full, below, rfl⟩
  · exact .inl (by rw [left])

theorem storesFairly {maxSize : Nat} (positive : 1 ≤ maxSize) (earlier : List MailboxEntry)
    (entry : MailboxEntry) : StoresFairly maxSize earlier entry := by
  have fair := stored_fair positive (earlier ++ [entry])
  exact {
    length := fair.length
    shares := fair.shares
    order := fair.order
    newest := by
      rw [stored_concat, store_entries, CappedQueue.push, List.getLast?_concat]
    removal := stored_removal positive earlier entry
    recent := fair.recent }

private def letter (senderFp : String) (serial : Nat) : MailboxEntry :=
  ⟨"id", "blob", "nid", senderFp, 1, 60, 1, 60, none, serial⟩

theorem storesFairly_full : 1 ≤ 2 ∧
    StoresFairly 2 [letter "a" 0, letter "b" 1] (letter "b" 2) ∧
    (stored 2 [letter "a" 0, letter "b" 1, letter "b" 2]).entries =
      [letter "b" 1, letter "b" 2] :=
  ⟨by decide, storesFairly (by decide) _ _, by decide⟩

/-- A mailbox of the relay's size, within both caps. -/
structure Capped (mb : Mailbox) : Prop where
  size : mb.maxSize = maxMailboxSize
  length : mb.entries.length ≤ maxMailboxSize
  shares : ∀ fp, mb.entries.countP (CappedQueue.ownedBy MailboxEntry.senderFp fp) ≤
    maxEntriesPerSender

theorem capped_new : Capped (new maxMailboxSize) where
  size := rfl
  length := Nat.zero_le _
  shares := fun _ => Nat.zero_le _

theorem Capped.store {mb : Mailbox} (capped : Capped mb) (entry : MailboxEntry) :
    Capped (mb.store entry) where
  size := capped.size
  length := by
    have positive : 0 < maxMailboxSize := by decide
    rw [store_entries, capped.size]
    exact CappedQueue.length_push_le positive (by decide) capped.length entry
  shares := by
    have positive : 0 < maxMailboxSize := by decide
    rw [store_entries, capped.size]
    exact CappedQueue.countP_push_le positive (by decide) capped.shares entry

/-- Fewer entries, some of them changed, are still within the caps. -/
theorem Capped.of_sublist {mb after : Mailbox} (capped : Capped mb)
    (size : after.maxSize = mb.maxSize)
    (fewer : (after.entries.map MailboxEntry.senderFp).Sublist
      (mb.entries.map MailboxEntry.senderFp)) : Capped after where
  size := size.trans capped.size
  length := by
    have short := fewer.length_le
    rw [List.length_map, List.length_map] at short
    exact Nat.le_trans short capped.length
  shares := fun fp => by
    have owned : CappedQueue.ownedBy MailboxEntry.senderFp fp =
        (fun sender => decide (sender = fp)) ∘ MailboxEntry.senderFp := rfl
    have short := fewer.countP_le (p := fun sender => decide (sender = fp))
    rw [List.countP_map, List.countP_map, ← owned] at short
    exact Nat.le_trans short (capped.shares fp)

theorem Capped.markDelivered {mb : Mailbox} (capped : Capped mb) (seq : Int64) (now : UInt64) :
    Capped (mb.markDelivered seq now) := by
  refine capped.of_sublist rfl ?_
  have senders : (mb.markDelivered seq now).entries.map MailboxEntry.senderFp =
      mb.entries.map MailboxEntry.senderFp := map_updateFirst (by intro _; rfl) mb.entries
  rw [senders]

theorem Capped.retainOthers {mb : Mailbox} (capped : Capped mb) (senderFp : Option String) :
    Capped (mb.retainOthers senderFp) :=
  capped.of_sublist rfl (List.filter_sublist.map _)

theorem Capped.dropExpired {mb : Mailbox} (capped : Capped mb) (now : UInt64) :
    Capped (mb.dropExpired now) :=
  capped.of_sublist rfl (List.filter_sublist.map _)

end Mailbox

section

variable (cfg : Config)

/-- Every mailbox of the relay is within its caps. -/
def AllCapped (s : RelayState) : Prop := ∀ k mb, s.mailboxes k = some mb → mb.Capped

theorem step_allCapped (s : RelayState) (op : Operation) (capped : AllCapped s) :
    AllCapped (step cfg s op).2 := by
  intro k after found
  cases op with
  | storeMessage req epochNow now dbError =>
    simp only [step, Prod.map_snd, id_eq, storeMessage_mailboxes] at found
    by_cases here : k = (storing cfg req epochNow now).key
    · subst here
      rw [Function.update_self, Option.some.injEq] at found
      subst found
      refine Mailbox.Capped.store ?_ _
      cases held : s.mailboxes (storing cfg req epochNow now).key with
      | none => exact Mailbox.capped_new
      | some mb => exact capped _ mb held
    · rw [Function.update_of_ne here] at found
      exact capped k after found
  | fetchMessages => exact capped k after found
  | ackMessage recipientNid seq keysNow now sqlOk =>
    simp only [step, ackMessage_mailboxes] at found
    split at found
    · obtain ⟨mb, held, rfl⟩ := Option.map_eq_some_iff.mp found
      exact (capped k mb held).markDelivered seq now
    · exact capped k after found
  | purgeAllMessages recipientNid senderFp now sqlOk =>
    simp only [step, purgeAllMessages_mailboxes] at found
    split at found
    · obtain ⟨mb, held, rfl⟩ := Option.map_eq_some_iff.mp found
      exact (capped k mb held).retainOthers senderFp
    · exact capped k after found
  | cleanupExpired now sqlOk =>
    simp only [step, cleanupExpired, execute_mailboxes] at found
    obtain ⟨kept, -⟩ := Option.filter_eq_some_iff.mp found
    obtain ⟨mb, held, rfl⟩ := Option.map_eq_some_iff.mp kept
    exact (capped k mb held).dropExpired now

/-- No run of a relay fills a mailbox beyond its size, nor beyond a sender's share. -/
theorem run_allCapped (pool : Bool) (ops : List Operation) :
    AllCapped (final (step cfg) (empty pool) ops) := by
  refine final_preserved AllCapped (step_allCapped cfg) ?_ ops
  intro k mb found
  cases found

end

end RelayMailbox

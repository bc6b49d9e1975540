import AddMessenger.Mealy
import AddMessenger.Ratchet

/-!
# Delivery on the plain chain

Messages made by `encryptFirst` reach a receiver in any order, with omissions and
repetitions. Whatever has been delivered, the receiver is the fresh session
skipped forward some number of positions: its table holds the key of every
position behind it, and up to 1024 of them nothing is pruned.
-/

namespace RatchetLinear

open ByteStrings Mealy Ratchet

variable (P : Primitives)

/-- The chain key of position `i` of a chain that starts at `chain`. -/
def chainAt (chain : Bytes) (i : Nat) : Bytes := (nextChainKey P)^[i] chain

theorem chainAt_succ (chain : Bytes) (i : Nat) :
    chainAt P chain (i + 1) = nextChainKey P (chainAt P chain i) :=
  Function.iterate_succ_apply' _ _ _

/-- The receiver has passed the first `position` keys of `chain` and kept them. -/
structure Passed (chain : Bytes) (position : Nat) (s : RatchetState) : Prop where
  twoParty : s.selfMode = false
  current : s.recvChainKey = chainAt P chain position
  number : s.recvMessageNumber = UInt64.ofNat position
  size : s.skippedKeys.keys.length ≤ position
  stored : ∀ i ≤ maxSkippedKeys, s.skippedKeys.lookup (toString (UInt64.ofNat i)) =
    if i < position then some (messageKey P (chainAt P chain i)) else none

variable {P} {chain : Bytes} {position : Nat} {s : RatchetState}

theorem ofNat_inj {i j : Nat} (hi : i ≤ maxSkippedKeys) (hj : j ≤ maxSkippedKeys)
    (same : UInt64.ofNat i = UInt64.ofNat j) : i = j := by
  have bounds : i ≤ 1024 ∧ j ≤ 1024 := ⟨hi, hj⟩
  have := congrArg UInt64.toNat same
  simp only [UInt64.toNat_ofNat'] at this
  omega

theorem started_passed (peerFp peerNid ourFp : String) (isInitiator : Bool) (secret : Bytes) :
    Passed P (started P peerFp peerNid ourFp isInitiator false secret).recvChainKey 0
      (started P peerFp peerNid ourFp isInitiator false secret) where
  twoParty := rfl
  current := rfl
  number := rfl
  size := Nat.le_refl 0
  stored := fun _ _ => AList.lookup_empty _

/-- Nothing is pruned while the table is within its cap. -/
theorem skipStep_of_room (passed : Passed P chain position s) (room : position < maxSkippedKeys) :
    skipStep P s = { s with
      recvChainKey := chainAt P chain (position + 1)
      recvMessageNumber := UInt64.ofNat (position + 1)
      skippedKeys := s.skippedKeys.insert (toString (UInt64.ofNat position))
        (messageKey P (chainAt P chain position)) } := by
  have fits : (storeKey (advanceRecv s (nextChainKey P s.recvChainKey)) s.recvMessageNumber
      (messageKey P s.recvChainKey)).skippedKeys.keys.length ≤ maxSkippedKeys := by
    have erased : (s.skippedKeys.keys.erase (toString s.recvMessageNumber)).length ≤
        s.skippedKeys.keys.length := List.length_erase_le
    have := passed.size
    simp only [storeKey, advanceRecv, AList.keys_insert, List.length_cons]
    omega
  simp only [skipStep, pruneSkippedKeys_of_room P fits]
  simp only [storeKey, advanceRecv, passed.twoParty, Bool.false_eq_true, if_false,
    passed.current, passed.number, chainAt_succ, UInt64.ofNat_add, UInt64.reduceOfNat]

theorem skipStep_passed (passed : Passed P chain position s) (room : position < maxSkippedKeys) :
    Passed P chain (position + 1) (skipStep P s) := by
  rw [skipStep_of_room passed room]
  refine ⟨passed.twoParty, rfl, rfl, ?_, fun i bound => ?_⟩
  · have erased := List.length_erase_le (l := s.skippedKeys.keys)
      (a := toString (UInt64.ofNat position))
    have := passed.size
    simp only [AList.keys_insert, List.length_cons]
    omega
  · rcases Nat.lt_trichotomy i position with before | rfl | after
    · have other : toString (UInt64.ofNat i) ≠ toString (UInt64.ofNat position) := fun same =>
        before.ne (ofNat_inj bound room.le (toString_injective same))
      rw [AList.lookup_insert_ne other, passed.stored i bound, if_pos before,
        if_pos (Nat.lt_succ_of_lt before)]
    · rw [AList.lookup_insert, if_pos (Nat.lt_succ_self i)]
    · have other : toString (UInt64.ofNat i) ≠ toString (UInt64.ofNat position) := fun same =>
        after.ne' (ofNat_inj bound room.le (toString_injective same))
      rw [AList.lookup_insert_ne other, passed.stored i bound, if_neg (by omega),
        if_neg (by omega)]

theorem skipStep_iterate_passed (passed : Passed P chain position s) {n : Nat}
    (room : position + n ≤ maxSkippedKeys) :
    Passed P chain (position + n) ((skipStep P)^[n] s) := by
  induction n with
  | zero => exact passed
  | succ n ih =>
    rw [Function.iterate_succ_apply']
    exact skipStep_passed (ih (Nat.le_of_succ_le room)) room

/-- `wire` is `text` under the key of position `i`. -/
def SentAt (P : Primitives) (chain : Bytes) (i : Nat) (text : String) (wire : Bytes) : Prop :=
  ∃ (nonce : Nonce) (ct : Bytes), wire = nonce ++ ct ∧
    P.aesDecrypt (messageKey P (chainAt P chain i)) nonce ct = some (asBytes text)

section

variable {i : Nat} {text : String} {wire : Bytes}
  (base64 : ∀ b, P.base64Decode (P.base64Encode b) = .ok b)
  (sent : SentAt P chain i text wire) (sized : nonceSize + 16 + 2 ≤ wire.length)
  (inRange : i < maxSkippedKeys)
include base64 sent sized inRange

/-- A message behind the receiver is read from the table; nothing changes. -/
theorem deliver_behind (passed : Passed P chain position s) (behind : i < position)
    (bounded : position ≤ maxSkippedKeys) (kp : MlKem1024Keypair P) :
    decryptMessage P s (P.base64Encode wire) kp (UInt64.ofNat i) = (.ok text, s) := by
  obtain ⟨nonce, ct, rfl, opened⟩ := sent
  have limit : position ≤ 1024 := bounded
  have found := passed.stored i inRange.le
  rw [if_pos behind] at found
  have counted : max s.recvMessageNumber (UInt64.ofNat i + 1) = s.recvMessageNumber := by
    rw [passed.number, max_eq_left_iff_le, UInt64.le_iff_toNat_le, UInt64.toNat_add,
      UInt64.toNat_ofNat', UInt64.toNat_ofNat', UInt64.toNat_one]
    omega
  simp only [decryptMessage, base64, if_neg (Nat.not_lt.mpr sized), take_nonce, drop_nonce, found,
    storedDecrypt, opened, toText, fromUtf8_asBytes, counted]

/-- A message at or ahead of the receiver: skip to it, read it, and pass it. -/
theorem deliver_ahead (plain : ¬ HasKyber (wire.drop nonceSize))
    (passed : Passed P chain position s) (ahead : position ≤ i) (kp : MlKem1024Keypair P) :
    decryptMessage P s (P.base64Encode wire) kp (UInt64.ofNat i) =
      (.ok text, (skipStep P)^[i + 1 - position] s) := by
  obtain ⟨nonce, ct, rfl, opened⟩ := sent
  have missing := passed.stored i inRange.le
  rw [if_neg (Nat.not_lt.mpr ahead)] at missing
  rw [drop_nonce] at plain
  have limit : i < 1024 := inRange
  have gap : (UInt64.ofNat i).toNat - s.recvMessageNumber.toNat = i - position := by
    rw [passed.number, UInt64.toNat_ofNat', UInt64.toNat_ofNat']
    omega
  have near : (UInt64.ofNat i).toNat - s.recvMessageNumber.toNat ≤ maxSkipAhead := by
    have : maxSkipAhead = 1024 := rfl
    omega
  have reached := skipStep_iterate_passed passed (n := i - position) (by omega)
  rw [Nat.add_sub_cancel' ahead] at reached
  have key := reached.current
  have number := reached.number
  simp only [decryptMessage, base64, if_neg (Nat.not_lt.mpr sized), take_nonce, drop_nonce,
    missing, if_neg plain, simpleDecrypt_eq P s nonce.val ct _ near, gap]
  rw [key, opened]
  simp only [asText, toText, fromUtf8_asBytes]
  rw [← key, ← number, keepKey_current, ← Function.iterate_succ_apply' (skipStep P),
    Nat.succ_sub ahead]

end

/-- Sending one text of a batch. -/
def send (P : Primitives) (s : RatchetState) (m : String × Nonce) :
    Except CryptoError Bytes × RatchetState :=
  encryptFirst P s m.1 m.2

variable (aes : ∀ key nonce pt ct, P.aesEncrypt key nonce pt = some ct →
  P.aesDecrypt key nonce ct = some pt)
include aes

/-- A batch of which every text went out: text `i` is under key `i`. -/
theorem send_sentAt {messages : List (String × Nonce)} {sender : RatchetState}
    {wires : Fin messages.length → Bytes}
    (produced : outputs (send P) sender messages = List.ofFn fun i => .ok (wires i))
    (i : Fin messages.length) :
    SentAt P sender.sendChainKey i (messages.get i).1 (wires i) := by
  induction messages generalizing sender with
  | nil => exact i.elim0
  | cons m rest ih =>
    simp only [outputs, List.ofFn_succ, List.cons.injEq] at produced
    obtain ⟨first, later⟩ := produced
    simp only [send, encryptFirst, deriveMessageKey_eq] at first
    cases sealed : P.aesEncrypt (messageKey P sender.sendChainKey) m.2 (asBytes m.1) with
    | none => simp only [sealed, reduceCtorEq] at first
    | some ct =>
      simp only [sealed, Except.ok.injEq] at first
      have chain : (send P sender m).2.sendChainKey = nextChainKey P sender.sendChainKey := by
        simp only [send, encryptFirst, deriveMessageKey_eq, sealed, advanceSend]
      cases i using Fin.cases with
      | zero => exact ⟨m.2, ct, first.symm, aes _ _ _ _ sealed⟩
      | succ j =>
        have tail := ih later j
        rw [chain] at tail
        exact tail

omit aes

/-- Delivering message `i` of a batch, under its number and any key pair. -/
def deliver (P : Primitives) {n : Nat} (wires : Fin n → Bytes) (s : RatchetState)
    (d : Fin n × MlKem1024Keypair P) : Except CryptoError String × RatchetState :=
  decryptMessage P s (P.base64Encode (wires d.1)) d.2 (UInt64.ofNat d.1)

section

variable {n : Nat} {wires : Fin n → Bytes} {texts : Fin n → String}
  (base64 : ∀ b, P.base64Decode (P.base64Encode b) = .ok b)
  (few : n ≤ maxSkippedKeys) (sent : ∀ i : Fin n, SentAt P chain i (texts i) (wires i))
  (sized : ∀ i, nonceSize + 16 + 2 ≤ (wires i).length)
  (plain : ∀ i, ¬ HasKyber ((wires i).drop nonceSize))
include base64 few sent sized plain

/-- One delivery answers with its text and leaves the receiver past it. -/
theorem deliver_passed (passed : Passed P chain position s) (bounded : position ≤ n)
    (d : Fin n × MlKem1024Keypair P) :
    (deliver P wires s d).1 = .ok (texts d.1) ∧
      (d.1.val < position → (deliver P wires s d).2 = s) ∧
      ∃ next, position ≤ next ∧ d.1.val < next ∧ next ≤ n ∧
        Passed P chain next (deliver P wires s d).2 := by
  obtain ⟨i, kp⟩ := d
  have inRange : i.val < maxSkippedKeys := i.isLt.trans_le few
  by_cases behind : i.val < position
  · have read := deliver_behind base64 (sent i) (sized i) inRange passed behind
      (bounded.trans few) kp
    simp only [deliver, read, implies_true, true_and]
    exact ⟨position, le_rfl, behind, bounded, passed⟩
  · have ahead := Nat.not_lt.mp behind
    have read := deliver_ahead base64 (sent i) (sized i) inRange (plain i) passed ahead kp
    have reached := skipStep_iterate_passed passed (n := i.val + 1 - position) (by omega)
    rw [Nat.add_sub_cancel' (Nat.le_succ_of_le ahead)] at reached
    simp only [deliver, read, true_and]
    exact ⟨fun before => absurd before behind, i.val + 1, by omega, by omega, i.isLt, reached⟩

/-- After any deliveries the receiver is past each of them. -/
theorem run_passed (front : List (Fin n × MlKem1024Keypair P))
    (passed : Passed P chain position s) (bounded : position ≤ n) :
    ∃ next, position ≤ next ∧ next ≤ n ∧ (∀ d ∈ front, d.1.val < next) ∧
      Passed P chain next (final (deliver P wires) s front) := by
  induction front generalizing s position with
  | nil => exact ⟨position, le_rfl, bounded, fun _ none => absurd none List.not_mem_nil, passed⟩
  | cons d rest ih =>
    obtain ⟨-, -, mid, onward, past, bounded', reached⟩ :=
      deliver_passed base64 few sent sized plain passed bounded d
    obtain ⟨next, later, limit, each, finish⟩ := ih reached bounded'
    refine ⟨next, onward.trans later, limit, fun d' member => ?_, finish⟩
    rcases List.mem_cons.mp member with rfl | tail
    · exact past.trans_le later
    · exact each d' tail

end

/-- After any deliveries, each message of a batch of at most 1024 is read
exactly, a repeated one leaves the chain where it is, and no delivery changes
the answer to another. -/
theorem any_order_delivery
    (base64 : ∀ b, P.base64Decode (P.base64Encode b) = .ok b)
    (aes : ∀ key nonce pt ct, P.aesEncrypt key nonce pt = some ct →
      P.aesDecrypt key nonce ct = some pt)
    (senderFp senderNid receiverFp receiverNid : String) (isInitiator : Bool) {secret : Bytes}
    (long : 32 ≤ secret.length) :
    ∃ sender receiver, new P receiverFp receiverNid senderFp isInitiator secret = .ok sender ∧
      new P senderFp senderNid receiverFp (!isInitiator) secret = .ok receiver ∧
      ∀ (messages : List (String × Nonce)) (wires : Fin messages.length → Bytes),
        messages.length ≤ 1024 →
        (outputs (send P) sender messages = List.ofFn fun i => .ok (wires i)) →
        (∀ i, ¬ HasKyber ((wires i).drop nonceSize)) →
        (∀ i, nonceSize + 16 + 2 ≤ (wires i).length) →
        ∀ (front : List (Fin messages.length × MlKem1024Keypair P)) d,
          let s := final (deliver P wires) receiver front
          (deliver P wires s d).1 = .ok (messages.get d.1).1 ∧
          (d.1 ∈ front.map Prod.fst →
            (deliver P wires s d).2.recvChainKey = s.recvChainKey) ∧
          ∀ other, (deliver P wires (deliver P wires s other).2 d).1 =
            (deliver P wires s d).1 := by
  refine ⟨_, _, newWithMode_started P _ _ _ _ _ long, newWithMode_started P _ _ _ _ _ long, ?_⟩
  intro messages wires few produced plain sized front d
  have sameChain : (started P receiverFp receiverNid senderFp isInitiator false
      secret).sendChainKey = (started P senderFp senderNid receiverFp (!isInitiator) false
        secret).recvChainKey := by
    cases isInitiator <;> rfl
  have sent := send_sentAt aes produced
  rw [sameChain] at sent
  obtain ⟨position, -, bounded, each, passed⟩ := run_passed base64 few sent sized plain front
    (started_passed _ _ _ _ _) (Nat.zero_le _)
  obtain ⟨read, repeated, -⟩ := deliver_passed base64 few sent sized plain passed bounded d
  refine ⟨read, fun seen => ?_, fun other => ?_⟩
  · obtain ⟨earlier, member, same⟩ := List.mem_map.mp seen
    rw [repeated (same ▸ each earlier member)]
  · obtain ⟨-, -, next, -, -, limit, moved⟩ :=
      deliver_passed base64 few sent sized plain passed bounded other
    rw [(deliver_passed base64 few sent sized plain moved limit d).1, read]

/-- Two texts in the small instance, as `encryptFirst` sends them. -/
abbrev batch : List (String × Nonce) := [("hi", checksumNonce), ("ok", checksumNonce)]

def batchWires : Fin batch.length → Bytes :=
  ![checksumNonce.val ++ asBytes "hi" ++ List.replicate 16 231,
    checksumNonce.val ++ asBytes "ok" ++ List.replicate 16 208]

/-- The second text first, then the first one, then the second one again. -/
theorem any_order_delivery_swapped :
    ∃ receiver, new checksumPrimitives "A" "na" "B" false checksumSecret = .ok receiver ∧
      (∀ i, ¬ HasKyber ((batchWires i).drop nonceSize)) ∧
      ∀ kp : MlKem1024Keypair checksumPrimitives,
        (deliver checksumPrimitives batchWires
          (final (deliver checksumPrimitives batchWires) receiver [(1, kp), (0, kp)])
          (1, kp)).1 = .ok "ok" := by
  have long : 32 ≤ checksumSecret.length := le_of_eq List.length_replicate.symm
  obtain ⟨sender, receiver, newSender, newReceiver, delivered⟩ := any_order_delivery
    (P := checksumPrimitives) latin1Decode_encode
    (fun key nonce pt ct sealed => (Option.some.inj sealed) ▸ checksumOpen_seal key nonce pt)
    "A" "na" "B" "nb" true long
  have madeSender := newWithMode_started checksumPrimitives "B" "nb" "A" true false long
  obtain rfl := Except.ok.inj (madeSender.symm.trans newSender)
  have produced : outputs (send checksumPrimitives)
      (started checksumPrimitives "B" "nb" "A" true false checksumSecret) batch =
        List.ofFn fun i => .ok (batchWires i) := by
    decide +kernel
  have plain : ∀ i, ¬ HasKyber ((batchWires i).drop nonceSize) := by decide +kernel
  have sized : ∀ i, nonceSize + 16 + 2 ≤ (batchWires i).length := by decide +kernel
  refine ⟨receiver, newReceiver, plain, fun kp => ?_⟩
  exact (delivered batch batchWires (by decide) produced plain sized [(1, kp), (0, kp)] (1, kp)).1

end RatchetLinear

import AddMessenger.Mealy
import AddMessenger.Ratchet

/-!
# Rejected messages

What a failed `decryptMessage` or `decryptFirst` leaves behind. The receive chain
is moved, and skipped positions are stored, before the tag and the text of a
message are checked; `Harmless` says for which calls this shows.
-/

namespace RatchetRejection

open ByteStrings Mealy Ratchet

/-- The calls on one session. -/
inductive Call (P : Primitives) where
  | encryptFirst (text : String) (nonce : Nonce)
  | encryptMessage (text : String) (recipient : P.EncapsulationKey) (coins : P.Coins)
      (nonce : Nonce)
  | decryptMessage (ciphertextB64 : String) (ourKyber : MlKem1024Keypair P) (seq : UInt64)
  | decryptFirst (ciphertextB64 : String)

inductive Answer where
  | sent (result : Except CryptoError Bytes)
  | received (result : Except CryptoError String)

variable (P : Primitives)

def step (s : RatchetState) : Call P → Answer × RatchetState
  | .encryptFirst text nonce =>
    ((Ratchet.encryptFirst P s text nonce).map .sent id)
  | .encryptMessage text recipient coins nonce =>
    ((Ratchet.encryptMessage P s text recipient coins nonce).map .sent id)
  | .decryptMessage ciphertextB64 ourKyber seq =>
    ((Ratchet.decryptMessage P s ciphertextB64 ourKyber seq).map .received id)
  | .decryptFirst ciphertextB64 =>
    ((Ratchet.decryptFirst P s ciphertextB64).map .received id)

/-- A received message was refused. -/
def Answer.rejected : Answer → Bool
  | .received (.error _) => true
  | _ => false

/-- A refused message leaves the session as it was, so every later call is
answered as if it had not arrived. -/
def Undamaged (s : RatchetState) (call : Call P) : Prop :=
  (step P s call).1.rejected = true →
    (step P s call).2 = s ∧ ∀ later, step P (step P s call).2 later = step P s later

/-- Receiving on the chain key `newCk` does not move the chain. -/
def Still (s : RatchetState) (newCk : Bytes) : Prop :=
  s.selfMode = true ∨ newCk = s.recvChainKey

/-- A message whose key is in the table: only a forgery that carries a valid tag
and no text can raise the counter. -/
def HarmlessStored (s : RatchetState) (stored nonce body : Bytes) (seq : UInt64) : Prop :=
  match P.aesDecrypt stored nonce body with
  | none => True
  | some pt => (fromUtf8 pt).isSome ∨ seq + 1 ≤ s.recvMessageNumber

def HarmlessKyber (s : RatchetState) (nonce body : Bytes) (kyberLen : Nat)
    (ourKyber : MlKem1024Keypair P) : Prop :=
  match ciphertextTryFrom (kyberPart body kyberLen) with
  | none => True
  | some kyberCt =>
    let mixed := s.recvChainKey ++ (P.decapsulate ourKyber.dec kyberCt).val
    match P.aesDecrypt (messageKey P mixed) nonce (aesPart body kyberLen) with
    | none => Still s (nextChainKey P mixed)
    | some pt => (fromUtf8 pt).isSome

def HarmlessSimple (s : RatchetState) (nonce body : Bytes) (seq : UInt64) : Prop :=
  let gap := seq.toNat - s.recvMessageNumber.toNat
  maxSkipAhead < gap ∨
    match P.aesDecrypt (messageKey P (chainKeyAhead P s gap)) nonce body with
    | none => gap = 0 ∧ Still s (nextChainKey P s.recvChainKey)
    | some pt => (fromUtf8 pt).isSome

def HarmlessRaw (s : RatchetState) (raw : Bytes) (ourKyber : MlKem1024Keypair P)
    (seq : UInt64) : Prop :=
  let nonce := raw.take nonceSize
  let body := raw.drop nonceSize
  match s.skippedKeys.lookup (toString seq) with
  | some stored => HarmlessStored P s stored nonce body seq
  | none =>
    if HasKyber body then HarmlessKyber P s nonce body (trailingLength body) ourKyber
    else HarmlessSimple P s nonce body seq

/-- The call is refused before anything moves, or not refused at all, or what
moves ends up where it was. -/
def Harmless (s : RatchetState) : Call P → Prop
  | .encryptFirst .. => True
  | .encryptMessage .. => True
  | .decryptMessage ciphertextB64 ourKyber seq =>
    ∀ raw, P.base64Decode ciphertextB64 = .ok raw → nonceSize + 16 + 2 ≤ raw.length →
      HarmlessRaw P s raw ourKyber seq
  | .decryptFirst ciphertextB64 =>
    ∀ raw, P.base64Decode ciphertextB64 = .ok raw → nonceSize + 16 ≤ raw.length →
      HarmlessSimple P s (raw.take nonceSize) (raw.drop nonceSize) 0

/-- A result that, if it is an error, comes with the state `s`. -/
def Keeps (s : RatchetState) (r : Except CryptoError String × RatchetState) : Prop :=
  ∀ e, r.1 = .error e → r.2 = s

variable {P} {s t : RatchetState}

theorem keeps_error (e : CryptoError) : Keeps s (.error e, t) ↔ t = s := by
  constructor
  · intro keeps
    exact keeps e rfl
  · rintro same _ -
    exact same

theorem keeps_toText (pt : Bytes) :
    Keeps s (toText P pt, t) ↔ (fromUtf8 pt).isSome ∨ t = s := by
  cases text : fromUtf8 pt with
  | none => simp only [toText, text, keeps_error, Option.isSome_none, Bool.false_eq_true, false_or]
  | some text' => simp [toText, text, Keeps]

theorem advanceRecv_eq_self (newCk : Bytes) : advanceRecv s newCk = s ↔ Still s newCk := by
  cases self : s.selfMode <;>
    simp [advanceRecv, Still, self, RatchetState.ext_iff]

/-- Adding at least one and at most a skip's worth moves a counter. -/
theorem counter_moves (counter : UInt64) {n : Nat} (pos : 0 < n) (small : n ≤ maxSkipAhead + 1) :
    counter + UInt64.ofNat n ≠ counter := by
  intro same
  have bound : n ≤ 1025 := small
  have zero : UInt64.ofNat n = 0 := by simpa using same
  have := congrArg UInt64.toNat zero
  rw [UInt64.toNat_ofNat', Nat.mod_eq_of_lt (by omega)] at this
  exact pos.ne' this

/-- An accepted message moves the counter, whatever else it does. -/
theorem keepKey_ne_self {n : Nat} (small : n ≤ maxSkipAhead)
    (counted : t.recvMessageNumber = s.recvMessageNumber + UInt64.ofNat n)
    (newCk : Bytes) (seq : UInt64) (msgKey : Bytes) : keepKey P t newCk seq msgKey ≠ s := by
  obtain ⟨table, kept, -⟩ := keepKey_frame P t newCk seq msgKey
  intro same
  rw [kept] at same
  have number : t.recvMessageNumber + 1 = s.recvMessageNumber :=
    congrArg RatchetState.recvMessageNumber same
  rw [counted, add_assoc] at number
  apply counter_moves (n := n + 1) s.recvMessageNumber (Nat.succ_pos n) (Nat.succ_le_succ small)
  simpa only [UInt64.ofNat_add, UInt64.reduceOfNat] using number

theorem storedDecrypt_keeps (stored nonce body : Bytes) (seq : UInt64) :
    Keeps s (storedDecrypt P s stored nonce body seq) ↔
      HarmlessStored P s stored nonce body seq := by
  cases opened : P.aesDecrypt stored nonce body with
  | none => simp only [storedDecrypt, HarmlessStored, opened, keeps_error]
  | some pt =>
    simp only [storedDecrypt, HarmlessStored, opened, keeps_toText]
    rw [← max_eq_left_iff_le]
    refine or_congr Iff.rfl ⟨fun same => congrArg RatchetState.recvMessageNumber same, ?_⟩
    intro reached
    rw [reached]

theorem kyberDecrypt_keeps (nonce body : Bytes) (kyberLen : Nat)
    (ourKyber : MlKem1024Keypair P) (seq : UInt64) :
    Keeps s (asText P (kyberDecrypt P s nonce body kyberLen ourKyber seq)) ↔
      HarmlessKyber P s nonce body kyberLen ourKyber := by
  cases parsed : ciphertextTryFrom (kyberPart body kyberLen) with
  | none => simp only [kyberDecrypt, HarmlessKyber, parsed, asText, keeps_error]
  | some kyberCt =>
    rw [kyberDecrypt_eq P s nonce body parsed]
    simp only [HarmlessKyber, parsed]
    cases opened : P.aesDecrypt
        (messageKey P (s.recvChainKey ++ (P.decapsulate ourKyber.dec kyberCt).val)) nonce
        (aesPart body kyberLen) with
    | none => simp only [asText, keeps_error, advanceRecv_eq_self]
    | some pt =>
      simp only [asText, keeps_toText, or_iff_left_iff_imp]
      intro same
      exact absurd same (keepKey_ne_self (Nat.zero_le _) (UInt64.add_zero _).symm _ seq _)

/-- A refused plain message is harmless only at the current position, and only
if the chain stands still there. -/
theorem simpleRefusal_keeps {gap : Nat} (near : gap ≤ maxSkipAhead) :
    advanceRecv ((skipStep P)^[gap] s)
        (nextChainKey P ((skipStep P)^[gap] s).recvChainKey) = s ↔
      gap = 0 ∧ Still s (nextChainKey P s.recvChainKey) := by
  rcases Nat.eq_zero_or_pos gap with rfl | skips
  · simp only [Function.iterate_zero, id_eq, advanceRecv_eq_self, true_and]
  · obtain ⟨table, skipped⟩ := skipStep_iterate P gap s
    constructor
    · intro same
      rw [skipped] at same
      exact absurd (congrArg RatchetState.recvMessageNumber same)
        (counter_moves s.recvMessageNumber skips (Nat.le_succ_of_le near))
    · rintro ⟨none, -⟩
      exact absurd none skips.ne'

theorem simpleDecrypt_keeps (nonce body : Bytes) (seq : UInt64) :
    Keeps s (asText P (simpleDecrypt P s nonce body seq)) ↔ HarmlessSimple P s nonce body seq := by
  simp only [HarmlessSimple]
  by_cases far : maxSkipAhead < seq.toNat - s.recvMessageNumber.toNat
  · have refused : simpleDecrypt P s nonce body seq =
        (.error (.decryptFailed "seq gap too large"), s) := if_pos far
    simp only [refused, asText, keeps_error, far, true_or]
  · have near := Nat.not_lt.mp far
    rw [simpleDecrypt_eq P s nonce body seq near]
    simp only [far, false_or]
    generalize seq.toNat - s.recvMessageNumber.toNat = gap at near
    obtain ⟨table, skipped⟩ := skipStep_iterate P gap s
    have chain : ((skipStep P)^[gap] s).recvChainKey = chainKeyAhead P s gap := by rw [skipped]
    rw [← chain]
    cases opened : P.aesDecrypt (messageKey P ((skipStep P)^[gap] s).recvChainKey) nonce body with
    | none => simp only [asText, keeps_error, simpleRefusal_keeps near]
    | some pt =>
      simp only [asText, keeps_toText, or_iff_left_iff_imp]
      intro same
      exact absurd same (keepKey_ne_self near (by rw [skipped]) _ seq _)

theorem decryptMessage_keeps (ciphertextB64 : String) (ourKyber : MlKem1024Keypair P)
    (seq : UInt64) :
    Keeps s (decryptMessage P s ciphertextB64 ourKyber seq) ↔
      Harmless P s (.decryptMessage ciphertextB64 ourKyber seq) := by
  cases decoded : P.base64Decode ciphertextB64 with
  | error e => simp [decryptMessage, Harmless, decoded, keeps_error]
  | ok raw =>
    by_cases short : raw.length < nonceSize + 16 + 2
    · simp [decryptMessage, Harmless, decoded, short, keeps_error]
    · simp only [decryptMessage, decoded, if_neg short, Harmless, Except.ok.injEq,
        forall_eq', Nat.not_lt.mp short, forall_const, HarmlessRaw]
      cases s.skippedKeys.lookup (toString seq) with
      | some stored => exact storedDecrypt_keeps stored _ _ seq
      | none =>
        by_cases kyber : HasKyber (raw.drop nonceSize)
        · simpa only [if_pos kyber] using kyberDecrypt_keeps _ _ _ ourKyber seq
        · simpa only [if_neg kyber] using simpleDecrypt_keeps _ _ seq

theorem decryptFirst_keeps (ciphertextB64 : String) :
    Keeps s (decryptFirst P s ciphertextB64) ↔ Harmless P s (.decryptFirst ciphertextB64) := by
  cases decoded : P.base64Decode ciphertextB64 with
  | error e => simp [decryptFirst, Harmless, decoded, keeps_error]
  | ok raw =>
    by_cases short : raw.length < nonceSize + 16
    · simp [decryptFirst, Harmless, decoded, short, keeps_error]
    · simp only [decryptFirst, decoded, if_neg short, Harmless, Except.ok.injEq, forall_eq',
        Nat.not_lt.mp short, forall_const]
      exact simpleDecrypt_keeps _ _ 0

/-- Every call answers later calls as if it had not happened once it is refused
without moving the state. -/
theorem undamaged_iff_keeps (call : Call P) :
    Undamaged P s call ↔ ((step P s call).1.rejected = true → (step P s call).2 = s) := by
  constructor
  · intro undamaged refused
    exact (undamaged refused).1
  · intro keeps refused
    have same := keeps refused
    exact ⟨same, fun later => by rw [same]⟩

theorem rejected_received (r : Except CryptoError String × RatchetState) :
    ((Answer.received r.1).rejected = true → r.2 = s) ↔ Keeps s r := by
  obtain ⟨result, after⟩ := r
  cases result with
  | error e => simp [Answer.rejected, keeps_error]
  | ok text => simp [Answer.rejected, Keeps]

variable (P) in
/-- The session survives a call exactly if the call is `Harmless`; a run of
harmless calls is the run without its refused messages. -/
theorem undamaged_iff_harmless :
    (∀ s call, Undamaged P s call ↔ Harmless P s call) ∧
    ∀ s calls, Along (step P) (Harmless P) s calls →
      final (step P) s (kept (step P) Answer.rejected s calls) = final (step P) s calls ∧
      outputs (step P) s (kept (step P) Answer.rejected s calls) =
        (outputs (step P) s calls).filter fun answer => !answer.rejected := by
  have oneCall : ∀ s call, Undamaged P s call ↔ Harmless P s call := by
    intro s call
    rw [undamaged_iff_keeps]
    cases call with
    | encryptFirst text nonce => simp [step, Answer.rejected, Harmless]
    | encryptMessage text recipient coins nonce => simp [step, Answer.rejected, Harmless]
    | decryptMessage ciphertextB64 ourKyber seq =>
      exact (rejected_received _).trans (decryptMessage_keeps ciphertextB64 ourKyber seq)
    | decryptFirst ciphertextB64 =>
      exact (rejected_received _).trans (decryptFirst_keeps ciphertextB64)
  refine ⟨oneCall, fun s calls harmless => run_kept ?_⟩
  exact along_mono
    (fun s call here => (undamaged_iff_keeps call).mp ((oneCall s call).mpr here)) harmless

/-- The receiving end of a new session in the small instance. -/
def receiver : RatchetState :=
  started checksumPrimitives "A" "na" "B" false false checksumSecret

def receiverKyber : MlKem1024Keypair checksumPrimitives := ⟨(3 : UInt8), (3 : UInt8)⟩

/-- What the other end sends first: nonce, text and tag. -/
def genuine : Call checksumPrimitives :=
  .decryptMessage (latin1Encode (checksumNonce.val ++ asBytes "hi" ++ List.replicate 16 231))
    receiverKyber 0

def tooShort : Call checksumPrimitives := .decryptMessage "" receiverKyber 0

/-- Thirty zero bytes, the least that reaches the chain. -/
def forged : Call checksumPrimitives :=
  .decryptMessage (latin1Encode (List.replicate 30 0)) receiverKyber 0

theorem undamaged_iff_harmless_tooShort :
    Along (step checksumPrimitives) (Harmless checksumPrimitives) receiver [tooShort, genuine] ∧
      final (step checksumPrimitives) receiver
          (kept (step checksumPrimitives) Answer.rejected receiver [tooShort, genuine]) =
        final (step checksumPrimitives) receiver [tooShort, genuine] := by
  have accepted : (step checksumPrimitives receiver genuine).1.rejected = false := by
    decide +kernel
  have short : Undamaged checksumPrimitives receiver tooShort := fun _ => ⟨rfl, fun _ => rfl⟩
  have read : Undamaged checksumPrimitives receiver genuine := fun refused =>
    absurd (accepted.symm.trans refused) Bool.false_ne_true
  have harmless : Along (step checksumPrimitives) (Harmless checksumPrimitives) receiver
      [tooShort, genuine] :=
    ⟨((undamaged_iff_harmless _).1 receiver tooShort).mp short,
      ((undamaged_iff_harmless _).1 receiver genuine).mp read, trivial⟩
  exact ⟨harmless, ((undamaged_iff_harmless _).2 receiver _ harmless).1⟩

/-- A forged message is refused and still moves the chain: the genuine message
that could be read before it cannot be read after it. -/
theorem forged_message_damages :
    new checksumPrimitives "A" "na" "B" false checksumSecret = .ok receiver ∧
      (encryptFirst checksumPrimitives
        (started checksumPrimitives "B" "nb" "A" true false checksumSecret) "hi"
        checksumNonce).1.map latin1Encode =
          .ok (latin1Encode (checksumNonce.val ++ asBytes "hi" ++ List.replicate 16 231)) ∧
      (step checksumPrimitives receiver genuine).1.rejected = false ∧
      (step checksumPrimitives (step checksumPrimitives receiver forged).2 genuine).1.rejected =
        true ∧
      ¬ Undamaged checksumPrimitives receiver forged := by
  have readBefore : (step checksumPrimitives receiver genuine).1.rejected = false := by
    decide +kernel
  have lostAfter : (step checksumPrimitives (step checksumPrimitives receiver forged).2
      genuine).1.rejected = true := by
    decide +kernel
  have refused : (step checksumPrimitives receiver forged).1.rejected = true := by
    decide +kernel
  refine ⟨newWithMode_started _ _ _ _ _ _ (le_of_eq List.length_replicate.symm), ?_,
    readBefore, lostAfter, fun undamaged => ?_⟩
  · decide +kernel
  · rw [(undamaged refused).1, readBefore] at lostAfter
    exact Bool.false_ne_true lostAfter

end RatchetRejection

import AddMessenger.Mealy
import AddMessenger.Ratchet

/-!
# Conversations between two ratchet sessions

Two sessions made from one shared secret send to each other with
`encryptMessage`. Each direction is a queue delivered in order; the two
directions, and sending and delivering, interleave arbitrarily. The invariant
threads the receive chain through the messages in flight to the send chain.
-/

namespace RatchetConversation

open ByteStrings Mealy Ratchet

/-- What the conversation relies on outside the repository: base64 and AES-GCM
decoding undo encoding. -/
structure Correct (P : Primitives) : Prop where
  base64 : ∀ b, P.base64Decode (P.base64Encode b) = .ok b
  aes : ∀ key nonce pt, ∃ ct, P.aesEncrypt key nonce pt = some ct ∧
    P.aesDecrypt key nonce ct = some pt

variable {P : Primitives}

/-- Decapsulation with `dec` undoes encapsulation to `enc`. -/
def Undoes (dec : P.DecapsulationKey) (enc : P.EncapsulationKey) : Prop :=
  ∀ coins, P.decapsulate dec (P.encapsulate enc coins).1 = (P.encapsulate enc coins).2

inductive Side where
  | initiator
  | responder
  deriving DecidableEq, Repr

/-- A message on the wire, with the text it was made from. -/
structure Message where
  text : String
  wire : Bytes

structure World (P : Primitives) where
  initiator : RatchetState
  responder : RatchetState
  toResponder : List Message
  toInitiator : List Message

inductive Event (P : Primitives) where
  | send (sender : Side) (text : String) (coins : P.Coins) (nonce : Nonce)
  | deliver (receiver : Side) (seq : UInt64)

inductive Answer where
  | sent (result : Except CryptoError Bytes)
  | received (text : String) (result : Except CryptoError String)
  | idle

/-- The key pairs of the two sides; each side knows the other's `enc`. -/
structure Keys (P : Primitives) where
  initiator : MlKem1024Keypair P
  responder : MlKem1024Keypair P

def enqueue (queue : List Message) (text : String) : Except CryptoError Bytes → List Message
  | .ok wire => queue ++ [⟨text, wire⟩]
  | .error _ => queue

def step (K : Keys P) (w : World P) : Event P → Answer × World P
  | .send .initiator text coins nonce =>
    let (result, s) := encryptMessage P w.initiator text K.responder.enc coins nonce
    (.sent result, { w with initiator := s, toResponder := enqueue w.toResponder text result })
  | .send .responder text coins nonce =>
    let (result, s) := encryptMessage P w.responder text K.initiator.enc coins nonce
    (.sent result, { w with responder := s, toInitiator := enqueue w.toInitiator text result })
  | .deliver .responder seq =>
    match w.toResponder with
    | [] => (.idle, w)
    | m :: rest =>
      let (result, s) := decryptMessage P w.responder (P.base64Encode m.wire) K.responder seq
      (.received m.text result, { w with responder := s, toResponder := rest })
  | .deliver .initiator seq =>
    match w.toInitiator with
    | [] => (.idle, w)
    | m :: rest =>
      let (result, s) := decryptMessage P w.initiator (P.base64Encode m.wire) K.initiator seq
      (.received m.text result, { w with initiator := s, toInitiator := rest })

/-- The `seq` arguments one receiver is given during a run, in order. -/
def seqsOf (side : Side) : List (Event P) → List UInt64
  | [] => []
  | .send .. :: rest => seqsOf side rest
  | .deliver receiver seq :: rest =>
    if receiver = side then seq :: seqsOf side rest else seqsOf side rest

/-- `wire` carries `text` from chain key `before` to chain key `after`. -/
def Carries (dec : P.DecapsulationKey) (before : Bytes) (m : Message) (after : Bytes) : Prop :=
  ∃ (nonce : Nonce) (aesCt : Bytes) (kyberCt : MlKem1024Ciphertext),
    m.wire = nonce ++ aesCt ++ kyberCt.val ++ toBeBytes16 kyberCt.val.length ∧
    P.aesDecrypt (messageKey P (before ++ (P.decapsulate dec kyberCt).val)) nonce aesCt =
      some (asBytes m.text) ∧
    after = nextChainKey P (before ++ (P.decapsulate dec kyberCt).val)

theorem encryptMessage_carries (correct : Correct P) {dec : P.DecapsulationKey}
    {enc : P.EncapsulationKey} (undoes : Undoes dec enc) (s : RatchetState)
    (twoParty : s.selfMode = false) (text : String) (coins : P.Coins) (nonce : Nonce) :
    ∃ wire after, encryptMessage P s text enc coins nonce =
        (.ok wire, { s with
          sendChainKey := after, sendMessageNumber := s.sendMessageNumber + 1 }) ∧
      Carries dec s.sendChainKey ⟨text, wire⟩ after := by
  let kyberCt := (P.encapsulate enc coins).1
  let mixed := s.sendChainKey ++ (P.encapsulate enc coins).2.val
  obtain ⟨ct, sealed, opened⟩ := correct.aes (messageKey P mixed) nonce (asBytes text)
  refine ⟨nonce ++ ct ++ kyberCt.val ++ toBeBytes16 kyberCt.val.length,
    nextChainKey P mixed, ?_, nonce, ct, kyberCt, rfl, ?_, ?_⟩
  · simp only [encryptMessage, deriveMessageKey_eq, advanceSend, twoParty, Bool.false_eq_true,
      if_false]
    rw [show messageKey P (s.sendChainKey ++ (P.encapsulate enc coins).2.val) =
      messageKey P mixed from rfl, sealed]
  · rw [undoes coins]
    exact opened
  · rw [undoes coins]

/-- A message with an ML-KEM ciphertext, under a number that has no key. -/
theorem decryptMessage_unstored (correct : Correct P) (nonce : Nonce) (aesCt : Bytes)
    (kyberCt : MlKem1024Ciphertext) (kp : MlKem1024Keypair P) {s : RatchetState} {seq : UInt64}
    (absent : s.skippedKeys.lookup (toString seq) = none) :
    decryptMessage P s (P.base64Encode
        (nonce.val ++ (aesCt ++ kyberCt.val ++ toBeBytes16 kyberCt.val.length))) kp seq =
      let mixed := s.recvChainKey ++ (P.decapsulate kp.dec kyberCt).val
      match P.aesDecrypt (messageKey P mixed) nonce aesCt with
      | none => (.error (.decryptFailed "AES-GCM: aead::Error"),
          advanceRecv s (nextChainKey P mixed))
      | some pt => (toText P pt, keepKey P s (nextChainKey P mixed) seq (messageKey P mixed)) := by
  let body := aesCt ++ kyberCt.val ++ toBeBytes16 kyberCt.val.length
  have sized := kyberCt.property
  have bodyLen : body.length = aesCt.length + 1568 + 2 := by
    simp only [body, List.length_append, sized, toBeBytes16, List.length_cons, List.length_nil]
  have long : ¬ (nonce.val ++ body).length < nonceSize + 16 + 2 := by
    rw [List.length_append, nonce.property]
    omega
  have trailing : trailingLength body = 1568 := by
    rw [← sized]
    exact trailingLength_append _ _ (by omega)
  have hasKyber : HasKyber body := ⟨by omega, by omega, by omega⟩
  obtain ⟨aes, kyber⟩ := parts_append aesCt kyberCt
    (show (toBeBytes16 kyberCt.val.length).length = 2 from rfl)
  have parsed : ciphertextTryFrom (kyberPart body 1568) = some kyberCt := by
    rw [kyber]
    exact ciphertextTryFrom_val kyberCt
  have aesOnly : aesPart body 1568 = aesCt := aes
  simp only [decryptMessage, correct.base64, take_nonce, drop_nonce, absent]
  simp only [body] at long hasKyber trailing parsed aesOnly
  simp only [if_neg long, if_pos hasKyber, trailing,
    kyberDecrypt_eq P s nonce.val (aesCt ++ kyberCt.val ++ toBeBytes16 kyberCt.val.length) parsed,
    aesOnly]
  cases P.aesDecrypt (messageKey P (s.recvChainKey ++ (P.decapsulate kp.dec kyberCt).val)) nonce
      aesCt with
  | none => rfl
  | some pt => rfl

/-- The receiver reads exactly the text and follows the sender's chain. -/
theorem decryptMessage_carried (correct : Correct P) (kp : MlKem1024Keypair P)
    (s : RatchetState) (twoParty : s.selfMode = false) {m : Message} {after : Bytes}
    (carries : Carries kp.dec s.recvChainKey m after) (seq : UInt64)
    (fresh : toString seq ∉ s.skippedKeys) :
    ∃ table, decryptMessage P s (P.base64Encode m.wire) kp seq =
        (.ok m.text, { s with
          recvChainKey := after, recvMessageNumber := s.recvMessageNumber + 1,
          skippedKeys := table }) ∧
      ∀ k ∈ table, k = toString seq ∨ k ∈ s.skippedKeys := by
  obtain ⟨nonce, aesCt, kyberCt, wire, opened, rfl⟩ := carries
  have raw : m.wire = nonce.val ++ (aesCt ++ kyberCt.val ++ toBeBytes16 kyberCt.val.length) := by
    simp only [wire, List.append_assoc]
  obtain ⟨table, kept, subset⟩ := keepKey_frame P s
    (nextChainKey P (s.recvChainKey ++ (P.decapsulate kp.dec kyberCt).val)) seq
    (messageKey P (s.recvChainKey ++ (P.decapsulate kp.dec kyberCt).val))
  refine ⟨table, ?_, subset⟩
  rw [raw, decryptMessage_unstored correct nonce aesCt kyberCt kp (AList.lookup_eq_none.mpr fresh)]
  simp only [opened, kept, toText, fromUtf8_asBytes, advanceRecv, twoParty, Bool.false_eq_true,
    if_false]

/-- The chain leads from `before` through the messages in flight to `after`. -/
def Threads (dec : P.DecapsulationKey) : Bytes → List Message → Bytes → Prop
  | before, [], after => before = after
  | before, m :: rest, after => ∃ next, Carries dec before m next ∧ Threads dec next rest after

theorem threads_snoc {dec : P.DecapsulationKey} {before mid after : Bytes}
    {queue : List Message} {m : Message} (threads : Threads dec before queue mid)
    (carries : Carries dec mid m after) : Threads dec before (queue ++ [m]) after := by
  induction queue generalizing before with
  | nil =>
    cases threads
    exact ⟨after, carries, rfl⟩
  | cons first rest ih =>
    obtain ⟨next, here, tail⟩ := threads
    exact ⟨next, here, ih tail⟩

/-- One direction of the conversation: the receiver is behind the sender by the
queue, and still has a key for none of the numbers in `unused`. -/
structure Direction (dec : P.DecapsulationKey) (sender receiver : RatchetState)
    (queue : List Message) (unused : List UInt64) : Prop where
  threads : Threads dec receiver.recvChainKey queue sender.sendChainKey
  twoParty : receiver.selfMode = false
  fresh : ∀ seq ∈ unused, toString seq ∉ receiver.skippedKeys

/-- The invariant of the conversation, with the numbers still to be used. -/
structure InStep (K : Keys P) (w : World P) (rest : List (Event P)) : Prop where
  toResponder : Direction K.responder.dec w.initiator w.responder w.toResponder
    (seqsOf .responder rest)
  toInitiator : Direction K.initiator.dec w.responder w.initiator w.toInitiator
    (seqsOf .initiator rest)
  distinctResponder : (seqsOf .responder rest).Nodup
  distinctInitiator : (seqsOf .initiator rest).Nodup

/-- An answer without failure: what was sent went out, what arrived was read. -/
def Answer.Faithful : Answer → Prop
  | .sent result => ∃ wire, result = .ok wire
  | .received text result => result = .ok text
  | .idle => True

/-- Sending keeps the direction it writes to in step. -/
theorem direction_send (correct : Correct P) {dec : P.DecapsulationKey}
    {enc : P.EncapsulationKey} (undoes : Undoes dec enc) {sender receiver : RatchetState}
    (twoParty : sender.selfMode = false) {queue : List Message} {unused : List UInt64}
    (d : Direction dec sender receiver queue unused) (text : String) (coins : P.Coins)
    (nonce : Nonce) :
    ∃ wire after, encryptMessage P sender text enc coins nonce =
        (.ok wire, { sender with
          sendChainKey := after, sendMessageNumber := sender.sendMessageNumber + 1 }) ∧
      Threads dec receiver.recvChainKey (queue ++ [⟨text, wire⟩]) after := by
  obtain ⟨wire, after, encrypted, carries⟩ :=
    encryptMessage_carries correct undoes sender twoParty text coins nonce
  exact ⟨wire, after, encrypted, threads_snoc d.threads carries⟩

/-- Delivering the oldest message reads its text and keeps the direction in step. -/
theorem direction_deliver (correct : Correct P) (kp : MlKem1024Keypair P)
    {sender receiver : RatchetState} {m : Message} {queue : List Message} {seq : UInt64}
    {unused : List UInt64} (distinct : (seq :: unused).Nodup)
    (d : Direction kp.dec sender receiver (m :: queue) (seq :: unused)) :
    ∃ after table, decryptMessage P receiver (P.base64Encode m.wire) kp seq =
        (.ok m.text, { receiver with
          recvChainKey := after, recvMessageNumber := receiver.recvMessageNumber + 1,
          skippedKeys := table }) ∧
      Threads kp.dec after queue sender.sendChainKey ∧
      ∀ k ∈ unused, toString k ∉ table := by
  obtain ⟨after, carries, tail⟩ := d.threads
  obtain ⟨table, decrypted, subset⟩ := decryptMessage_carried correct kp receiver d.twoParty
    carries seq (d.fresh seq List.mem_cons_self)
  refine ⟨after, table, decrypted, tail, fun k hk present => ?_⟩
  rcases subset _ present with same | old
  · exact (List.nodup_cons.mp distinct).1 (toString_injective same ▸ hk)
  · exact d.fresh k (List.mem_cons_of_mem seq hk) old

section

variable {K : Keys P} {w : World P} {rest : List (Event P)}

theorem inStep_send (correct : Correct P)
    (undoesInitiator : Undoes K.initiator.dec K.initiator.enc)
    (undoesResponder : Undoes K.responder.dec K.responder.enc) (sender : Side)
    (text : String) (coins : P.Coins) (nonce : Nonce)
    (inStep : InStep K w (.send sender text coins nonce :: rest)) :
    (step K w (.send sender text coins nonce)).1.Faithful ∧
      InStep K (step K w (.send sender text coins nonce)).2 rest := by
  obtain ⟨toResponder, toInitiator, distinctResponder, distinctInitiator⟩ := inStep
  cases sender with
  | initiator =>
    obtain ⟨wire, after, encrypted, threads⟩ := direction_send correct undoesResponder
      toInitiator.twoParty toResponder text coins nonce
    simp only [step, encrypted, enqueue]
    exact ⟨⟨wire, rfl⟩, ⟨threads, toResponder.twoParty, toResponder.fresh⟩,
      ⟨toInitiator.threads, toInitiator.twoParty, toInitiator.fresh⟩,
      distinctResponder, distinctInitiator⟩
  | responder =>
    obtain ⟨wire, after, encrypted, threads⟩ := direction_send correct undoesInitiator
      toResponder.twoParty toInitiator text coins nonce
    simp only [step, encrypted, enqueue]
    exact ⟨⟨wire, rfl⟩, ⟨toResponder.threads, toResponder.twoParty, toResponder.fresh⟩,
      ⟨threads, toInitiator.twoParty, toInitiator.fresh⟩,
      distinctResponder, distinctInitiator⟩

theorem inStep_deliver (correct : Correct P) (receiver : Side) (seq : UInt64)
    (inStep : InStep K w (.deliver receiver seq :: rest)) :
    (step K w (.deliver receiver seq)).1.Faithful ∧
      InStep K (step K w (.deliver receiver seq)).2 rest := by
  obtain ⟨toResponder, toInitiator, distinctResponder, distinctInitiator⟩ := inStep
  cases receiver with
  | initiator =>
    have distinct : (seq :: seqsOf .initiator rest).Nodup := distinctInitiator
    cases queued : w.toInitiator with
    | nil =>
      simp only [step, queued]
      exact ⟨trivial, toResponder, ⟨toInitiator.threads, toInitiator.twoParty,
        fun k hk => toInitiator.fresh k (List.mem_cons_of_mem seq hk)⟩,
        distinctResponder, distinct.of_cons⟩
    | cons m queue =>
      rw [queued] at toInitiator
      obtain ⟨after, table, decrypted, threads, fresh⟩ :=
        direction_deliver correct K.initiator distinct toInitiator
      simp only [step, queued, decrypted]
      exact ⟨rfl, ⟨toResponder.threads, toResponder.twoParty, toResponder.fresh⟩,
        ⟨threads, toInitiator.twoParty, fresh⟩, distinctResponder, distinct.of_cons⟩
  | responder =>
    have distinct : (seq :: seqsOf .responder rest).Nodup := distinctResponder
    cases queued : w.toResponder with
    | nil =>
      simp only [step, queued]
      exact ⟨trivial, ⟨toResponder.threads, toResponder.twoParty,
        fun k hk => toResponder.fresh k (List.mem_cons_of_mem seq hk)⟩, toInitiator,
        distinct.of_cons, distinctInitiator⟩
    | cons m queue =>
      rw [queued] at toResponder
      obtain ⟨after, table, decrypted, threads, fresh⟩ :=
        direction_deliver correct K.responder distinct toResponder
      simp only [step, queued, decrypted]
      exact ⟨rfl, ⟨threads, toResponder.twoParty, fresh⟩,
        ⟨toInitiator.threads, toInitiator.twoParty, toInitiator.fresh⟩,
        distinct.of_cons, distinctInitiator⟩

theorem inStep_step (correct : Correct P)
    (undoesInitiator : Undoes K.initiator.dec K.initiator.enc)
    (undoesResponder : Undoes K.responder.dec K.responder.enc) (event : Event P)
    (inStep : InStep K w (event :: rest)) :
    (step K w event).1.Faithful ∧ InStep K (step K w event).2 rest := by
  cases event with
  | send sender text coins nonce =>
    exact inStep_send correct undoesInitiator undoesResponder sender text coins nonce inStep
  | deliver receiver seq => exact inStep_deliver correct receiver seq inStep

end

/-- The invariant holds to the end of a run, and nothing fails on the way. -/
theorem inStep_run (correct : Correct P) {K : Keys P}
    (undoesInitiator : Undoes K.initiator.dec K.initiator.enc)
    (undoesResponder : Undoes K.responder.dec K.responder.enc) (events : List (Event P))
    {w : World P} (inStep : InStep K w events) :
    (∀ answer ∈ outputs (step K) w events, answer.Faithful) ∧
      InStep K (final (step K) w events) [] := by
  induction events generalizing w with
  | nil => exact ⟨fun _ none => absurd none List.not_mem_nil, inStep⟩
  | cons event rest ih =>
    obtain ⟨here, next⟩ := inStep_step correct undoesInitiator undoesResponder event inStep
    obtain ⟨later, finish⟩ := ih next
    refine ⟨fun answer produced => ?_, finish⟩
    rcases List.mem_cons.mp produced with first | afterwards
    · exact first ▸ here
    · exact later answer afterwards

/-- Two new sessions of one secret start on the same pair of chains. -/
theorem started_inStep (initiatorFp initiatorNid responderFp responderNid : String)
    (secret : Bytes) (K : Keys P) {events : List (Event P)}
    (distinctInitiator : (seqsOf .initiator events).Nodup)
    (distinctResponder : (seqsOf .responder events).Nodup) :
    InStep K ⟨started P responderFp responderNid initiatorFp true false secret,
      started P initiatorFp initiatorNid responderFp false false secret, [], []⟩ events where
  toResponder := ⟨rfl, rfl, fun _ _ => AList.notMem_empty _⟩
  toInitiator := ⟨rfl, rfl, fun _ _ => AList.notMem_empty _⟩
  distinctResponder := distinctResponder
  distinctInitiator := distinctInitiator

/-- Every message is read back exactly, and the two ends of a direction without
messages in flight hold the same chain key. -/
theorem conversation_faithful (correct : Correct P) (K : Keys P)
    (undoesInitiator : Undoes K.initiator.dec K.initiator.enc)
    (undoesResponder : Undoes K.responder.dec K.responder.enc)
    (initiatorFp initiatorNid responderFp responderNid : String) {secret : Bytes}
    (long : 32 ≤ secret.length) (events : List (Event P))
    (distinctInitiator : (seqsOf .initiator events).Nodup)
    (distinctResponder : (seqsOf .responder events).Nodup) :
    ∃ a b, new P responderFp responderNid initiatorFp true secret = .ok a ∧
      new P initiatorFp initiatorNid responderFp false secret = .ok b ∧
      (∀ answer ∈ outputs (step K) ⟨a, b, [], []⟩ events, answer.Faithful) ∧
      ((final (step K) ⟨a, b, [], []⟩ events).toResponder = [] →
        (final (step K) ⟨a, b, [], []⟩ events).initiator.sendChainKey =
          (final (step K) ⟨a, b, [], []⟩ events).responder.recvChainKey) ∧
      ((final (step K) ⟨a, b, [], []⟩ events).toInitiator = [] →
        (final (step K) ⟨a, b, [], []⟩ events).responder.sendChainKey =
          (final (step K) ⟨a, b, [], []⟩ events).initiator.recvChainKey) := by
  refine ⟨_, _, newWithMode_started P _ _ _ _ _ long, newWithMode_started P _ _ _ _ _ long, ?_⟩
  obtain ⟨faithful, finish⟩ := inStep_run correct undoesInitiator undoesResponder events
    (started_inStep initiatorFp initiatorNid responderFp responderNid secret K
      distinctInitiator distinctResponder)
  refine ⟨faithful, fun quiet => ?_, fun quiet => ?_⟩
  · have threads := finish.toResponder.threads
    rw [quiet] at threads
    exact threads.symm
  · have threads := finish.toInitiator.threads
    rw [quiet] at threads
    exact threads.symm

theorem checksumPrimitives_correct : Correct checksumPrimitives where
  base64 := latin1Decode_encode
  aes := fun key nonce pt => ⟨_, rfl, checksumOpen_seal key nonce pt⟩

/-- Both sides' key pairs in the small instance. -/
def checksumKeys : Keys checksumPrimitives :=
  ⟨⟨(3 : UInt8), (3 : UInt8)⟩, ⟨(7 : UInt8), (7 : UInt8)⟩⟩

/-- Two messages out, one back before the second arrives. -/
def crossing : List (Event checksumPrimitives) :=
  [.send .initiator "hello" (1 : UInt8) checksumNonce, .deliver .responder 5,
    .send .initiator "again" (2 : UInt8) checksumNonce,
    .send .responder "reply" (4 : UInt8) checksumNonce,
    .deliver .initiator 5, .deliver .responder 0]

theorem conversation_faithful_crossing :
    (seqsOf .initiator crossing).Nodup ∧ (seqsOf .responder crossing).Nodup ∧
    ∃ a b, new checksumPrimitives "B" "nb" "A" true checksumSecret = .ok a ∧
      new checksumPrimitives "A" "na" "B" false checksumSecret = .ok b ∧
      (∀ answer ∈ outputs (step checksumKeys) ⟨a, b, [], []⟩ crossing, answer.Faithful) := by
  have distinctInitiator : (seqsOf .initiator crossing).Nodup := by decide
  have distinctResponder : (seqsOf .responder crossing).Nodup := by decide
  obtain ⟨a, b, newA, newB, faithful, -, -⟩ := conversation_faithful checksumPrimitives_correct
    checksumKeys (fun _ => rfl) (fun _ => rfl) "A" "na" "B" "nb"
    (show 32 ≤ checksumSecret.length from le_of_eq List.length_replicate.symm)
    crossing distinctInitiator distinctResponder
  exact ⟨distinctInitiator, distinctResponder, a, b, newA, newB, faithful⟩

end RatchetConversation

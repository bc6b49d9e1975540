import AddMessenger.RelayReplay
import AddMessenger.KeyTeaching

/-!
# What a signature is made over

Receipts and deletions are signed over one and the same text, without their nonce: a
relay turns a receipt into the deletion it passes on. A stored message is signed over
its addresses, its number and its time, without the message itself.
-/

namespace SigningTexts

open ByteStrings Doubles Handlers Handlers.Handler Mealy RelayMailbox RelayReplay RelayServer
  Signatures

variable {cfg : ServerConfig} {s t : ServerState} {req req' : Request} {env env' : Env}

/-- What a receipt and a deletion have in common. -/
def receipt : Request → Option RelayDeleteRequest
  | .readReceipt q => some q.toRelayDeleteRequest
  | .delete q => some q
  | _ => none

def receiptTimestamp (req : Request) : Option F64 := (receipt req).map (·.timestamp)

def Accepts (cfg : ServerConfig) (s : ServerState) (req : Request) (env : Env) : Prop :=
  (serverStep cfg s (.message req env)).1.isOk = true

instance : Decidable (Accepts cfg s req env) := inferInstanceAs (Decidable (_ = true))

/-- Whatever key it is checked with, the signature is good for this text only. -/
def BoundTo (P : Primitives) (signature data : String) : Prop :=
  ∀ key text, KeyVerifies P key text signature → text = data

theorem accepts_iff :
    Accepts cfg s req env ↔
      ∃ reply, (serverStep cfg s (.message req env)).1 = .ok reply := by
  unfold Accepts
  cases (serverStep cfg s (.message req env)).1 with
  | ok reply => simp [Except.isOk, Except.toBool]
  | error e => simp [Except.isOk, Except.toBool]

/-- No lock is in the way, and the signature is genuine under the key in the cache. -/
def Verifies (cfg : ServerConfig) (s : ServerState) (q : RelayDeleteRequest) (env : Env) : Prop :=
  (q.recipientVerifyingKey.isEmpty = true ∨ env.writeLocked = false) ∧ env.readLocked = false ∧
    ∃ pinned, pinFirst s.keyCache q.recipientFp q.recipientVerifyingKey q.recipientFp =
        some pinned ∧
      KeyVerifies cfg.P pinned (receiptSigningData cfg q) q.signature

/-- The three checks both handlers make, in their order. -/
def receiptChecks (cfg : ServerConfig) (q : RelayDeleteRequest) (remembered text : String)
    (env : Env) : Serve Unit := do
  requireSignature cfg q.signature (receiptSigningData cfg q) q.recipientFp
    q.recipientVerifyingKey env text
  requireUnseen q.recipientFp remembered env.nonceAt
  checkTimestampFreshness cfg env.freshAt q.timestamp

theorem receiptChecks_iff {q : RelayDeleteRequest} {remembered text : String} {u : Unit} :
    (receiptChecks cfg q remembered text env).run s = (.ok u, t) ↔
      Verifies cfg s q env ∧ (∀ n ∈ s.seenNonceStrs q.recipientFp, n.1 ≠ remembered) ∧
      isFresh env.freshAt q.timestamp = true ∧
      (s.pin q.recipientFp q.recipientVerifyingKey).remember q.recipientFp remembered
        env.nonceAt = t := by
  unfold receiptChecks
  constructor
  · intro passed
    obtain ⟨_, _, verified, passed⟩ := run_bind_iff.mp passed
    obtain ⟨genuine, rfl⟩ := requireSignature_iff.mp verified
    obtain ⟨_, _, isUnseen, passed⟩ := run_bind_iff.mp passed
    obtain ⟨unseen, rfl⟩ := requireUnseen_iff.mp isUnseen
    obtain ⟨fresh, rfl⟩ := checkTimestampFreshness_iff.mp passed
    exact ⟨genuine, unseen, fresh, rfl⟩
  · rintro ⟨genuine, unseen, fresh, rfl⟩
    refine run_bind_iff.mpr ⟨(), _, requireSignature_iff.mpr ⟨genuine, rfl⟩, ?_⟩
    refine run_bind_iff.mpr ⟨(), _, requireUnseen_iff.mpr ⟨unseen, rfl⟩, ?_⟩
    exact checkTimestampFreshness_iff.mpr ⟨fresh, rfl⟩

/-- Both handlers are these checks and a change of the mail. -/
theorem handleMessage_receipt (cfg : ServerConfig) (env : Env) {q : RelayDeleteRequest}
    (isReceipt : receipt req = some q) :
    ∃ (remembered text : String) (f : ServerState → RelayState) (reply : Reply),
      rememberedNonce req = some (q.recipientFp, remembered) ∧
      handleMessage cfg req env = (receiptChecks cfg q remembered text env >>= fun _ =>
        modify (fun s => { s with mail := f s }) >>= fun _ => pure reply) := by
  cases req with
  | readReceipt r =>
    obtain rfl : r.toRelayDeleteRequest = q := Option.some.inj isReceipt
    refine ⟨_, "read receipt signature verification failed", fun s =>
      RelayReceipts.receiveReceipt s.mail r.recipientNid r.messageId env.mailAt env.sqlOk,
      .receiptAck r.otherRelays r r.toRelayDeleteRequest, rfl, ?_⟩
    unfold receiptChecks
    simp only [bind_assoc]
    rfl
  | delete q' =>
    obtain rfl : q' = q := Option.some.inj isReceipt
    refine ⟨_, "delete request signature verification failed", fun s =>
      RelayReceipts.deleteMessage s.mail q'.recipientNid q'.messageId env.sqlOk, .done, rfl, ?_⟩
    unfold receiptChecks
    simp only [bind_assoc]
    rfl
  | store | fetch | status | ack | purge | forward | routeAdvertise | routeAdvertiseAck | whoHas
  | peerAuth | peerAuthReply => cases isReceipt

/-- No remembered nonce of its sender is the one of the request. -/
def NewNonce (s : ServerState) (req : Request) : Prop :=
  ∀ fp nonce, rememberedNonce req = some (fp, nonce) → ∀ n ∈ s.seenNonceStrs fp, n.1 ≠ nonce

theorem accepts_receipt_iff {q : RelayDeleteRequest} (isReceipt : receipt req = some q) :
    Accepts cfg s req env ↔
      Verifies cfg s q env ∧ NewNonce s req ∧ isFresh env.freshAt q.timestamp = true := by
  obtain ⟨remembered, text, f, reply, isRemembered, handled⟩ :=
    handleMessage_receipt cfg env isReceipt
  have new : NewNonce s req ↔ ∀ n ∈ s.seenNonceStrs q.recipientFp, n.1 ≠ remembered := by
    simp [NewNonce, isRemembered]
  rw [accepts_iff, new]
  constructor
  · rintro ⟨answer, accepted⟩
    have passed : (handleMessage cfg req env).run s = (.ok answer, _) := Prod.ext accepted rfl
    rw [handled] at passed
    obtain ⟨_, _, checked, _⟩ := run_bind_iff.mp passed
    obtain ⟨verifies, unseen, fresh, _⟩ := receiptChecks_iff.mp checked
    exact ⟨verifies, unseen, fresh⟩
  · rintro ⟨verifies, unseen, fresh⟩
    have checked : (receiptChecks cfg q remembered text env).run s = (.ok (), _) :=
      receiptChecks_iff.mpr ⟨verifies, unseen, fresh, rfl⟩
    refine ⟨reply, ?_⟩
    change ((handleMessage cfg req env).run s).1 = _
    rw [handled, run_bind_of_ok checked]
    rfl

/-- After an accepted request its key is the one it was checked with, and its nonce is
remembered. -/
theorem accepted_receipt_state {q : RelayDeleteRequest} (isReceipt : receipt req = some q)
    (accepted : Accepts cfg s req env) :
    (serverStep cfg s (.message req env)).2.keyCache =
        pinFirst s.keyCache q.recipientFp q.recipientVerifyingKey ∧
      ∀ fp nonce, rememberedNonce req = some (fp, nonce) →
        (nonce, (env.nonceAt.secs : Int)) ∈
          (serverStep cfg s (.message req env)).2.seenNonceStrs fp := by
  obtain ⟨remembered, text, f, reply, isRemembered, handled⟩ :=
    handleMessage_receipt cfg env isReceipt
  obtain ⟨answer, answered⟩ := accepts_iff.mp accepted
  have passed : (handleMessage cfg req env).run s =
      (.ok answer, (serverStep cfg s (.message req env)).2) := Prod.ext answered rfl
  rw [handled] at passed
  obtain ⟨_, _, checked, changed⟩ := run_bind_iff.mp passed
  obtain ⟨_, _, _, rfl⟩ := receiptChecks_iff.mp checked
  obtain ⟨_, _, modified, ended⟩ := run_bind_iff.mp changed
  rw [← (run_pure_iff.mp ended).2, ← run_modify_iff.mp modified]
  refine ⟨rfl, fun fp nonce isNonce => ?_⟩
  obtain ⟨rfl, rfl⟩ : q.recipientFp = fp ∧ remembered = nonce := by
    simpa using isRemembered.symm.trans isNonce
  simp [ServerState.remember, recordNonce]

theorem receiptSigningData_toList (q : RelayDeleteRequest) :
    (receiptSigningData cfg q).toList =
      (q.messageId.toList ++ '|' :: q.recipientNid.toList) ++
        '|' :: (cfg.display q.timestamp).toList := by
  simp [receiptSigningData, String.intercalate_cons_cons]

/-- The text determines the time, and in one mailbox the message. -/
theorem receiptSigningData_inj {q q' : RelayDeleteRequest}
    (plain : ∀ x, '|' ∉ (cfg.display x).toList)
    (same : receiptSigningData cfg q = receiptSigningData cfg q') :
    cfg.display q.timestamp = cfg.display q'.timestamp ∧
      (q.recipientNid = q'.recipientNid → q.messageId = q'.messageId) := by
  have texts := congrArg String.toList same
  rw [receiptSigningData_toList, receiptSigningData_toList] at texts
  obtain ⟨fronts, times⟩ := append_separator_inj (plain _) (plain _) texts
  refine ⟨String.toList_inj.mp times, fun mailbox => ?_⟩
  rw [mailbox] at fronts
  exact String.toList_inj.mp (List.append_cancel_right fronts)

/-- Wherever the signature is accepted, it stands in a request with the time it was made
for, while that is recent, and acts in its mailbox on no other message. -/
def OnlyItsMessage (cfg : ServerConfig) (issued : RelayDeleteRequest) (s : ServerState)
    (acts : List Action) : Prop :=
  ∀ front req env back q, acts = front ++ .message req env :: back → receipt req = some q →
    q.signature = issued.signature → Accepts cfg (final (serverStep cfg) s front) req env →
    q.timestamp = issued.timestamp ∧ isFresh env.freshAt issued.timestamp = true ∧
      (q.recipientNid = issued.recipientNid → q.messageId = issued.messageId)

/-- With one nonce of one fingerprint, each of the two handlers accepts the signature at
most once. -/
def OncePerNonce (cfg : ServerConfig) (issued : RelayDeleteRequest) (s : ServerState)
    (acts : List Action) : Prop :=
  ∀ front req env middle req' env' back q q',
    acts = front ++ .message req env :: (middle ++ .message req' env' :: back) →
    receipt req = some q → receipt req' = some q' → q.signature = issued.signature →
    q'.signature = issued.signature → rememberedNonce req = rememberedNonce req' →
    Accepts cfg (final (serverStep cfg) s front) req env →
    ¬ Accepts cfg (final (serverStep cfg) s (front ++ .message req env :: middle)) req' env'

/-- At any time after a receipt is accepted, the deletion that a relay makes of it passes the same
signature. -/
def GoodForDeletion (cfg : ServerConfig) (s : ServerState) (acts : List Action) : Prop :=
  ∀ front q env middle back env',
    acts = front ++ .message (.readReceipt q) env :: (middle ++ back) →
    Accepts cfg (final (serverStep cfg) s front) (.readReceipt q) env →
    env'.writeLocked = false → env'.readLocked = false →
    isFresh env'.freshAt q.timestamp = true →
    NewNonce (final (serverStep cfg) s (front ++ .message (.readReceipt q) env :: middle))
      (.delete q.toRelayDeleteRequest) →
    Accepts cfg (final (serverStep cfg) s (front ++ .message (.readReceipt q) env :: middle))
      (.delete q.toRelayDeleteRequest) env'

section

variable {issued : RelayDeleteRequest}
  (bound : BoundTo cfg.P issued.signature (receiptSigningData cfg issued))
  (plain : ∀ x, '|' ∉ (cfg.display x).toList)
  (shown : ∀ x, cfg.display x = cfg.display issued.timestamp → x = issued.timestamp)
include bound plain shown

theorem accepted_names_issued {q : RelayDeleteRequest} (isReceipt : receipt req = some q)
    (captured : q.signature = issued.signature) (accepted : Accepts cfg s req env) :
    q.timestamp = issued.timestamp ∧
      (q.recipientNid = issued.recipientNid → q.messageId = issued.messageId) := by
  obtain ⟨⟨_, _, key, _, genuine⟩, _, _⟩ := (accepts_receipt_iff isReceipt).mp accepted
  rw [captured] at genuine
  obtain ⟨time, message⟩ := receiptSigningData_inj plain (bound key _ genuine)
  exact ⟨shown _ time, message⟩

theorem only_its_message (acts : List Action) : OnlyItsMessage cfg issued s acts := by
  rintro front req env back q - isReceipt captured accepted
  obtain ⟨time, message⟩ := accepted_names_issued bound plain shown isReceipt captured accepted
  obtain ⟨_, _, fresh⟩ := (accepts_receipt_iff isReceipt).mp accepted
  rw [time] at fresh
  exact ⟨time, fresh, message⟩

theorem once_per_nonce {acts : List Action} (clock : ClockNondecreasing acts)
    (guarded : Along (serverStep cfg) (Protected receiptTimestamp) s acts) :
    OncePerNonce cfg issued s acts := by
  rintro front req env middle req' env' back q q' rfl isReceipt isReceipt' captured captured'
    sameNonce first second
  obtain ⟨time, _⟩ := accepted_names_issued bound plain shown isReceipt captured first
  obtain ⟨time', _⟩ := accepted_names_issued bound plain shown isReceipt' captured' second
  obtain ⟨remembered, _, _, _, isRemembered, _⟩ := handleMessage_receipt cfg env isReceipt
  obtain ⟨_, new, fresh⟩ := (accepts_receipt_iff isReceipt').mp second
  have recorded := (accepted_receipt_state isReceipt first).2 _ _ isRemembered
  obtain ⟨_, here, within⟩ := (along_append s front _).mp guarded
  have lapses : Lapses q.timestamp env :=
    here.2 req env _ rfl (by simp [receiptTimestamp, isReceipt])
  rcases known_or_stale (List.pairwise_append.mp clock).2.1 within recorded lapses with
    known | stale
  · rw [final_append, final_cons] at new
    exact new _ _ (sameNonce ▸ isRemembered) _ known rfl
  · rw [time', ← time, stale] at fresh
    exact Bool.false_ne_true fresh

end

theorem good_for_deletion (acts : List Action) : GoodForDeletion cfg s acts := by
  rintro front q env middle back env' - accepted writable readable fresh new
  rw [final_append, final_cons] at new ⊢
  obtain ⟨⟨_, _, key, cached, genuine⟩, _, _⟩ := (accepts_receipt_iff rfl).mp accepted
  refine (accepts_receipt_iff rfl).mpr ⟨⟨Or.inr writable, readable, key, ?_, genuine⟩, new, fresh⟩
  -- the receipt has pinned the key that the deletion is checked with, and it stays
  have pinned : (serverStep cfg (final (serverStep cfg) s front)
      (.message (.readReceipt q) env)).2.keyCache q.recipientFp = some key := by
    rw [(accepted_receipt_state rfl accepted).1]
    exact cached
  refine pinFirst_of_some ?_
  rw [KeyTeaching.final_keyCache, pinned]
  rfl

/-- In every run, a signature that is bound to its text serves receipts and deletions
alike, but only for the message and the time it was made for and only while that is
recent; as long as no recent nonce is dropped and no request is dated ahead, it is
accepted once for each nonce. -/
theorem captured_signature (cfg : ServerConfig) (issued : RelayDeleteRequest)
    (bound : BoundTo cfg.P issued.signature (receiptSigningData cfg issued))
    (plain : ∀ x, '|' ∉ (cfg.display x).toList)
    (shown : ∀ x, cfg.display x = cfg.display issued.timestamp → x = issued.timestamp)
    (s : ServerState) (acts : List Action) :
    OnlyItsMessage cfg issued s acts ∧ GoodForDeletion cfg s acts ∧
      (ClockNondecreasing acts →
        Along (serverStep cfg) (Protected receiptTimestamp) s acts →
        OncePerNonce cfg issued s acts) :=
  ⟨only_its_message bound plain shown acts, good_for_deletion acts,
    once_per_nonce bound plain shown⟩

/-- A scheme whose signatures repeat the key and the data. -/
def echoScheme : Primitives :=
  { sumScheme with
    Signature := Bytes
    EncodedSignature := Bytes
    verifies := fun vk data sig => sig == vk :: data
    encodedSignatureTryFrom := some
    signatureDecode := some }

def echoConfig : ServerConfig := { smallConfig none with P := echoScheme }

def capturedSignature : String := String.singleton (Char.ofUInt8 7) ++ "m|nid-r|1000"

/-- A receipt for the message `m`, signed with the key 7. -/
def receiptWith (nonce : String) : RelayReadReceipt where
  messageId := "m"
  recipientNid := "nid-r"
  recipientFp := "fp-r"
  signature := capturedSignature
  timestamp := momentStamp
  nonce := nonce
  recipientVerifyingKey := String.singleton (Char.ofUInt8 7)
  otherRelays := []

theorem echoScheme_verifies (vk : UInt8) (data sig : Bytes) :
    echoScheme.verifies vk data sig = true ↔ sig = vk :: data :=
  beq_iff_eq

theorem capturedSignature_bound : BoundTo echoScheme capturedSignature "m|nid-r|1000" := by
  rintro key text ⟨vkBytes, vk, _, _, sig, isSig, same⟩
  have echoed : sig = vk :: asBytes text := (echoScheme_verifies vk _ sig).mp same
  have decodes : sumScheme.base64Decode capturedSignature =
      some (7 :: asBytes "m|nid-r|1000") := by decide +kernel
  have repeated : sig = 7 :: asBytes "m|nid-r|1000" :=
    Option.some.inj (isSig.symm.trans decodes)
  have bytes : asBytes text = asBytes "m|nid-r|1000" :=
    (List.cons.inj (echoed.symm.trans repeated)).2
  have texts := congrArg fromUtf8 bytes
  rwa [fromUtf8_asBytes, fromUtf8_asBytes, Option.some.injEq] at texts

theorem echoConfig_plain (x : F64) : '|' ∉ (echoConfig.display x).toList := by
  have digits : ∀ n : Nat, '|' ∉ (toString n).toList := fun n member =>
    absurd (isDigit_of_mem_toString member) (by decide)
  intro member
  simp only [ServerConfig.display, echoConfig, smallConfig, String.toList_append,
    List.mem_append] at member
  rcases member with (sign | num) | den
  · revert sign
    cases x.negative <;> decide
  · exact digits _ num
  · split at den
    · exact absurd den (by decide)
    · rw [String.toList_append, List.mem_append] at den
      rcases den with slash | den
      · exact absurd slash (by decide)
      · exact digits _ den

theorem echoConfig_shown (x : F64)
    (same : echoConfig.display x = echoConfig.display momentStamp) :
    x = momentStamp := by
  obtain ⟨negative, magnitude, nonneg, _, _⟩ := x
  have shown : echoConfig.display momentStamp = "1000" := by decide +kernel
  rw [shown] at same
  simp only [ServerConfig.display, echoConfig, smallConfig] at same
  have texts := congrArg String.toList same
  cases negative with
  | true => simp at texts
  | false =>
    by_cases whole : magnitude.den = 1
    · simp only [Bool.false_eq_true, if_false, whole, if_true, String.append_empty,
        String.empty_append] at same
      have num : magnitude.num.natAbs = 1000 := Nat.repr_injective same
      have value : magnitude = 1000 := by
        rw [← Rat.num_div_den magnitude, whole]
        have positive : 0 ≤ magnitude.num := Rat.num_nonneg.mpr nonneg
        have : magnitude.num = 1000 := by omega
        simp [this]
      subst value
      rfl
    · have slash : '/' ∈ "1000".toList := by
        rw [← same]
        simp [whole]
      exact absurd slash (by decide)

/-- A receipt is accepted, and so is the deletion made of it. -/
theorem captured_signature_deletion :
    Accepts echoConfig (started false) (.readReceipt (receiptWith "a")) moment ∧
      Accepts echoConfig
        (final (serverStep echoConfig) (started false)
          ([] ++ [.message (.readReceipt (receiptWith "a")) moment]))
        (.delete (receiptWith "a").toRelayDeleteRequest) moment := by
  have accepted :
      Accepts echoConfig (started false) (.readReceipt (receiptWith "a")) moment := by
    decide +kernel
  refine ⟨accepted, ?_⟩
  obtain ⟨_, deletion, _⟩ := captured_signature echoConfig (receiptWith "a").toRelayDeleteRequest
    capturedSignature_bound echoConfig_plain echoConfig_shown (started false)
    [.message (.readReceipt (receiptWith "a")) moment]
  refine deletion [] (receiptWith "a") moment [] [] moment rfl accepted rfl rfl
    (by decide +kernel) ?_
  rintro fp nonce ⟨rfl, rfl⟩
  decide +kernel

/-- A signature made over a receipt passes as that receipt and then as a deletion. -/
theorem receipt_signature_reused :
    BoundTo echoScheme capturedSignature "m|nid-r|1000" ∧
      (receiptWith "a").signature = capturedSignature ∧
      (receiptWith "a").toRelayDeleteRequest.signature = capturedSignature ∧
      Accepts echoConfig (started false) (.readReceipt (receiptWith "a")) moment ∧
      Accepts echoConfig
        (final (serverStep echoConfig) (started false)
          [.message (.readReceipt (receiptWith "a")) moment])
        (.delete (receiptWith "a").toRelayDeleteRequest) moment :=
  ⟨capturedSignature_bound, rfl, rfl, by decide +kernel, by decide +kernel⟩

/-- The two requests store the same message at the same place. -/
structure SameMessage (q q' : StoreRequest) : Prop where
  recipientNid : q.recipientNid = q'.recipientNid
  senderNid : q.senderNid = q'.senderNid
  senderFp : q.senderFp = q'.senderFp
  seq : q.seq = q'.seq
  timestamp : q.timestamp = q'.timestamp
  nonce : q.nonce = q'.nonce
  signedBlob : q.signedBlob = q'.signedBlob

def Binds (cfg : ServerConfig) (q : StoreRequest) : Prop :=
  ∀ q', q'.sealedSender = "" → storeSigningData cfg q = storeSigningData cfg q' → SameMessage q q'

theorem storeSigningData_toList (q : StoreRequest) :
    (storeSigningData cfg q).toList =
      q.recipientNid.toList ++ '|' :: (q.senderNid.toList ++ '|' :: (q.senderFp.toList ++
        '|' :: ((toString q.seq).toList ++ '|' :: ((cfg.display q.timestamp).toList ++
          '|' :: q.nonce.toList)))) := by
  simp [storeSigningData, String.intercalate_cons_cons]

/-- The ids in a request are free of the separator. -/
structure PlainIds (q : StoreRequest) : Prop where
  recipientNid : '|' ∉ q.recipientNid.toList
  senderNid : '|' ∉ q.senderNid.toList
  senderFp : '|' ∉ q.senderFp.toList

theorem int64_plain (n : Int64) : '|' ∉ (toString n).toList := by
  have digits : ∀ m : Nat, '|' ∉ m.repr.toList := fun m member =>
    absurd (isDigit_of_mem_toString member) (by decide)
  change '|' ∉ n.toInt.repr.toList
  rw [Int.repr_eq_if]
  split
  · exact digits _
  · rw [String.toList_append, List.mem_append]
    rintro (sign | digit)
    · exact absurd sign (by decide)
    · exact digits _ digit

/-- With ids free of the separator, the text determines everything but the message. -/
theorem storeSigningData_inj {q q' : StoreRequest} (plain : ∀ x, '|' ∉ (cfg.display x).toList)
    (shown : ∀ x y, cfg.display x = cfg.display y → x = y) (ids : PlainIds q) (ids' : PlainIds q')
    (same : storeSigningData cfg q = storeSigningData cfg q') :
    SameMessage { q with signedBlob := q'.signedBlob } q' := by
  have texts := congrArg String.toList same
  rw [storeSigningData_toList, storeSigningData_toList] at texts
  obtain ⟨recipients, texts⟩ := separator_append_inj ids.recipientNid ids'.recipientNid texts
  obtain ⟨senders, texts⟩ := separator_append_inj ids.senderNid ids'.senderNid texts
  obtain ⟨fps, texts⟩ := separator_append_inj ids.senderFp ids'.senderFp texts
  obtain ⟨seqs, texts⟩ := separator_append_inj (int64_plain _) (int64_plain _) texts
  obtain ⟨times, nonces⟩ := separator_append_inj (plain _) (plain _) texts
  have numbers : q.seq = q'.seq :=
    Int64.toInt_inj.mp (Int.repr_injective (String.toList_inj.mp seqs))
  exact ⟨String.toList_inj.mp recipients, String.toList_inj.mp senders, String.toList_inj.mp fps,
    numbers, shown _ _ (String.toList_inj.mp times),
    String.toList_inj.mp nonces, rfl⟩

/-- The request with more text in its message. -/
def withLongerBlob (q : StoreRequest) : StoreRequest :=
  { q with signedBlob := q.signedBlob ++ "x" }

theorem not_sameMessage_withLongerBlob (q : StoreRequest) :
    ¬ SameMessage q (withLongerBlob q) := by
  intro same
  have lengths := congrArg String.length same.signedBlob
  simp [withLongerBlob] at lengths

/-- No message is part of the text that is signed for it: whatever state the relay is
in, a longer one passes with the same signature. -/
theorem store_signature_never_binds (cfg : ServerConfig) (q : StoreRequest)
    (unsealed : q.sealedSender = "") :
    ¬ Binds cfg q ∧ ∃ q', q'.sealedSender = "" ∧ q'.senderSig = q.senderSig ∧
      ¬ SameMessage q q' ∧
      ∀ env s,
        (verifyStoreSignature cfg q' env).run s = (verifyStoreSignature cfg q env).run s := by
  constructor
  · intro binds
    exact not_sameMessage_withLongerBlob q (binds (withLongerBlob q) unsealed rfl)
  · exact ⟨withLongerBlob q, unsealed, rfl, not_sameMessage_withLongerBlob q, fun _ _ => rfl⟩

theorem store_signature_never_binds_prompt : ¬ Binds (smallConfig none) promptStore :=
  (store_signature_never_binds (smallConfig none) promptStore rfl).1

/-- The signature of one message lets the relay store another in its place. -/
theorem other_blob_passes :
    storeSigningData (smallConfig none) (withLongerBlob promptStore) =
        storeSigningData (smallConfig none) promptStore ∧
      promptStore.signedBlob = "blob" ∧ (withLongerBlob promptStore).signedBlob = "blobx" ∧
      Accepted (smallConfig none) (started false) promptStore moment ∧
      Accepted (smallConfig none) (started false) (withLongerBlob promptStore) moment := by
  exact ⟨rfl, rfl, by decide, by decide +kernel, by decide +kernel⟩

end SigningTexts

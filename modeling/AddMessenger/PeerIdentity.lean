import AddMessenger.Mealy
import AddMessenger.PeerConnection

/-!
# Who is at the other end of a connection

A client that connects takes whoever answers: the ack is checked against the fingerprint
and the key it carries itself, never against the recipient. A client that listens binds
the first key a hello brings to the fingerprint it claims.

`owner` gives the key a fingerprint's owner has published for it.
-/

namespace PeerIdentity

open ByteStrings ClientSessions MessageStore PeerConnection PeerHandshake Protocol Ratchet
  Signatures

variable {F : Platform}

section

variable {P : Signatures.Primitives} {owner : String → Option P.VerifyingKey} {cache : KeyCache P}

/-- Every cached key is the one its owner has published. -/
def Bound (owner : String → Option P.VerifyingKey) (cache : KeyCache P) : Prop :=
  ∀ e ∈ cache.entries, owner e.1 = some e.2.1

theorem bound_empty : Bound owner (∅ : KeyCache P) := by
  intro e member
  cases member

theorem Bound.cached {fp : String} {vk : P.VerifyingKey} (bound : Bound owner cache)
    (cached : cachedKey cache fp = some vk) : owner (P.toUppercase fp) = some vk := by
  obtain ⟨⟨key, time⟩, found, rfl⟩ := Option.map_eq_some_iff.mp cached
  exact bound _ (AList.mem_lookup_iff.mp found)

theorem Bound.replace {key : String} {vk : P.VerifyingKey} {now : Nat}
    (bound : Bound owner cache) (owned : owner key = some vk) :
    Bound owner (cache.replace key (vk, now)) := by
  have member : ∀ l : List (Sigma fun _ : String => P.VerifyingKey × Nat),
      (∀ e ∈ l, owner e.1 = some e.2.1) →
        ∀ e ∈ List.kreplace key (vk, now) l, owner e.1 = some e.2.1 := by
    intro l
    induction l with
    | nil => intro all e none; exact all e none
    | cons first rest ih =>
      intro all e member
      rw [List.kreplace, List.lookmap_cons] at member
      split at member
      · rcases List.mem_cons.mp member with rfl | later
        · exact all _ List.mem_cons_self
        · exact ih (fun e there => all e (List.mem_cons_of_mem first there)) e later
      · rename_i changed
        split at changed
        · cases changed
          rcases List.mem_cons.mp member with rfl | later
          · exact owned
          · exact all e (List.mem_cons_of_mem first later)
        · cases changed
  exact member cache.entries bound

theorem Bound.erase {key : String} (bound : Bound owner cache) :
    Bound owner (cache.erase key) := by
  intro e member
  exact bound e ((List.kerase_sublist key cache.entries).subset member)

theorem Bound.evict (bound : Bound owner cache) : Bound owner (evictOverCapacity cache) := by
  unfold evictOverCapacity
  split
  · split
    · exact bound.erase
    · exact bound
  · exact bound

theorem Bound.insert {key : String} {vk : P.VerifyingKey} {now : Nat}
    (bound : Bound owner cache) (owned : owner key = some vk) :
    Bound owner (evictOverCapacity (cache.insert key (vk, now))) := by
  refine Bound.evict ?_
  intro e member
  rw [AList.entries_insert] at member
  rcases List.mem_cons.mp member with rfl | later
  · exact owned
  · have erased : Bound owner (cache.erase key) := bound.erase
    exact erased e later

theorem Bound.getCached {fp : String} {now : Nat} (bound : Bound owner cache) :
    Bound owner (getCachedVerifyingKey cache fp now).2 := by
  simp only [getCachedVerifyingKey]
  split
  · rename_i vk time found
    exact bound.replace (bound _ (AList.mem_lookup_iff.mp found))
  · exact bound

theorem Bound.verify {data sig fp : String} {now : Nat} (bound : Bound owner cache) :
    Bound owner (verifySignature cache data sig fp now).2 := by
  have kept : Bound owner (getCachedVerifyingKey cache fp now).2 := bound.getCached
  simp only [verifySignature]
  split
  · exact bound
  · split
    · exact bound
    · split
      · rename_i looked
        rwa [looked] at kept
      · rename_i looked
        rw [looked] at kept
        split
        · exact kept
        · split <;> exact kept

theorem Bound.pinSender {fp : String} {payload : Json} {now : Nat} (bound : Bound owner cache)
    (carried : ∀ vk, senderVerifyingKey payload = some vk → owner (P.toUppercase fp) = some vk) :
    Bound owner (pinSenderKey cache fp payload now).2 := by
  simp only [pinSenderKey]
  cases carries : senderVerifyingKey (P := P) payload with
  | none => exact bound
  | some vk =>
    have owned := carried vk carries
    simp only [pinVerifyingKey]
    cases found : cache.lookup (P.toUppercase fp) with
    | none => exact bound.insert owned
    | some entry =>
      obtain ⟨existing, time⟩ := entry
      by_cases same : existing = vk
      · subst same
        simp only [if_true]
        exact bound.replace owned
      · simp only [same, if_false]
        exact bound

/-- The keys a hello or the DHT may bring to a fingerprint without one are its owner's. -/
def BringsOwn (owner : String → Option P.VerifyingKey) (cache : KeyCache P) (payload : Json)
    (fetched : Option P.VerifyingKey) : Prop :=
  cachedKey cache (claimedFp payload) = none →
    ∀ vk, senderVerifyingKey payload = some vk ∨ fetched = some vk →
      owner (P.toUppercase (claimedFp payload)) = some vk

theorem Bound.bindHello {payload : Json} {fetched : Option P.VerifyingKey} {clock : Nat → Nat}
    (bound : Bound owner cache) (brings : BringsOwn owner cache payload fetched) :
    Bound owner (bindHelloKey cache (claimedFp payload) payload fetched clock).2 := by
  have kept : Bound owner (getCachedVerifyingKey cache (claimedFp payload) (clock 0)).2 :=
    bound.getCached
  cases cached : cachedKey cache (claimedFp payload) with
  | some vk =>
    have looked : (getCachedVerifyingKey cache (claimedFp payload) (clock 0)).1 = some vk :=
      getCachedVerifyingKey_fst.trans cached
    simp only [bindHelloKey]
    generalize getCachedVerifyingKey cache (claimedFp payload) (clock 0) = hit at looked kept
    obtain ⟨found, refreshed⟩ := hit
    cases looked
    exact kept
  | none =>
    have pinned : Bound owner (pinSenderKey cache (claimedFp payload) payload (clock 1)).2 :=
      bound.pinSender fun vk carries => brings cached vk (.inl carries)
    simp only [bindHelloKey, getCachedVerifyingKey_of_none cached]
    generalize pinSenderKey cache (claimedFp payload) payload (clock 1) = pin at pinned
    obtain ⟨result, after⟩ := pin
    cases result with
    | error e => exact pinned
    | ok _ =>
      have again : Bound owner (getCachedVerifyingKey after (claimedFp payload) (clock 2)).2 :=
        pinned.getCached
      simp only
      generalize getCachedVerifyingKey after (claimedFp payload) (clock 2) = hit at again
      obtain ⟨found, refreshed⟩ := hit
      cases found with
      | some vk => exact again
      | none =>
        cases fetched with
        | none => exact again
        | some vk => exact again.insert (brings cached vk (.inr rfl))

/-- A signature that passes under a bound cache is one of the owner, if it is no forgery. -/
theorem signed_of_passed {fp data sig : String} {now : Nat} (bound : Bound owner cache)
    (unforged : ∀ vk, owner (P.toUppercase fp) = some vk → Unforged vk data sig)
    (passed : (verifySignature cache data sig fp now).1 = true) :
    ∃ vk, owner (P.toUppercase fp) = some vk ∧ Genuine vk data sig := by
  obtain ⟨-, vk, cached, accepted⟩ := verifySignature_iff.mp passed
  have owned := bound.cached cached
  exact ⟨vk, owned, (genuine_iff_unforged (verifySignatureWithVerifyingKey_iff.mp accepted)).mpr
    (unforged vk owned)⟩

theorem Bound.receiveHello {J : SerdeJson} {helloText : String} {contacts : List String}
    {fetched : Option P.VerifyingKey} {clock : Nat → Nat} (bound : Bound owner cache)
    (brings : ∀ hello, J.fromStr helloText = .ok hello →
      BringsOwn owner cache (framePayload hello) fetched) :
    Bound owner (receiveHello J cache helloText contacts fetched clock).2 := by
  simp only [PeerHandshake.receiveHello]
  cases parsed : J.fromStr helloText with
  | error e => exact bound
  | ok hello =>
    have bind : Bound owner (bindHelloKey cache (claimedFp (framePayload hello))
      (framePayload hello) fetched clock).2 := bound.bindHello (brings hello parsed)
    simp only
    split_ifs
    · exact bound
    · exact bound
    · exact bound
    · split
      · rename_i after
        rwa [after] at bind
      · rename_i kept after
        rw [after] at bind
        have checked : Bound owner (verifySignature kept (helloSigPayload J (framePayload hello))
          (frameSig hello) (claimedFp (framePayload hello)) (clock 4)).2 := bind.verify
        split
        · rename_i result
          rwa [result] at checked
        · rename_i result
          rwa [result] at checked

theorem Bound.receiveMessage {J : SerdeJson} {peerFp text : String} {clock : Nat → Nat}
    (bound : Bound owner cache) :
    Bound owner (receiveMessage J cache peerFp text clock).2 := by
  have kept (data sig : String) :
      Bound owner (verifyFromPeer cache data sig peerFp clock).2 := by
    have looked : Bound owner (getCachedVerifyingKey cache peerFp (clock 0)).2 := bound.getCached
    simp only [verifyFromPeer]
    split
    · rename_i hit
      rwa [hit] at looked
    · rename_i hit
      rw [hit] at looked
      exact looked.verify
  simp only [PeerHandshake.receiveMessage]
  split
  · exact bound
  · rename_i msg parsed
    have checked := kept (msgSigPayload J (framePayload msg)) (frameSig msg)
    split_ifs
    · exact bound
    · exact bound
    · split
      · rename_i result
        rwa [result] at checked
      · rename_i result
        rwa [result] at checked

end

/-- The key that is used stands in the signed frame, streamed or not. -/
theorem ackKyberKey_inline (roundTrip : ∀ b, F.R.base64Decode (F.R.base64Encode b) = .ok b)
    {payload : Json} {exchange : Except String Bytes} {key : F.R.EncapsulationKey}
    (found : ackKyberKey F payload exchange = .ok key) :
    decodeEncKey F (inlineEk payload) = some key := by
  simp only [ackKyberKey] at found
  by_cases braid : braidFlag payload = true
  · cases exchange with
    | error e => simp [braid, braidedKey] at found
    | ok peerEkBytes =>
      cases decodes : F.R.base64Decode (inlineEk payload) with
      | error e => simp [braid, braidedKey, decodes] at found
      | ok inline =>
        by_cases same : peerEkBytes = inline
        · subst same
          simp only [braid, if_true, braidedKey, decodes, verifyPeerEkFromBytes, ne_eq,
            not_true_eq_false, if_false, decodeEncKey, roundTrip] at found ⊢
          split at found
          · cases found
          · cases found
          · rename_i taken
            cases found
            exact Except.ok.inj taken
        · simp only [braid, if_true, braidedKey, decodes, verifyPeerEkFromBytes, ne_eq, same,
            not_false_eq_true] at found
          split_ifs at found
  · simp only [braid, Bool.false_eq_true, if_false] at found
    split_ifs at found with inline
    · split at found
      · cases found
      · cases found
      · rename_i taken
        cases found
        exact Except.ok.inj taken

section

variable {me : Account F} {cache : KeyCache F.S} {store : Store} {recipientFp message : String}
  {ttl : Option String} {answers : Answers F}

/-- The frame was signed with the key the recipient has published. -/
def SignedBy (owner : String → Option F.S.VerifyingKey) (fp data sig : String) : Prop :=
  ∃ vk, owner (F.S.toUppercase fp) = some vk ∧ Genuine vk data sig

/-- All that is asked before a message goes out; the recipient is not in it. -/
structure Goes (cache : KeyCache F.S) (message : String) (answers : Answers F) (ack : Json) :
    Prop where
  answered : ∃ resp, answers.resp = some resp ∧ F.J.fromStr resp = .ok ack
  passes : AckPasses cache answers.clock ack
  keyed : ∃ key, ackKyberKey F (framePayload ack) answers.exchange = .ok key
  short : (asBytes message).length < 65536
  saved : answers.written = .ok ()

/-- A message that goes out does so with the key of an ack the recipient has signed. -/
def OnlyToRecipient (owner : String → Option F.S.VerifyingKey) (me : Account F)
    (cache : KeyCache F.S) (store : Store) (recipientFp message : String) (ttl : Option String)
    (answers : Answers F) : Prop :=
  ∀ sent, (sendToPeer F me cache store recipientFp message ttl answers).1 = .ok sent →
    ∃ resp ack key, answers.resp = some resp ∧ F.J.fromStr resp = .ok ack ∧
      SignedBy owner recipientFp (helloAckSigData F.J (framePayload ack)) (frameSig ack) ∧
      decodeEncKey F (inlineEk (framePayload ack)) = some key ∧
      (sendDirect F me.identity recipientFp message ttl key answers.draws answers.written
        store).1.result = .ok sent

/-- What was sent, it was sent with the key of the ack that passed. -/
theorem sendToPeer_ok {sent : DirectMessage}
    (went : (sendToPeer F me cache store recipientFp message ttl answers).1 = .ok sent) :
    ∃ resp ack key, answers.resp = some resp ∧ F.J.fromStr resp = .ok ack ∧
      AckPasses cache answers.clock ack ∧
      ackKyberKey F (framePayload ack) answers.exchange = .ok key ∧
      (sendDirect F me.identity recipientFp message ttl key answers.draws answers.written
        store).1.result = .ok sent := by
  simp only [sendToPeer] at went
  cases answered : answers.resp with
  | none =>
    simp only [answered] at went
    cases went
  | some resp =>
    simp only [answered] at went
    split at went
    · cases went
    · rename_i ackFp kept received
      obtain ⟨ack, parsed, passes, -⟩ := receiveHelloAck_iff.mp (congrArg Prod.fst received)
      rw [frameOf_of_ok parsed] at went
      split at went
      · cases went
      · rename_i key keyed
        refine ⟨resp, ack, key, rfl, parsed, passes, keyed, ?_⟩
        split at went
        · cases went
        · rename_i direct
          split at went
          · cases went
          · cases went
            rw [direct]

/-- Where AES-GCM seals and the account signs, nothing else keeps a message back. -/
theorem sendToPeer_of_goes
    (seals : ∀ key nonce pt, (F.R.aesEncrypt key nonce pt).isSome = true)
    (signs : ∀ data, ∃ sig, me.sign data = .ok sig) {ack : Json}
    (goes : Goes cache message answers ack) :
    ∃ sent, (sendToPeer F me cache store recipientFp message ttl answers).1 = .ok sent := by
  obtain ⟨⟨resp, answered, parsed⟩, passes, ⟨key, keyed⟩, short, saved⟩ := goes
  obtain ⟨sent, direct⟩ : ∃ sent, (sendDirect F me.identity recipientFp message ttl key
      answers.draws answers.written store).1.result = .ok sent :=
    (sendDirect_isOk_iff seals).mpr ⟨short, saved⟩
  have received : (receiveHelloAck F.J cache resp answers.clock).1 =
      .ok (claimedFp (framePayload ack)) := receiveHelloAck_iff.mpr ⟨ack, parsed, passes, rfl⟩
  simp only [sendToPeer, answered, frameOf_of_ok parsed]
  generalize receiveHelloAck F.J cache resp answers.clock = check at received
  obtain ⟨verdict, kept⟩ := check
  cases received
  simp only [keyed]
  generalize sendDirect F me.identity recipientFp message ttl key answers.draws answers.written
    store = result at direct
  obtain ⟨⟨outcome, used⟩, after⟩ := result
  cases direct
  obtain ⟨sig, signed⟩ := signs (msgSigPayload F.J sent.payload)
  simp only [signed]
  exact ⟨sent, rfl⟩

end

/-- A message goes only to its recipient exactly where every answer that passes is signed
by the recipient: being so signed is not among the checks. -/
theorem only_to_recipient_iff (owner : String → Option F.S.VerifyingKey)
    (roundTrip : ∀ b, F.R.base64Decode (F.R.base64Encode b) = .ok b)
    (seals : ∀ key nonce pt, (F.R.aesEncrypt key nonce pt).isSome = true) (me : Account F)
    (signs : ∀ data, ∃ sig, me.sign data = .ok sig) (cache : KeyCache F.S) (store : Store)
    (recipientFp message : String) (ttl : Option String) (answers : Answers F) :
    OnlyToRecipient owner me cache store recipientFp message ttl answers ↔
      ∀ ack, Goes cache message answers ack →
        SignedBy owner recipientFp (helloAckSigData F.J (framePayload ack)) (frameSig ack) := by
  constructor
  · intro only ack goes
    obtain ⟨sent, went⟩ := sendToPeer_of_goes seals signs goes
    obtain ⟨resp, other, key, answered, parsed, signed, -, -⟩ := only sent went
    obtain ⟨resp', answered', parsed'⟩ := goes.answered
    rw [answered] at answered'
    cases answered'
    rw [parsed] at parsed'
    cases parsed'
    exact signed
  · intro signed sent went
    obtain ⟨resp, ack, key, answered, parsed, passes, keyed, direct⟩ := sendToPeer_ok went
    obtain ⟨short, saved⟩ := (sendDirect_isOk_iff seals).mp ⟨sent, direct⟩
    exact ⟨resp, ack, key, answered, parsed,
      signed ack ⟨⟨resp, answered, parsed⟩, passes, ⟨key, keyed⟩, short, saved⟩,
      ackKyberKey_inline roundTrip keyed, direct⟩

def bobFp : String := "BBBBBBBBBBBBBBBBBBBBBBBBBBBBBBBBBBBBBBBB"

def malloryFp : String := "CCCCCCCCCCCCCCCCCCCCCCCCCCCCCCCCCCCCCCCC"

def published (fp : String) : Option UInt8 :=
  if fp = bobFp then some 66 else if fp = malloryFp then some 77 else none

def keyB64 (key : UInt8) : String := String.ofList [Char.ofUInt8 key]

def ackOf (fp : String) (key : UInt8) : Json :=
  let payload := helloAckPayload fp "k" "challenge" (keyB64 key)
  wireFrame "p2p-hello-ack" "1" 0 payload
    (sumSign key ("p2p-hello-ack:" ++ compact payload ++ "\n"))

def alice (known : List Json) : Account (smallPlatform known) where
  identity := ⟨"AAAAAAAAAAAAAAAAAAAAAAAAAAAAAAAAAAAAAAAA", "NN-a"⟩
  kyber := ⟨(3 : UInt8), (3 : UInt8)⟩
  verifyingKeyB64 := keyB64 65
  sign data := .ok (sumSign 65 data)

def answeredWith (ack : Json) : Answers (smallPlatform [ack]) where
  resp := some (compact ack)
  exchange := .ok [107]
  draws := smallDraws [ack] 4
  written := .ok ()
  clock := id

theorem exists_of_isOk {ε α : Type} {result : Except ε α} (isOk : result.isOk = true) :
    ∃ value, result = .ok value := by
  cases result with
  | error e => cases isOk
  | ok value => exact ⟨value, rfl⟩

theorem eq_ok_of_toOption {ε α : Type} {result : Except ε α} {value : α}
    (some : result.toOption = some value) : result = .ok value := by
  cases result with
  | error e => cases some
  | ok value => exact congrArg Except.ok (Option.some.inj some)

theorem answeredWith_parsed {ack parsed : Json} {resp : String}
    (answered : (answeredWith ack).resp = some resp)
    (reads : (smallPlatform [ack]).J.fromStr resp = .ok parsed) : parsed = ack := by
  cases answered
  exact Except.ok.inj (reads.symm.trans (knownJson_fromStr ack []))

theorem signedBy_ackOf {fp : String} {key : UInt8} {recipientFp : String} :
    SignedBy (F := smallPlatform [ackOf fp key]) published recipientFp
        (helloAckSigData (knownJson [ackOf fp key]) (framePayload (ackOf fp key)))
        (frameSig (ackOf fp key)) ↔
      published (sumScheme.toUppercase recipientFp) = some key := by
  constructor
  · rintro ⟨vk, owned, genuine⟩
    exact (genuine_sumSign_iff.mp genuine) ▸ owned
  · intro owned
    exact ⟨key, owned, genuine_sumSign_iff.mpr rfl⟩

/-- Bob answers, and a message to him goes out. -/
theorem only_to_recipient_iff_bob :
    (sendToPeer (smallPlatform [ackOf bobFp 66]) (alice _) ∅ (.empty [1]) bobFp "hello" none
        (answeredWith (ackOf bobFp 66))).1.isOk = true ∧
      OnlyToRecipient (F := smallPlatform [ackOf bobFp 66]) published (alice _) ∅ (.empty [1])
        bobFp "hello" none (answeredWith (ackOf bobFp 66)) := by
  refine ⟨by decide +kernel, ?_⟩
  refine (only_to_recipient_iff (F := smallPlatform [ackOf bobFp 66]) published
    latin1Decode_encode (fun _ _ _ => rfl) (alice _) (fun _ => ⟨_, rfl⟩) ∅ (.empty [1]) bobFp
    "hello" none (answeredWith (ackOf bobFp 66))).mpr ?_
  intro ack goes
  obtain ⟨resp, answered, parsed⟩ := goes.answered
  rw [answeredWith_parsed answered parsed]
  exact signedBy_ackOf.mpr (by decide +kernel)

/-- With Bob's own key in the cache, a message to him goes to the party that answers in
his place with its own name, its own keys and its own signature. -/
theorem message_goes_to_stranger :
    Bound (P := sumScheme) published (cacheVerifyingKey ∅ bobFp (66 : UInt8) 0) ∧
      SignedBy (F := smallPlatform [ackOf malloryFp 77]) published malloryFp
        (helloAckSigData (knownJson [ackOf malloryFp 77]) (framePayload (ackOf malloryFp 77)))
        (frameSig (ackOf malloryFp 77)) ∧
      ¬ OnlyToRecipient (F := smallPlatform [ackOf malloryFp 77]) published (alice _)
        (cacheVerifyingKey (P := sumScheme) ∅ bobFp (66 : UInt8) 0) (.empty [1]) bobFp "hello" none
        (answeredWith (ackOf malloryFp 77)) := by
  have owned : published (sumScheme.toUppercase bobFp) = some (66 : UInt8) := by decide +kernel
  refine ⟨bound_empty.insert owned, signedBy_ackOf.mpr (by decide +kernel), ?_⟩
  · intro only
    have isOk : (sendToPeer (smallPlatform [ackOf malloryFp 77]) (alice _)
        (cacheVerifyingKey (P := sumScheme) ∅ bobFp (66 : UInt8) 0) (.empty [1]) bobFp "hello" none
        (answeredWith (ackOf malloryFp 77))).1.isOk = true := by decide +kernel
    obtain ⟨sent, went⟩ := exists_of_isOk isOk
    obtain ⟨resp, ack, key, answered, parsed, signed, -, -⟩ := only sent went
    rw [answeredWith_parsed answered parsed] at signed
    exact absurd (signedBy_ackOf.mp signed) (by decide +kernel)

section

variable {owner : String → Option F.S.VerifyingKey} {me : Account F} {cache : KeyCache F.S}
  {store : Store} {c : Incoming F}

/-- One connection after the other, in one process. -/
def step (me : Account F) (s : KeyCache F.S × Store) (c : Incoming F) :
    Except String ReadMessage × KeyCache F.S × Store := readIncoming F me s.1 s.2 c

/-- What a connection brings is its owner's: the key for a fingerprint without one, and
the signatures, if they decode. -/
structure FromOwner (owner : String → Option F.S.VerifyingKey) (s : KeyCache F.S × Store)
    (c : Incoming F) : Prop where
  brings : ∀ hello, F.J.fromStr c.helloText = .ok hello →
    BringsOwn owner s.1 (framePayload hello) c.fetched
  hello : ∀ hello vk, F.J.fromStr c.helloText = .ok hello →
    owner (F.S.toUppercase (claimedFp (framePayload hello))) = some vk →
      Unforged vk (helloSigPayload F.J (framePayload hello)) (frameSig hello)
  message : ∀ hello text msg vk, F.J.fromStr c.helloText = .ok hello →
    c.frames.find? (isMessage F.J) = some text → F.J.fromStr text = .ok msg →
    owner (F.S.toUppercase (claimedFp (framePayload hello))) = some vk →
      Unforged vk (msgSigPayload F.J (framePayload msg)) (frameSig msg)

/-- A message that is printed was signed by the owner of the fingerprint it is printed
with, and so was the hello before it. -/
def PrintedFromOwner (owner : String → Option F.S.VerifyingKey) (me : Account F)
    (s : KeyCache F.S × Store) (c : Incoming F) : Prop :=
  ∀ read, (step me s c).1 = .ok read → ∃ hello text msg,
    F.J.fromStr c.helloText = .ok hello ∧ c.frames.find? (isMessage F.J) = some text ∧
      F.J.fromStr text = .ok msg ∧
      SignedBy owner read.printed.peerFp (helloSigPayload F.J (framePayload hello))
        (frameSig hello) ∧
      SignedBy owner read.printed.peerFp (msgSigPayload F.J (framePayload msg)) (frameSig msg)

/-- The cache after a connection is the one after its hello, or after its message. -/
theorem readIncoming_cache (me : Account F) (cache : KeyCache F.S) (store : Store)
    (c : Incoming F) :
    (readIncoming F me cache store c).2.1 = (acceptHello F me cache c).2 ∨
      ∃ peerFp text, (readIncoming F me cache store c).2.1 =
        (receiveMessage F.J (acceptHello F me cache c).2 peerFp text
          fun i => c.clock (5 + i)).2 := by
  simp only [readIncoming]
  generalize acceptHello F me cache c = accepted
  obtain ⟨result, kept⟩ := accepted
  cases result with
  | error e => exact .inl rfl
  | ok peer =>
    obtain ⟨peerFp, peerKyber⟩ := peer
    simp only
    cases c.frames.find? (isMessage F.J) with
    | none => exact .inl rfl
    | some text =>
      refine .inr ⟨peerFp, text, ?_⟩
      simp only
      generalize receiveMessage F.J kept peerFp text (fun i => c.clock (5 + i)) = received
      obtain ⟨verdict, after⟩ := received
      cases verdict with
      | none => rfl
      | some verdict =>
        cases verdict with
        | error e => rfl
        | ok _ =>
          simp only
          split
          · rfl
          · split <;> rfl

theorem step_bound {s : KeyCache F.S × Store} (bound : Bound owner s.1)
    (own : FromOwner owner s c) : Bound owner (step me s c).2.1 := by
  have greeted : Bound owner (acceptHello F me s.1 c).2 := by
    rw [acceptHello_cache]
    exact bound.receiveHello own.brings
  rcases readIncoming_cache me s.1 s.2 c with same | ⟨peerFp, text, same⟩
  · rw [step, same]
    exact greeted
  · rw [step, same]
    exact greeted.receiveMessage

theorem printed_of_own {s : KeyCache F.S × Store} (bound : Bound owner s.1)
    (own : FromOwner owner s c) : PrintedFromOwner owner me s c := by
  intro read done
  obtain ⟨peerFp, peerKyber, text, padded, plaintext, accepted, found, received, -, -, rfl⟩ :=
    readIncoming_iff.mp done
  obtain ⟨hello, parsed, named, passed⟩ := receiveHello_ok (acceptHello_iff.mp accepted).1
  obtain ⟨msg, also, verified⟩ := receiveMessage_ok received
  obtain ⟨vk, cached, readable⟩ := verifyFromPeer_iff.mp verified
  have greeted : Bound owner (acceptHello F me s.1 c).2 := by
    rw [acceptHello_cache]
    exact bound.receiveHello own.brings
  have owned := greeted.cached cached
  refine ⟨hello, text, msg, parsed, found, also, ?_, vk, owned, ?_⟩
  · rw [named]
    exact signed_of_passed (bound.bindHello (own.brings hello parsed))
      (fun vk owned => own.hello hello vk parsed owned) passed
  · rw [named] at owned
    exact (genuine_iff_unforged (verifySignatureWithVerifyingKey_iff.mp readable)).mpr
      (own.message hello text msg vk parsed found also owned)

end

open Mealy in
/-- In a run whose connections all bring what is their owner's, whoever comes first, every
message is printed as coming from the one who signed it. -/
theorem printed_where_own (owner : String → Option F.S.VerifyingKey) (me : Account F)
    (store : Store) (connections : List (Incoming F))
    (own : Along (step me) (FromOwner owner) (∅, store) connections) :
    Along (step me) (PrintedFromOwner owner me) (∅, store) connections := by
  refine along_of_invariant (fun s => Bound owner s.1) ?_ ?_ bound_empty own
  · intro s c bound own
    exact step_bound bound own
  · intro s c bound own
    exact printed_of_own bound own

def helloOf (fp : String) (key : UInt8) : Json :=
  let payload := helloPayload fp "k" "" (keyB64 key)
  wireFrame "p2p-hello" "1" 0 payload (sumSign key ("p2p-hello:" ++ compact payload ++ "\n"))

/-- The ciphertext and the secret of a session with Alice. -/
def opening : MlKem1024Ciphertext × MlKem1024SharedSecret :=
  checksumPrimitives.encapsulate (3 : UInt8) (4 : UInt8)

/-- A greeting in that session, without padding. -/
def greeting (fp : String) : Bytes :=
  let session := started checksumPrimitives "AAAAAAAAAAAAAAAAAAAAAAAAAAAAAAAAAAAAAAAA" "" fp true
    false opening.2.val
  (encryptFirst checksumPrimitives session "006869" checksumNonce).1.toOption.getD []

def firstPayload (ciphertext initKyberCt : String) : Json :=
  .object [("ciphertext", .string ciphertext), ("init_kyber_ct", .string initKyberCt),
    ("msg_hash", .string "h"), ("seq", .number (.posInt 0))]

def messageOf (fp : String) (key : UInt8) : Json :=
  let payload := firstPayload (latin1Encode (greeting fp)) (latin1Encode opening.1.val)
  wireFrame "p2p-message" "2" 0 payload
    (sumSign key ("p2p-message:" ++ compact (signedInner payload)))

/-- A call with one hello and one message. -/
def callOf (hello message : Json) : Incoming (smallPlatform [message, hello]) where
  helloText := compact hello
  frames := [compact message]
  exchange := .ok [107]
  coins := (4 : UInt8)
  serverChallenge := "challenge"
  contacts := [bobFp]
  fetched := none
  written := .ok ()
  clock := id

theorem callOf_hello {hello message parsed : Json} (differ : compact message ≠ compact hello)
    (reads : (smallPlatform [message, hello]).J.fromStr (callOf hello message).helloText =
      .ok parsed) : parsed = hello :=
  Except.ok.inj (reads.symm.trans (knownJson_fromStr_second hello [] differ))

theorem callOf_message {hello message parsed : Json} {text : String}
    (found : (callOf hello message).frames.find? (isMessage (smallPlatform [message, hello]).J) =
      some text)
    (reads : (smallPlatform [message, hello]).J.fromStr text = .ok parsed) : parsed = message := by
  obtain rfl := List.mem_singleton.mp (List.mem_of_find?_eq_some found)
  exact Except.ok.inj (reads.symm.trans (knownJson_fromStr message [hello]))

theorem callOf_printed {hello message : Json} {peerKyber : Option UInt8} {padded plaintext : String}
    (differ : compact message ≠ compact hello)
    (passes : HelloPasses (P := sumScheme) ∅ [bobFp] none id hello)
    (unsealed : checkSealedIdentity (smallPlatform [message, hello]) (alice _).toParty
      (claimedFp (framePayload hello)) (framePayload hello) = .ok ())
    (keyed : helloKyberKey (smallPlatform [message, hello]) (framePayload hello) (.ok [107]) =
      .ok peerKyber)
    (alsoPasses : MessagePasses (receiveHello (P := sumScheme) (knownJson [message, hello]) ∅
      (compact hello) [bobFp] none id).2 (claimedFp (framePayload hello)) message)
    (decrypted : (decryptDirect (smallPlatform [message, hello]) (alice [message, hello]).identity
      (claimedFp (framePayload hello)) (alice [message, hello]).kyber peerKyber (4 : UInt8)
      (framePayload message) (.ok ()) (.empty [1])).1.result = .ok padded)
    (unpadded : unpadMessageBucket (smallPlatform []).lossy (smallPlatform []).hexError padded =
      .ok plaintext) :
    ∃ read, (step (alice _) (∅, .empty [1]) (callOf hello message)).1 = .ok read ∧
      read.printed.peerFp = claimedFp (framePayload hello) := by
  have parsedHello : (knownJson [message, hello]).fromStr (compact hello) = .ok hello :=
    knownJson_fromStr_second hello [] differ
  have parsedMessage : (knownJson [message, hello]).fromStr (compact message) = .ok message :=
    knownJson_fromStr message [hello]
  have found : [compact message].find? (isMessage (knownJson [message, hello])) =
      some (compact message) := by
    have isMessage : isMessage (knownJson [message, hello]) (compact message) = true := by
      rw [PeerConnection.isMessage, parsedMessage]
      exact beq_iff_eq.mpr alsoPasses.kind
    rw [List.find?_cons, isMessage]
  have greeted : frameOf (smallPlatform [message, hello]).J (callOf hello message).helloText =
    hello := frameOf_of_ok parsedHello
  have told : frameOf (smallPlatform [message, hello]).J (compact message) = message :=
    frameOf_of_ok parsedMessage
  refine ⟨_, readIncoming_iff.mpr ⟨claimedFp (framePayload hello), peerKyber, compact message,
    padded, plaintext, acceptHello_iff.mpr ⟨?_, ?_, ⟨_, rfl⟩, ?_⟩, found, ?_, ?_, unpadded, rfl⟩,
    rfl⟩
  · exact receiveHello_iff.mpr ⟨hello, parsedHello, passes, rfl⟩
  · rw [greeted]
    exact unsealed
  · rw [greeted]
    exact keyed
  · rw [acceptHello_cache]
    exact receiveMessage_iff.mpr ⟨message, parsedMessage, alsoPasses⟩
  · rw [told]
    exact decrypted

/-- A first message is read with the session it opens. -/
theorem firstPayload_read (roundTrip : ∀ b, F.R.base64Decode (F.R.base64Encode b) = .ok b)
    (me : Party F) (peerFp : String) (store : Store)
    (missing : loadSession F.S store (nullId F.S peerFp) = none)
    (peerKyber : Option F.R.EncapsulationKey) (coins : F.R.Coins) (ct : MlKem1024Ciphertext)
    {ciphertext padded : String}
    (decrypts : (decryptMessage F.R (started F.R peerFp (nullId F.S peerFp)
      me.identity.fingerprint false false (F.R.decapsulate me.kyber.dec ct).val) ciphertext
      me.kyber 0).1 = .ok padded) :
    (decryptDirect F me.identity peerFp me.kyber peerKyber coins
      (firstPayload ciphertext (F.R.base64Encode ct.val)) (.ok ()) store).1.result =
        .ok padded := by
  have carried : strField (firstPayload ciphertext (F.R.base64Encode ct.val)) "init_kyber_ct" =
    some (F.R.base64Encode ct.val) := rfl
  have agreed : initSharedSecret F me.kyber peerKyber coins
      (firstPayload ciphertext (F.R.base64Encode ct.val)) =
        .ok (F.R.decapsulate me.kyber.dec ct) := by
    simp only [initSharedSecret, carried, roundTrip, ciphertextTryFrom_val]
  have text : (strField (firstPayload ciphertext (F.R.base64Encode ct.val)) "ciphertext").getD "" =
    ciphertext := rfl
  have number : messageSeq (firstPayload ciphertext (F.R.base64Encode ct.val)) = 0 := rfl
  simp only [decryptDirect, incomingSession_of_none missing agreed, text, number]
  generalize decryptMessage F.R _ ciphertext me.kyber 0 = result at decrypts ⊢
  obtain ⟨padded, after⟩ := result
  cases decrypts
  rfl

theorem greeting_decrypted :
    (decryptMessage checksumPrimitives (started checksumPrimitives bobFp (nullId sumScheme bobFp)
      "AAAAAAAAAAAAAAAAAAAAAAAAAAAAAAAAAAAAAAAA" false false
      (checksumPrimitives.decapsulate (3 : UInt8) opening.1).val) (latin1Encode (greeting bobFp))
      ⟨(3 : UInt8), (3 : UInt8)⟩ 0).1.toOption = some "006869" := by
  decide +kernel

theorem texts_differ (fp : String) (key : UInt8) :
    compact (messageOf fp key) ≠ compact (helloOf fp key) :=
  compact_wireFrame_ne _ _ _ _ _ _ _ _

theorem parsed_helloOf (fp : String) (key : UInt8) :
    (knownJson [messageOf fp key, helloOf fp key]).fromStr (compact (helloOf fp key)) =
      .ok (helloOf fp key) :=
  knownJson_fromStr_second _ [] (texts_differ fp key)

theorem helloOf_passes {key : UInt8}
    (known : (helloKey (P := sumScheme) ∅ (framePayload (helloOf bobFp key)) none id).isSome =
      true) :
    HelloPasses (P := sumScheme) ∅ [bobFp] none id (helloOf bobFp key) where
  kind := rfl
  gate := .inl (List.mem_singleton.mpr rfl)
  signed := by
    rw [helloOf, frameSig_wireFrame]
    exact sumSign_ne_empty _ _
  valid := by
    rw [helloOf, framePayload_wireFrame, claimedFp_helloPayload]
    decide +kernel
  known := known
  readable := by
    rw [helloOf, frameSig_wireFrame, decoded_sumSign]
    rfl

/-- A message that follows a hello in Bob's name is printed in his. -/
theorem signedWith_printed {key : UInt8}
    (known : (helloKey (P := sumScheme) ∅ (framePayload (helloOf bobFp key)) none id).isSome =
      true) :
    ∃ read, (step (alice _) (∅, .empty [1])
        (callOf (helloOf bobFp key) (messageOf bobFp key))).1 = .ok read ∧
      read.printed.peerFp = bobFp := by
  have passes := helloOf_passes known
  have kept : (cachedKey (receiveHello (P := sumScheme)
      (knownJson [messageOf bobFp key, helloOf bobFp key]) ∅ (compact (helloOf bobFp key)) [bobFp]
      none id).2 (claimedFp (framePayload (helloOf bobFp key)))).isSome = true := by
    rwa [cachedKey_receiveHello (parsed_helloOf bobFp key) passes]
  have signed : frameSig (messageOf bobFp key) ≠ "" := by
    rw [messageOf, frameSig_wireFrame]
    exact sumSign_ne_empty _ _
  have decrypted : (decryptMessage checksumPrimitives (started checksumPrimitives bobFp
      (nullId sumScheme bobFp) "AAAAAAAAAAAAAAAAAAAAAAAAAAAAAAAAAAAAAAAA" false false
      (checksumPrimitives.decapsulate (3 : UInt8) opening.1).val) (latin1Encode (greeting bobFp))
      ⟨(3 : UInt8), (3 : UInt8)⟩ 0).1 = .ok "006869" := by
    exact eq_ok_of_toOption greeting_decrypted
  have payload : framePayload (messageOf bobFp key) =
      firstPayload (latin1Encode (greeting bobFp)) (latin1Encode opening.1.val) := by
    rw [messageOf, framePayload_wireFrame]
  have readable : (decoded (P := sumScheme) (frameSig (messageOf bobFp key))).isSome = true := by
    rw [messageOf, frameSig_wireFrame, decoded_sumSign]
    rfl
  have inline : latin1Decode "k" = .ok [107] := eq_ok_of_toOption (by decide +kernel)
  have keyed : helloKyberKey (smallPlatform [messageOf bobFp key, helloOf bobFp key])
      (framePayload (helloOf bobFp key)) (.ok [107]) = .ok (some (107 : UInt8)) := by
    refine helloKyberKey_streamed (F := smallPlatform _) latin1Decode_encode ?_ ?_ rfl
    · rw [helloOf, framePayload_wireFrame, braidFlag_helloPayload]
    · rw [helloOf, framePayload_wireFrame, inlineEk_helloPayload]
      exact inline
  have unpadded : unpadMessageBucket (smallPlatform []).lossy (smallPlatform []).hexError
      "006869" = .ok "hi" := by decide +kernel
  refine callOf_printed (texts_differ bobFp key) passes rfl keyed
    ⟨rfl, signed, kept, readable⟩ ?_ unpadded
  have named : claimedFp (framePayload (helloOf bobFp key)) = bobFp := by
    rw [helloOf, framePayload_wireFrame, claimedFp_helloPayload]
  rw [payload, named]
  have read := firstPayload_read (F := smallPlatform [messageOf bobFp key, helloOf bobFp key])
    latin1Decode_encode (alice _).toParty bobFp (.empty [1]) rfl (some (107 : UInt8)) (4 : UInt8)
    opening.1 decrypted
  rw [show (smallPlatform [messageOf bobFp key, helloOf bobFp key]).R.base64Encode =
    latin1Encode from rfl] at read
  exact read

theorem bob_printed : ∃ read, (step (alice _) (∅, .empty [1])
      (callOf (helloOf bobFp 66) (messageOf bobFp 66))).1 = .ok read ∧
    read.printed.peerFp = bobFp :=
  signedWith_printed (by decide +kernel)

theorem mallory_printed : ∃ read, (step (alice _) (∅, .empty [1])
      (callOf (helloOf bobFp 77) (messageOf bobFp 77))).1 = .ok read ∧
    read.printed.peerFp = bobFp :=
  signedWith_printed (by decide +kernel)

/-- What a caller in Bob's name has signed is signed with its own key. -/
theorem genuine_helloOf {known : List Json} {vk key : UInt8} :
    Genuine (P := sumScheme) vk
        (helloSigPayload (smallPlatform known).J (framePayload (helloOf bobFp key)))
        (frameSig (helloOf bobFp key)) ↔ vk = key := by
  rw [helloOf, framePayload_wireFrame, frameSig_wireFrame]
  exact genuine_sumSign_iff

theorem genuine_messageOf {known : List Json} {vk key : UInt8} :
    Genuine (P := sumScheme) vk
        (msgSigPayload (smallPlatform known).J (framePayload (messageOf bobFp key)))
        (frameSig (messageOf bobFp key)) ↔ vk = key := by
  rw [messageOf, framePayload_wireFrame, frameSig_wireFrame]
  exact genuine_sumSign_iff

theorem own_call : FromOwner (F := smallPlatform [messageOf bobFp 66, helloOf bobFp 66]) published
    (∅, .empty [1]) (callOf (helloOf bobFp 66) (messageOf bobFp 66)) := by
  have owned : published (sumScheme.toUppercase bobFp) = some (66 : UInt8) := by decide +kernel
  have same {vk : UInt8} (publishes : published (sumScheme.toUppercase
      (claimedFp (framePayload (helloOf bobFp 66)))) = some vk) : vk = 66 := by
    rw [helloOf, framePayload_wireFrame, claimedFp_helloPayload, owned] at publishes
    exact (Option.some.inj publishes).symm
  have carries : senderVerifyingKey (P := sumScheme) (framePayload (helloOf bobFp 66)) =
    some (66 : UInt8) := rfl
  refine ⟨?_, ?_, ?_⟩
  · intro hello reads
    rw [callOf_hello (texts_differ bobFp 66) reads]
    rintro - vk (carried | none)
    · rw [← Option.some.inj (carries.symm.trans carried), helloOf, framePayload_wireFrame,
        claimedFp_helloPayload]
      exact owned
    · cases none
  · intro hello vk reads publishes
    rw [callOf_hello (texts_differ bobFp 66) reads] at publishes ⊢
    rw [same publishes]
    exact (genuine_helloOf.mpr rfl).unforged
  · intro hello text msg vk reads found also publishes
    rw [callOf_hello (texts_differ bobFp 66) reads] at publishes
    rw [callOf_message found also, same publishes]
    exact (genuine_messageOf.mpr rfl).unforged

/-- Bob calls, with the key he has published. -/
theorem printed_where_own_bob :
    (∃ read, (step (alice _) (∅, .empty [1])
        (callOf (helloOf bobFp 66) (messageOf bobFp 66))).1 = .ok read ∧
      read.printed.peerFp = bobFp) ∧
      PrintedFromOwner published (alice _) (∅, .empty [1])
        (callOf (helloOf bobFp 66) (messageOf bobFp 66)) :=
  ⟨bob_printed, (printed_where_own published (alice _) (.empty [1])
    [callOf (helloOf bobFp 66) (messageOf bobFp 66)] ⟨own_call, trivial⟩).1⟩

/-- Whoever calls first in Bob's name, with a key of its own, is taken for Bob. -/
theorem stranger_printed_as_bob :
    ¬ Mealy.Along (step (alice _)) (PrintedFromOwner published (alice _)) (∅, .empty [1])
      [callOf (helloOf bobFp 77) (messageOf bobFp 77)] := by
  intro along
  obtain ⟨read, done, named⟩ := mallory_printed
  obtain ⟨hello, text, msg, reads, -, -, ⟨vk, owned, genuine⟩, -⟩ := along.1 read done
  rw [callOf_hello (texts_differ bobFp 77) reads] at genuine
  rw [named] at owned
  have foreign : ¬ published (sumScheme.toUppercase bobFp) = some (77 : UInt8) := by decide +kernel
  rw [genuine_helloOf.mp genuine] at owned
  exact foreign owned

end PeerIdentity

import AddMessenger.Protocol
import AddMessenger.Signatures

/-!
# The signed frames between two clients

The three places of `client/src/main.rs` where a client takes a peer's frame: the
hello and the message in `handle_incoming_connection`, the hello-ack in
`send_message`. Each is modelled up to its signature check; what follows, the key
exchange and the ratchet, is not part of it.

The contact list, the key the DHT returns and the clock are arguments.
-/

namespace PeerHandshake

open Protocol Signatures

def reflectorFingerprint : String := "3957378550B111F2678DC1B4A58C27B22091D5CF"

def isPublicServiceFingerprint (fp : String) : Bool := [reflectorFingerprint].contains fp

variable {P : Primitives}

/-- The `msg_type` field, or else the field `type`. -/
def frameType (frame : Json) : Option String :=
  ((frame.get "msg_type").or (frame.get "type")).bind Json.asStr

def framePayload (frame : Json) : Json := (frame.get "payload").getD .null

def frameSig (frame : Json) : String := ((frame.get "sig").bind Json.asStr).getD ""

/-- The fingerprint a hello or an ack claims. -/
def claimedFp (payload : Json) : String :=
  ((payload.get "public_key").bind Json.asStr).getD "unknown"

def senderVerifyingKey (payload : Json) : Option P.VerifyingKey :=
  (((payload.get "sender_verifying_key").bind Json.asStr).bind P.base64Decode).bind fun bytes =>
    (decodeVerifyingKey P bytes).toOption

/-- Pin the key the payload carries, if it carries one. -/
def pinSenderKey (cache : KeyCache P) (fp : String) (payload : Json) (now : Nat) :
    Except String Unit × KeyCache P :=
  match senderVerifyingKey payload with
  | none => (.ok (), cache)
  | some vk =>
    match pinVerifyingKey cache fp vk now with
    | (.error e, cache) => (.error e, cache)
    | (.ok _, cache) => (.ok (), cache)

/-- The sender of an ack is pinned on first sight. -/
def bindAckKey (cache : KeyCache P) (fp : String) (payload : Json) (clock : Nat → Nat) :
    Except String Unit × KeyCache P :=
  match getCachedVerifyingKey cache fp (clock 0) with
  | (some _, cache) => (.ok (), cache)
  | (none, cache) => pinSenderKey cache fp payload (clock 1)

/-- The sender of a hello is pinned on first sight, or else looked up in the DHT. -/
def bindHelloKey (cache : KeyCache P) (fp : String) (payload : Json)
    (fetched : Option P.VerifyingKey) (clock : Nat → Nat) : Except String Unit × KeyCache P :=
  match getCachedVerifyingKey cache fp (clock 0) with
  | (some _, cache) => (.ok (), cache)
  | (none, cache) =>
    match pinSenderKey cache fp payload (clock 1) with
    | (.error e, cache) => (.error e, cache)
    | (.ok (), cache) =>
      match getCachedVerifyingKey cache fp (clock 2), fetched with
      | (none, cache), some vk => (.ok (), cacheVerifyingKey cache fp vk (clock 3))
      | (_, cache), _ => (.ok (), cache)

def helloSigPayload (J : SerdeJson) (payload : Json) : String :=
  "p2p-hello:" ++ J.display payload ++ "\n"

/-- The peer's fingerprint, if its hello is accepted. -/
def receiveHello (J : SerdeJson) (cache : KeyCache P) (helloText : String)
    (contacts : List String) (fetched : Option P.VerifyingKey) (clock : Nat → Nat) :
    Except String String × KeyCache P :=
  match J.fromStr helloText with
  | .error e => (.error e, cache)
  | .ok hello =>
    let payload := framePayload hello
    let peerFp := claimedFp payload
    if frameType hello ≠ some "p2p-hello" then (.error "expected p2p-hello", cache)
    else if !contacts.contains peerFp && !isPublicServiceFingerprint peerFp then
      (.error ("inbound hello from " ++ peerFp ++
        " rejected — not in contact list (mutual-consent gate)"), cache)
    else if frameSig hello = "" then
      (.error "p2p-hello has no signature — rejecting (MITM risk)", cache)
    else
      match bindHelloKey cache peerFp payload fetched clock with
      | (.error e, cache) =>
        (.error ("p2p-hello identity binding conflict for " ++ peerFp ++ ": " ++ e), cache)
      | (.ok (), cache) =>
        match verifySignature cache (helloSigPayload J payload) (frameSig hello) peerFp
            (clock 4) with
        | (false, cache) =>
          (.error ("p2p-hello signature verification failed for " ++ peerFp), cache)
        | (true, cache) => (.ok peerFp, cache)

theorem receiveHello_ok {J : SerdeJson} {cache : KeyCache P} {helloText peerFp : String}
    {contacts : List String} {fetched : Option P.VerifyingKey} {clock : Nat → Nat}
    (accepted : (receiveHello J cache helloText contacts fetched clock).1 = .ok peerFp) :
    ∃ hello, J.fromStr helloText = .ok hello ∧ peerFp = claimedFp (framePayload hello) ∧
      (verifySignature (bindHelloKey cache (claimedFp (framePayload hello)) (framePayload hello)
        fetched clock).2 (helloSigPayload J (framePayload hello)) (frameSig hello)
        (claimedFp (framePayload hello)) (clock 4)).1 = true := by
  simp only [receiveHello] at accepted
  split at accepted
  · exact nomatch accepted
  · rename_i hello parsed
    refine ⟨hello, parsed, ?_⟩
    split at accepted
    · exact nomatch accepted
    · split at accepted
      · exact nomatch accepted
      · split at accepted
        · exact nomatch accepted
        · split at accepted
          · exact nomatch accepted
          · rename_i bound
            split at accepted
            · exact nomatch accepted
            · rename_i passed
              rw [bound, passed]
              exact ⟨(Except.ok.inj accepted).symm, rfl⟩

def helloAckSigData (J : SerdeJson) (payload : Json) : String :=
  "p2p-hello-ack:" ++ J.display payload ++ "\n"

/-- The check of the answer to our hello. -/
def receiveHelloAck (J : SerdeJson) (cache : KeyCache P) (resp : String) (clock : Nat → Nat) :
    Except String String × KeyCache P :=
  match J.fromStr resp with
  | .error e => (.error e, cache)
  | .ok ack =>
    let payload := framePayload ack
    let ackFp := claimedFp payload
    if frameType ack ≠ some "p2p-hello-ack" then
      (.error ("Unexpected response: " ++ resp), cache)
    else if frameSig ack = "" then
      (.error "p2p-hello-ack has no signature — rejecting (MITM risk)", cache)
    else
      match bindAckKey cache ackFp payload clock with
      | (.error e, cache) =>
        (.error ("p2p-hello-ack identity binding conflict for " ++ ackFp ++ ": " ++ e), cache)
      | (.ok (), cache) =>
        match verifySignature cache (helloAckSigData J payload) (frameSig ack) ackFp (clock 2) with
        | (false, cache) =>
          (.error ("p2p-hello-ack signature verification failed for " ++ ackFp ++
            " — possible MITM"), cache)
        | (true, cache) => (.ok ackFp, cache)

theorem receiveHelloAck_ok {J : SerdeJson} {cache : KeyCache P} {resp ackFp : String}
    {clock : Nat → Nat} (accepted : (receiveHelloAck J cache resp clock).1 = .ok ackFp) :
    ∃ ack, J.fromStr resp = .ok ack ∧
      (verifySignature (bindAckKey cache (claimedFp (framePayload ack)) (framePayload ack) clock).2
        (helloAckSigData J (framePayload ack)) (frameSig ack)
        (claimedFp (framePayload ack)) (clock 2)).1 = true := by
  simp only [receiveHelloAck] at accepted
  split at accepted
  · exact nomatch accepted
  · rename_i ack parsed
    refine ⟨ack, parsed, ?_⟩
    split at accepted
    · exact nomatch accepted
    · split at accepted
      · exact nomatch accepted
      · split at accepted
        · exact nomatch accepted
        · rename_i bound
          split at accepted
          · exact nomatch accepted
          · rename_i passed
            rw [bound, passed]

/-- Of the payload only these fields are signed. -/
def signedInner (payload : Json) : Json :=
  .object [("ciphertext", (payload.get "ciphertext").getD .null),
    ("msg_hash", (payload.get "msg_hash").getD .null),
    ("seq", (payload.get "seq").getD .null)]

def msgSigPayload (J : SerdeJson) (payload : Json) : String :=
  "p2p-message:" ++ J.display (signedInner payload)

/-- The key bound by the hello, or else the lookup of `verifySignature`. -/
def verifyFromPeer (cache : KeyCache P) (data sig peerFp : String) (clock : Nat → Nat) :
    Bool × KeyCache P :=
  match getCachedVerifyingKey cache peerFp (clock 0) with
  | (some vk, cache) => (verifySignatureWithVerifyingKey data sig vk, cache)
  | (none, cache) => verifySignature cache data sig peerFp (clock 1)

theorem verifyFromPeer_iff {cache : KeyCache P} {data sig peerFp : String} {clock : Nat → Nat} :
    (verifyFromPeer cache data sig peerFp clock).1 = true ↔
      ∃ vk, cachedKey cache peerFp = some vk ∧
        verifySignatureWithVerifyingKey data sig vk = true := by
  cases cached : cachedKey cache peerFp with
  | some vk =>
    have looked : (getCachedVerifyingKey cache peerFp (clock 0)).1 = some vk :=
      getCachedVerifyingKey_fst.trans cached
    simp only [verifyFromPeer]
    generalize getCachedVerifyingKey cache peerFp (clock 0) = hit at looked
    obtain ⟨found, refreshed⟩ := hit
    cases looked
    simp
  | none =>
    -- the second lookup misses as the first did
    rw [verifyFromPeer, getCachedVerifyingKey_of_none cached]
    simp [verifySignature_iff, cached]

/-- A frame that is not a p2p-message is skipped. -/
def receiveMessage (J : SerdeJson) (cache : KeyCache P) (peerFp text : String)
    (clock : Nat → Nat) : Option (Except String Unit) × KeyCache P :=
  match J.fromStr text with
  | .error _ => (none, cache)
  | .ok msg =>
    if frameType msg ≠ some "p2p-message" then (none, cache)
    else if frameSig msg = "" then
      (some (.error ("p2p-message from " ++ peerFp ++
        " has no signature — rejecting (MITM risk)")), cache)
    else
      let data := msgSigPayload J (framePayload msg)
      match verifyFromPeer cache data (frameSig msg) peerFp clock with
      | (false, cache) =>
        (some (.error ("p2p-message signature verification failed for " ++ peerFp ++
          " — possible MITM, rejecting")), cache)
      | (true, cache) => (some (.ok ()), cache)

theorem receiveMessage_ok {J : SerdeJson} {cache : KeyCache P} {peerFp text : String}
    {clock : Nat → Nat}
    (accepted : (receiveMessage J cache peerFp text clock).1 = some (.ok ())) :
    ∃ msg, J.fromStr text = .ok msg ∧
      (verifyFromPeer cache (msgSigPayload J (framePayload msg)) (frameSig msg) peerFp clock).1 =
        true := by
  simp only [receiveMessage] at accepted
  split at accepted
  · exact nomatch accepted
  · rename_i msg parsed
    refine ⟨msg, parsed, ?_⟩
    split at accepted
    · exact nomatch accepted
    · split at accepted
      · exact nomatch accepted
      · split at accepted
        · exact nomatch accepted
        · rename_i passed
          rw [passed]

section

variable {J : SerdeJson} {cache : KeyCache P}

theorem pinSenderKey_ok {fp : String} {payload : Json} {now : Nat}
    (missing : cachedKey cache fp = none) : (pinSenderKey cache fp payload now).1 = .ok () := by
  have free : cache.lookup (P.toUppercase fp) = none := Option.map_eq_none_iff.mp missing
  simp only [pinSenderKey, pinVerifyingKey, free]
  cases senderVerifyingKey (P := P) payload with
  | none => rfl
  | some vk => rfl

theorem bindAckKey_ok {fp : String} {payload : Json} {clock : Nat → Nat} :
    (bindAckKey cache fp payload clock).1 = .ok () := by
  cases cached : cachedKey cache fp with
  | some vk =>
    have looked : (getCachedVerifyingKey cache fp (clock 0)).1 = some vk :=
      getCachedVerifyingKey_fst.trans cached
    simp only [bindAckKey]
    generalize getCachedVerifyingKey cache fp (clock 0) = hit at looked
    obtain ⟨found, refreshed⟩ := hit
    cases looked
    rfl
  | none =>
    simp only [bindAckKey, getCachedVerifyingKey_of_none cached]
    exact pinSenderKey_ok cached

theorem bindHelloKey_ok {fp : String} {payload : Json} {fetched : Option P.VerifyingKey}
    {clock : Nat → Nat} : (bindHelloKey cache fp payload fetched clock).1 = .ok () := by
  cases cached : cachedKey cache fp with
  | some vk =>
    have looked : (getCachedVerifyingKey cache fp (clock 0)).1 = some vk :=
      getCachedVerifyingKey_fst.trans cached
    simp only [bindHelloKey]
    generalize getCachedVerifyingKey cache fp (clock 0) = hit at looked
    obtain ⟨found, refreshed⟩ := hit
    cases looked
    rfl
  | none =>
    have pinned : (pinSenderKey cache fp payload (clock 1)).1 = .ok () := pinSenderKey_ok cached
    simp only [bindHelloKey, getCachedVerifyingKey_of_none cached]
    generalize pinSenderKey cache fp payload (clock 1) = pin at pinned
    obtain ⟨result, after⟩ := pin
    cases pinned
    simp only
    split <;> rfl

/-- The key at hand for the fingerprint a hello claims. -/
def helloKey (cache : KeyCache P) (payload : Json) (fetched : Option P.VerifyingKey)
    (clock : Nat → Nat) : Option P.VerifyingKey :=
  cachedKey (bindHelloKey cache (claimedFp payload) payload fetched clock).2 (claimedFp payload)

theorem helloKey_of_cached {payload : Json} {fetched : Option P.VerifyingKey}
    {clock : Nat → Nat} {vk : P.VerifyingKey}
    (cached : cachedKey cache (claimedFp payload) = some vk) :
    helloKey cache payload fetched clock = some vk := by
  have looked : (getCachedVerifyingKey cache (claimedFp payload) (clock 0)).1 = some vk :=
    getCachedVerifyingKey_fst.trans cached
  have kept : cachedKey (getCachedVerifyingKey cache (claimedFp payload) (clock 0)).2
      (claimedFp payload) = some vk := cachedKey_getCached.trans cached
  simp only [helloKey, bindHelloKey]
  generalize getCachedVerifyingKey cache (claimedFp payload) (clock 0) = hit at looked kept
  obtain ⟨found, refreshed⟩ := hit
  cases looked
  exact kept

/-- All that is asked of a hello. -/
structure HelloPasses (cache : KeyCache P) (contacts : List String)
    (fetched : Option P.VerifyingKey) (clock : Nat → Nat) (hello : Json) : Prop where
  kind : frameType hello = some "p2p-hello"
  gate : claimedFp (framePayload hello) ∈ contacts ∨
    isPublicServiceFingerprint (claimedFp (framePayload hello)) = true
  signed : frameSig hello ≠ ""
  valid : validateFingerprint (claimedFp (framePayload hello)) = true
  known : (helloKey cache (framePayload hello) fetched clock).isSome = true
  readable : (decoded (P := P) (frameSig hello)).isSome = true

theorem receiveHello_iff {helloText peerFp : String} {contacts : List String}
    {fetched : Option P.VerifyingKey} {clock : Nat → Nat} :
    (receiveHello J cache helloText contacts fetched clock).1 = .ok peerFp ↔
      ∃ hello, J.fromStr helloText = .ok hello ∧ HelloPasses cache contacts fetched clock hello ∧
        peerFp = claimedFp (framePayload hello) := by
  cases parsed : J.fromStr helloText with
  | error e => simp [receiveHello, parsed]
  | ok hello =>
    have bound : (bindHelloKey cache (claimedFp (framePayload hello)) (framePayload hello) fetched
      clock).1 = .ok () := bindHelloKey_ok
    have verdict : (verifySignature (bindHelloKey cache (claimedFp (framePayload hello))
        (framePayload hello) fetched clock).2 (helloSigPayload J (framePayload hello))
        (frameSig hello) (claimedFp (framePayload hello)) (clock 4)).1 = true ↔ _ :=
      verifySignature_passes_iff
    simp only [receiveHello, parsed, Except.ok.injEq, exists_eq_left']
    split_ifs with kind gate signed
    · simp only [false_iff, not_and]
      intro passes
      exact absurd passes.kind kind
    · simp only [Bool.and_eq_true, Bool.not_eq_true', List.contains_eq_mem,
        decide_eq_false_iff_not] at gate
      simp only [false_iff, not_and]
      intro passes
      rcases passes.gate with contact | service
      · exact absurd contact gate.1
      · exact absurd (service.symm.trans gate.2) (Bool.false_ne_true ∘ Eq.symm)
    · simp only [false_iff, not_and]
      intro passes
      exact absurd signed passes.signed
    · have open' : claimedFp (framePayload hello) ∈ contacts ∨
          isPublicServiceFingerprint (claimedFp (framePayload hello)) = true := by
        simpa [imp_iff_not_or] using gate
      generalize bound' : bindHelloKey cache (claimedFp (framePayload hello)) (framePayload hello)
        fetched clock = after at bound verdict
      obtain ⟨result, kept⟩ := after
      cases bound
      simp only
      generalize verifySignature kept (helloSigPayload J (framePayload hello)) (frameSig hello)
        (claimedFp (framePayload hello)) (clock 4) = check at verdict
      obtain ⟨passed, rest⟩ := check
      cases passed with
      | false =>
        simp only [reduceCtorEq, false_iff, not_and]
        intro passes
        refine absurd (verdict.mpr ⟨passes.valid, ?_, passes.readable⟩) Bool.false_ne_true
        have known := passes.known
        rwa [helloKey, bound'] at known
      | true =>
        obtain ⟨valid, known, readable⟩ := verdict.mp rfl
        simp only [Except.ok.injEq]
        constructor
        · intro named
          refine ⟨⟨not_not.mp kind, open', signed, valid, ?_, readable⟩, named.symm⟩
          rwa [helloKey, bound']
        · intro passes
          exact passes.2.symm

/-- After a hello that passes, its key is at hand. -/
theorem cachedKey_receiveHello {helloText : String} {contacts : List String}
    {fetched : Option P.VerifyingKey} {clock : Nat → Nat} {hello : Json}
    (parsed : J.fromStr helloText = .ok hello)
    (passes : HelloPasses cache contacts fetched clock hello) :
    cachedKey (receiveHello J cache helloText contacts fetched clock).2
        (claimedFp (framePayload hello)) =
      helloKey cache (framePayload hello) fetched clock := by
  have bound : (bindHelloKey cache (claimedFp (framePayload hello)) (framePayload hello) fetched
    clock).1 = .ok () := bindHelloKey_ok
  have accepted : (!contacts.contains (claimedFp (framePayload hello)) &&
      !isPublicServiceFingerprint (claimedFp (framePayload hello))) = false := by
    rcases passes.gate with contact | service
    · simp [contact]
    · simp [service]
  simp only [receiveHello, parsed, helloKey, if_neg (not_not.mpr passes.kind), accepted,
    Bool.false_eq_true, if_false, if_neg passes.signed]
  generalize bindHelloKey cache (claimedFp (framePayload hello)) (framePayload hello) fetched
    clock = after at bound
  obtain ⟨result, kept⟩ := after
  cases bound
  simp only
  have checked := @cachedKey_verifySignature P kept (helloSigPayload J (framePayload hello))
    (frameSig hello) (claimedFp (framePayload hello)) (clock 4)
  generalize verifySignature kept (helloSigPayload J (framePayload hello)) (frameSig hello)
    (claimedFp (framePayload hello)) (clock 4) = check at checked
  obtain ⟨passed, rest⟩ := check
  cases passed with
  | false => exact checked
  | true => exact checked

/-- All that is asked of a message. -/
structure MessagePasses (cache : KeyCache P) (peerFp : String) (msg : Json) : Prop where
  kind : frameType msg = some "p2p-message"
  signed : frameSig msg ≠ ""
  known : (cachedKey cache peerFp).isSome = true
  readable : (decoded (P := P) (frameSig msg)).isSome = true

theorem receiveMessage_iff {peerFp text : String} {clock : Nat → Nat} :
    (receiveMessage J cache peerFp text clock).1 = some (.ok ()) ↔
      ∃ msg, J.fromStr text = .ok msg ∧ MessagePasses cache peerFp msg := by
  cases parsed : J.fromStr text with
  | error e => simp [receiveMessage, parsed]
  | ok msg =>
    have verdict : (verifyFromPeer cache (msgSigPayload J (framePayload msg)) (frameSig msg)
      peerFp clock).1 = true ↔ _ := verifyFromPeer_iff
    simp only [verifySignatureWithVerifyingKey_iff, exists_and_right] at verdict
    simp only [receiveMessage, parsed, Except.ok.injEq, exists_eq_left']
    split_ifs with kind signed
    · simp only [false_iff]
      intro passes
      exact absurd passes.kind kind
    · simp only [Option.some.injEq, reduceCtorEq, false_iff]
      intro passes
      exact absurd signed passes.signed
    · generalize verifyFromPeer cache (msgSigPayload J (framePayload msg)) (frameSig msg)
        peerFp clock = check at verdict
      obtain ⟨passed, rest⟩ := check
      cases passed with
      | false =>
        simp only [Option.some.injEq, reduceCtorEq, false_iff]
        intro passes
        exact absurd (verdict.mpr ⟨Option.isSome_iff_exists.mp passes.known, passes.readable⟩)
          Bool.false_ne_true
      | true =>
        obtain ⟨known, readable⟩ := verdict.mp rfl
        exact iff_of_true rfl
          ⟨not_not.mp kind, signed, Option.isSome_iff_exists.mpr known, readable⟩

/-- The key at hand for the fingerprint an ack claims: the cached one, or else the one the
ack carries. -/
def ackKey (cache : KeyCache P) (payload : Json) (clock : Nat → Nat) : Option P.VerifyingKey :=
  cachedKey (bindAckKey cache (claimedFp payload) payload clock).2 (claimedFp payload)

/-- All that is asked of an ack. -/
structure AckPasses (cache : KeyCache P) (clock : Nat → Nat) (ack : Json) : Prop where
  kind : frameType ack = some "p2p-hello-ack"
  signed : frameSig ack ≠ ""
  valid : validateFingerprint (claimedFp (framePayload ack)) = true
  known : (ackKey cache (framePayload ack) clock).isSome = true
  readable : (decoded (P := P) (frameSig ack)).isSome = true

theorem receiveHelloAck_iff {resp ackFp : String} {clock : Nat → Nat} :
    (receiveHelloAck J cache resp clock).1 = .ok ackFp ↔
      ∃ ack, J.fromStr resp = .ok ack ∧ AckPasses cache clock ack ∧
        ackFp = claimedFp (framePayload ack) := by
  cases parsed : J.fromStr resp with
  | error e => simp [receiveHelloAck, parsed]
  | ok ack =>
    have bound : (bindAckKey cache (claimedFp (framePayload ack)) (framePayload ack) clock).1 =
      .ok () := bindAckKey_ok
    have verdict : (verifySignature (bindAckKey cache (claimedFp (framePayload ack))
        (framePayload ack) clock).2 (helloAckSigData J (framePayload ack)) (frameSig ack)
        (claimedFp (framePayload ack)) (clock 2)).1 = true ↔ _ := verifySignature_passes_iff
    simp only [receiveHelloAck, parsed, Except.ok.injEq, exists_eq_left']
    split_ifs with kind signed
    · simp only [false_iff, not_and]
      intro passes
      exact absurd passes.kind kind
    · simp only [false_iff, not_and]
      intro passes
      exact absurd signed passes.signed
    · generalize bound' : bindAckKey cache (claimedFp (framePayload ack)) (framePayload ack)
        clock = after at bound verdict
      obtain ⟨result, kept⟩ := after
      cases bound
      simp only
      generalize verifySignature kept (helloAckSigData J (framePayload ack)) (frameSig ack)
        (claimedFp (framePayload ack)) (clock 2) = check at verdict
      obtain ⟨passed, rest⟩ := check
      cases passed with
      | false =>
        simp only [reduceCtorEq, false_iff, not_and]
        intro passes
        refine absurd (verdict.mpr ⟨passes.valid, ?_, passes.readable⟩) Bool.false_ne_true
        have known := passes.known
        rwa [ackKey, bound'] at known
      | true =>
        obtain ⟨valid, known, readable⟩ := verdict.mp rfl
        simp only [Except.ok.injEq]
        constructor
        · intro named
          refine ⟨⟨not_not.mp kind, signed, valid, ?_, readable⟩, named.symm⟩
          rwa [ackKey, bound']
        · intro passes
          exact passes.2.symm

end

end PeerHandshake

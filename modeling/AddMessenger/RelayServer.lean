import AddMessenger.Doubles
import AddMessenger.Handlers
import AddMessenger.Protocol
import AddMessenger.RelayReceipts
import AddMessenger.Signatures

/-!
# The requests a relay handles

`handle_message` of `relay/src/main.rs`: the requests of clients and of other relays,
with the checks each handler makes, in its order and with its texts. A request is
handled as a whole; what it reads from its surroundings (clocks, locks, the outcome of
SQL statements, the order of a hash map) comes in an `Env`.
-/

namespace RelayServer

open ByteStrings Doubles Handlers Handlers.Handler Mealy Protocol RelayMailbox RelayReceipts
  Signatures Tables

def storeTimestampToleranceSecs : Nat := 300

def maxNoncesPerSender : Nat := 1000

def federationRouteTtlSeconds : Nat := 1800

def federationPeerTimeoutSeconds : Nat := 300

def federationMaxRelayHops : UInt8 := 5

/-- `displayF64` is `Display` of a double, from its sign and magnitude. `warns` is
whether warnings are logged: their arguments are only evaluated then. -/
structure ServerConfig where
  mail : RelayMailbox.Config
  P : Primitives
  displayF64 : Bool → ℚ → String
  ourUrl : Option String
  allowRelay : Bool
  warns : Bool

/-- A reading of the system clock; its seconds fit in an `i64`. -/
structure Duration where
  secs : Nat
  nanos : Nat
  secs_lt : secs < 2 ^ 63
  nanos_lt : nanos < 10 ^ 9

def Duration.asSecsF64 (d : Duration) : ℚ :=
  nearest (nearest d.secs + nearest (d.nanos / 10 ^ 9))

/-- Times of a monotonic clock, in nanoseconds. -/
abbrev Instant := Nat

structure PeerInfo where
  lastSeen : Instant
  authenticated : Bool

structure RouteEntry where
  relayUrl : String
  expiresAt : Instant

structure FederationState where
  peers : String → Option PeerInfo
  remoteRoutes : String → Option RouteEntry
  pendingChallenges : String → Option (String × Int)

structure ServerState where
  mail : RelayState
  keyCache : String → Option String
  seenNonceStrs : String → List (String × Int)
  federation : FederationState

def started (pool : Bool) : ServerState where
  mail := empty pool
  keyCache := fun _ => none
  seenNonceStrs := fun _ => []
  federation := ⟨fun _ => none, fun _ => none, fun _ => none⟩

structure StoreRequest extends MailboxStoreRequest where
  senderSig : String
  timestamp : F64
  nonce : String
  senderVerifyingKey : String
  sealedSender : String
  recipientTag : String

structure MailboxFetchRequest where
  recipientNid : String
  authHmac : String
  senderSig : String
  requesterFp : String
  timestamp : F64
  nonce : String
  requesterVerifyingKey : String

structure RelayStatusRequest extends MailboxFetchRequest where
  messageIds : List String

structure AckRequest where
  recipientNid : String
  seq : Int64
  senderSig : String
  requesterFp : String
  timestamp : F64
  nonce : String
  requesterVerifyingKey : String

abbrev PurgeRequest := MailboxFetchRequest

structure RelayDeleteRequest where
  messageId : String
  recipientNid : String
  recipientFp : String
  signature : String
  timestamp : F64
  nonce : String
  recipientVerifyingKey : String

structure RelayReadReceipt extends RelayDeleteRequest where
  otherRelays : List String

structure RelayForward where
  recipientNid : String
  signedBlob : String
  senderNid : String
  senderFp : String
  seq : Int64
  senderSig : String
  timestamp : F64
  nonce : Int64
  hopCount : UInt8
  via : List String
  sourceRelayUrl : String

inductive Request where
  | store (req : StoreRequest)
  | fetch (req : MailboxFetchRequest)
  | status (req : RelayStatusRequest)
  | ack (req : AckRequest)
  | purge (req : PurgeRequest)
  | readReceipt (req : RelayReadReceipt)
  | delete (req : RelayDeleteRequest)
  | forward (req : RelayForward)
  | routeAdvertise (payload : Json)
  | routeAdvertiseAck (payload : Json)
  | whoHas (nullId : String)
  | peerAuth (challenge relayUrl : String)
  | peerAuthReply (response relayUrl : String)

/-- What a handler reads from its surroundings. `freshAt` is the clock when it checks
the timestamp, `nonceAt` when it records a nonce or a challenge; `localNids` are the keys
of the mailboxes in the order of the hash map. -/
structure Env where
  freshAt : Duration
  nonceAt : Duration
  writeLocked : Bool
  readLocked : Bool
  tagAt : UInt64
  keysAt : UInt64
  mailAt : UInt64
  readAt : String → UInt64
  sqlOk : Bool
  dbError : Option String
  instant : Instant
  localNids : List String

/-- The status of one message, or that there is none under this id. -/
inductive StatusResult where
  | found (messageId : String) (deliveryStatus : UInt8) (statusUpdatedAt : UInt64)
      (readReceiptAt : Option UInt64)
  | notFound (messageId : String)

inductive Reply where
  | done
  | entries (entries : List MailboxEntry)
  | statuses (results : List StatusResult)
  /-- The receipt, and the deletion made from it, go on to the relays it names. -/
  | receiptAck (otherRelays : List String) (receipt : RelayReadReceipt)
      (deletion : RelayDeleteRequest)
  | forwardAck (accepted : Bool) (error : Option String)
  | routeAdvertiseAck (payload : Json)
  | routeFound (nullId relayUrl : String)
  | peerAuthReply (response relayUrl : String)

/-- Why `serde_json` does not read a value as a struct. -/
inductive SerdeError where
  | missingField (name : String)
  | invalidType (name : String)
  | invalidLength
  | notAStruct
  deriving DecidableEq

inductive Refusal where
  | error (text : String)
  | invalidRouteAdvertise (e : SerdeError)
  | panic
  deriving DecidableEq

abbrev Serve := Handler ServerState Refusal

variable (cfg : ServerConfig)

def ServerConfig.display (x : F64) : String := cfg.displayF64 x.negative x.magnitude

def age (now : Duration) (timestamp : F64) : ℚ := nearest (now.asSecsF64 - timestamp.value)

def isFresh (now : Duration) (timestamp : F64) : Bool :=
  |age now timestamp| ≤ storeTimestampToleranceSecs

def checkTimestampFreshness (now : Duration) (timestamp : F64) : Serve Unit :=
  require (isFresh now timestamp)
    (.error ("timestamp out of range: " ++ cfg.displayF64 false |age now timestamp| ++
      "s old (max " ++ cfg.displayF64 false storeTimestampToleranceSecs ++ "s)"))

/-- Remember a nonce of one sender. Nonces older than the tolerance are forgotten, and
the older half of those that are left when there are too many. -/
def recordNonce (seen : List (String × Int)) (nonce : String) (now : Int) :
    List (String × Int) :=
  let recent := seen.filter fun n => now - storeTimestampToleranceSecs ≤ n.2
  let kept := if recent.length ≥ maxNoncesPerSender then recent.drop (recent.length / 2)
    else recent
  kept ++ [(nonce, now)]

def checkAndRecordNonceStr (seen : List (String × Int)) (nonce : String) (now : Int) :
    Bool × List (String × Int) :=
  if seen.any fun n => n.1 = nonce then (false, seen) else (true, recordNonce seen nonce now)

def requireUnseen (fp nonce : String) (now : Duration) : Serve Unit := fun s =>
  let (fresh, seen) := checkAndRecordNonceStr (s.seenNonceStrs fp) nonce now.secs
  require fresh (.error "replay detected: nonce already seen")
    { s with seenNonceStrs := Function.update s.seenNonceStrs fp seen }

inductive VerifyError where
  | cacheWriteLock
  | cacheReadLock
  | base64Signature
  | tofuRequired (fingerprint : String)
  | base64VerifyingKey
  | decodeVerifyingKey (e : PqError)
  | signatureDecode
  | invalidSignatureEncoding
  | verifyError (e : PqError)

/-- A key that comes with a request is kept if it is the first for the fingerprint. -/
def pinFirst (cache : String → Option String) (fingerprint key : String) :
    String → Option String :=
  if key.isEmpty then cache
  else Function.update cache fingerprint (some ((cache fingerprint).getD key))

def verifyWithKey (P : Primitives) (sigBytes : Bytes) (data key : String) :
    Except VerifyError Bool :=
  match P.base64Decode key with
  | none => .error .base64VerifyingKey
  | some vkBytes =>
    match decodeVerifyingKey P vkBytes with
    | .error e => .error (.decodeVerifyingKey e)
    | .ok vk =>
      match P.encodedSignatureTryFrom sigBytes with
      | none => .error .signatureDecode
      | some encSig =>
        match P.signatureDecode encSig with
        | none => .error .invalidSignatureEncoding
        | some sig =>
          match verify P (asBytes data) sig vk with
          | .error e => .error (.verifyError e)
          | .ok verified => .ok verified

def verifyMlDsa87Signature (P : Primitives) (sigB64 data fingerprint : String)
    (cache : String → Option String) (providedVerifyingKey : String) (env : Env) :
    Except VerifyError Bool × (String → Option String) :=
  if !providedVerifyingKey.isEmpty && env.writeLocked then (.error .cacheWriteLock, cache)
  else
    let cache := pinFirst cache fingerprint providedVerifyingKey
    if env.readLocked then (.error .cacheReadLock, cache)
    else
      match P.base64Decode sigB64 with
      | none => (.error .base64Signature, cache)
      | some sigBytes =>
        match cache fingerprint with
        | none => (.error (.tofuRequired fingerprint), cache)
        | some key => (verifyWithKey P sigBytes data key, cache)

/-- `unwrap_or(false)`, and the handler's own text if the verdict is no. -/
def requireSignature (sigB64 data fingerprint key : String) (env : Env) (text : String) :
    Serve Unit := fun s =>
  let (verdict, cache) := verifyMlDsa87Signature cfg.P sigB64 data fingerprint s.keyCache key env
  require (verdict.toOption.getD false) (.error text) { s with keyCache := cache }

/-- The bytes are compared by `xor`, the shorter text padded with zeros, and then the
lengths as single bytes. -/
def verifyHmac (data providedHmac secret : String) : Bool :=
  let computed := asBytes (computeHmac cfg.mail data secret)
  let provided := asBytes providedHmac
  let acc := (List.range (max computed.length provided.length)).foldl
    (fun acc i => acc ||| (computed.getD i 0 ^^^ provided.getD i 0)) (0 : UInt8)
  acc ||| (UInt8.ofNat computed.length ^^^ UInt8.ofNat provided.length) == 0

/-- The HMAC is only asked for when a secret is configured. -/
def requireHmac (data providedHmac text : String) : Serve Unit :=
  require (cfg.mail.sharedSecret.all fun secret => verifyHmac cfg data providedHmac secret)
    (.error text)

/-- `is_char_boundary`: not in the middle of a UTF-8 sequence. -/
def isCharBoundary (text : String) (index : Nat) : Bool :=
  let bytes := asBytes text
  index = 0 || index = bytes.length ||
    (bytes[index]?.any fun b => b < 128 || 192 ≤ b)

def verifyRecipientTag (recipientNid : String) (epoch : UInt64) (clientTag : String) :
    Except Refusal Unit :=
  match cfg.mail.sharedSecret with
  | none => .ok ()
  | some secret =>
    let expected := computeHmac cfg.mail (recipientNid ++ "|" ++ toString epoch) secret
    if clientTag.isEmpty then .ok ()
    else if expected ≠ clientTag then
      -- the warning slices the first eight bytes of the tag
      if cfg.warns && !isCharBoundary clientTag (min 8 (asBytes clientTag).length) then
        .error .panic
      else .error (.error "recipient_tag verification failed")
    else .ok ()

def storeSigningData (req : StoreRequest) : String :=
  "|".intercalate [req.recipientNid, req.senderNid, req.senderFp, toString req.seq,
    cfg.display req.timestamp, req.nonce]

def verifyStoreSignature (req : StoreRequest) (env : Env) : Serve Unit := do
  require (!req.senderSig.isEmpty) (.error "missing sender signature")
  if req.sealedSender.isEmpty then
    requireSignature cfg req.senderSig (storeSigningData cfg req) req.senderFp
      req.senderVerifyingKey env "sender signature verification failed"
  else
    require (req.senderNid = "anonymous")
      (.error "sealed sender requires sender_nid='anonymous'")

def store (req : MailboxStoreRequest) (env : Env) : Serve Unit := fun s =>
  let (result, mail) := storeMessage cfg.mail s.mail req env.keysAt env.mailAt env.dbError
  match result with
  | .ok () => (.ok (), { s with mail := mail })
  | .error text => (.error (.error text), { s with mail := mail })

/-- The checks a message passes before it is stored, directly or for another relay. -/
def storeChecks (req : StoreRequest) (env : Env) : Serve Unit := do
  verifyStoreSignature cfg req env
  checkTimestampFreshness cfg env.freshAt req.timestamp
  requireUnseen req.senderFp req.nonce env.nonceAt

def relayStore (req : StoreRequest) (env : Env) : Serve Reply := do
  storeChecks cfg req env
  match verifyRecipientTag cfg req.recipientNid (routingEpoch env.tagAt) req.recipientTag with
  | .error e => fail e
  | .ok () =>
    store cfg req.toMailboxStoreRequest env
    pure .done

def ownsNullId (fp nid : String) : Bool := computeNullId cfg.P fp = nid

def relayFetch (req : MailboxFetchRequest) (env : Env) : Serve Reply := do
  require (!(req.senderSig.isEmpty || req.requesterFp.isEmpty))
    (.error "fetch request missing sender signature")
  checkTimestampFreshness cfg env.freshAt req.timestamp
  require (ownsNullId cfg req.requesterFp req.recipientNid)
    (.error "fetch denied: null_id does not match requester fingerprint")
  requireSignature cfg req.senderSig
    (":".intercalate ["relay-fetch", req.recipientNid, cfg.display req.timestamp, req.nonce])
    req.requesterFp req.requesterVerifyingKey env
    "fetch denied: ML-DSA-87 signature verification failed"
  requireUnseen req.requesterFp (req.requesterFp ++ ":" ++ req.nonce) env.nonceAt
  requireHmac cfg req.recipientNid req.authHmac "HMAC authentication failed"
  asks fun s =>
    .entries (fetchMessages cfg.mail s.mail req.recipientNid env.keysAt env.readAt env.sqlOk)

/-- The status of one message in a mailbox. -/
def statusIn (mb : Mailbox) (messageId : String) : StatusResult :=
  match mb.entries.find? fun e => e.messageId = messageId with
  | some e => .found e.messageId e.deliveryStatus e.statusUpdatedAt e.readReceiptAt
  | none => .notFound messageId

def relayStatus (req : RelayStatusRequest) (env : Env) : Serve Reply := do
  checkTimestampFreshness cfg env.freshAt req.timestamp
  requireUnseen req.requesterFp ("status:" ++ req.requesterFp ++ ":" ++ req.nonce) env.nonceAt
  requireSignature cfg req.senderSig
    (":".intercalate ["relay-status", req.recipientNid, cfg.display req.timestamp, req.nonce])
    req.requesterFp req.requesterVerifyingKey env "status request signature verification failed"
  require (ownsNullId cfg req.requesterFp req.recipientNid)
    (.error "status denied: null_id does not match requester fingerprint")
  requireHmac cfg req.recipientNid req.authHmac "HMAC authentication failed"
  asks fun s =>
    match s.mail.mailboxes req.recipientNid with
    | none => .statuses []
    | some mb => .statuses (req.messageIds.map (statusIn mb))

def relayAck (req : AckRequest) (env : Env) : Serve Reply := do
  require (!(req.senderSig.isEmpty || req.requesterFp.isEmpty))
    (.error "ack request missing sender signature")
  checkTimestampFreshness cfg env.freshAt req.timestamp
  require (ownsNullId cfg req.requesterFp req.recipientNid)
    (.error "ack denied: null_id does not match requester fingerprint")
  requireSignature cfg req.senderSig
    (":".intercalate ["relay-ack", req.recipientNid, toString req.seq, cfg.display req.timestamp,
      req.nonce])
    req.requesterFp req.requesterVerifyingKey env
    "ack denied: ML-DSA-87 signature verification failed"
  requireUnseen req.requesterFp (req.requesterFp ++ ":" ++ req.nonce) env.nonceAt
  modify fun s => { s with
    mail := ackMessage cfg.mail s.mail req.recipientNid req.seq env.keysAt env.mailAt env.sqlOk }
  pure .done

def relayPurge (req : PurgeRequest) (env : Env) : Serve Reply := do
  requireHmac cfg (":".intercalate ["relay-purge", req.recipientNid, cfg.display req.timestamp])
    req.authHmac "purge denied: HMAC verification failed"
  require (!(req.requesterFp.isEmpty || req.senderSig.isEmpty))
    (.error "purge: missing requester fingerprint or signature")
  checkTimestampFreshness cfg env.freshAt req.timestamp
  require (ownsNullId cfg req.requesterFp req.recipientNid)
    (.error "purge denied: null_id does not match requester fingerprint")
  requireSignature cfg req.senderSig
    (":".intercalate ["relay-purge", req.recipientNid, cfg.display req.timestamp, req.nonce])
    req.requesterFp req.requesterVerifyingKey env
    "purge denied: ML-DSA-87 signature verification failed"
  requireUnseen req.requesterFp ("purge:" ++ req.requesterFp ++ ":" ++ req.nonce) env.nonceAt
  modify fun s => { s with
    mail := purgeAllMessages cfg.mail s.mail req.recipientNid (some req.requesterFp) env.keysAt
      env.sqlOk }
  pure .done

/-- The text a read receipt and a deletion are signed over. -/
def receiptSigningData (req : RelayDeleteRequest) : String :=
  "|".intercalate [req.messageId, req.recipientNid, cfg.display req.timestamp]

def relayReadReceipt (req : RelayReadReceipt) (env : Env) : Serve Reply := do
  requireSignature cfg req.signature (receiptSigningData cfg req.toRelayDeleteRequest)
    req.recipientFp req.recipientVerifyingKey env "read receipt signature verification failed"
  requireUnseen req.recipientFp ("read:" ++ req.recipientFp ++ ":" ++ req.nonce) env.nonceAt
  checkTimestampFreshness cfg env.freshAt req.timestamp
  modify fun s => { s with
    mail := receiveReceipt s.mail req.recipientNid req.messageId env.mailAt env.sqlOk }
  pure (.receiptAck req.otherRelays req req.toRelayDeleteRequest)

def relayDelete (req : RelayDeleteRequest) (env : Env) : Serve Reply := do
  requireSignature cfg req.signature (receiptSigningData cfg req) req.recipientFp
    req.recipientVerifyingKey env "delete request signature verification failed"
  requireUnseen req.recipientFp ("delete:" ++ req.recipientFp ++ ":" ++ req.nonce) env.nonceAt
  checkTimestampFreshness cfg env.freshAt req.timestamp
  modify fun s => { s with
    mail := deleteMessage s.mail req.recipientNid req.messageId env.sqlOk }
  pure .done

namespace FederationState

def addRoute (fed : FederationState) (now : Instant) (relayUrl nullId : String) :
    FederationState :=
  { fed with
    remoteRoutes := Function.update fed.remoteRoutes nullId
      (some ⟨relayUrl, now + federationRouteTtlSeconds * 10 ^ 9⟩) }

def lookupRoute (fed : FederationState) (nullId : String) : Option String :=
  (fed.remoteRoutes nullId).map (·.relayUrl)

def touch (fed : FederationState) (now : Instant) (relayUrl : String) : FederationState :=
  { fed with peers := modifyAt fed.peers relayUrl fun peer => { peer with lastSeen := now } }

def cleanupExpiredRoutes (fed : FederationState) (now : Instant) : FederationState :=
  { fed with
    remoteRoutes := fun nid => (fed.remoteRoutes nid).filter fun entry => now < entry.expiresAt
    peers := fun url => (fed.peers url).filter fun peer =>
      now - peer.lastSeen < federationPeerTimeoutSeconds * 10 ^ 9 }

end FederationState

def modifyFederation (f : FederationState → FederationState) : Serve Unit :=
  modify fun s => { s with federation := f s.federation }

def federationEnabled : Bool := cfg.mail.sharedSecret.isSome

def url : String := cfg.ourUrl.getD ""

structure RouteAdvertise where
  relayUrl : String
  routeCount : UInt64
  ttl : UInt64

/-- A field that is there must have its type, before any missing one is reported. -/
def typedField {α : Type} (payload : Json) (name : String) (read : Json → Option α) :
    Except SerdeError (Option α) :=
  match payload.get name with
  | none => .ok none
  | some value =>
    match read value with
    | none => .error (.invalidType name)
    | some a => .ok (some a)

def presentField {α : Type} (name : String) : Option α → Except SerdeError α
  | none => .error (.missingField name)
  | some a => .ok a

/-- `serde_json::from_value` of a `RouteAdvertise`, from an object or a sequence. -/
def RouteAdvertise.fromValue (payload : Json) : Except SerdeError RouteAdvertise :=
  match payload with
  | .object _ => do
    let relayUrl ← typedField payload "relay_url" Json.asStr
    let routeCount ← typedField payload "route_count" Json.asU64
    let ttl ← typedField payload "ttl" Json.asU64
    let relayUrl ← presentField "relay_url" relayUrl
    let routeCount ← presentField "route_count" routeCount
    let ttl ← presentField "ttl" ttl
    pure ⟨relayUrl, routeCount, ttl⟩
  | .array [relayUrl, routeCount, ttl] =>
    match relayUrl.asStr, routeCount.asU64, ttl.asU64 with
    | some relayUrl, some routeCount, some ttl => .ok ⟨relayUrl, routeCount, ttl⟩
    | none, _, _ => .error (.invalidType "relay_url")
    | _, none, _ => .error (.invalidType "route_count")
    | _, _, none => .error (.invalidType "ttl")
  | .array _ => .error .invalidLength
  | _ => .error .notAStruct

/-- `payload["relay_url"]`, empty if it is no string. -/
def advertisedUrl (payload : Json) : String := ((payload.get "relay_url").bind Json.asStr).getD ""

/-- The strings in `payload["null_ids"]`. -/
def advertisedNids (payload : Json) : List String :=
  (((payload.get "null_ids").bind Json.asArray).getD []).filterMap Json.asStr

/-- Both advertisement handlers add a route for each id and touch the peer. -/
def learnRoutes (payload : Json) (now : Instant) (fed : FederationState) : FederationState :=
  ((advertisedNids payload).foldl (fun fed nid => fed.addRoute now (advertisedUrl payload) nid)
    fed).touch now (advertisedUrl payload)

def routePayload (relayUrl : String) (nids : List String) : List (String × Json) :=
  [("relay_url", .string relayUrl), ("null_ids", .array (nids.map Json.string))]

def ackPayload (relayUrl : String) (nids : List String) : Json :=
  .object (("route_count", .number (.posInt (UInt64.ofNat nids.length))) ::
    routePayload relayUrl nids)

/-- The advertisement `gossip_task` sends, if there is any mailbox. -/
def gossipPayload (nids : List String) : Option Json :=
  if nids.isEmpty then none else some (.object (routePayload (url cfg) nids))

def routeAdvertise (payload : Json) (env : Env) : Serve Reply :=
  if !federationEnabled cfg then pure .done
  else
    match RouteAdvertise.fromValue payload with
    | .error e => fail (.invalidRouteAdvertise e)
    | .ok _ => do
      modifyFederation (learnRoutes payload env.instant)
      pure (.routeAdvertiseAck (ackPayload (url cfg) env.localNids))

/-- Not guarded by the secret. -/
def routeAdvertiseAck (payload : Json) (env : Env) : Serve Reply := do
  modifyFederation (learnRoutes payload env.instant)
  pure .done

def whoHas (nullId : String) : Serve Reply :=
  asks fun s =>
    if (s.mail.mailboxes nullId).isSome then .routeFound nullId (url cfg)
    else
      match s.federation.lookupRoute nullId with
      | some relayUrl => .routeFound nullId relayUrl
      | none => .done

def peerAuth (challenge relayUrl : String) (env : Env) : Serve Reply :=
  match cfg.mail.sharedSecret with
  | none => pure .done
  | some secret => do
    modifyFederation fun fed => { fed with
      pendingChallenges := Function.update fed.pendingChallenges relayUrl
        (some (challenge, env.nonceAt.secs)) }
    pure (.peerAuthReply (computeHmac cfg.mail challenge secret) (url cfg))

/-- Take the pending challenge of a peer. -/
def takeChallenge (relayUrl : String) : Serve (Option (String × Int)) := fun s =>
  (.ok (s.federation.pendingChallenges relayUrl), { s with federation := { s.federation with
    pendingChallenges := Function.update s.federation.pendingChallenges relayUrl none } })

def authenticate (relayUrl : String) (fed : FederationState) : FederationState :=
  { fed with
    peers := modifyAt fed.peers relayUrl fun peer => { peer with authenticated := true } }

def peerAuthReply (response relayUrl : String) (env : Env) : Serve Reply :=
  match cfg.mail.sharedSecret with
  | none => pure .done
  | some secret => do
    let pending ← takeChallenge relayUrl
    match pending with
    | none => pure .done
    | some (challenge, createdAt) =>
      require (env.nonceAt.secs - createdAt ≤ 300) (.error "challenge expired")
      modifyFederation fun fed =>
        if computeHmac cfg.mail challenge secret = response then authenticate relayUrl fed else fed
      pure .done

def RelayForward.toStoreRequest (req : RelayForward) (recipientTag : String) : StoreRequest where
  recipientNid := req.recipientNid
  senderNid := req.senderNid
  senderFp := req.senderFp
  signedBlob := req.signedBlob
  seq := req.seq
  senderSig := req.senderSig
  timestamp := req.timestamp
  nonce := toString req.nonce
  senderVerifyingKey := ""
  sealedSender := ""
  recipientTag := recipientTag

/-- A peer that is known and not authenticated; an unknown source is not looked for. -/
def knownUnauthenticated (fed : FederationState) (relayUrl : String) : Bool :=
  (fed.peers relayUrl).any fun peer => !peer.authenticated

def refuseForward (text : String) : Serve Reply := pure (.forwardAck false (some text))

def relayForward (req : RelayForward) (env : Env) : Serve Reply :=
  if !federationEnabled cfg then pure .done
  else if !cfg.allowRelay then
    refuseForward "relay does not accept transit forwarding (edge mode)"
  else do
    let unauthenticated ← asks fun s => knownUnauthenticated s.federation req.sourceRelayUrl
    if unauthenticated then
      refuseForward "peer not authenticated — HMAC challenge-response required"
    else if url cfg ∈ req.via then refuseForward "loop detected"
    else if federationMaxRelayHops ≤ req.hopCount then refuseForward "max hop count exceeded"
    else
      let tag := recipientTag cfg.mail req.recipientNid (routingEpoch env.tagAt)
      let inner := req.toStoreRequest (tag.getD "")
      storeChecks cfg inner env
      store cfg inner.toMailboxStoreRequest env
      pure (.forwardAck true none)

def handleMessage : Request → Env → Serve Reply
  | .store req => relayStore cfg req
  | .fetch req => relayFetch cfg req
  | .status req => relayStatus cfg req
  | .ack req => relayAck cfg req
  | .purge req => relayPurge cfg req
  | .readReceipt req => relayReadReceipt cfg req
  | .delete req => relayDelete cfg req
  | .forward req => relayForward cfg req
  | .routeAdvertise payload => routeAdvertise cfg payload
  | .routeAdvertiseAck payload => routeAdvertiseAck payload
  | .whoHas nullId => fun _ => whoHas cfg nullId
  | .peerAuth challenge relayUrl => peerAuth cfg challenge relayUrl
  | .peerAuthReply response relayUrl => peerAuthReply cfg response relayUrl

/-- A message of a connection, or one of the tasks the relay runs itself: connecting
to a peer, hearing routes from it, and the two cleanups. -/
inductive Action where
  | message (req : Request) (env : Env)
  | connectToPeer (relayUrl : String) (now : Instant)
  | peerRoutes (relayUrl : String) (now : Instant)
  | cleanupExpiredRoutes (now : Instant)
  | cleanupExpired (now : UInt64) (sqlOk : Bool)

def serverStep (s : ServerState) : Action → Except Refusal Reply × ServerState
  | .message req env => (handleMessage cfg req env).run s
  | .connectToPeer relayUrl now =>
    (.ok .done, { s with federation := { s.federation with
      peers := Function.update s.federation.peers relayUrl (some ⟨now, false⟩) } })
  | .peerRoutes relayUrl now =>
    (.ok .done, { s with federation := s.federation.touch now relayUrl })
  | .cleanupExpiredRoutes now =>
    (.ok .done, { s with federation := s.federation.cleanupExpiredRoutes now })
  | .cleanupExpired now sqlOk => (.ok .done, { s with mail := cleanupExpired s.mail now sqlOk })

/-- A small configuration: digests are byte sums, doubles are shown as fractions. -/
def smallConfig (sharedSecret : Option String) : ServerConfig where
  mail := sumConfig sharedSecret
  P := sumScheme
  displayF64 := fun negative magnitude =>
    (if negative then "-" else "") ++ toString magnitude.num.natAbs ++
      (if magnitude.den = 1 then "" else "/" ++ toString magnitude.den)
  ourUrl := some "ws://here"
  allowRelay := true
  warns := true

/-- The signature of `sumScheme`. -/
def sumSignature (key : UInt8) (data : String) : String :=
  String.singleton (Char.ofUInt8 ((asBytes data).foldl (· + ·) key))

def wholeSeconds (n : Nat) (small : n ≤ 2 ^ 52) : Duration :=
  ⟨n, 0, by omega, by decide⟩

/-- A quiet moment: no locks are held and every SQL statement succeeds. -/
def quiet (n : Nat) (small : n ≤ 2 ^ 52) : Env where
  freshAt := wholeSeconds n small
  nonceAt := wholeSeconds n small
  writeLocked := false
  readLocked := false
  tagAt := UInt64.ofNat n
  keysAt := UInt64.ofNat n
  mailAt := UInt64.ofNat n
  readAt := fun _ => UInt64.ofNat n
  sqlOk := true
  dbError := none
  instant := n * 10 ^ 9
  localNids := []

/-- The moment and the timestamp of the small runs. -/
def moment : Env := quiet 1000 (by decide)

def momentStamp : F64 := F64.ofNat 1000 (by decide)

namespace ServerState

/-- The state after a key was presented. -/
def pin (s : ServerState) (fp key : String) : ServerState :=
  { s with keyCache := pinFirst s.keyCache fp key }

/-- The state after a new nonce was recorded. -/
def remember (s : ServerState) (fp nonce : String) (now : Duration) : ServerState :=
  { s with
    seenNonceStrs := Function.update s.seenNonceStrs fp
      (recordNonce (s.seenNonceStrs fp) nonce now.secs) }

variable (s : ServerState) (fp key nonce : String) (now : Duration)

@[simp] theorem pin_mail : (s.pin fp key).mail = s.mail := rfl

@[simp] theorem pin_keyCache : (s.pin fp key).keyCache = pinFirst s.keyCache fp key := rfl

@[simp] theorem pin_seenNonceStrs : (s.pin fp key).seenNonceStrs = s.seenNonceStrs := rfl

@[simp] theorem pin_federation : (s.pin fp key).federation = s.federation := rfl

@[simp] theorem remember_mail : (s.remember fp nonce now).mail = s.mail := rfl

@[simp] theorem remember_keyCache : (s.remember fp nonce now).keyCache = s.keyCache := rfl

@[simp] theorem remember_federation : (s.remember fp nonce now).federation = s.federation := rfl

end ServerState

theorem pinFirst_of_ne {cache : String → Option String} {fp key other : String}
    (different : other ≠ fp) : pinFirst cache fp key other = cache other := by
  unfold pinFirst
  split
  · rfl
  · exact Function.update_of_ne different _ _

/-- A key that is cached stays. -/
theorem pinFirst_of_some {cache : String → Option String} {fp key other old : String}
    (cached : cache other = some old) : pinFirst cache fp key other = some old := by
  by_cases same : other = fp
  · subst same
    unfold pinFirst
    split
    · exact cached
    · simp [cached]
  · rw [pinFirst_of_ne same, cached]

/-- A key that was not cached before is the one presented. -/
theorem pinFirst_of_none {cache : String → Option String} {fp key other new : String}
    (missing : cache other = none) (cached : pinFirst cache fp key other = some new) :
    other = fp ∧ new = key := by
  by_cases same : other = fp
  · subst same
    unfold pinFirst at cached
    split at cached
    · rw [missing] at cached
      cases cached
    · simp [missing] at cached
      exact ⟨rfl, cached.symm⟩
  · rw [pinFirst_of_ne same, missing] at cached
    cases cached

/-- The text of a key decodes to one under which the signature is genuine. -/
def KeyVerifies (P : Primitives) (key data sigB64 : String) : Prop :=
  ∃ vkBytes vk, P.base64Decode key = some vkBytes ∧ decodeVerifyingKey P vkBytes = .ok vk ∧
    Genuine vk data sigB64

variable {cfg} {s t : ServerState} {env : Env}

theorem verifyWithKey_iff {P : Primitives} {sigB64 data key : String} {sigBytes : Bytes}
    (bytes : P.base64Decode sigB64 = some sigBytes) :
    (verifyWithKey P sigBytes data key).toOption.getD false = true ↔
      KeyVerifies P key data sigB64 := by
  unfold verifyWithKey KeyVerifies Genuine decoded
  rw [bytes]
  cases P.base64Decode key with
  | none => simp [Except.toOption]
  | some vkBytes =>
    cases isKey : decodeVerifyingKey P vkBytes with
    | error e => simp [Except.toOption, isKey]
    | ok vk =>
      cases encoded : P.encodedSignatureTryFrom sigBytes with
      | none => simp [Except.toOption, isKey, encoded]
      | some encSig =>
        cases signature : P.signatureDecode encSig with
        | none => simp [Except.toOption, isKey, encoded, signature]
        | some sig => simp [Except.toOption, isKey, encoded, signature, verify]

theorem verifyMlDsa87Signature_iff {P : Primitives} {sigB64 data fp key : String}
    {cache : String → Option String} :
    (verifyMlDsa87Signature P sigB64 data fp cache key env).1.toOption.getD false = true ↔
      (key.isEmpty = true ∨ env.writeLocked = false) ∧ env.readLocked = false ∧
        ∃ pinned, pinFirst cache fp key fp = some pinned ∧ KeyVerifies P pinned data sigB64 := by
  unfold verifyMlDsa87Signature
  cases empty : key.isEmpty <;> cases writing : env.writeLocked <;>
    cases reading : env.readLocked <;> simp [Except.toOption]
  all_goals
    cases bytes : P.base64Decode sigB64 with
    | none => simp [KeyVerifies, Genuine, decoded, bytes]
    | some sigBytes =>
      cases pinFirst cache fp key fp with
      | none => simp
      | some pinned => simpa [Except.toOption] using verifyWithKey_iff bytes

/-- The cache after a check: the key that comes with it is pinned, unless the cache
is locked. -/
theorem verifyMlDsa87Signature_cache {P : Primitives} {sigB64 data fp key : String}
    {cache : String → Option String} :
    (verifyMlDsa87Signature P sigB64 data fp cache key env).2 =
      if !key.isEmpty && env.writeLocked then cache else pinFirst cache fp key := by
  unfold verifyMlDsa87Signature
  split
  · rfl
  · dsimp only
    split
    · rfl
    · cases P.base64Decode sigB64 with
      | none => rfl
      | some sigBytes => cases pinFirst cache fp key fp <;> rfl

theorem requireSignature_run (sigB64 data fp key text : String) :
    (requireSignature cfg sigB64 data fp key env text).run s =
      (require ((verifyMlDsa87Signature cfg.P sigB64 data fp s.keyCache key env).1.toOption.getD
          false) (.error text)).run
        { s with
          keyCache := (verifyMlDsa87Signature cfg.P sigB64 data fp s.keyCache key env).2 } :=
  rfl

theorem requireSignature_iff {sigB64 data fp key text : String} {u : Unit} :
    (requireSignature cfg sigB64 data fp key env text).run s = (.ok u, t) ↔
      ((key.isEmpty = true ∨ env.writeLocked = false) ∧ env.readLocked = false ∧
        ∃ pinned, pinFirst s.keyCache fp key fp = some pinned ∧
          KeyVerifies cfg.P pinned data sigB64) ∧
      s.pin fp key = t := by
  rw [requireSignature_run, run_require_iff, verifyMlDsa87Signature_iff,
    verifyMlDsa87Signature_cache]
  refine and_congr_right fun verified => ?_
  have unlocked : (!key.isEmpty && env.writeLocked) = false := by
    rcases verified.1 with empty | free
    · simp [empty]
    · simp [free]
  simp [unlocked, ServerState.pin]

theorem requireUnseen_run (fp nonce : String) (now : Duration) :
    (requireUnseen fp nonce now).run s =
      (require (checkAndRecordNonceStr (s.seenNonceStrs fp) nonce now.secs).1
        (.error "replay detected: nonce already seen")).run
        { s with
          seenNonceStrs := Function.update s.seenNonceStrs fp
            (checkAndRecordNonceStr (s.seenNonceStrs fp) nonce now.secs).2 } :=
  rfl

theorem requireUnseen_iff {fp nonce : String} {now : Duration} {u : Unit} :
    (requireUnseen fp nonce now).run s = (.ok u, t) ↔
      (∀ n ∈ s.seenNonceStrs fp, n.1 ≠ nonce) ∧ s.remember fp nonce now = t := by
  rw [requireUnseen_run, run_require_iff, checkAndRecordNonceStr]
  cases seen : (s.seenNonceStrs fp).any fun n => n.1 = nonce with
  | true =>
    simp only [if_true, Bool.false_eq_true, false_and, false_iff, not_and]
    intro unseen
    obtain ⟨n, member, same⟩ := List.any_eq_true.mp seen
    exact absurd (of_decide_eq_true same) (unseen n member)
  | false =>
    simp only [Bool.false_eq_true, if_false, true_and, ServerState.remember]
    refine (and_iff_right fun n member same => ?_).symm
    have := List.any_eq_false.mp seen n member
    simp [same] at this

theorem checkTimestampFreshness_iff {now : Duration} {timestamp : F64} {u : Unit} :
    (checkTimestampFreshness cfg now timestamp).run s = (.ok u, t) ↔
      isFresh now timestamp = true ∧ s = t :=
  run_require_iff

theorem requireHmac_iff {data providedHmac text : String} {u : Unit} :
    (requireHmac cfg data providedHmac text).run s = (.ok u, t) ↔
      (∀ secret, cfg.mail.sharedSecret = some secret →
        verifyHmac cfg data providedHmac secret = true) ∧ s = t := by
  rw [requireHmac, run_require_iff, Option.all_eq_true]

/-- The fingerprint and the key a request presents. -/
def presentedKey : Request → Option (String × String)
  | .store req => some (req.senderFp, req.senderVerifyingKey)
  | .fetch req => some (req.requesterFp, req.requesterVerifyingKey)
  | .status req => some (req.requesterFp, req.requesterVerifyingKey)
  | .ack req => some (req.requesterFp, req.requesterVerifyingKey)
  | .purge req => some (req.requesterFp, req.requesterVerifyingKey)
  | .readReceipt req => some (req.recipientFp, req.recipientVerifyingKey)
  | .delete req => some (req.recipientFp, req.recipientVerifyingKey)
  | .forward req => some (req.senderFp, "")
  | _ => none

/-- The sender and the text under which a request's nonce is remembered. -/
def rememberedNonce : Request → Option (String × String)
  | .store req => some (req.senderFp, req.nonce)
  | .fetch req => some (req.requesterFp, req.requesterFp ++ ":" ++ req.nonce)
  | .status req => some (req.requesterFp, "status:" ++ req.requesterFp ++ ":" ++ req.nonce)
  | .ack req => some (req.requesterFp, req.requesterFp ++ ":" ++ req.nonce)
  | .purge req => some (req.requesterFp, "purge:" ++ req.requesterFp ++ ":" ++ req.nonce)
  | .readReceipt req => some (req.recipientFp, "read:" ++ req.recipientFp ++ ":" ++ req.nonce)
  | .delete req => some (req.recipientFp, "delete:" ++ req.recipientFp ++ ":" ++ req.nonce)
  | .forward req => some (req.senderFp, toString req.nonce)
  | _ => none

/-- What a request does to the mail once its checks are passed, storing apart. -/
def mailOperation (env : Env) : Request → Option MailOperation
  | .ack req =>
    some (.mailbox (.ackMessage req.recipientNid req.seq env.keysAt env.mailAt env.sqlOk))
  | .purge req =>
    some (.mailbox (.purgeAllMessages req.recipientNid (some req.requesterFp) env.keysAt
      env.sqlOk))
  | .readReceipt req => some (.readReceipt req.recipientNid req.messageId env.mailAt env.sqlOk)
  | .delete req => some (.delete req.recipientNid req.messageId env.sqlOk)
  | _ => none

/-- The message a request asks the relay to store; one that is forwarded gets a tag of its own. -/
def storeRequest (cfg : ServerConfig) (env : Env) : Request → Option StoreRequest
  | .store req => some req
  | .forward req =>
    some (req.toStoreRequest
      ((recipientTag cfg.mail req.recipientNid (routingEpoch env.tagAt)).getD ""))
  | _ => none

/-- The requests that belong to the federation of relays, forwarding apart. -/
def changesFederation : Request → Bool
  | .routeAdvertise _ | .routeAdvertiseAck _ | .peerAuth _ _ | .peerAuthReply _ _ => true
  | _ => false

section

variable {R : ServerState → ServerState → Prop}

/-- A signature check changes nothing but the key cache. -/
theorem requireSignature_keeps (cached : ∀ s cache, R s { s with keyCache := cache })
    (sig data fp key text : String) :
    Keeps R (requireSignature cfg sig data fp key env text) := by
  intro s
  rw [requireSignature_run, run_require_state]
  exact cached s _

theorem requireUnseen_keeps (recorded : ∀ s seen, R s { s with seenNonceStrs := seen })
    (fp nonce : String) (now : Duration) : Keeps R (requireUnseen fp nonce now) := by
  intro s
  rw [requireUnseen_run, run_require_state]
  exact recorded s _

theorem store_run_state (q : MailboxStoreRequest) (s : ServerState) :
    ((store cfg q env).run s).2 =
      { s with mail := (storeMessage cfg.mail s.mail q env.keysAt env.mailAt env.dbError).2 } := by
  simp only [run, store]
  split <;> rfl

theorem store_keeps (mailed : ∀ s mail, R s { s with mail := mail }) (q : MailboxStoreRequest) :
    Keeps R (store cfg q env) := by
  intro s
  rw [store_run_state]
  exact mailed s _

end

section

variable {R : ServerState → ServerState → Prop} (refl : ∀ s, R s s)
  (trans : ∀ s t u, R s t → R t u → R s u)
include refl trans

theorem verifyStoreSignature_keeps {req : StoreRequest}
    (signature : ∀ sig data text,
      Keeps R (requireSignature cfg sig data req.senderFp req.senderVerifyingKey env text)) :
    Keeps R (verifyStoreSignature cfg req env) := by
  refine Keeps.bind trans (keeps_require refl _ _) fun _ => ?_
  split
  · exact signature _ _ _
  · exact keeps_require refl _ _

theorem storeChecks_keeps {req : StoreRequest}
    (signature : ∀ sig data text,
      Keeps R (requireSignature cfg sig data req.senderFp req.senderVerifyingKey env text))
    (unseen : Keeps R (requireUnseen req.senderFp req.nonce env.nonceAt)) :
    Keeps R (storeChecks cfg req env) :=
  Keeps.bind trans (verifyStoreSignature_keeps refl trans signature) fun _ =>
    Keeps.bind trans (keeps_require refl _ _) fun _ => unseen

/-- A relation that every single change of a handler keeps is kept by every handler. -/
theorem handleMessage_keeps {req : Request}
    (signature : ∀ fp key, presentedKey req = some (fp, key) → ∀ sig data text,
      Keeps R (requireSignature cfg sig data fp key env text))
    (unseen : ∀ fp nonce, rememberedNonce req = some (fp, nonce) →
      Keeps R (requireUnseen fp nonce env.nonceAt))
    (stored : ∀ q, storeRequest cfg env req = some q →
      Keeps R (store cfg q.toMailboxStoreRequest env))
    (mail : ∀ op, mailOperation env req = some op →
      Keeps R (modify fun s => { s with mail := (mailStep cfg.mail s.mail op).2 } : Serve Unit))
    (federation : ∀ f, changesFederation req = true → Keeps R (modifyFederation f))
    (taken : ∀ relayUrl, changesFederation req = true → Keeps R (takeChallenge relayUrl)) :
    Keeps R (handleMessage cfg req env) := by
  have hmac : ∀ data provided text, Keeps R (requireHmac cfg data provided text) :=
    fun _ _ _ => keeps_require refl _ _
  have fresh : ∀ now timestamp, Keeps R (checkTimestampFreshness cfg now timestamp) :=
    fun _ _ => keeps_require refl _ _
  cases req with
  | store req =>
    refine Keeps.bind trans (storeChecks_keeps refl trans (signature _ _ rfl) (unseen _ _ rfl))
      fun _ => ?_
    split
    · exact keeps_fail refl _
    · exact Keeps.bind trans (stored _ rfl) fun _ => keeps_pure refl _
  | fetch req =>
    exact Keeps.bind trans (keeps_require refl _ _) fun _ => Keeps.bind trans (fresh _ _) fun _ =>
      Keeps.bind trans (keeps_require refl _ _) fun _ =>
      Keeps.bind trans (signature _ _ rfl _ _ _) fun _ =>
      Keeps.bind trans (unseen _ _ rfl) fun _ => Keeps.bind trans (hmac _ _ _) fun _ =>
      keeps_asks refl _
  | status req =>
    exact Keeps.bind trans (fresh _ _) fun _ => Keeps.bind trans (unseen _ _ rfl) fun _ =>
      Keeps.bind trans (signature _ _ rfl _ _ _) fun _ =>
      Keeps.bind trans (keeps_require refl _ _) fun _ =>
      Keeps.bind trans (hmac _ _ _) fun _ => keeps_asks refl _
  | ack req =>
    exact Keeps.bind trans (keeps_require refl _ _) fun _ => Keeps.bind trans (fresh _ _) fun _ =>
      Keeps.bind trans (keeps_require refl _ _) fun _ =>
      Keeps.bind trans (signature _ _ rfl _ _ _) fun _ =>
      Keeps.bind trans (unseen _ _ rfl) fun _ =>
      Keeps.bind trans (mail _ rfl) fun _ => keeps_pure refl _
  | purge req =>
    exact Keeps.bind trans (hmac _ _ _) fun _ =>
      Keeps.bind trans (keeps_require refl _ _) fun _ => Keeps.bind trans (fresh _ _) fun _ =>
      Keeps.bind trans (keeps_require refl _ _) fun _ =>
      Keeps.bind trans (signature _ _ rfl _ _ _) fun _ =>
      Keeps.bind trans (unseen _ _ rfl) fun _ =>
      Keeps.bind trans (mail _ rfl) fun _ => keeps_pure refl _
  | readReceipt req =>
    exact Keeps.bind trans (signature _ _ rfl _ _ _) fun _ =>
      Keeps.bind trans (unseen _ _ rfl) fun _ => Keeps.bind trans (fresh _ _) fun _ =>
      Keeps.bind trans (mail _ rfl) fun _ => keeps_pure refl _
  | delete req =>
    exact Keeps.bind trans (signature _ _ rfl _ _ _) fun _ =>
      Keeps.bind trans (unseen _ _ rfl) fun _ => Keeps.bind trans (fresh _ _) fun _ =>
      Keeps.bind trans (mail _ rfl) fun _ => keeps_pure refl _
  | forward req =>
    change Keeps R (relayForward cfg req env)
    unfold relayForward
    split
    · exact keeps_pure refl _
    · split
      · exact keeps_pure refl _
      · refine Keeps.bind trans (keeps_asks refl _) fun unauthenticated => ?_
        split
        · exact keeps_pure refl _
        · split
          · exact keeps_pure refl _
          · split
            · exact keeps_pure refl _
            · exact Keeps.bind trans (storeChecks_keeps refl trans (signature _ _ rfl)
                (unseen _ _ rfl)) fun _ =>
                Keeps.bind trans (stored _ rfl) fun _ => keeps_pure refl _
  | routeAdvertise payload =>
    change Keeps R (routeAdvertise cfg payload env)
    unfold routeAdvertise
    split
    · exact keeps_pure refl _
    · split
      · exact keeps_fail refl _
      · exact Keeps.bind trans (federation _ rfl) fun _ => keeps_pure refl _
  | routeAdvertiseAck payload =>
    exact Keeps.bind trans (federation _ rfl) fun _ => keeps_pure refl _
  | whoHas nullId => exact keeps_asks refl _
  | peerAuth challenge relayUrl =>
    change Keeps R (peerAuth cfg challenge relayUrl env)
    unfold peerAuth
    split
    · exact keeps_pure refl _
    · exact Keeps.bind trans (federation _ rfl) fun _ => keeps_pure refl _
  | peerAuthReply response relayUrl =>
    change Keeps R (peerAuthReply cfg response relayUrl env)
    unfold peerAuthReply
    split
    · exact keeps_pure refl _
    · refine Keeps.bind trans (taken _ rfl) fun pending => ?_
      split
      · exact keeps_pure refl _
      · exact Keeps.bind trans (keeps_require refl _ _) fun _ =>
          Keeps.bind trans (federation _ rfl) fun _ => keeps_pure refl _

end

/-- The mail has moved by operations on it. -/
def MailMoves (cfg : ServerConfig) (s t : ServerState) : Prop :=
  ∃ ops, t.mail = final (mailStep cfg.mail) s.mail ops

theorem MailMoves.of_eq (same : t.mail = s.mail) : MailMoves cfg s t := ⟨[], same⟩

theorem MailMoves.trans (s t u : ServerState) (first : MailMoves cfg s t)
    (second : MailMoves cfg t u) : MailMoves cfg s u := by
  obtain ⟨ops, moved⟩ := first
  obtain ⟨ops', moved'⟩ := second
  exact ⟨ops ++ ops', by rw [final_append, ← moved, moved']⟩

theorem handleMessage_mailMoves (req : Request) :
    Keeps (MailMoves cfg) (handleMessage cfg req env) := by
  refine handleMessage_keeps (fun s => MailMoves.of_eq rfl) MailMoves.trans
    (fun fp key _ sig data => requireSignature_keeps (fun s cache => MailMoves.of_eq rfl) sig data
      fp key)
    (fun fp nonce _ => requireUnseen_keeps (fun s seen => MailMoves.of_eq rfl) fp nonce _)
    (fun q _ s => ?_) (fun op _ s => ⟨[op], rfl⟩) (fun f _ s => MailMoves.of_eq rfl)
    (fun relayUrl _ s => MailMoves.of_eq rfl)
  refine ⟨[.mailbox (.storeMessage q.toMailboxStoreRequest env.keysAt env.mailAt env.dbError)], ?_⟩
  rw [store_run_state]
  rfl

/-- Whatever messages a relay handles, its mail is where some operations of
`RelayReceipts` lead: what holds after all of these holds in every state of the server. -/
theorem final_mail (cfg : ServerConfig) (pool : Bool) (acts : List Action) :
    ∃ ops, (final (serverStep cfg) (started pool) acts).mail =
      final (mailStep cfg.mail) (empty pool) ops := by
  have moves : MailMoves cfg (started pool) (final (serverStep cfg) (started pool) acts) := by
    refine final_preserved (MailMoves cfg (started pool)) ?_ (MailMoves.of_eq rfl) acts
    intro s a reached
    refine MailMoves.trans _ _ _ reached ?_
    cases a with
    | message req env => exact handleMessage_mailMoves req s
    | connectToPeer relayUrl now => exact MailMoves.of_eq rfl
    | peerRoutes relayUrl now => exact MailMoves.of_eq rfl
    | cleanupExpiredRoutes now => exact MailMoves.of_eq rfl
    | cleanupExpired now sqlOk => exact ⟨[.mailbox (.cleanupExpired now sqlOk)], rfl⟩
  exact moves

end RelayServer

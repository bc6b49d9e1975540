import AddMessenger.DhtNode
import AddMessenger.Mealy
import AddMessenger.PeerHandshake

/-!
# What an accepted signature proves

`Process` is one process with its verifying-key cache: the signed frames it takes,
as a DHT node and as a client, in any order and on any number of connections, and
the other calls that change the cache. A frame is accepted when it passes its
signature gate and, for a record, is stored.

The gates ask whether `verify` returned, so a frame is only known to be signed if
whatever it presents and decodes is signed.
-/

namespace Forgery

open DhtNode Mealy PeerHandshake Protocol Signatures

variable {P : Primitives}

structure Process (P : Primitives) where
  node : NodeState P
  /-- The connections whose hello was accepted, with the peer's fingerprint. -/
  peers : Nat → Option String

inductive Event (P : Primitives) where
  | dhtPut (env : WireEnvelope) (answers : PutAnswers) (now : Nat)
  | blobPut (env : WireEnvelope) (answers : BlobAnswers) (now : Nat)
  /-- A text on an incoming connection: its hello, and from then on its messages. -/
  | inbound (conn : Nat) (text : String) (contacts : List String)
      (fetched : Option P.VerifyingKey) (clock : Nat → Nat)
  | helloAck (resp : String) (clock : Nat → Nat)
  | closed (conn : Nat)
  | cacheKey (fingerprint : String) (vk : P.VerifyingKey) (now : Nat)
  | pinKey (fingerprint : String) (vk : P.VerifyingKey) (now : Nat)

inductive Verdict where
  | accepted
  | rejected
  | ignored
  deriving DecidableEq

def replyVerdict (reply : DhtReply) : Verdict :=
  if reply.isFound then .accepted else .rejected

namespace Process

def withCache (s : Process P) (cache : KeyCache P) : Process P :=
  { s with node := { s.node with cache := cache } }

def withPeer (s : Process P) (conn : Nat) (peer : Option String) : Process P :=
  { s with peers := Function.update s.peers conn peer }

end Process

/-- The hello of a connection, up to its signature check. -/
def stepHello (J : SerdeJson) (s : Process P) (conn : Nat) (text : String)
    (contacts : List String) (fetched : Option P.VerifyingKey) (clock : Nat → Nat) :
    Verdict × Process P :=
  match receiveHello J s.node.cache text contacts fetched clock with
  | (.ok peerFp, cache) => (.accepted, (s.withCache cache).withPeer conn (some peerFp))
  | (.error _, cache) => (.rejected, s.withCache cache)

/-- A connection takes one p2p-message and is closed. -/
def stepMessage (J : SerdeJson) (s : Process P) (conn : Nat) (peerFp text : String)
    (clock : Nat → Nat) : Verdict × Process P :=
  match receiveMessage J s.node.cache peerFp text clock with
  | (none, cache) => (.ignored, s.withCache cache)
  | (some (.ok ()), cache) => (.accepted, (s.withCache cache).withPeer conn none)
  | (some (.error _), cache) => (.rejected, (s.withCache cache).withPeer conn none)

def step (J : SerdeJson) (argon2id : Argon2id) (s : Process P) : Event P → Verdict × Process P
  | .dhtPut env answers now =>
    let (reply, node) := handlePut argon2id s.node env answers now
    (replyVerdict reply, { s with node := node })
  | .blobPut env answers now =>
    let (reply, cache) := handleBlobPut s.node.cache env answers now
    (replyVerdict reply, s.withCache cache)
  | .inbound conn text contacts fetched clock =>
    match s.peers conn with
    | none => stepHello J s conn text contacts fetched clock
    | some peerFp => stepMessage J s conn peerFp text clock
  | .helloAck resp clock =>
    match receiveHelloAck J s.node.cache resp clock with
    | (.ok _, cache) => (.accepted, s.withCache cache)
    | (.error _, cache) => (.rejected, s.withCache cache)
  | .closed conn => (.ignored, s.withPeer conn none)
  | .cacheKey fingerprint vk now =>
    (.ignored, s.withCache (cacheVerifyingKey s.node.cache fingerprint vk now))
  | .pinKey fingerprint vk now =>
    (.ignored, s.withCache (pinVerifyingKey s.node.cache fingerprint vk now).2)

/-- The bytes a frame claims are signed, the signature it carries and the key it is
checked against. -/
structure Presented (P : Primitives) where
  key : P.VerifyingKey
  data : String
  sig : String

def presentedHello (J : SerdeJson) (cache : KeyCache P) (hello : Json)
    (fetched : Option P.VerifyingKey) (clock : Nat → Nat) : Option (Presented P) :=
  let payload := framePayload hello
  let fp := claimedFp payload
  (cachedKey (bindHelloKey cache fp payload fetched clock).2 fp).map fun vk =>
    ⟨vk, helloSigPayload J payload, frameSig hello⟩

def presentedAck (J : SerdeJson) (cache : KeyCache P) (ack : Json) (clock : Nat → Nat) :
    Option (Presented P) :=
  let payload := framePayload ack
  let fp := claimedFp payload
  (cachedKey (bindAckKey cache fp payload clock).2 fp).map fun vk =>
    ⟨vk, helloAckSigData J payload, frameSig ack⟩

def presentedMessage (J : SerdeJson) (cache : KeyCache P) (peerFp : String) (msg : Json) :
    Option (Presented P) :=
  (cachedKey cache peerFp).map fun vk => ⟨vk, msgSigPayload J (framePayload msg), frameSig msg⟩

def presentedPut (cache : KeyCache P) (env : WireEnvelope) : Option (Presented P) :=
  (publisherKey cache (putRecord env).publisherFp env).map fun vk =>
    ⟨vk, (putRecord env).signData, env.sig⟩

/-- Only a `cert:` bundle is signed. -/
def presentedBlob (cache : KeyCache P) (env : WireEnvelope) : Option (Presented P) :=
  match env.payloadStr "key", env.payloadStr "value" with
  | some key, some value =>
    let publisherFp := (env.payloadStr "publisher_fp").getD ""
    if startsWith key "cert:" then
      (publisherKey cache publisherFp env).map fun vk =>
        ⟨vk, certSignData key value publisherFp, (env.payloadStr "sig").getD ""⟩
    else none
  | _, _ => none

def presented (J : SerdeJson) (s : Process P) : Event P → Option (Presented P)
  | .dhtPut env _ _ => presentedPut s.node.cache env
  | .blobPut env _ _ => presentedBlob s.node.cache env
  | .inbound conn text _ fetched clock =>
    (J.fromStr text).toOption.bind fun frame =>
      match s.peers conn with
      | none => presentedHello J s.node.cache frame fetched clock
      | some peerFp => presentedMessage J s.node.cache peerFp frame
  | .helloAck resp clock =>
    (J.fromStr resp).toOption.bind fun ack => presentedAck J s.node.cache ack clock
  | _ => none

/-- Blobs other than `cert:` bundles are stored unsigned. -/
def SignedKind : Event P → Prop
  | .blobPut env _ _ => startsWith ((env.payloadStr "key").getD "") "cert:" = true
  | _ => True

/-- What the frame presents is signed, if it is a signature at all. -/
def PresentsUnforged (J : SerdeJson) (s : Process P) (e : Event P) : Prop :=
  ∀ p, presented J s e = some p → Unforged p.key p.data p.sig

/-- If the frame is accepted, its bytes are signed with the key it is checked against. -/
def AcceptedSigned (J : SerdeJson) (argon2id : Argon2id) (s : Process P) (e : Event P) : Prop :=
  (step J argon2id s e).1 = .accepted → SignedKind e →
    ∃ p, presented J s e = some p ∧ Genuine p.key p.data p.sig

/-- The frame presents something that the gate lets through. -/
def Passes (shown : Option (Presented P)) : Prop :=
  ∃ p, shown = some p ∧ verifySignatureWithVerifyingKey p.data p.sig p.key = true

/-- A gate that looks a key up and checks with it. -/
theorem passes_map {key : Option P.VerifyingKey} {data sig : String}
    (checked : ∃ vk, key = some vk ∧ verifySignatureWithVerifyingKey data sig vk = true) :
    Passes (key.map fun vk => (⟨vk, data, sig⟩ : Presented P)) := by
  obtain ⟨vk, found, accepted⟩ := checked
  exact ⟨⟨vk, data, sig⟩, by rw [found, Option.map_some], accepted⟩

theorem isFound_of_accepted {reply : DhtReply} (accepted : replyVerdict reply = .accepted) :
    reply.isFound = true := by
  cases found : reply.isFound with
  | true => rfl
  | false => simp [replyVerdict, found] at accepted

section

variable {J : SerdeJson} {argon2id : Argon2id} {s : Process P} {clock : Nat → Nat}

theorem passes_put {env : WireEnvelope} {answers : PutAnswers} {now : Nat}
    (stored : (handlePut argon2id s.node env answers now).1.isFound = true) :
    Passes (presentedPut s.node.cache env) :=
  passes_map (verifyDhtPutSignature_iff.mp (handlePut_found stored))

theorem passes_blob {cache : KeyCache P} {env : WireEnvelope} {answers : BlobAnswers} {now : Nat}
    (cert : startsWith ((env.payloadStr "key").getD "") "cert:" = true)
    (stored : (handleBlobPut cache env answers now).1.isFound = true) :
    Passes (presentedBlob cache env) := by
  obtain ⟨key, value, named, given, checked⟩ := handleBlobPut_found stored
  rw [named, Option.getD_some] at cert
  simp only [presentedBlob, named, given, cert, if_true]
  exact passes_map (verifyDhtPutSignature_iff.mp (checked cert))

theorem passes_hello {conn : Nat} {text : String} {contacts : List String}
    {fetched : Option P.VerifyingKey}
    (accepted : (stepHello J s conn text contacts fetched clock).1 = .accepted) :
    ∃ hello, J.fromStr text = .ok hello ∧
      Passes (presentedHello J s.node.cache hello fetched clock) := by
  simp only [stepHello] at accepted
  split at accepted
  · rename_i peerFp cache received
    obtain ⟨hello, parsed, -, checked⟩ := receiveHello_ok (congrArg Prod.fst received)
    exact ⟨hello, parsed, passes_map (verifySignature_iff.mp checked).2⟩
  · exact nomatch accepted

theorem passes_message {conn : Nat} {peerFp text : String}
    (accepted : (stepMessage J s conn peerFp text clock).1 = .accepted) :
    ∃ msg, J.fromStr text = .ok msg ∧ Passes (presentedMessage J s.node.cache peerFp msg) := by
  simp only [stepMessage] at accepted
  split at accepted
  · exact nomatch accepted
  · rename_i cache received
    obtain ⟨msg, parsed, checked⟩ := receiveMessage_ok (congrArg Prod.fst received)
    exact ⟨msg, parsed, passes_map (verifyFromPeer_iff.mp checked)⟩
  · exact nomatch accepted

theorem passes_ack {resp ackFp : String}
    (accepted : (receiveHelloAck J s.node.cache resp clock).1 = .ok ackFp) :
    ∃ ack, J.fromStr resp = .ok ack ∧ Passes (presentedAck J s.node.cache ack clock) := by
  obtain ⟨ack, parsed, checked⟩ := receiveHelloAck_ok accepted
  exact ⟨ack, parsed, passes_map (verifySignature_iff.mp checked).2⟩

/-- Every accepted frame went through its gate with what it presents. -/
theorem passes_of_accepted {e : Event P} (accepted : (step J argon2id s e).1 = .accepted)
    (kind : SignedKind e) : Passes (presented J s e) := by
  cases e with
  | dhtPut env answers now => exact passes_put (isFound_of_accepted accepted)
  | blobPut env answers now => exact passes_blob kind (isFound_of_accepted accepted)
  | inbound conn text contacts fetched clock =>
    simp only [step] at accepted
    cases known : s.peers conn with
    | none =>
      simp only [known] at accepted
      obtain ⟨hello, parsed, passes⟩ := passes_hello accepted
      simpa only [presented, parsed, known, Except.toOption, Option.bind_some] using passes
    | some peerFp =>
      simp only [known] at accepted
      obtain ⟨msg, parsed, passes⟩ := passes_message accepted
      simpa only [presented, parsed, known, Except.toOption, Option.bind_some] using passes
  | helloAck resp clock =>
    simp only [step] at accepted
    split at accepted
    · rename_i ackFp cache received
      obtain ⟨ack, parsed, passes⟩ := passes_ack (congrArg Prod.fst received)
      simpa only [presented, parsed, Except.toOption, Option.bind_some] using passes
    · exact nomatch accepted
  | closed conn => exact nomatch accepted
  | cacheKey fingerprint vk now => exact nomatch accepted
  | pinKey fingerprint vk now => exact nomatch accepted

/-- One step: a frame that presents nothing forged is accepted only if signed. -/
theorem acceptedSigned_of_unforged {e : Event P} (unforged : PresentsUnforged J s e) :
    AcceptedSigned J argon2id s e := by
  intro accepted kind
  obtain ⟨p, shown, passed⟩ := passes_of_accepted accepted kind
  refine ⟨p, shown, ?_⟩
  have decodes := verifySignatureWithVerifyingKey_iff.mp passed
  exact (genuine_iff_unforged decodes).mpr (unforged p shown)

end

theorem verifiedWithKey_genuine_iff {data sig : String} {vk : P.VerifyingKey} :
    (verifySignatureWithVerifyingKey data sig vk = true → Genuine vk data sig) ↔
      Unforged vk data sig := by
  rw [verifySignatureWithVerifyingKey_iff]
  constructor
  · intro sound signature found
    have some : (decoded (P := P) sig).isSome = true := by rw [found, Option.isSome_some]
    exact (genuine_iff_unforged some).mp (sound some) signature found
  · intro unforged some
    exact (genuine_iff_unforged some).mpr unforged

theorem verified_genuine_iff {cache : KeyCache P} {data sig fp : String} {now : Nat} :
    ((verifySignature cache data sig fp now).1 = true →
        ∃ vk, cachedKey cache fp = some vk ∧ Genuine vk data sig) ↔
      (validateFingerprint fp = true → ∀ vk, cachedKey cache fp = some vk →
        Unforged vk data sig) := by
  rw [verifySignature_iff]
  constructor
  · intro sound valid vk cached
    refine verifiedWithKey_genuine_iff.mp ?_
    intro accepted
    obtain ⟨other, also, genuine⟩ := sound ⟨valid, vk, cached, accepted⟩
    rw [cached] at also
    exact Option.some.inj also ▸ genuine
  · rintro unforged ⟨valid, vk, cached, accepted⟩
    exact ⟨vk, cached, verifiedWithKey_genuine_iff.mpr (unforged valid vk cached) accepted⟩

/-- The two functions accept only genuine signatures exactly where nothing that
decodes is a forgery, and in a run of such frames every accepted one is signed. -/
theorem accepted_signed_where_unforged (J : SerdeJson) (argon2id : Argon2id) :
    (∀ (data sig : String) (vk : P.VerifyingKey),
      (verifySignatureWithVerifyingKey data sig vk = true → Genuine vk data sig) ↔
        Unforged vk data sig) ∧
    (∀ (cache : KeyCache P) (data sig fp : String) (now : Nat),
      ((verifySignature cache data sig fp now).1 = true →
          ∃ vk, cachedKey cache fp = some vk ∧ Genuine vk data sig) ↔
        (validateFingerprint fp = true → ∀ vk, cachedKey cache fp = some vk →
          Unforged vk data sig)) ∧
    (∀ (s : Process P) (events : List (Event P)),
      Along (step J argon2id) (PresentsUnforged J) s events →
        Along (step J argon2id) (AcceptedSigned J argon2id) s events) := by
  refine ⟨fun _ _ _ => verifiedWithKey_genuine_iff, fun _ _ _ _ _ => verified_genuine_iff, ?_⟩
  intro s events unforged
  exact along_mono (fun _ _ here => acceptedSigned_of_unforged here) unforged

/-- A bundle of the key 75, whose fingerprint is eight times the letter K. -/
def certBundle (sig : String) : WireEnvelope where
  msgType := "blob-put"
  payload := .object [("key", .string "cert:k"), ("value", .string "v"), ("sig", .string sig),
    ("publisher_fp", .string "KKKKKKKK"), ("publisher_verifying_key", .string "K")]
  sig := ""

def storedBlob : BlobAnswers := { salt := 7, seqMs := 1000, put := some true }

def publish (sig : String) : Event sumScheme := .blobPut (certBundle sig) storedBlob 0

def idle : Process sumScheme := { node := { cache := ∅, seenNonces := [] }, peers := fun _ => none }

def noJson : SerdeJson := { display := fun _ => "", fromStr := fun _ => .error "EOF" }

def noArgon2id : Argon2id := fun _ _ => .error "memory"

def certData : String := "cert:k|v|KKKKKKKK"

theorem presented_publish (sig : String) :
    presented noJson idle (publish sig) = some ⟨(75 : UInt8), certData, sig⟩ := by
  rfl

theorem unforged_publish : PresentsUnforged noJson idle (publish "d") := by
  intro p shown
  rw [presented_publish] at shown
  cases shown
  intro sig found
  cases found
  decide

/-- A bundle with its owner's signature is stored, and its owner signed it. -/
theorem accepted_signed_where_unforged_publish :
    (step noJson noArgon2id idle (publish "d")).1 = .accepted ∧
      Genuine (P := sumScheme) (75 : UInt8) certData "d" := by
  have stored : (step noJson noArgon2id idle (publish "d")).1 = .accepted := by decide
  refine ⟨stored, ?_⟩
  have signed := (accepted_signed_where_unforged noJson noArgon2id).2.2 idle [publish "d"]
    ⟨unforged_publish, trivial⟩
  obtain ⟨p, shown, genuine⟩ := signed.1 stored (Eq.refl true)
  rw [presented_publish] at shown
  cases shown
  exact genuine

theorem not_genuine_forged : ¬ Genuine (P := sumScheme) (75 : UInt8) certData "x" := by
  rintro ⟨sig, found, valid⟩
  cases found
  exact absurd valid (by decide)

/-- Any other byte in the place of that signature passes both functions, and the
bundle it is attached to is stored. -/
theorem forged_signature_accepted :
    (verifySignatureWithVerifyingKey (P := sumScheme) certData "x" (75 : UInt8) = true ∧
      ¬ Genuine (P := sumScheme) (75 : UInt8) certData "x") ∧
    ((verifySignature (cacheVerifyingKey (P := sumScheme) ∅ reflectorFingerprint (75 : UInt8) 0)
        certData "x" reflectorFingerprint 1).1 = true ∧
      ¬ ∃ vk, cachedKey (cacheVerifyingKey (P := sumScheme) ∅ reflectorFingerprint (75 : UInt8) 0)
        reflectorFingerprint = some vk ∧ Genuine vk certData "x") ∧
    ¬ Along (step noJson noArgon2id) (AcceptedSigned noJson noArgon2id) idle [publish "x"] := by
  refine ⟨⟨by decide, not_genuine_forged⟩, ⟨by decide, ?_⟩, ?_⟩
  · rintro ⟨vk, cached, genuine⟩
    cases cached
    exact not_genuine_forged genuine
  · intro signed
    obtain ⟨p, shown, genuine⟩ := signed.1 (by decide) (Eq.refl true)
    rw [presented_publish] at shown
    cases shown
    exact not_genuine_forged genuine

end Forgery

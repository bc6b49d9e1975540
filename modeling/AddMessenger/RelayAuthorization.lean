import AddMessenger.RelayServer

/-!
# Who may use a mailbox

Every request that reads, marks or reduces a mailbox is checked against the first
verifying key any request brought for its fingerprint, and all but read receipts and
deletions against the null id of that fingerprint. What the first key was is not
checked: it is trusted on first use.
-/

namespace RelayAuthorization

open Doubles Handlers Handlers.Handler Mealy RelayMailbox RelayServer Signatures

/-- What a request for a mailbox says: whose it is, who asks, and what was signed. -/
structure Access where
  nid : String
  fp : String
  data : String
  sig : String

variable (cfg : ServerConfig)

/-- The requests that read, mark or reduce a mailbox. -/
def access : Request → Option Access
  | .fetch req => some ⟨req.recipientNid, req.requesterFp,
    ":".intercalate ["relay-fetch", req.recipientNid, cfg.display req.timestamp, req.nonce],
    req.senderSig⟩
  | .status req => some ⟨req.recipientNid, req.requesterFp,
    ":".intercalate ["relay-status", req.recipientNid, cfg.display req.timestamp, req.nonce],
    req.senderSig⟩
  | .ack req => some ⟨req.recipientNid, req.requesterFp,
    ":".intercalate ["relay-ack", req.recipientNid, toString req.seq, cfg.display req.timestamp,
      req.nonce], req.senderSig⟩
  | .purge req => some ⟨req.recipientNid, req.requesterFp,
    ":".intercalate ["relay-purge", req.recipientNid, cfg.display req.timestamp, req.nonce],
    req.senderSig⟩
  | .readReceipt req => some ⟨req.recipientNid, req.recipientFp,
    receiptSigningData cfg req.toRelayDeleteRequest, req.signature⟩
  | .delete req => some ⟨req.recipientNid, req.recipientFp, receiptSigningData cfg req,
    req.signature⟩
  | _ => none

/-- The requests whose fingerprint is compared with the null id. -/
def ownerChecked : Request → Bool
  | .fetch _ | .status _ | .ack _ | .purge _ => true
  | _ => false

/-- The request that put the first key for a fingerprint into the cache brought this one. -/
def FirstPresented (pool : Bool) (acts : List Action) (fp key : String) : Prop :=
  ∃ early req env late, acts = early ++ .message req env :: late ∧
    (final (serverStep cfg) (started pool) early).keyCache fp = none ∧
    presentedKey req = some (fp, key) ∧
    (final (serverStep cfg) (started pool) (early ++ [.message req env])).keyCache fp = some key

variable {cfg} {s t : ServerState} {env : Env}

/-- An accepted request is signed under the key that is then cached for its fingerprint,
which is the owner's where that is checked. -/
theorem accepted_access {req : Request} {a : Access} (isAccess : access cfg req = some a)
    {reply : Reply} (accepted : (handleMessage cfg req env).run s = (.ok reply, t)) :
    (ownerChecked req = true → computeNullId cfg.P a.fp = a.nid) ∧
      ∃ key, t.keyCache a.fp = some key ∧ KeyVerifies cfg.P key a.data a.sig := by
  cases req with
  | fetch req =>
    obtain rfl := Option.some.inj isAccess
    simp only [handleMessage, relayFetch, run_bind_iff, run_require_iff,
      checkTimestampFreshness_iff, requireSignature_iff, requireUnseen_iff, requireHmac_iff,
      run_asks_iff] at accepted
    obtain ⟨_, _, ⟨-, rfl⟩, _, _, ⟨-, rfl⟩, _, _, ⟨owns, rfl⟩, _, _, ⟨⟨-, -, key, pinned, genuine⟩,
      rfl⟩, _, _, ⟨-, rfl⟩, _, _, ⟨-, rfl⟩, -, rfl⟩ := accepted
    exact ⟨fun _ => of_decide_eq_true owns, key, pinned, genuine⟩
  | status req =>
    obtain rfl := Option.some.inj isAccess
    simp only [handleMessage, relayStatus, run_bind_iff, run_require_iff,
      checkTimestampFreshness_iff, requireSignature_iff, requireUnseen_iff, requireHmac_iff,
      run_asks_iff] at accepted
    obtain ⟨_, _, ⟨-, rfl⟩, _, _, ⟨-, rfl⟩, _, _, ⟨⟨-, -, key, pinned, genuine⟩, rfl⟩, _, _,
      ⟨owns, rfl⟩, _, _, ⟨-, rfl⟩, -, rfl⟩ := accepted
    exact ⟨fun _ => of_decide_eq_true owns, key, pinned, genuine⟩
  | ack req =>
    obtain rfl := Option.some.inj isAccess
    simp only [handleMessage, relayAck, run_bind_iff, run_require_iff,
      checkTimestampFreshness_iff, requireSignature_iff, requireUnseen_iff, run_modify_iff,
      run_pure_iff] at accepted
    obtain ⟨_, _, ⟨-, rfl⟩, _, _, ⟨-, rfl⟩, _, _, ⟨owns, rfl⟩, _, _, ⟨⟨-, -, key, pinned, genuine⟩,
      rfl⟩, _, _, ⟨-, rfl⟩, _, _, rfl, -, rfl⟩ := accepted
    exact ⟨fun _ => of_decide_eq_true owns, key, pinned, genuine⟩
  | purge req =>
    obtain rfl := Option.some.inj isAccess
    simp only [handleMessage, relayPurge, run_bind_iff, run_require_iff,
      checkTimestampFreshness_iff, requireSignature_iff, requireUnseen_iff, requireHmac_iff,
      run_modify_iff, run_pure_iff] at accepted
    obtain ⟨_, _, ⟨-, rfl⟩, _, _, ⟨-, rfl⟩, _, _, ⟨-, rfl⟩, _, _, ⟨owns, rfl⟩, _, _,
      ⟨⟨-, -, key, pinned, genuine⟩, rfl⟩, _, _, ⟨-, rfl⟩, _, _, rfl, -, rfl⟩ := accepted
    exact ⟨fun _ => of_decide_eq_true owns, key, pinned, genuine⟩
  | readReceipt req =>
    obtain rfl := Option.some.inj isAccess
    simp only [handleMessage, relayReadReceipt, run_bind_iff, checkTimestampFreshness_iff,
      requireSignature_iff, requireUnseen_iff, run_modify_iff, run_pure_iff] at accepted
    obtain ⟨_, _, ⟨⟨-, -, key, pinned, genuine⟩, rfl⟩, _, _, ⟨-, rfl⟩, _, _, ⟨-, rfl⟩, _, _, rfl,
      -, rfl⟩ := accepted
    exact ⟨fun owned => absurd owned Bool.false_ne_true, key, pinned, genuine⟩
  | delete req =>
    obtain rfl := Option.some.inj isAccess
    simp only [handleMessage, relayDelete, run_bind_iff, checkTimestampFreshness_iff,
      requireSignature_iff, requireUnseen_iff, run_modify_iff, run_pure_iff] at accepted
    obtain ⟨_, _, ⟨⟨-, -, key, pinned, genuine⟩, rfl⟩, _, _, ⟨-, rfl⟩, _, _, ⟨-, rfl⟩, _, _, rfl,
      -, rfl⟩ := accepted
    exact ⟨fun owned => absurd owned Bool.false_ne_true, key, pinned, genuine⟩
  | store | forward | routeAdvertise | routeAdvertiseAck | whoHas | peerAuth | peerAuthReply =>
    cases isAccess

/-- A refused request for a mailbox leaves all mail as it was. -/
theorem refused_access {req : Request} {a : Access} (isAccess : access cfg req = some a) :
    KeepsOnError (Unchanged ServerState.mail) (handleMessage cfg req env) := by
  have trans := Unchanged.trans ServerState.mail
  have checks : ∀ condition e,
      Keeps (Unchanged ServerState.mail) (require condition e : Serve Unit) :=
    keeps_require (Unchanged.refl _)
  have signed : ∀ sig data fp key text,
      Keeps (Unchanged ServerState.mail) (requireSignature cfg sig data fp key env text) :=
    requireSignature_keeps fun _ _ => rfl
  have unseen : ∀ fp nonce now, Keeps (Unchanged ServerState.mail) (requireUnseen fp nonce now) :=
    requireUnseen_keeps fun _ _ => rfl
  cases req with
  | fetch req =>
    exact .bind trans (checks _ _) fun _ => .bind trans (checks _ _) fun _ =>
      .bind trans (checks _ _) fun _ =>
      .bind trans (signed _ _ _ _ _) fun _ =>
      .bind trans (unseen _ _ _) fun _ =>
      .bind trans (checks _ _) fun _ => keepsOnError_asks _
  | status req =>
    exact .bind trans (checks _ _) fun _ => .bind trans (unseen _ _ _) fun _ =>
      .bind trans (signed _ _ _ _ _) fun _ =>
      .bind trans (checks _ _) fun _ => .bind trans (checks _ _) fun _ => keepsOnError_asks _
  | ack req =>
    exact .bind trans (checks _ _) fun _ => .bind trans (checks _ _) fun _ =>
      .bind trans (checks _ _) fun _ =>
      .bind trans (signed _ _ _ _ _) fun _ =>
      .bind trans (unseen _ _ _) fun _ => keepsOnError_modify_pure _
  | purge req =>
    exact .bind trans (checks _ _) fun _ => .bind trans (checks _ _) fun _ =>
      .bind trans (checks _ _) fun _ => .bind trans (checks _ _) fun _ =>
      .bind trans (signed _ _ _ _ _) fun _ =>
      .bind trans (unseen _ _ _) fun _ => keepsOnError_modify_pure _
  | readReceipt req =>
    exact .bind trans (signed _ _ _ _ _) fun _ =>
      .bind trans (unseen _ _ _) fun _ =>
      .bind trans (checks _ _) fun _ => keepsOnError_modify_pure _
  | delete req =>
    exact .bind trans (signed _ _ _ _ _) fun _ =>
      .bind trans (unseen _ _ _) fun _ =>
      .bind trans (checks _ _) fun _ => keepsOnError_modify_pure _
  | store | forward | routeAdvertise | routeAdvertiseAck | whoHas | peerAuth | peerAuthReply =>
    cases isAccess

/-- Cached keys stay, and a new one is the one the request presents. -/
def CacheMoves (req : Request) (s t : ServerState) : Prop :=
  ∀ fp, (∀ key, s.keyCache fp = some key → t.keyCache fp = some key) ∧
    (s.keyCache fp = none → ∀ key, t.keyCache fp = some key → presentedKey req = some (fp, key))

theorem CacheMoves.of_eq {req : Request} (same : t.keyCache = s.keyCache) :
    CacheMoves req s t := by
  intro fp
  rw [same]
  refine ⟨fun key cached => cached, fun missing key cached => ?_⟩
  rw [missing] at cached
  cases cached

theorem CacheMoves.trans {req : Request} (s t u : ServerState) (first : CacheMoves req s t)
    (second : CacheMoves req t u) : CacheMoves req s u := by
  intro fp
  refine ⟨fun key cached => (second fp).1 key ((first fp).1 key cached), ?_⟩
  intro missing key cached
  cases between : t.keyCache fp with
  | none => exact (second fp).2 between key cached
  | some old =>
    have kept := (second fp).1 old between
    rw [cached] at kept
    exact Option.some.inj kept ▸ (first fp).2 missing old between

theorem requireSignature_cacheMoves {req : Request} {fp key : String}
    (presented : presentedKey req = some (fp, key)) (sig data text : String) :
    Keeps (CacheMoves req) (requireSignature cfg sig data fp key env text) := by
  intro s
  have moved : (run (requireSignature cfg sig data fp key env text) s).2.keyCache =
      (verifyMlDsa87Signature cfg.P sig data fp s.keyCache key env).2 := by
    rw [requireSignature_run, run_require_state]
  rw [verifyMlDsa87Signature_cache] at moved
  split at moved
  · exact CacheMoves.of_eq moved
  · intro other
    rw [moved]
    refine ⟨fun old cached => pinFirst_of_some cached, fun missing new cached => ?_⟩
    obtain ⟨rfl, rfl⟩ := pinFirst_of_none missing cached
    exact presented

theorem handleMessage_cacheMoves (cfg : ServerConfig) (req : Request) (env : Env) :
    Keeps (CacheMoves req) (handleMessage cfg req env) := by
  refine handleMessage_keeps (fun s => CacheMoves.of_eq rfl) CacheMoves.trans
    (fun fp key presented sig data text => requireSignature_cacheMoves presented sig data text)
    (fun fp nonce _ => requireUnseen_keeps (fun s seen => CacheMoves.of_eq rfl) fp nonce _)
    (fun q _ => store_keeps (fun s mail => CacheMoves.of_eq rfl) _)
    (fun op _ s => CacheMoves.of_eq rfl)
    (fun f _ s => CacheMoves.of_eq rfl) (fun relayUrl _ s => CacheMoves.of_eq rfl)

/-- Every cached key was presented by the action that put it there. -/
theorem firstPresented_of_cached (pool : Bool) (acts : List Action) {fp key : String}
    (cached : (final (serverStep cfg) (started pool) acts).keyCache fp = some key) :
    FirstPresented cfg pool acts fp key := by
  -- induction from the end of the run: either the last action put the key there or it
  -- was there before it
  induction acts using List.reverseRecOn with
  | nil => cases cached
  | append_singleton early a ih =>
    have extend : FirstPresented cfg pool early fp key →
        FirstPresented cfg pool (early ++ [a]) fp key := by
      rintro ⟨front, req, env, late, rfl, first⟩
      exact ⟨front, req, env, late ++ [a], by simp, first⟩
    have after := cached
    rw [final_append] at cached
    cases a with
    | message req env =>
      have moves : CacheMoves req (final (serverStep cfg) (started pool) early) _ :=
        handleMessage_cacheMoves cfg req env _
      cases before : (final (serverStep cfg) (started pool) early).keyCache fp with
      | none =>
        exact ⟨early, req, env, [], rfl, before, (moves fp).2 before key cached, after⟩
      | some old =>
        have same : some old = some key := ((moves fp).1 old before).symm.trans cached
        exact extend (ih (before.trans same))
    | connectToPeer relayUrl now => exact extend (ih cached)
    | peerRoutes relayUrl now => exact extend (ih cached)
    | cleanupExpiredRoutes now => exact extend (ih cached)
    | cleanupExpired now sqlOk => exact extend (ih cached)

/-- In every run from an empty cache, a request that reads, marks or reduces a mailbox
is accepted only with a signature under the first key presented for its fingerprint, and
all but receipts and deletions only with a fingerprint of the null id; a refused one
leaves the mail alone. -/
theorem mailbox_access_authorized (cfg : ServerConfig) (pool : Bool) (front : List Action)
    (req : Request) (env : Env) (a : Access) (isAccess : access cfg req = some a) :
    (∀ reply, (serverStep cfg (final (serverStep cfg) (started pool) front)
          (.message req env)).1 = .ok reply →
        (ownerChecked req = true → computeNullId cfg.P a.fp = a.nid) ∧
          ∃ key, FirstPresented cfg pool (front ++ [.message req env]) a.fp key ∧
            KeyVerifies cfg.P key a.data a.sig) ∧
      ∀ e, (serverStep cfg (final (serverStep cfg) (started pool) front)
          (.message req env)).1 = .error e →
        (serverStep cfg (final (serverStep cfg) (started pool) front) (.message req env)).2.mail =
          (final (serverStep cfg) (started pool) front).mail := by
  constructor
  · intro reply accepted
    obtain ⟨owns, key, cached, genuine⟩ := accepted_access isAccess (Prod.ext accepted rfl)
    refine ⟨owns, key, firstPresented_of_cached pool _ ?_, genuine⟩
    rw [final_append]
    exact cached
  · intro e refused
    exact refused_access isAccess _ e _ (Prod.ext refused rfl)

/-- A fetch of the mailbox of `fp-v`, signed with some key that comes with it. -/
def fetchWith (key : UInt8) : MailboxFetchRequest where
  recipientNid := computeNullId sumScheme "fp-v"
  authHmac := ""
  senderSig := sumSignature key
    (":".intercalate ["relay-fetch", computeNullId sumScheme "fp-v", "1000", "n"])
  requesterFp := "fp-v"
  timestamp := momentStamp
  nonce := "n"
  requesterVerifyingKey := String.singleton (Char.ofUInt8 key)

/-- A message for the mailbox of `fp-v`, from a sealed sender. -/
def sealedStore : StoreRequest where
  recipientNid := computeNullId sumScheme "fp-v"
  senderNid := "anonymous"
  senderFp := ""
  signedBlob := "blob"
  seq := 1
  senderSig := "sig"
  timestamp := momentStamp
  nonce := "m"
  senderVerifyingKey := ""
  sealedSender := "sealed"
  recipientTag := ""

/-- The blobs an answer returns. -/
def returnedBlobs : Except Refusal Reply → List String
  | .ok (.entries entries) => entries.map (·.signedBlob)
  | _ => []

theorem accepted_of_returnedBlobs {answer : Except Refusal Reply}
    (returned : returnedBlobs answer ≠ []) : ∃ reply, answer = .ok reply := by
  cases answer with
  | ok reply => exact ⟨reply, rfl⟩
  | error e => exact absurd rfl returned

/-- The owner of `fp-v` comes first and reads the mailbox with the key it brings. -/
theorem mailbox_access_authorized_owner :
    ∃ key, FirstPresented (smallConfig none) false
        ([.message (.store sealedStore) moment] ++ [.message (.fetch (fetchWith 7)) moment])
        "fp-v" key ∧
      KeyVerifies sumScheme key
        (":".intercalate ["relay-fetch", computeNullId sumScheme "fp-v", "1000", "n"])
        (fetchWith 7).senderSig := by
  have returned : returnedBlobs (serverStep (smallConfig none)
      (final (serverStep (smallConfig none)) (started false)
        [.message (.store sealedStore) moment])
      (.message (.fetch (fetchWith 7)) moment)).1 ≠ [] := by decide +kernel
  obtain ⟨reply, accepted⟩ := accepted_of_returnedBlobs returned
  exact ((mailbox_access_authorized (smallConfig none) false
    [.message (.store sealedStore) moment] (.fetch (fetchWith 7)) moment _ rfl).1 reply accepted).2

/-- Whoever presents a key for `fp-v` first reads its mailbox: here the owner's key is 7,
and the mail goes to the holder of key 8. -/
theorem stranger_reads_mailbox :
    returnedBlobs (serverStep (smallConfig none)
        (final (serverStep (smallConfig none)) (started false)
          [.message (.store sealedStore) moment])
        (.message (.fetch (fetchWith 8)) moment)).1 = ["blob"] ∧
      ¬ KeyVerifies sumScheme (String.singleton (Char.ofUInt8 7))
        (":".intercalate ["relay-fetch", computeNullId sumScheme "fp-v", "1000", "n"])
        (fetchWith 8).senderSig := by
  refine ⟨by decide +kernel, ?_⟩
  rw [← verifyWithKey_iff rfl]
  decide +kernel

end RelayAuthorization

import AddMessenger.RelayAuthorization

/-!
# What a rejected request teaches a relay

`verify_ml_dsa87_signature` of `relay/src/main.rs` puts the key that comes with a
request into the cache before any of its checks, so a request that fails them still
decides which key its fingerprint is checked against from then on.
-/

namespace KeyTeaching

open Doubles Handlers Handlers.Handler Mealy Protocol RelayMailbox RelayServer Signatures

variable {cfg : ServerConfig} {s : ServerState} {env : Env}

theorem getD_toOption_iff {verdict : Except VerifyError Bool} :
    verdict.toOption.getD false = true ↔ verdict = .ok true := by
  cases verdict with
  | ok verified => simp [Except.toOption]
  | error e => simp [Except.toOption]

/-- The cache after a check, whatever its verdict. -/
def shown (env : Env) (cache : String → Option String) (fp key : String) :
    String → Option String :=
  if !key.isEmpty && env.writeLocked then cache else pinFirst cache fp key

theorem verified_cache (P : Primitives) (sigB64 data fp key : String)
    (cache : String → Option String) :
    (verifyMlDsa87Signature P sigB64 data fp cache key env).2 = shown env cache fp key :=
  verifyMlDsa87Signature_cache

theorem shown_apply (env : Env) (cache : String → Option String) (fp key other : String) :
    shown env cache fp key other =
      (cache other).or
        (if fp = other ∧ key.isEmpty = false ∧ env.writeLocked = false then some key
        else none) := by
  rw [shown, pinFirst]
  cases key.isEmpty <;> cases env.writeLocked <;> try simp
  by_cases same : other = fp
  · subst same
    cases cache other <;> simp
  · rw [Function.update_of_ne same, if_neg (Ne.symm same), Option.or_none]

/-- A check that fails leaves the cache alone exactly if it has nothing to write, or may
not write, or would not have failed. -/
theorem failed_keeps_cache_iff (P : Primitives) (sigB64 data fp key : String)
    (cache : String → Option String) :
    ((verifyMlDsa87Signature P sigB64 data fp cache key env).1 ≠ .ok true →
        (verifyMlDsa87Signature P sigB64 data fp cache key env).2 = cache) ↔
      key.isEmpty = true ∨ env.writeLocked = true ∨ (cache fp).isSome ∨
        (env.readLocked = false ∧ KeyVerifies P key data sigB64) := by
  have passes : (verifyMlDsa87Signature P sigB64 data fp cache key env).1 = .ok true ↔ _ :=
    getD_toOption_iff.symm.trans verifyMlDsa87Signature_iff
  by_cases writes : fp = fp ∧ key.isEmpty = false ∧ env.writeLocked = false
  · cases cached : cache fp with
    | some old =>
      refine iff_of_true (fun _ => funext fun other => ?_) (by simp)
      rw [verified_cache, shown_apply]
      by_cases same : fp = other
      · rw [← same, cached, Option.some_or]
      · rw [if_neg (fun own => same own.1), Option.or_none]
    | none =>
      have pinned : pinFirst cache fp key fp = some key := by
        simp [pinFirst, writes.2.1, cached]
      have moved : (verifyMlDsa87Signature P sigB64 data fp cache key env).2 ≠ cache := by
        intro unmoved
        have here := congrFun unmoved fp
        rw [verified_cache, shown_apply, if_pos writes, cached] at here
        cases here
      rw [pinned] at passes
      simp only [moved, imp_false, not_not, passes, writes.2]
      simp
  · refine iff_of_true (fun _ => funext fun other => ?_) ?_
    · rw [verified_cache, shown_apply, if_neg (fun own => writes ⟨rfl, own.2⟩), Option.or_none]
    · simp only [true_and, not_and, Bool.not_eq_false] at writes
      cases empty : key.isEmpty with
      | true => exact .inl rfl
      | false => exact .inr (.inl (writes empty))

/-- The checks before the signature's are passed. -/
def reachesSignature (cfg : ServerConfig) (env : Env) (s : ServerState) : Request → Bool
  | .store req => !req.senderSig.isEmpty && req.sealedSender.isEmpty
  | .fetch req => !(req.senderSig.isEmpty || req.requesterFp.isEmpty) &&
    isFresh env.freshAt req.timestamp && ownsNullId cfg req.requesterFp req.recipientNid
  | .status req => isFresh env.freshAt req.timestamp &&
    (checkAndRecordNonceStr (s.seenNonceStrs req.requesterFp)
      ("status:" ++ req.requesterFp ++ ":" ++ req.nonce) env.nonceAt.secs).1
  | .ack req => !(req.senderSig.isEmpty || req.requesterFp.isEmpty) &&
    isFresh env.freshAt req.timestamp && ownsNullId cfg req.requesterFp req.recipientNid
  | .purge req => (cfg.mail.sharedSecret.all fun secret => verifyHmac cfg
      (":".intercalate ["relay-purge", req.recipientNid, cfg.display req.timestamp]) req.authHmac
      secret) &&
    !(req.requesterFp.isEmpty || req.senderSig.isEmpty) &&
    isFresh env.freshAt req.timestamp && ownsNullId cfg req.requesterFp req.recipientNid
  | .readReceipt _ | .delete _ => true
  | _ => false

/-- The key a message teaches the relay for a fingerprint without one. -/
def taught (cfg : ServerConfig) (fp : String) (env : Env) (s : ServerState) (req : Request) :
    Option String :=
  (presentedKey req).bind fun presented =>
    if presented.1 = fp ∧ presented.2.isEmpty = false ∧ env.writeLocked = false ∧
        reachesSignature cfg env s req = true then some presented.2
    else none

theorem keyCache_require_bind (condition : Bool) (e : Refusal) (f : Unit → Serve Reply) :
    (run (require condition e >>= f) s).2.keyCache =
      if condition then (run (f ()) s).2.keyCache else s.keyCache := by
  cases condition <;> rfl

theorem keyCache_unseen_bind (fp nonce : String) (now : Duration) (f : Unit → Serve Reply) :
    (run (requireUnseen fp nonce now >>= f) s).2.keyCache =
      if (checkAndRecordNonceStr (s.seenNonceStrs fp) nonce now.secs).1 then
        (run (f ()) { s with
          seenNonceStrs := Function.update s.seenNonceStrs fp
            (checkAndRecordNonceStr (s.seenNonceStrs fp) nonce now.secs).2 }).2.keyCache
      else s.keyCache := by
  have unseen : run (requireUnseen fp nonce now) s = _ := requireUnseen_run fp nonce now
  cases fresh : (checkAndRecordNonceStr (s.seenNonceStrs fp) nonce now.secs).1 with
  | true =>
    rw [fresh] at unseen
    rw [run_bind_of_ok unseen, if_pos rfl]
  | false =>
    rw [fresh] at unseen
    rw [run_bind_of_error unseen, if_neg Bool.false_ne_true]

/-- After the signature's check a handler leaves the keys alone. -/
theorem keyCache_signature_bind {sig data fp key text : String} {f : Unit → Serve Reply}
    (rest : Keeps (Unchanged ServerState.keyCache) (f ())) :
    (run (requireSignature cfg sig data fp key env text >>= f) s).2.keyCache =
      shown env s.keyCache fp key := by
  rw [← verified_cache cfg.P sig data fp key]
  have signed : run (requireSignature cfg sig data fp key env text) s = _ :=
    requireSignature_run sig data fp key text
  cases passes : (verifyMlDsa87Signature cfg.P sig data fp s.keyCache key env).1.toOption.getD
      false with
  | true =>
    rw [passes] at signed
    rw [run_bind_of_ok signed]
    exact rest _
  | false =>
    rw [passes] at signed
    rw [run_bind_of_error signed]

/-- What comes after a signature's check leaves the keys alone. -/
theorem unseen_keeps_keys (fp nonce : String) (now : Duration) :
    Keeps (Unchanged ServerState.keyCache) (requireUnseen fp nonce now) :=
  requireUnseen_keeps (fun _ _ => rfl) fp nonce now

theorem modify_keeps_keys (f : ServerState → RelayState) (reply : Reply) :
    Keeps (Unchanged ServerState.keyCache)
      (modify (fun s => { s with mail := f s }) >>= fun _ => pure reply : Serve Reply) :=
  fun _ => rfl

theorem require_keeps_keys (condition : Bool) (e : Refusal) :
    Keeps (Unchanged ServerState.keyCache) (require condition e : Serve Unit) :=
  keeps_require (Unchanged.refl _) condition e

theorem tagged_store_keeps_keys (req : StoreRequest) :
    Keeps (Unchanged ServerState.keyCache)
      (match verifyRecipientTag cfg req.recipientNid (routingEpoch env.tagAt) req.recipientTag with
        | .error e => fail e
        | .ok () => do
          store cfg req.toMailboxStoreRequest env
          pure .done : Serve Reply) := by
  split
  · exact keeps_fail (Unchanged.refl _) _
  · exact Keeps.bind (Unchanged.trans _) (store_keeps (fun _ _ => rfl) _) fun _ =>
      keeps_pure (Unchanged.refl _) _

/-- A message that reaches no signature's check or brings no key leaves the keys alone. -/
theorem handleMessage_keeps_keys {req : Request}
    (empty : ∀ fp key, presentedKey req = some (fp, key) → key = "") :
    Keeps (Unchanged ServerState.keyCache) (handleMessage cfg req env) := by
  refine handleMessage_keeps (Unchanged.refl _) (Unchanged.trans _) ?_
    (fun fp nonce _ => unseen_keeps_keys fp nonce _)
    (fun q _ => store_keeps (fun _ _ => rfl) _) (fun _ _ _ => rfl) (fun _ _ _ => rfl)
    (fun _ _ _ => rfl)
  intro fp key presented sig data text s
  have moved : (run (requireSignature cfg sig data fp key env text) s).2.keyCache =
      (verifyMlDsa87Signature cfg.P sig data fp s.keyCache key env).2 := by
    rw [requireSignature_run, run_require_state]
  rw [Unchanged, moved, empty fp key presented]
  funext other
  rw [verified_cache, shown_apply, if_neg (fun brings => Bool.noConfusion brings.2.1),
    Option.or_none]

theorem shown_of_reaches {req : Request} {fp key : String}
    (presented : presentedKey req = some (fp, key)) (other : String) :
    (if reachesSignature cfg env s req then shown env s.keyCache fp key else s.keyCache) other =
      (s.keyCache other).or (taught cfg other env s req) := by
  rw [taught, presented, Option.bind_some]
  split
  · rename_i reaches
    rw [shown_apply]
    simp only [reaches, and_true]
  · rename_i stops
    rw [if_neg (fun brings => stops brings.2.2.2), Option.or_none]

/-- The keys after a message that presents one: it is written if the signature's check
is reached. -/
theorem handleMessage_keyCache {req : Request} {fp key : String}
    (presented : presentedKey req = some (fp, key)) (other : String) :
    (run (handleMessage cfg req env) s).2.keyCache other =
      (s.keyCache other).or (taught cfg other env s req) := by
  have trans := Unchanged.trans ServerState.keyCache
  cases req with
  | store req =>
    obtain ⟨rfl, rfl⟩ := Prod.mk.inj (Option.some.inj presented)
    refine Eq.trans (congrFun ?_ other) (shown_of_reaches presented other)
    change (run (relayStore cfg req env) s).2.keyCache = _
    rw [relayStore, storeChecks, verifyStoreSignature, bind_assoc, bind_assoc,
      keyCache_require_bind]
    by_cases named : req.sealedSender.isEmpty = true
    · rw [if_pos named, keyCache_signature_bind]
      · simp [reachesSignature, named]
      · refine Keeps.bind trans (Keeps.bind trans (require_keeps_keys _ _) fun _ =>
          unseen_keeps_keys _ _ _) fun _ => ?_
        exact tagged_store_keeps_keys req
    · have stops : reachesSignature cfg env s (.store req) = false := by
        simp [reachesSignature, named]
      rw [if_neg named, stops, if_neg Bool.false_ne_true]
      split
      · refine Keeps.bind (R := Unchanged ServerState.keyCache) trans (require_keeps_keys _ _)
          (fun _ => ?_) s
        refine Keeps.bind trans (Keeps.bind trans (require_keeps_keys _ _) fun _ =>
          unseen_keeps_keys _ _ _) fun _ => ?_
        exact tagged_store_keeps_keys req
      · rfl
  | fetch req =>
    obtain ⟨rfl, rfl⟩ := Prod.mk.inj (Option.some.inj presented)
    refine Eq.trans (congrFun ?_ other) (shown_of_reaches presented other)
    change (run (relayFetch cfg req env) s).2.keyCache = _
    rw [relayFetch, checkTimestampFreshness, keyCache_require_bind, keyCache_require_bind,
      keyCache_require_bind, keyCache_signature_bind]
    · simp only [reachesSignature, Bool.and_eq_true, and_assoc, ite_and]
    · exact Keeps.bind trans (unseen_keeps_keys _ _ _) fun _ =>
        Keeps.bind trans (require_keeps_keys _ _) fun _ => keeps_asks (Unchanged.refl _) _
  | status req =>
    obtain ⟨rfl, rfl⟩ := Prod.mk.inj (Option.some.inj presented)
    refine Eq.trans (congrFun ?_ other) (shown_of_reaches presented other)
    change (run (relayStatus cfg req env) s).2.keyCache = _
    rw [relayStatus, checkTimestampFreshness, keyCache_require_bind, keyCache_unseen_bind,
      keyCache_signature_bind]
    · simp only [reachesSignature, Bool.and_eq_true, ite_and]
    · exact Keeps.bind trans (require_keeps_keys _ _) fun _ =>
        Keeps.bind trans (require_keeps_keys _ _) fun _ => keeps_asks (Unchanged.refl _) _
  | ack req =>
    obtain ⟨rfl, rfl⟩ := Prod.mk.inj (Option.some.inj presented)
    refine Eq.trans (congrFun ?_ other) (shown_of_reaches presented other)
    change (run (relayAck cfg req env) s).2.keyCache = _
    rw [relayAck, checkTimestampFreshness, keyCache_require_bind, keyCache_require_bind,
      keyCache_require_bind, keyCache_signature_bind]
    · simp only [reachesSignature, Bool.and_eq_true, and_assoc, ite_and]
    · exact Keeps.bind trans (unseen_keeps_keys _ _ _) fun _ => modify_keeps_keys _ _
  | purge req =>
    obtain ⟨rfl, rfl⟩ := Prod.mk.inj (Option.some.inj presented)
    refine Eq.trans (congrFun ?_ other) (shown_of_reaches presented other)
    change (run (relayPurge cfg req env) s).2.keyCache = _
    rw [relayPurge, requireHmac, checkTimestampFreshness, keyCache_require_bind,
      keyCache_require_bind, keyCache_require_bind, keyCache_require_bind,
      keyCache_signature_bind]
    · simp only [reachesSignature, Bool.and_eq_true, and_assoc, ite_and]
    · exact Keeps.bind trans (unseen_keeps_keys _ _ _) fun _ => modify_keeps_keys _ _
  | readReceipt req =>
    obtain ⟨rfl, rfl⟩ := Prod.mk.inj (Option.some.inj presented)
    refine Eq.trans (congrFun ?_ other) (shown_of_reaches presented other)
    change (run (relayReadReceipt cfg req env) s).2.keyCache = _
    rw [relayReadReceipt, keyCache_signature_bind]
    · rfl
    · exact Keeps.bind trans (unseen_keeps_keys _ _ _) fun _ =>
        Keeps.bind trans (require_keeps_keys _ _) fun _ => modify_keeps_keys _ _
  | delete req =>
    obtain ⟨rfl, rfl⟩ := Prod.mk.inj (Option.some.inj presented)
    refine Eq.trans (congrFun ?_ other) (shown_of_reaches presented other)
    change (run (relayDelete cfg req env) s).2.keyCache = _
    rw [relayDelete, keyCache_signature_bind]
    · rfl
    · exact Keeps.bind trans (unseen_keeps_keys _ _ _) fun _ =>
        Keeps.bind trans (require_keeps_keys _ _) fun _ => modify_keeps_keys _ _
  | forward req =>
    have kept : Unchanged ServerState.keyCache s
        (run (handleMessage cfg (.forward req) env) s).2 := by
      refine handleMessage_keeps_keys ?_ s
      intro fp key same
      exact (Prod.mk.inj (Option.some.inj same)).2.symm
    rw [kept]
    simp [taught, reachesSignature]
  | routeAdvertise | routeAdvertiseAck | whoHas | peerAuth | peerAuthReply => cases presented

def taughtBy (cfg : ServerConfig) (fp : String) (s : ServerState) : Action → Option String
  | .message req env => taught cfg fp env s req
  | _ => none

/-- The first key a run teaches the relay for a fingerprint, by accepted or rejected
messages. -/
def firstTaught (cfg : ServerConfig) (fp : String) : ServerState → List Action → Option String
  | _, [] => none
  | s, a :: rest => (taughtBy cfg fp s a).or (firstTaught cfg fp (serverStep cfg s a).2 rest)

theorem serverStep_keyCache (fp : String) (s : ServerState) (a : Action) :
    (serverStep cfg s a).2.keyCache fp = (s.keyCache fp).or (taughtBy cfg fp s a) := by
  cases a with
  | message req env =>
    cases presented : presentedKey req with
    | some shownKey => exact handleMessage_keyCache presented fp
    | none =>
      have kept : Unchanged ServerState.keyCache s (run (handleMessage cfg req env) s).2 := by
        refine handleMessage_keeps_keys ?_ s
        intro fp key same
        cases presented.symm.trans same
      rw [serverStep, kept, taughtBy, taught, presented, Option.bind_none, Option.or_none]
  | connectToPeer | peerRoutes | cleanupExpiredRoutes | cleanupExpired =>
    exact Option.or_none.symm

/-- A cached key stays, and an unknown fingerprint gets the first key it is shown. -/
theorem final_keyCache (fp : String) (s : ServerState) (acts : List Action) :
    (final (serverStep cfg) s acts).keyCache fp =
      (s.keyCache fp).or (firstTaught cfg fp s acts) := by
  induction acts generalizing s with
  | nil => exact Option.or_none.symm
  | cons a rest ih => rw [final_cons, ih, serverStep_keyCache, firstTaught, Option.or_assoc]

theorem genuine_passes_iff {P : Primitives} {sigB64 data fp key : String}
    {cache : String → Option String} (brought : key.isEmpty = false)
    (writable : env.writeLocked = false) (readable : env.readLocked = false)
    (genuine : KeyVerifies P key data sigB64) :
    (verifyMlDsa87Signature P sigB64 data fp cache key env).1 = .ok true ↔
      ∀ pinned, cache fp = some pinned → KeyVerifies P pinned data sigB64 := by
  rw [← getD_toOption_iff, verifyMlDsa87Signature_iff, pinFirst, brought]
  cases cache fp with
  | none => simp [writable, readable, genuine]
  | some pinned => simp [writable, readable]

/-- A failed check leaves the cache alone only where it writes nothing new, and the owner's
first request passes its check only if the first key shown for its fingerprint, by
whomever and in whatever message, is one its signature verifies under. -/
theorem failed_check_teaches (cfg : ServerConfig) :
    (∀ sigB64 data fp key cache env,
      ((verifyMlDsa87Signature cfg.P sigB64 data fp cache key env).1 ≠ .ok true →
          (verifyMlDsa87Signature cfg.P sigB64 data fp cache key env).2 = cache) ↔
        key.isEmpty = true ∨ env.writeLocked = true ∨ (cache fp).isSome ∨
          (env.readLocked = false ∧ KeyVerifies cfg.P key data sigB64)) ∧
    ∀ s acts sigB64 data fp key env, s.keyCache fp = none → key.isEmpty = false →
      env.writeLocked = false → env.readLocked = false → KeyVerifies cfg.P key data sigB64 →
      ((verifyMlDsa87Signature cfg.P sigB64 data fp (final (serverStep cfg) s acts).keyCache key
          env).1 = .ok true ↔
        ∀ first, firstTaught cfg fp s acts = some first → KeyVerifies cfg.P first data sigB64) := by
  refine ⟨fun sigB64 data fp key cache env => failed_keeps_cache_iff cfg.P sigB64 data fp key cache,
    ?_⟩
  intro s acts sigB64 data fp key env unknown brought writable readable genuine
  rw [genuine_passes_iff brought writable readable genuine, final_keyCache, unknown,
    Option.none_or]

/-- A deletion for `fp-v` with a key and no signature. -/
def forged : RelayDeleteRequest where
  messageId := "m"
  recipientNid := "nid"
  recipientFp := "fp-v"
  signature := ""
  timestamp := momentStamp
  nonce := "f"
  recipientVerifyingKey := "k"

/-- The forged deletion is refused and its key is kept; the owner's fetch, which a relay
without that key answers, is then refused. -/
theorem forged_key_refuses_owner :
    (verifyMlDsa87Signature sumScheme "" "data" "fp-v" (fun _ => none) "k" moment).1 ≠ .ok true ∧
    (verifyMlDsa87Signature sumScheme "" "data" "fp-v" (fun _ => none) "k" moment).2 "fp-v" =
      some "k" ∧
    (serverStep (smallConfig none) (started false) (.message (.delete forged) moment)).1.isOk =
      false ∧
    (serverStep (smallConfig none) (started false)
      (.message (.fetch (RelayAuthorization.fetchWith 7)) moment)).1.isOk = true ∧
    (serverStep (smallConfig none)
      (final (serverStep (smallConfig none)) (started false) [.message (.delete forged) moment])
      (.message (.fetch (RelayAuthorization.fetchWith 7)) moment)).1.isOk = false := by
  refine ⟨?_, by decide +kernel, by decide +kernel, by decide +kernel, by decide +kernel⟩
  rw [Ne, ← getD_toOption_iff]
  decide +kernel

/-- The owner of `fp-v` comes first. -/
theorem failed_check_teaches_owner :
    (verifyMlDsa87Signature sumScheme (sumSignature 7 "data") "data" "fp-v"
      (final (serverStep (smallConfig none)) (started false)
        [.message (.store RelayAuthorization.sealedStore) moment]).keyCache
      (String.singleton (Char.ofUInt8 7)) moment).1 = .ok true := by
  have genuine : KeyVerifies sumScheme (String.singleton (Char.ofUInt8 7)) "data"
      (sumSignature 7 "data") := by
    rw [← verifyWithKey_iff rfl]
    decide +kernel
  refine ((failed_check_teaches (smallConfig none)).2 (started false)
    [.message (.store RelayAuthorization.sealedStore) moment] (sumSignature 7 "data") "data" "fp-v"
    (String.singleton (Char.ofUInt8 7)) moment rfl (by decide) rfl rfl genuine).mpr ?_
  intro first taught
  have none : firstTaught (smallConfig none) "fp-v" (started false)
      [.message (.store RelayAuthorization.sealedStore) moment] = none := by decide +kernel
  rw [none] at taught
  cases taught

end KeyTeaching

import AddMessenger.RelayReplay

/-!
# What a refused store leaves behind

`relay-store` of `relay/src/main.rs` records the nonce before it looks at the recipient tag,
and writes the mailbox in memory before it inserts the row. An error after the nonce was
recorded leaves it, and the request cannot be sent again; an error of the database leaves the
message in memory too.
-/

namespace RelayRefusal

open Handlers Handlers.Handler RelayMailbox RelayServer
open RelayReplay (Accepted storeChecks_ok relayStore_nonces)

/-- Mailboxes, table and nonces are as they were, and the request, whenever it comes again, is
answered and stored as if it had never come. -/
structure LeavesNothing (cfg : ServerConfig) (req : StoreRequest) (s t : ServerState) : Prop where
  mailboxes : t.mail.mailboxes = s.mail.mailboxes
  db : t.mail.db = s.mail.db
  nonces : t.seenNonceStrs = s.seenNonceStrs
  retry : ∀ env, ((relayStore cfg req env).run t).1 = ((relayStore cfg req env).run s).1 ∧
    ((relayStore cfg req env).run t).2.mail = ((relayStore cfg req env).run s).2.mail

def RefusedCleanly (cfg : ServerConfig) (s : ServerState) (req : StoreRequest) (env : Env) :
    Prop :=
  ∀ text t, (relayStore cfg req env).run s = (.error (.error text), t) →
    LeavesNothing cfg req s t

/-- The signature, the timestamp and the nonce are right. -/
structure ChecksPass (cfg : ServerConfig) (s : ServerState) (req : StoreRequest) (env : Env) :
    Prop where
  signed : req.senderSig.isEmpty = false
  verified : if req.sealedSender.isEmpty then
      (req.senderVerifyingKey.isEmpty = true ∨ env.writeLocked = false) ∧
        env.readLocked = false ∧
        ∃ pinned, pinFirst s.keyCache req.senderFp req.senderVerifyingKey req.senderFp =
            some pinned ∧
          KeyVerifies cfg.P pinned (storeSigningData cfg req) req.senderSig
    else req.senderNid = "anonymous"
  fresh : isFresh env.freshAt req.timestamp = true
  unseen : ∀ n ∈ s.seenNonceStrs req.senderFp, n.1 ≠ req.nonce

/-- The checks pass, and then the tag is not the relay's, or the insert fails. -/
def RefusedLate (cfg : ServerConfig) (s : ServerState) (req : StoreRequest) (env : Env) : Prop :=
  ChecksPass cfg s req env ∧
    ((∃ text, verifyRecipientTag cfg req.recipientNid (routingEpoch env.tagAt) req.recipientTag =
        .error (.error text)) ∨
      verifyRecipientTag cfg req.recipientNid (routingEpoch env.tagAt) req.recipientTag = .ok () ∧
        s.mail.db.isSome ∧ env.dbError.isSome)

variable {cfg : ServerConfig} {s t : ServerState} {req : StoreRequest} {env : Env}

theorem pinFirst_pinFirst (cache : String → Option String) (fp key : String) :
    pinFirst (pinFirst cache fp key) fp key = pinFirst cache fp key := by
  cases empty : key.isEmpty with
  | true => simp [pinFirst, empty]
  | false => simp [pinFirst, empty]

/-- The state is the same, or the key that came with the request is cached now. -/
def Pinned (req : StoreRequest) (s t : ServerState) : Prop :=
  t = s ∨ t = s.pin req.senderFp req.senderVerifyingKey

theorem Pinned.refl (s : ServerState) : Pinned req s s := .inl rfl

theorem Pinned.trans (s t u : ServerState) (first : Pinned req s t) (second : Pinned req t u) :
    Pinned req s u := by
  rcases first with rfl | rfl
  · exact second
  · rcases second with rfl | rfl
    · exact .inr rfl
    · refine .inr ?_
      rw [ServerState.pin, ServerState.pin_keyCache, pinFirst_pinFirst]
      rfl

theorem Pinned.mail (pinned : Pinned req s t) : t.mail = s.mail := by
  rcases pinned with rfl | rfl <;> rfl

theorem Pinned.seenNonceStrs (pinned : Pinned req s t) : t.seenNonceStrs = s.seenNonceStrs := by
  rcases pinned with rfl | rfl <;> rfl

theorem requireSignature_pinned (sig data text : String) :
    Keeps (Pinned req)
      (requireSignature cfg sig data req.senderFp req.senderVerifyingKey env text) := by
  intro s
  rw [requireSignature_run, run_require_state, verifyMlDsa87Signature_cache]
  split
  · exact .inl rfl
  · exact .inr rfl

theorem verifyStoreSignature_pinned : Keeps (Pinned req) (verifyStoreSignature cfg req env) :=
  verifyStoreSignature_keeps Pinned.refl Pinned.trans requireSignature_pinned

/-- What the signature has to satisfy, whatever key is cached on the way. -/
theorem verifyStoreSignature_passes_iff :
    (∃ t, (verifyStoreSignature cfg req env).run s = (.ok (), t)) ↔
      req.senderSig.isEmpty = false ∧
        if req.sealedSender.isEmpty then
          (req.senderVerifyingKey.isEmpty = true ∨ env.writeLocked = false) ∧
            env.readLocked = false ∧
            ∃ pinned, pinFirst s.keyCache req.senderFp req.senderVerifyingKey req.senderFp =
                some pinned ∧
              KeyVerifies cfg.P pinned (storeSigningData cfg req) req.senderSig
        else req.senderNid = "anonymous" := by
  cases sealed : req.sealedSender.isEmpty with
  | true => simp [verifyStoreSignature, sealed, run_bind_iff, requireSignature_iff]
  | false => simp [verifyStoreSignature, sealed, run_bind_iff]

theorem accepted_iff : Accepted cfg s req env ↔ ChecksPass cfg s req env := by
  have runs : Accepted cfg s req env ↔ ∃ t, (storeChecks cfg req env).run s = (.ok (), t) :=
    ⟨fun accepted => ⟨_, Prod.ext accepted rfl⟩, fun ⟨t, passed⟩ => congrArg Prod.fst passed⟩
  have nonces : ∀ t, (verifyStoreSignature cfg req env).run s = (.ok (), t) →
      t.seenNonceStrs = s.seenNonceStrs :=
    fun _ passed => (verifyStoreSignature_pinned.of_run passed).seenNonceStrs
  rw [runs]
  constructor
  · rintro ⟨t, passed⟩
    obtain ⟨_, u, signature, passed⟩ := run_bind_iff.mp passed
    obtain ⟨_, _, old, passed⟩ := run_bind_iff.mp passed
    obtain ⟨fresh, rfl⟩ := checkTimestampFreshness_iff.mp old
    obtain ⟨unseen, -⟩ := requireUnseen_iff.mp passed
    obtain ⟨signed, verified⟩ := verifyStoreSignature_passes_iff.mp ⟨u, signature⟩
    exact ⟨signed, verified, fresh, nonces u signature ▸ unseen⟩
  · rintro ⟨signed, verified, fresh, unseen⟩
    obtain ⟨u, signature⟩ := verifyStoreSignature_passes_iff.mpr ⟨signed, verified⟩
    refine ⟨_, run_bind_iff.mpr ⟨_, u, signature, run_bind_iff.mpr
      ⟨(), u, checkTimestampFreshness_iff.mpr ⟨fresh, rfl⟩, requireUnseen_iff.mpr ⟨?_, rfl⟩⟩⟩⟩
    rwa [nonces u signature]

/-- A nonce that was seen is not recorded again. -/
theorem requireUnseen_error {fp nonce : String} {now : Duration} {e : Refusal}
    (failed : (requireUnseen fp nonce now).run s = (.error e, t)) : t = s := by
  rw [requireUnseen_run, checkAndRecordNonceStr] at failed
  split at failed
  · rw [Function.update_eq_self] at failed
    exact (congrArg Prod.snd failed).symm
  · cases failed

/-- What the first three checks refuse leaves at most a key. -/
theorem storeChecks_error {e : Refusal}
    (failed : (storeChecks cfg req env).run s = (.error e, t)) : Pinned req s t := by
  rcases run_bind_error failed with early | ⟨_, u, passed, later⟩
  · exact verifyStoreSignature_pinned.of_run early
  · have signature : Pinned req s u := verifyStoreSignature_pinned.of_run passed
    rcases run_bind_error later with old | ⟨_, v, passed, seen⟩
    · have state : ((checkTimestampFreshness cfg env.freshAt req.timestamp).run u).2 = u :=
        run_require_state _ _ _
      rw [old] at state
      obtain rfl : t = u := state
      exact signature
    · obtain ⟨-, rfl⟩ := checkTimestampFreshness_iff.mp passed
      rwa [requireUnseen_error seen]

/-- The key a request brings does not change its verdict by having been pinned before. -/
theorem verdict_pinFirst (P : Signatures.Primitives) (sig data fp key : String)
    (cache : String → Option String) :
    (verifyMlDsa87Signature P sig data fp (pinFirst cache fp key) key env).1 =
      (verifyMlDsa87Signature P sig data fp cache key env).1 := by
  unfold verifyMlDsa87Signature
  split
  · rfl
  · simp only [pinFirst_pinFirst]

theorem requireSignature_alike (sig data text : String) :
    Alike (Pinned req)
      (requireSignature cfg sig data req.senderFp req.senderVerifyingKey env text) := by
  rintro s t (rfl | rfl)
  · exact ⟨rfl, .refl _⟩
  · rw [requireSignature_run, requireSignature_run, ServerState.pin_keyCache, verdict_pinFirst,
      verifyMlDsa87Signature_cache, verifyMlDsa87Signature_cache, pinFirst_pinFirst]
    refine alike_require _ _ _ _ ?_
    split
    · exact .inr rfl
    · exact .inl rfl

theorem requireUnseen_alike (now : Duration) :
    Alike (Pinned req) (requireUnseen req.senderFp req.nonce now) := by
  intro s t pinned
  rw [requireUnseen_run, requireUnseen_run, pinned.seenNonceStrs]
  refine alike_require _ _ _ _ ?_
  rcases pinned with rfl | rfl
  · exact .refl _
  · exact .inr rfl

theorem store_alike : Alike (Pinned req) (store cfg req.toMailboxStoreRequest env) := by
  rintro s t (rfl | rfl)
  · exact ⟨rfl, .refl _⟩
  · constructor
    · simp only [run, store, ServerState.pin_mail]
      split <;> rfl
    · rw [store_run_state, store_run_state]
      exact .inr rfl

theorem relayStore_alike : Alike (Pinned req) (relayStore cfg req env) := by
  refine Alike.bind (Alike.bind (Alike.bind (alike_require _ _) fun _ => ?_) fun _ =>
    Alike.bind (alike_require _ _) fun _ => requireUnseen_alike _) fun _ => ?_
  · split
    · exact requireSignature_alike _ _ _
    · exact alike_require _ _
  · split
    · exact alike_fail _
    · exact Alike.bind store_alike fun _ => alike_pure _

theorem leavesNothing_of_pinned (pinned : Pinned req s t) : LeavesNothing cfg req s t where
  mailboxes := by rw [pinned.mail]
  db := by rw [pinned.mail]
  nonces := pinned.seenNonceStrs
  retry env := by
    obtain ⟨same, after⟩ := @relayStore_alike cfg req env s t pinned
    exact ⟨same, after.mail⟩

/-- Storing fails with the insert. -/
theorem storeMessage_error_iff (c : Config) (m : RelayState) (q : MailboxStoreRequest)
    (epochNow now : UInt64) (dbError : Option String) :
    (∃ text, (storeMessage c m q epochNow now dbError).1 = .error text) ↔
      m.db.isSome ∧ dbError.isSome := by
  obtain ⟨mailboxes, db, log⟩ := m
  cases db with
  | none =>
    refine iff_of_false ?_ (by simp)
    rintro ⟨text, failed⟩
    cases failed
  | some rows =>
    cases dbError with
    | none =>
      refine iff_of_false ?_ (by simp)
      rintro ⟨text, failed⟩
      cases failed
    | some e => exact iff_of_true ⟨_, rfl⟩ ⟨rfl, rfl⟩

theorem store_error_iff (q : MailboxStoreRequest) :
    (∃ text, ((store cfg q env).run s).1 = .error (.error text)) ↔
      s.mail.db.isSome ∧ env.dbError.isSome := by
  rw [← storeMessage_error_iff cfg.mail s.mail q env.keysAt env.mailAt env.dbError]
  simp only [run, store]
  cases (storeMessage cfg.mail s.mail q env.keysAt env.mailAt env.dbError).1 with
  | ok u => simp
  | error text => simp

theorem storeChecks_mail {u : Unit} (passed : (storeChecks cfg req env).run s = (.ok u, t)) :
    t.mail = s.mail := by
  have kept : Keeps (Unchanged ServerState.mail) (storeChecks cfg req env) :=
    storeChecks_keeps (Unchanged.refl _) (Unchanged.trans _)
      (fun sig data text => requireSignature_keeps (fun _ _ => rfl) sig data _ _ text)
      (requireUnseen_keeps (fun _ _ => rfl) _ _ _)
  exact kept.of_run passed

/-- What comes once the nonce is recorded. -/
theorem relayStore_accepted (accepted : Accepted cfg s req env) :
    (∃ text, ((relayStore cfg req env).run s).1 = .error (.error text)) ↔
      RefusedLate cfg s req env := by
  rw [RefusedLate, and_iff_right (accepted_iff.mp accepted)]
  rcases passed : (storeChecks cfg req env).run s with ⟨result, t⟩
  obtain rfl : result = .ok () := (congrArg Prod.fst passed).symm.trans accepted
  rw [relayStore, run_bind_of_ok passed, ← storeChecks_mail passed]
  cases verifyRecipientTag cfg req.recipientNid (routingEpoch env.tagAt) req.recipientTag with
  | error e => cases e <;> simp [run, fail]
  | ok u =>
    have failing := @store_error_iff cfg t env req.toMailboxStoreRequest
    simp only [reduceCtorEq, exists_false, false_or, true_and]
    rw [← failing]
    rcases stored : (store cfg req.toMailboxStoreRequest env).run t with ⟨result, v⟩
    cases result with
    | ok u =>
      rw [run_bind_of_ok stored]
      refine iff_of_false ?_ ?_
      · rintro ⟨text, failed⟩
        cases failed
      · rintro ⟨text, failed⟩
        cases failed
    | error e =>
      rw [run_bind_of_error stored]
      simp

/-- A nonce that was recorded stays recorded, whatever the answer is. -/
theorem not_leavesNothing_of_accepted (accepted : Accepted cfg s req env) :
    ¬ LeavesNothing cfg req s ((relayStore cfg req env).run s).2 := by
  intro nothing
  obtain ⟨-, unseen, recorded⟩ := storeChecks_ok (Prod.ext accepted rfl)
  have after : ((relayStore cfg req env).run s).2.seenNonceStrs = _ :=
    relayStore_nonces (Prod.ext accepted rfl)
  rw [← after, nothing.nonces] at recorded
  exact unseen _ recorded rfl

theorem not_refusedCleanly_of_late (late : RefusedLate cfg s req env) :
    ¬ RefusedCleanly cfg s req env := by
  intro clean
  have accepted := accepted_iff.mpr late.1
  obtain ⟨text, refused⟩ := (relayStore_accepted accepted).mpr late
  exact not_leavesNothing_of_accepted accepted (clean text _ (Prod.ext refused rfl))

/-- A store is refused cleanly exactly if it is refused before its nonce is recorded, or not at
all. -/
theorem refusedCleanly_iff (cfg : ServerConfig) (s : ServerState) (req : StoreRequest)
    (env : Env) : RefusedCleanly cfg s req env ↔ ¬ RefusedLate cfg s req env := by
  constructor
  · intro clean late
    exact not_refusedCleanly_of_late late clean
  · intro early text t refused
    have bound : (storeChecks cfg req env >>= _).run s = _ := refused
    rcases run_bind_error bound with first | ⟨u, v, passed, -⟩
    · exact leavesNothing_of_pinned (storeChecks_error first)
    · have accepted : Accepted cfg s req env := congrArg Prod.fst passed
      exact absurd ((relayStore_accepted accepted).mp ⟨text, congrArg Prod.fst refused⟩) early

/-- A signed message with the tag of another hour. -/
def mistagged : StoreRequest := { RelayReplay.promptStore with recipientTag := "0123456789" }

/-- The moment at which the table is full. -/
def fullTable : Env := { moment with dbError := some "database or disk is full" }

/-- A message with a wrong tag, and one whose insert fails, leave their nonce. -/
theorem not_refusedCleanly_mistagged :
    ¬ RefusedCleanly (smallConfig (some "secret")) (started false) mistagged moment ∧
      ¬ RefusedCleanly (smallConfig none) (started true) RelayReplay.promptStore fullTable := by
  have tagged : Accepted (smallConfig (some "secret")) (started false) mistagged moment := by
    decide +kernel
  have inserted : Accepted (smallConfig none) (started true) RelayReplay.promptStore fullTable := by
    decide +kernel
  have refused : verifyRecipientTag (smallConfig (some "secret")) mistagged.recipientNid
      (routingEpoch moment.tagAt) mistagged.recipientTag =
        .error (.error "recipient_tag verification failed") := by decide +kernel
  exact ⟨not_refusedCleanly_of_late ⟨accepted_iff.mp tagged, .inl ⟨_, refused⟩⟩,
    not_refusedCleanly_of_late ⟨accepted_iff.mp inserted, .inr ⟨rfl, rfl, rfl⟩⟩⟩

end RelayRefusal

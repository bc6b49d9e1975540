import AddMessenger.RelayServer

/-!
# Replayed requests

A request is protected against replay by its timestamp, which must be recent, and by
the nonces its sender used lately. The nonces are forgotten by the time of their arrival,
and too many of one sender by their number, while the timestamp is the sender's own.
-/

namespace RelayReplay

open ByteStrings Doubles Handlers Handlers.Handler Mealy RelayMailbox RelayServer Signatures

/-- The second at which an action records a nonce. -/
def nonceSecs : Action → Option Nat
  | .message _ env => some env.nonceAt.secs
  | _ => none

variable {cfg : ServerConfig} {s t : ServerState}

theorem checkAndRecordNonceStr_mem (seen : List (String × Int)) (nonce : String) (now : Int) :
    ∃ n ∈ (checkAndRecordNonceStr seen nonce now).2, n.1 = nonce := by
  unfold checkAndRecordNonceStr
  split
  · rename_i found
    obtain ⟨n, member, same⟩ := List.any_eq_true.mp found
    exact ⟨n, member, of_decide_eq_true same⟩
  · exact ⟨(nonce, now), List.mem_append_right _ (List.mem_singleton_self _), rfl⟩

/-- A nonce that is there is not recorded again. -/
theorem checkAndRecordNonceStr_of_mem {seen : List (String × Int)} {nonce : String}
    (found : ∃ n ∈ seen, n.1 = nonce) (now : Int) :
    checkAndRecordNonceStr seen nonce now = (false, seen) := by
  obtain ⟨n, member, same⟩ := found
  have any : (seen.any fun n => decide (n.1 = nonce)) = true :=
    List.any_eq_true.mpr ⟨n, member, decide_eq_true same⟩
  rw [checkAndRecordNonceStr, if_pos any]

/-- The nonces are as before, or the one of the request has been looked up and recorded. -/
def NoncesMove (req : Request) (now : Duration) (s t : ServerState) : Prop :=
  t.seenNonceStrs = s.seenNonceStrs ∨
    ∃ fp nonce, rememberedNonce req = some (fp, nonce) ∧
      t.seenNonceStrs = Function.update s.seenNonceStrs fp
        (checkAndRecordNonceStr (s.seenNonceStrs fp) nonce now.secs).2

theorem NoncesMove.trans {req : Request} {now : Duration} (s t u : ServerState)
    (first : NoncesMove req now s t) (second : NoncesMove req now t u) :
    NoncesMove req now s u := by
  rcases first with same | ⟨fp, nonce, remembered, recorded⟩
  · rcases second with same' | ⟨fp, nonce, remembered, recorded⟩
    · exact Or.inl (same'.trans same)
    · exact Or.inr ⟨fp, nonce, remembered, by rw [recorded, same]⟩
  · refine Or.inr ⟨fp, nonce, remembered, ?_⟩
    rcases second with same' | ⟨fp', nonce', remembered', again⟩
    · rw [same', recorded]
    · -- the second look-up finds what the first one recorded
      obtain ⟨rfl, rfl⟩ : fp = fp' ∧ nonce = nonce' := by
        simpa using remembered.symm.trans remembered'
      rw [again, checkAndRecordNonceStr_of_mem, Function.update_eq_self, recorded]
      rw [recorded, Function.update_self]
      exact checkAndRecordNonceStr_mem _ _ _

theorem handleMessage_noncesMove (cfg : ServerConfig) (req : Request) (env : Env) :
    Keeps (NoncesMove req env.nonceAt) (handleMessage cfg req env) := by
  refine handleMessage_keeps (fun s => Or.inl rfl) NoncesMove.trans
    (fun fp key _ sig data => requireSignature_keeps (fun s cache => Or.inl rfl) sig data fp key)
    (fun fp nonce remembered s => ?_) (fun q _ => store_keeps (fun s mail => Or.inl rfl) _)
    (fun op _ s => Or.inl rfl) (fun f _ s => Or.inl rfl) (fun relayUrl _ s => Or.inl rfl)
  rw [requireUnseen_run, run_require_state]
  exact Or.inr ⟨fp, nonce, remembered, rfl⟩

/-- When the action records a nonce, the sender has less than the allowed number of
recent ones, so that none of these is dropped. -/
def Uncapped (s : ServerState) : Action → Prop
  | .message req env => ∀ fp nonce, rememberedNonce req = some (fp, nonce) →
    ((s.seenNonceStrs fp).filter fun n =>
      (env.nonceAt.secs : Int) - storeTimestampToleranceSecs ≤ n.2).length < maxNoncesPerSender
  | _ => True

/-- A nonce survives an action that comes within the tolerance. -/
theorem nonce_survives {a : Action} (uncapped : Uncapped s a) {fp : String} {n : String × Int}
    (remembered : n ∈ s.seenNonceStrs fp)
    (recent : ∀ secs, nonceSecs a = some secs → (secs : Int) ≤ n.2 + storeTimestampToleranceSecs) :
    n ∈ (serverStep cfg s a).2.seenNonceStrs fp := by
  cases a with
  | message req env =>
    rcases handleMessage_noncesMove cfg req env s with same | ⟨fp', nonce, isNonce, recorded⟩
    · rw [show (serverStep cfg s (.message req env)).2.seenNonceStrs = _ from same]
      exact remembered
    · rw [show (serverStep cfg s (.message req env)).2.seenNonceStrs = _ from recorded]
      by_cases here : fp = fp'
      · subst here
        rw [Function.update_self, checkAndRecordNonceStr]
        split
        · exact remembered
        · have few := uncapped fp nonce isNonce
          have young := recent _ rfl
          simp only [recordNonce, if_neg (not_le.mpr few)]
          refine List.mem_append_left _ (List.mem_filter.mpr ⟨remembered, ?_⟩)
          rw [decide_eq_true_iff]
          omega
      · rwa [Function.update_of_ne here]
  | connectToPeer relayUrl now => exact remembered
  | peerRoutes relayUrl now => exact remembered
  | cleanupExpiredRoutes now => exact remembered
  | cleanupExpired now sqlOk => exact remembered

/-- After a run a nonce is still there, unless the clock has passed the tolerance. -/
theorem nonce_survives_run {acts : List Action}
    (uncapped : Along (serverStep cfg) Uncapped s acts) {fp : String} {n : String × Int}
    (remembered : n ∈ s.seenNonceStrs fp) :
    n ∈ (final (serverStep cfg) s acts).seenNonceStrs fp ∨
      ∃ a ∈ acts, ∃ secs, nonceSecs a = some secs ∧
        n.2 + storeTimestampToleranceSecs < (secs : Int) := by
  induction acts generalizing s with
  | nil => exact Or.inl remembered
  | cons a rest ih =>
    by_cases recent :
        ∀ secs, nonceSecs a = some secs → (secs : Int) ≤ n.2 + storeTimestampToleranceSecs
    · rcases ih uncapped.2 (nonce_survives uncapped.1 remembered recent) with
        there | ⟨b, member, passed⟩
      · exact Or.inl there
      · exact Or.inr ⟨b, List.mem_cons_of_mem a member, passed⟩
    · push Not at recent
      exact Or.inr ⟨a, List.mem_cons_self, recent⟩

/-- The whole seconds of the clock that an action reads. -/
def clockSecs : Action → List Nat
  | .message _ env => [env.freshAt.secs, env.nonceAt.secs]
  | _ => []

def ClockNondecreasing (acts : List Action) : Prop :=
  acts.Pairwise fun earlier later => ∀ x ∈ clockSecs earlier, ∀ y ∈ clockSecs later, x ≤ y

/-- One second after the nonce of a request may be forgotten its timestamp is too old:
it does not lie past the second in which the request arrived. -/
def Lapses (timestamp : F64) (env : Env) : Prop :=
  ∀ later : Duration, later.secs = env.nonceAt.secs + storeTimestampToleranceSecs + 1 →
    later.nanos = 0 → (storeTimestampToleranceSecs : ℚ) < age later timestamp

/-- No recent nonce is dropped, and no request with one of the dates is dated ahead. -/
def Protected (dated : Request → Option F64) (s : ServerState) (a : Action) : Prop :=
  Uncapped s a ∧ ∀ req env timestamp, a = .message req env → dated req = some timestamp →
    Lapses timestamp env

theorem asSecsF64_le {d e : Duration} (whole : d.nanos = 0) (le : d.secs ≤ e.secs) :
    d.asSecsF64 ≤ e.asSecsF64 := by
  have seconds : nearest (d.secs : ℚ) ≤ nearest e.secs := nearest_mono (by exact_mod_cast le)
  have fraction : nearest ((d.nanos : ℚ) / 10 ^ 9) ≤ nearest (e.nanos / 10 ^ 9) := by
    apply nearest_mono
    rw [whole, Nat.cast_zero, zero_div]
    positivity
  exact nearest_mono (add_le_add seconds fraction)

/-- Once too old at a whole second, a timestamp is never fresh again. -/
theorem stale_later {d e : Duration} {timestamp : F64} (whole : d.nanos = 0)
    (le : d.secs ≤ e.secs) (old : (storeTimestampToleranceSecs : ℚ) < age d timestamp) :
    isFresh e timestamp = false := by
  have older : age d timestamp ≤ age e timestamp :=
    nearest_mono (sub_le_sub_right (asSecsF64_le whole le) _)
  rw [isFresh, decide_eq_false_iff_not, not_le]
  exact (old.trans_le older).trans_le (le_abs_self _)

theorem mem_clockSecs {a : Action} {secs : Nat} (isSecs : nonceSecs a = some secs) :
    secs ∈ clockSecs a := by
  cases a with
  | message req env =>
    obtain rfl : env.nonceAt.secs = secs := Option.some.inj isSecs
    exact List.mem_cons_of_mem _ List.mem_cons_self
  | connectToPeer relayUrl now => cases isSecs
  | peerRoutes relayUrl now => cases isSecs
  | cleanupExpiredRoutes now => cases isSecs
  | cleanupExpired now sqlOk => cases isSecs

/-- When a request comes again, its nonce is still known or its timestamp too old. -/
theorem known_or_stale {dated : Request → Option F64} {a : Action} {env env' : Env}
    {req' : Request} {middle back : List Action} {fp nonce : String} {timestamp : F64}
    (clock : ClockNondecreasing (a :: (middle ++ .message req' env' :: back)))
    (guarded : Along (serverStep cfg) (Protected dated) s (middle ++ .message req' env' :: back))
    (remembered : (nonce, (env.nonceAt.secs : Int)) ∈ s.seenNonceStrs fp)
    (lapses : Lapses timestamp env) :
    (nonce, (env.nonceAt.secs : Int)) ∈ (final (serverStep cfg) s middle).seenNonceStrs fp ∨
      isFresh env'.freshAt timestamp = false := by
  have uncapped : Along (serverStep cfg) Uncapped s middle :=
    along_mono (fun _ _ guards => guards.1) ((along_append s middle _).mp guarded).1
  rcases nonce_survives_run uncapped remembered with there | ⟨b, member, secs, isSecs, passed⟩
  · exact Or.inl there
  · have readings := (List.pairwise_append.mp clock.tail).2.2 b member _ List.mem_cons_self
    have reached : secs ≤ env'.freshAt.secs :=
      readings secs (mem_clockSecs isSecs) _ List.mem_cons_self
    have late : env.nonceAt.secs + storeTimestampToleranceSecs + 1 ≤ env'.freshAt.secs := by
      omega
    exact Or.inr (stale_later rfl late
      (lapses ⟨_, 0, late.trans_lt env'.freshAt.secs_lt, by decide⟩ rfl rfl))

/-- The three checks let the request pass. -/
def Accepted (cfg : ServerConfig) (s : ServerState) (q : StoreRequest) (env : Env) : Prop :=
  ((storeChecks cfg q env).run s).1 = .ok ()

instance (cfg : ServerConfig) (s : ServerState) (q : StoreRequest) (env : Env) :
    Decidable (Accepted cfg s q env) :=
  inferInstanceAs (Decidable (_ = Except.ok ()))

/-- What passed the checks was fresh and new, and its nonce is recorded now. -/
theorem storeChecks_ok {q : StoreRequest} {env : Env} {u : Unit}
    (passed : (storeChecks cfg q env).run s = (.ok u, t)) :
    isFresh env.freshAt q.timestamp = true ∧
      (∀ n ∈ s.seenNonceStrs q.senderFp, n.1 ≠ q.nonce) ∧
      (q.nonce, (env.nonceAt.secs : Int)) ∈ t.seenNonceStrs q.senderFp := by
  obtain ⟨_, verified, isVerified, passed⟩ := run_bind_iff.mp passed
  obtain ⟨_, _, isFresh, passed⟩ := run_bind_iff.mp passed
  obtain ⟨fresh, rfl⟩ := checkTimestampFreshness_iff.mp isFresh
  obtain ⟨unseen, rfl⟩ := requireUnseen_iff.mp passed
  have kept : Keeps (Unchanged ServerState.seenNonceStrs) (verifyStoreSignature cfg q env) :=
    verifyStoreSignature_keeps (Unchanged.refl _) (Unchanged.trans _)
      (fun sig data => requireSignature_keeps (fun _ _ => rfl) sig data _ _)
  have same : verified.seenNonceStrs = s.seenNonceStrs := kept.of_run isVerified
  refine ⟨fresh, same ▸ unseen, ?_⟩
  simp [ServerState.remember, recordNonce]

/-- After the checks a store does not touch the nonces. -/
theorem relayStore_nonces {q : StoreRequest} {env : Env} {u : Unit}
    (passed : (storeChecks cfg q env).run s = (.ok u, t)) :
    (serverStep cfg s (.message (.store q) env)).2.seenNonceStrs = t.seenNonceStrs := by
  change ((storeChecks cfg q env >>= _).run s).2.seenNonceStrs = _
  rw [run_bind_of_ok passed]
  split
  · rfl
  · exact Keeps.bind (Unchanged.trans ServerState.seenNonceStrs) (store_keeps (fun _ _ => rfl) _)
      (fun _ => keeps_pure (Unchanged.refl _) _) t

/-- A message of `fp-s`, signed with the key 7 that comes with it. -/
def signedStore (nonce : String) (timestamp : F64) : StoreRequest where
  recipientNid := "nid-r"
  senderNid := "nid-s"
  senderFp := "fp-s"
  signedBlob := "blob"
  seq := 1
  senderSig := sumSignature 7
    ("|".intercalate ["nid-r", "nid-s", "fp-s", "1", (smallConfig none).display timestamp, nonce])
  timestamp := timestamp
  nonce := nonce
  senderVerifyingKey := String.singleton (Char.ofUInt8 7)
  sealedSender := ""
  recipientTag := ""

def promptStore : StoreRequest := signedStore "n" momentStamp

end RelayReplay

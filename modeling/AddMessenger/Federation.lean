import AddMessenger.RelayReplay

/-!
# Relays among themselves

What one relay believes about others: who is a peer, who is authenticated and which
relay serves which null id. The federation state moves by itself: no mail, key or nonce
has a part in it, so it is a machine of its own under every run of the server.
-/

namespace Federation

open Handlers Handlers.Handler Mealy Protocol RelayMailbox RelayServer Tables

/-- What one action does to the federation state. -/
def federationStep (cfg : ServerConfig) (fed : FederationState) : Action → FederationState
  | .message (.routeAdvertise payload) env =>
    if federationEnabled cfg && (RouteAdvertise.fromValue payload).isOk then
      learnRoutes payload env.instant fed
    else fed
  | .message (.routeAdvertiseAck payload) env => learnRoutes payload env.instant fed
  | .message (.peerAuth challenge relayUrl) env =>
    if federationEnabled cfg then
      { fed with
        pendingChallenges := Function.update fed.pendingChallenges relayUrl
          (some (challenge, env.nonceAt.secs)) }
    else fed
  | .message (.peerAuthReply response relayUrl) env =>
    match cfg.mail.sharedSecret with
    | none => fed
    | some secret =>
      let taken := { fed with
        pendingChallenges := Function.update fed.pendingChallenges relayUrl none }
      match fed.pendingChallenges relayUrl with
      | none => taken
      | some (challenge, createdAt) =>
        if env.nonceAt.secs - createdAt ≤ 300 ∧ computeHmac cfg.mail challenge secret = response
        then authenticate relayUrl taken
        else taken
  | .message _ _ => fed
  | .connectToPeer relayUrl now =>
    { fed with peers := Function.update fed.peers relayUrl (some ⟨now, false⟩) }
  | .peerRoutes relayUrl now => fed.touch now relayUrl
  | .cleanupExpiredRoutes now => fed.cleanupExpiredRoutes now
  | .cleanupExpired _ _ => fed

variable {cfg : ServerConfig} {s : ServerState} {env : Env}

theorem handleMessage_sameFederation {req : Request} (client : changesFederation req = false) :
    Keeps (Unchanged ServerState.federation) (handleMessage cfg req env) := by
  refine handleMessage_keeps (Unchanged.refl _) (Unchanged.trans _)
    (fun fp key _ sig data => requireSignature_keeps (fun _ _ => rfl) sig data fp key)
    (fun fp nonce _ => requireUnseen_keeps (fun _ _ => rfl) fp nonce _)
    (fun q _ => store_keeps (fun _ _ => rfl) _) (fun op _ s => rfl) (fun f changes => ?_)
    (fun relayUrl changes => ?_)
  · rw [client] at changes
    cases changes
  · rw [client] at changes
    cases changes

theorem peerAuthReply_federation (response relayUrl : String) :
    ((peerAuthReply cfg response relayUrl env).run s).2.federation =
      federationStep cfg s.federation (.message (.peerAuthReply response relayUrl) env) := by
  simp only [peerAuthReply, federationStep]
  cases cfg.mail.sharedSecret with
  | none => rfl
  | some secret =>
    have taken : (takeChallenge relayUrl).run s =
        (.ok (s.federation.pendingChallenges relayUrl), _) := rfl
    simp only [run_bind_of_ok taken]
    cases s.federation.pendingChallenges relayUrl with
    | none => rfl
    | some pending =>
      obtain ⟨challenge, createdAt⟩ := pending
      by_cases young : env.nonceAt.secs - createdAt ≤ 300
      · by_cases right : computeHmac cfg.mail challenge secret = response
        · simp [young, right, run, bind, pure, require, modifyFederation, Handler.modify]
        · simp [young, right, run, bind, pure, require, modifyFederation, Handler.modify]
      · simp [young, run, bind, require]

/-- The server moves its federation state as the federation machine does. -/
theorem serverStep_federation (s : ServerState) (a : Action) :
    (serverStep cfg s a).2.federation = federationStep cfg s.federation a := by
  cases a with
  | message req env =>
    cases req with
    | routeAdvertise payload =>
      change ((routeAdvertise cfg payload env).run s).2.federation = _
      simp only [routeAdvertise, federationStep]
      cases federationEnabled cfg with
      | false => rfl
      | true =>
        cases RouteAdvertise.fromValue payload with
        | error e => rfl
        | ok adv => rfl
    | routeAdvertiseAck payload => rfl
    | peerAuth challenge relayUrl =>
      change ((peerAuth cfg challenge relayUrl env).run s).2.federation = _
      cases configured : cfg.mail.sharedSecret with
      | none =>
        simp only [peerAuth, federationStep, federationEnabled, configured]
        rfl
      | some secret =>
        simp only [peerAuth, federationStep, federationEnabled, configured]
        rfl
    | peerAuthReply response relayUrl => exact peerAuthReply_federation response relayUrl
    | store | fetch | status | ack | purge | readReceipt | delete | forward | whoHas =>
      exact handleMessage_sameFederation rfl s
  | connectToPeer relayUrl now => rfl
  | peerRoutes relayUrl now => rfl
  | cleanupExpiredRoutes now => rfl
  | cleanupExpired now sqlOk => rfl

def Authenticated (fed : FederationState) (relayUrl : String) : Prop :=
  ∃ peer, fed.peers relayUrl = some peer ∧ peer.authenticated = true

/-- The action is a reply under this URL, of a known peer, with the HMAC of the challenge
that is pending there and not older than five minutes. -/
def Answers (cfg : ServerConfig) (fed : FederationState) (a : Action) (relayUrl : String) :
    Prop :=
  ∃ response env secret challenge createdAt,
    a = .message (.peerAuthReply response relayUrl) env ∧
      cfg.mail.sharedSecret = some secret ∧
      fed.pendingChallenges relayUrl = some (challenge, createdAt) ∧
      env.nonceAt.secs - createdAt ≤ 300 ∧ computeHmac cfg.mail challenge secret = response ∧
      (fed.peers relayUrl).isSome = true

section

variable {fed : FederationState} {relayUrl : String}

/-- Adding routes one after the other: the last one counts, and all are the same. -/
theorem foldl_addRoute (now : RelayServer.Instant) (peerUrl : String) (nids : List String) :
    nids.foldl (fun fed nid => fed.addRoute now peerUrl nid) fed =
      { fed with
        remoteRoutes := fun nid =>
          if nid ∈ nids then some ⟨peerUrl, now + federationRouteTtlSeconds * 10 ^ 9⟩
          else fed.remoteRoutes nid } := by
  induction nids generalizing fed with
  | nil => simp
  | cons first rest ih =>
    rw [List.foldl_cons, ih]
    congr 1
    funext nid
    by_cases later : nid ∈ rest
    · simp [later]
    · by_cases here : nid = first
      · simp [here, FederationState.addRoute]
      · simp [later, here, FederationState.addRoute]

@[simp] theorem learnRoutes_peers (payload : Json) (now : RelayServer.Instant) :
    (learnRoutes payload now fed).peers = (fed.touch now (advertisedUrl payload)).peers := by
  rw [learnRoutes, foldl_addRoute]
  rfl

@[simp] theorem learnRoutes_pendingChallenges (payload : Json) (now : RelayServer.Instant) :
    (learnRoutes payload now fed).pendingChallenges = fed.pendingChallenges := by
  rw [learnRoutes, foldl_addRoute]
  rfl

@[simp] theorem learnRoutes_remoteRoutes (payload : Json) (now : RelayServer.Instant)
    (nid : String) :
    (learnRoutes payload now fed).remoteRoutes nid =
      if nid ∈ advertisedNids payload then
        some ⟨advertisedUrl payload, now + federationRouteTtlSeconds * 10 ^ 9⟩
      else fed.remoteRoutes nid := by
  rw [learnRoutes, foldl_addRoute]
  rfl

theorem authenticated_touch (now : RelayServer.Instant) (other : String) :
    Authenticated (fed.touch now other) relayUrl ↔ Authenticated fed relayUrl := by
  unfold Authenticated FederationState.touch modifyAt
  by_cases same : relayUrl = other
  · subst same
    cases fed.peers relayUrl <;> simp
  · simp [same]

/-- A step authenticates a peer only by such a reply. -/
theorem authenticated_step {a : Action}
    (after : Authenticated (federationStep cfg fed a) relayUrl) :
    Authenticated fed relayUrl ∨ Answers cfg fed a relayUrl := by
  have learned : ∀ payload now, Authenticated (learnRoutes payload now fed) relayUrl →
      Authenticated fed relayUrl := by
    intro payload now authenticated
    unfold Authenticated at authenticated
    rw [learnRoutes_peers] at authenticated
    exact (authenticated_touch now (advertisedUrl payload)).mp authenticated
  cases a with
  | message req env =>
    cases req with
    | routeAdvertise payload =>
      simp only [federationStep] at after
      split at after
      · exact Or.inl (learned payload env.instant after)
      · exact Or.inl after
    | routeAdvertiseAck payload => exact Or.inl (learned payload env.instant after)
    | peerAuth challenge other =>
      simp only [federationStep] at after
      split at after
      · exact Or.inl after
      · exact Or.inl after
    | peerAuthReply response other =>
      simp only [federationStep] at after
      split at after
      · exact Or.inl after
      · rename_i secret configured
        split at after
        · exact Or.inl after
        · rename_i challenge createdAt pending
          split at after
          · rename_i passed
            by_cases here : relayUrl = other
            · subst here
              cases known : fed.peers relayUrl with
              | none => simp [Authenticated, authenticate, modifyAt, known] at after
              | some peer =>
                exact Or.inr ⟨response, env, secret, challenge, createdAt, rfl, configured,
                  pending, passed.1, passed.2, by simp [known]⟩
            · refine Or.inl ?_
              simpa [Authenticated, authenticate, modifyAt, here] using after
          · exact Or.inl after
    | store | fetch | status | ack | purge | readReceipt | delete | forward | whoHas =>
      exact Or.inl after
  | connectToPeer other now =>
    refine Or.inl ?_
    by_cases here : relayUrl = other
    · subst here
      simp [Authenticated, federationStep] at after
    · simpa [Authenticated, federationStep, here] using after
  | peerRoutes other now => exact Or.inl ((authenticated_touch now other).mp after)
  | cleanupExpiredRoutes now =>
    obtain ⟨peer, kept, authenticated⟩ := after
    exact Or.inl ⟨peer, (Option.filter_eq_some_iff.mp kept).1, authenticated⟩
  | cleanupExpired now sqlOk => exact Or.inl after

/-- And such a reply does. -/
theorem authenticated_of_answers {a : Action} (answers : Answers cfg fed a relayUrl) :
    Authenticated (federationStep cfg fed a) relayUrl := by
  obtain ⟨response, env, secret, challenge, createdAt, rfl, configured, pending, young, right,
    known⟩ := answers
  obtain ⟨peer, isPeer⟩ := Option.isSome_iff_exists.mp known
  simp only [federationStep, configured, pending, young, right, and_self, if_true]
  exact ⟨{ peer with authenticated := true }, by simp [authenticate, modifyAt, isPeer], rfl⟩

/-- A step puts a challenge under a URL only when it comes with that URL. -/
theorem pending_step {a : Action} {challenge : String} {createdAt : Int}
    (after : (federationStep cfg fed a).pendingChallenges relayUrl = some (challenge, createdAt)) :
    fed.pendingChallenges relayUrl = some (challenge, createdAt) ∨
      ∃ env, a = .message (.peerAuth challenge relayUrl) env := by
  have untaken : ∀ other, Function.update fed.pendingChallenges other none relayUrl =
      some (challenge, createdAt) →
      fed.pendingChallenges relayUrl = some (challenge, createdAt) := by
    intro other left
    by_cases here : relayUrl = other
    · subst here
      simp at left
    · rwa [Function.update_of_ne here] at left
  cases a with
  | message req env =>
    cases req with
    | routeAdvertise payload =>
      simp only [federationStep] at after
      split at after
      · exact Or.inl (learnRoutes_pendingChallenges payload env.instant ▸ after)
      · exact Or.inl after
    | routeAdvertiseAck payload =>
      exact Or.inl (learnRoutes_pendingChallenges payload env.instant ▸ after)
    | peerAuth received other =>
      simp only [federationStep] at after
      split at after
      · by_cases here : relayUrl = other
        · subst here
          obtain ⟨rfl, _⟩ : received = challenge ∧ (env.nonceAt.secs : Int) = createdAt := by
            simpa using after
          exact Or.inr ⟨env, rfl⟩
        · exact Or.inl (by simpa [here] using after)
      · exact Or.inl after
    | peerAuthReply response other =>
      simp only [federationStep] at after
      split at after
      · exact Or.inl after
      · split at after
        · exact Or.inl (untaken other after)
        · split at after
          · exact Or.inl (untaken other after)
          · exact Or.inl (untaken other after)
    | store | fetch | status | ack | purge | readReceipt | delete | forward | whoHas =>
      exact Or.inl after
  | connectToPeer other now => exact Or.inl after
  | peerRoutes other now => exact Or.inl after
  | cleanupExpiredRoutes now => exact Or.inl after
  | cleanupExpired now sqlOk => exact Or.inl after

end

/-- The relay sends no challenge of its own, so no peer can have answered one: nobody
is authenticated in any state of the run. -/
def NobodyAuthenticated (cfg : ServerConfig) (pool : Bool) (acts : List Action) : Prop :=
  ∀ front back, acts = front ++ back → ∀ relayUrl,
    ¬ Authenticated (final (serverStep cfg) (started pool) front).federation relayUrl

/-- The reply repeats what this relay itself sent to whoever asked under that URL. -/
def Reflected (cfg : ServerConfig) (pool : Bool) (front : List Action) (a : Action)
    (relayUrl : String) : Prop :=
  ∃ before challenge env after response env', front =
      before ++ .message (.peerAuth challenge relayUrl) env :: after ∧
    a = .message (.peerAuthReply response relayUrl) env' ∧
    (serverStep cfg (final (serverStep cfg) (started pool) before)
      (.message (.peerAuth challenge relayUrl) env)).1 = .ok (.peerAuthReply response (url cfg))

/-- A pending challenge is one that was received under the same URL. -/
theorem pending_received (pool : Bool) (acts : List Action) {relayUrl challenge : String}
    {createdAt : Int}
    (pending : (final (serverStep cfg) (started pool) acts).federation.pendingChallenges relayUrl =
      some (challenge, createdAt)) :
    ∃ before env after, acts = before ++ .message (.peerAuth challenge relayUrl) env :: after := by
  induction acts using List.reverseRecOn with
  | nil => cases pending
  | append_singleton early a ih =>
    rw [final_append, final_cons, final_nil, serverStep_federation] at pending
    rcases pending_step pending with before | ⟨env, rfl⟩
    · obtain ⟨front, env, back, rfl⟩ := ih before
      exact ⟨front, env, back ++ [a], by rw [List.append_assoc, List.cons_append]⟩
    · exact ⟨early, env, [], rfl⟩

theorem answers_reflected (pool : Bool) {front : List Action} {a : Action} {relayUrl : String}
    (answers : Answers cfg (final (serverStep cfg) (started pool) front).federation a relayUrl) :
    Reflected cfg pool front a relayUrl := by
  obtain ⟨response, env', secret, challenge, createdAt, rfl, configured, pending, _, rfl, _⟩ :=
    answers
  obtain ⟨before, env, after, rfl⟩ := pending_received pool front pending
  refine ⟨before, challenge, env, after, _, env', rfl, rfl, ?_⟩
  change ((peerAuth cfg challenge relayUrl env).run _).1 = _
  simp only [peerAuth, configured]
  rfl

/-- A run authenticates nobody if and only if no reply answers a pending challenge, and
every reply that does repeats the relay's own HMAC. -/
theorem nobody_authenticated_iff (cfg : ServerConfig) (pool : Bool) (acts : List Action) :
    (NobodyAuthenticated cfg pool acts ↔
        Along (serverStep cfg) (fun s a => ∀ relayUrl, ¬ Answers cfg s.federation a relayUrl)
          (started pool) acts) ∧
      ∀ front a back relayUrl, acts = front ++ a :: back →
        Answers cfg (final (serverStep cfg) (started pool) front).federation a relayUrl →
        Reflected cfg pool front a relayUrl := by
  refine ⟨⟨fun nobody => ?_, fun unanswered => ?_⟩, fun front a back relayUrl _ answers =>
    answers_reflected pool answers⟩
  · refine (along_iff_split _ _).mpr fun front a back split relayUrl answers => ?_
    refine nobody (front ++ [a]) back (by rw [split, List.append_assoc, List.singleton_append])
      relayUrl ?_
    rw [final_append, final_cons, final_nil, serverStep_federation]
    exact authenticated_of_answers answers
  · rintro front back rfl
    refine final_invariant (fun s => ∀ relayUrl, ¬ Authenticated s.federation relayUrl) ?_ ?_
      ((along_append _ front back).mp unanswered).1
    · intro s a nobody silent relayUrl after
      rw [serverStep_federation] at after
      rcases authenticated_step after with before | answers
      · exact nobody relayUrl before
      · exact silent relayUrl answers
    · rintro relayUrl ⟨peer, known, _⟩
      cases known

/-- The HMAC under a secret the sender of the messages below does not have. -/
def relayHmac : String := computeHmac (sumConfig (some "secret")) "c" "secret"

def challengePeer : Action := .message (.peerAuth "c" "ws://peer") moment

def reflection : List Action :=
  [.connectToPeer "ws://peer" 0, challengePeer,
    .message (.peerAuthReply relayHmac "ws://peer") moment]

/-- A stranger asks under the URL of a peer and sends the answer back. -/
theorem reflection_authenticates :
    (serverStep (smallConfig (some "secret"))
        (final (serverStep (smallConfig (some "secret"))) (started false)
          [.connectToPeer "ws://peer" 0]) challengePeer).1 =
        .ok (.peerAuthReply relayHmac "ws://here") ∧
      ¬ NobodyAuthenticated (smallConfig (some "secret")) false reflection := by
  refine ⟨rfl, fun nobody => nobody reflection [] (List.append_nil _).symm "ws://peer" ?_⟩
  exact ⟨⟨0, true⟩, by rfl, rfl⟩

/-- A forward is stored: it is acknowledged, or the mail is not what it was. -/
def StoresForward (cfg : ServerConfig) (s : ServerState) (req : RelayForward) (env : Env) : Prop :=
  (serverStep cfg s (.message (.forward req) env)).1 = .ok (.forwardAck true none) ∨
    (serverStep cfg s (.message (.forward req) env)).2.mail ≠ s.mail

/-- What one step of the run lets in. Without a secret there are no routes and no
forwards; with one, both come only from authenticated peers. -/
structure Gate (cfg : ServerConfig) (s : ServerState) (a : Action) : Prop where
  noRoutes : cfg.mail.sharedSecret = none → ∀ nid,
    (serverStep cfg s a).2.federation.remoteRoutes nid = none
  noForwards : cfg.mail.sharedSecret = none → ∀ req env, a = .message (.forward req) env →
    ¬ StoresForward cfg s req env
  forwards : cfg.mail.sharedSecret.isSome = true → ∀ req env, a = .message (.forward req) env →
    StoresForward cfg s req env → Authenticated s.federation req.sourceRelayUrl
  routes : cfg.mail.sharedSecret.isSome = true → ∀ nid entry,
    (serverStep cfg s a).2.federation.remoteRoutes nid = some entry →
    s.federation.remoteRoutes nid = some entry ∨ Authenticated s.federation entry.relayUrl

/-- Advertised routes come under the URL of an authenticated peer, an acknowledgement
with routes only if there is a secret, and forwards name a known peer. -/
def Vouched (cfg : ServerConfig) (s : ServerState) : Action → Prop
  | .message (.routeAdvertise payload) _ =>
    federationEnabled cfg = true → (RouteAdvertise.fromValue payload).isOk = true →
      advertisedNids payload ≠ [] → Authenticated s.federation (advertisedUrl payload)
  | .message (.routeAdvertiseAck payload) _ =>
    advertisedNids payload ≠ [] →
      federationEnabled cfg = true ∧ Authenticated s.federation (advertisedUrl payload)
  | .message (.forward req) _ =>
    federationEnabled cfg = true → cfg.allowRelay = true →
      (s.federation.peers req.sourceRelayUrl).isSome = true
  | _ => True

section

variable {req : RelayForward} {a : Action}

theorem not_storesForward_of_disabled (disabled : cfg.mail.sharedSecret = none) :
    ¬ StoresForward cfg s req env := by
  have ignored : serverStep cfg s (.message (.forward req) env) = (.ok .done, s) := by
    change (relayForward cfg req env).run s = _
    simp only [relayForward, federationEnabled, disabled]
    rfl
  rw [StoresForward, ignored]
  simp

theorem not_refused_of_storesForward (stored : StoresForward cfg s req env) (text : String) :
    (relayForward cfg req env).run s ≠ (refuseForward text).run s := by
  intro refused
  have same : serverStep cfg s (.message (.forward req) env) = (refuseForward text).run s := refused
  rw [StoresForward, same] at stored
  rcases stored with accepted | moved
  · cases accepted
  · exact moved rfl

/-- A stored forward does not come from a known peer that is not authenticated. -/
theorem storesForward_source (stored : StoresForward cfg s req env) :
    cfg.allowRelay = true ∧
      knownUnauthenticated s.federation req.sourceRelayUrl = false := by
  have enabled : federationEnabled cfg = true := by
    rw [federationEnabled, Option.isSome_iff_ne_none]
    exact fun disabled => not_storesForward_of_disabled disabled stored
  have allowed : cfg.allowRelay = true := by
    rw [← Bool.not_eq_false]
    intro denied
    refine not_refused_of_storesForward stored
      "relay does not accept transit forwarding (edge mode)" ?_
    simp only [relayForward, enabled, denied]
    rfl
  refine ⟨allowed, ?_⟩
  rw [← Bool.not_eq_true]
  intro unauthenticated
  refine not_refused_of_storesForward stored
    "peer not authenticated — HMAC challenge-response required" ?_
  have asked : (asks fun s => knownUnauthenticated s.federation req.sourceRelayUrl : Serve Bool).run
      s = (.ok true, s) := run_asks_iff.mpr ⟨unauthenticated, rfl⟩
  simp only [relayForward, enabled, allowed, Bool.not_true, Bool.false_eq_true, if_false]
  rw [run_bind_of_ok asked]
  rfl

/-- A step adds a route only by an advertisement or its acknowledgement. -/
theorem route_step {fed : FederationState} {nid : String} {entry : RouteEntry}
    (after : (federationStep cfg fed a).remoteRoutes nid = some entry) :
    fed.remoteRoutes nid = some entry ∨
      ∃ payload env, nid ∈ advertisedNids payload ∧ entry.relayUrl = advertisedUrl payload ∧
        (a = .message (.routeAdvertiseAck payload) env ∨
          a = .message (.routeAdvertise payload) env ∧ federationEnabled cfg = true ∧
            (RouteAdvertise.fromValue payload).isOk = true) := by
  have learned : ∀ payload now, (learnRoutes payload now fed).remoteRoutes nid = some entry →
      fed.remoteRoutes nid = some entry ∨
        nid ∈ advertisedNids payload ∧ entry.relayUrl = advertisedUrl payload := by
    intro payload now route
    rw [learnRoutes_remoteRoutes] at route
    split at route
    · rename_i member
      exact Or.inr ⟨member, by rw [← Option.some.inj route]⟩
    · exact Or.inl route
  cases a with
  | message req env =>
    cases req with
    | routeAdvertise payload =>
      simp only [federationStep] at after
      split at after
      · rename_i parsed
        rw [Bool.and_eq_true] at parsed
        rcases learned payload env.instant after with before | ⟨member, source⟩
        · exact Or.inl before
        · exact Or.inr ⟨payload, env, member, source, Or.inr ⟨rfl, parsed⟩⟩
      · exact Or.inl after
    | routeAdvertiseAck payload =>
      rcases learned payload env.instant after with before | ⟨member, source⟩
      · exact Or.inl before
      · exact Or.inr ⟨payload, env, member, source, Or.inl rfl⟩
    | peerAuth challenge relayUrl =>
      simp only [federationStep] at after
      split at after
      · exact Or.inl after
      · exact Or.inl after
    | peerAuthReply response relayUrl =>
      simp only [federationStep] at after
      split at after
      · exact Or.inl after
      · split at after
        · exact Or.inl after
        · split at after
          · exact Or.inl after
          · exact Or.inl after
    | store | fetch | status | ack | purge | readReceipt | delete | forward | whoHas =>
      exact Or.inl after
  | connectToPeer relayUrl now => exact Or.inl after
  | peerRoutes relayUrl now => exact Or.inl after
  | cleanupExpiredRoutes now => exact Or.inl (Option.filter_eq_some_iff.mp after).1
  | cleanupExpired now sqlOk => exact Or.inl after

/-- In a vouched step a new route comes from an authenticated peer, and there is a
secret. -/
theorem route_vouched (vouched : Vouched cfg s a) {nid : String} {entry : RouteEntry}
    (after : (serverStep cfg s a).2.federation.remoteRoutes nid = some entry) :
    s.federation.remoteRoutes nid = some entry ∨
      federationEnabled cfg = true ∧ Authenticated s.federation entry.relayUrl := by
  rw [serverStep_federation] at after
  rcases route_step after with before | ⟨payload, env, member, source, isAction⟩
  · exact Or.inl before
  · have some_nids : advertisedNids payload ≠ [] := List.ne_nil_of_mem member
    rw [source]
    rcases isAction with rfl | ⟨rfl, enabled, parsed⟩
    · exact Or.inr (vouched some_nids)
    · exact Or.inr ⟨enabled, vouched enabled parsed some_nids⟩

end

/-- In every run whose advertisements come under the URL of an authenticated peer, whose
acknowledgements do so too and only with a secret, and whose forwards name a known peer,
every step keeps the gate. -/
theorem gate_of_vouched (cfg : ServerConfig) (pool : Bool) (acts : List Action)
    (vouched : Along (serverStep cfg) (Vouched cfg) (started pool) acts) :
    Along (serverStep cfg) (Gate cfg) (started pool) acts := by
  have preserved : ∀ s a, (cfg.mail.sharedSecret = none → ∀ nid,
      s.federation.remoteRoutes nid = none) → Vouched cfg s a → cfg.mail.sharedSecret = none →
      ∀ nid, (serverStep cfg s a).2.federation.remoteRoutes nid = none := by
    intro s a noRoutes vouched disabled nid
    rw [Option.eq_none_iff_forall_ne_some]
    intro entry after
    rcases route_vouched vouched after with before | ⟨enabled, _⟩
    · rw [noRoutes disabled nid] at before
      cases before
    · rw [federationEnabled, disabled] at enabled
      cases enabled
  refine along_of_invariant _ preserved ?_ (fun _ _ => rfl) vouched
  intro s a noRoutes vouched
  refine ⟨preserved s a noRoutes vouched, ?_, ?_, ?_⟩
  · rintro disabled req env rfl
    exact not_storesForward_of_disabled disabled
  · rintro enabled req env rfl stored
    obtain ⟨allowed, trusted⟩ := storesForward_source stored
    obtain ⟨peer, known⟩ := Option.isSome_iff_exists.mp (vouched enabled allowed)
    refine ⟨peer, known, ?_⟩
    simpa [knownUnauthenticated, known] using trusted
  · intro _ nid entry after
    exact (route_vouched vouched after).imp_right And.right

/-- Routes of a peer that counts as authenticated. -/
def peerRoutesRun : List Action :=
  reflection ++ [.message (.routeAdvertiseAck (ackPayload "ws://peer" ["nid-r"])) moment]

theorem gate_of_vouched_peer :
    Along (serverStep (smallConfig (some "secret"))) (Gate (smallConfig (some "secret")))
        (started false) peerRoutesRun ∧
      (final (serverStep (smallConfig (some "secret"))) (started false)
        peerRoutesRun).federation.lookupRoute "nid-r" = some "ws://peer" := by
  refine ⟨gate_of_vouched (smallConfig (some "secret")) false peerRoutesRun ?_, by decide +kernel⟩
  exact ⟨trivial, trivial, trivial, fun _ => ⟨rfl, ⟨0, true⟩, rfl, rfl⟩, trivial⟩

/-- Routes of an unknown relay. -/
def strangerRoutes : Action :=
  .message (.routeAdvertiseAck (ackPayload "ws://stranger" ["nid-r"])) moment

/-- A message of `fp-s` that an unknown relay passes on. -/
def strangerForward : RelayForward where
  recipientNid := "nid-r"
  signedBlob := "blob"
  senderNid := "nid-s"
  senderFp := "fp-s"
  seq := 1
  senderSig := sumSignature 7 ("|".intercalate ["nid-r", "nid-s", "fp-s", "1", "1000", "5"])
  timestamp := momentStamp
  nonce := 5
  hopCount := 0
  via := []
  sourceRelayUrl := "ws://stranger"

def acknowledged : Except Refusal Reply → Bool
  | .ok (.forwardAck true none) => true
  | _ => false

theorem eq_of_acknowledged {answer : Except Refusal Reply} (yes : acknowledged answer = true) :
    answer = .ok (.forwardAck true none) := by
  unfold acknowledged at yes
  split at yes
  · rfl
  · cases yes

/-- An answer that was not asked for sets routes, without a secret and with one, and a
relay that nobody knows may forward. -/
theorem gate_open_to_strangers :
    ¬ Along (serverStep (smallConfig none)) (Gate (smallConfig none)) (started false)
        [strangerRoutes] ∧
      ¬ Along (serverStep (smallConfig (some "secret"))) (Gate (smallConfig (some "secret")))
        (started false) [strangerRoutes] ∧
      ¬ Along (serverStep (smallConfig (some "secret"))) (Gate (smallConfig (some "secret")))
        (started false) [.message (.store RelayReplay.promptStore) moment,
          .message (.forward strangerForward) moment] := by
  refine ⟨?_, ?_, ?_⟩
  · rintro ⟨gate, _⟩
    have route := gate.noRoutes rfl "nid-r"
    cases route
  · rintro ⟨gate, _⟩
    rcases gate.routes rfl "nid-r" _ rfl with before | ⟨peer, known, _⟩
    · cases before
    · cases known
  · rintro ⟨_, gate, _⟩
    have stored : StoresForward (smallConfig (some "secret"))
        (serverStep (smallConfig (some "secret")) (started false)
          (.message (.store RelayReplay.promptStore) moment)).2 strangerForward moment :=
      Or.inl (eq_of_acknowledged (by decide +kernel))
    obtain ⟨peer, known, _⟩ := gate.forwards rfl strangerForward moment rfl stored
    rw [serverStep_federation] at known
    cases known

end Federation

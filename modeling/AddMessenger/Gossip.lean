import AddMessenger.Federation

/-!
# Advertised routes

A relay advertises the null ids of its mailboxes to its peers, and a peer that takes an
advertisement answers with its own. The advertisement is built by hand and read as a
struct, the answer is built and read by hand.
-/

namespace Gossip

open Handlers Handlers.Handler Mealy Protocol RelayMailbox RelayServer Federation

/-- The routes of exactly these ids lead to the relay, the others are as before. -/
def Learned (before after : FederationState) (peerUrl : String) (nids : List String) : Prop :=
  ∀ nid, after.lookupRoute nid = if nid ∈ nids then some peerUrl else before.lookupRoute nid

/-- The advertisement the sender makes of its ids is accepted, and its routes are
learned. -/
def GossipUnderstood (sender receiver : ServerConfig) (nids : List String) (t : ServerState)
    (env : Env) : Prop :=
  ∀ payload, gossipPayload sender nids = some payload →
    ∃ reply, (serverStep receiver t (.message (.routeAdvertise payload) env)).1 = .ok reply ∧
      Learned t.federation
        (serverStep receiver t (.message (.routeAdvertise payload) env)).2.federation
        (url sender) nids

/-- The answer the receiver makes to any advertisement it takes is accepted, and its
routes are learned. -/
def AckUnderstood (sender receiver : ServerConfig) (s t : ServerState) (env env' : Env) : Prop :=
  ∀ payload ack,
    (serverStep receiver t (.message (.routeAdvertise payload) env)).1 =
      .ok (.routeAdvertiseAck ack) →
    (serverStep sender s (.message (.routeAdvertiseAck ack) env')).1 = .ok .done ∧
      Learned s.federation
        (serverStep sender s (.message (.routeAdvertiseAck ack) env')).2.federation
        (url receiver) env.localNids

/-- An advertisement lacks the count that its reader asks for. -/
theorem fromValue_routePayload (peerUrl : String) (nids : List String) :
    RouteAdvertise.fromValue (.object (routePayload peerUrl nids)) =
      .error (.missingField "route_count") :=
  rfl

theorem advertisedUrl_ackPayload (peerUrl : String) (nids : List String) :
    advertisedUrl (ackPayload peerUrl nids) = peerUrl :=
  rfl

theorem advertisedNids_ackPayload (peerUrl : String) (nids : List String) :
    advertisedNids (ackPayload peerUrl nids) = nids := by
  change (nids.map Json.string).filterMap Json.asStr = nids
  rw [List.filterMap_map]
  exact List.filterMap_some

theorem learned_learnRoutes (fed : FederationState) (payload : Json)
    (now : RelayServer.Instant) :
    Learned fed (learnRoutes payload now fed) (advertisedUrl payload) (advertisedNids payload) := by
  intro nid
  rw [FederationState.lookupRoute, learnRoutes_remoteRoutes]
  split
  · rfl
  · rfl

variable {sender receiver : ServerConfig}

theorem gossip_refused (enabled : federationEnabled receiver = true) (nids : List String)
    (t : ServerState) (env : Env) {payload : Json}
    (built : gossipPayload sender nids = some payload) :
    serverStep receiver t (.message (.routeAdvertise payload) env) =
      (.error (.invalidRouteAdvertise (.missingField "route_count")), t) := by
  have isPayload : .object (routePayload (url sender) nids) = payload := by
    unfold gossipPayload at built
    split at built
    · cases built
    · exact Option.some.inj built
  subst isPayload
  have handled : serverStep receiver t
      (.message (.routeAdvertise (.object (routePayload (url sender) nids))) env) =
        (routeAdvertise receiver (.object (routePayload (url sender) nids)) env).run t := rfl
  rw [handled]
  simp only [routeAdvertise, enabled, fromValue_routePayload]
  rfl

theorem ack_understood (s t : ServerState) (env env' : Env) :
    AckUnderstood sender receiver s t env env' := by
  intro payload ack answered
  have isAck : ackPayload (url receiver) env.localNids = ack := by
    change ((routeAdvertise receiver payload env).run t).1 = _ at answered
    unfold routeAdvertise at answered
    split at answered
    · cases answered
    · split at answered
      · cases answered
      · exact Reply.routeAdvertiseAck.inj (Except.ok.inj answered)
  subst isAck
  refine ⟨rfl, ?_⟩
  rw [serverStep_federation]
  have learned := learned_learnRoutes s.federation (ackPayload (url receiver) env.localNids)
    env'.instant
  rwa [advertisedUrl_ackPayload, advertisedNids_ackPayload] at learned

/-- Whatever mailboxes a relay has, no other takes its advertisement: the field
`route_count` is missing, and nothing is learned. The answer to an advertisement that is
taken is understood. -/
theorem gossip_never_understood (sender receiver : ServerConfig) (nids : List String)
    (some_nids : nids ≠ []) (enabled : federationEnabled receiver = true) (s t : ServerState)
    (env env' : Env) :
    ¬ GossipUnderstood sender receiver nids t env ∧
      (∀ payload, gossipPayload sender nids = some payload →
        serverStep receiver t (.message (.routeAdvertise payload) env) =
          (.error (.invalidRouteAdvertise (.missingField "route_count")), t)) ∧
      AckUnderstood sender receiver s t env env' := by
  refine ⟨fun understood => ?_, fun payload => gossip_refused enabled nids t env,
    ack_understood s t env env'⟩
  have built : gossipPayload sender nids = some (.object (routePayload (url sender) nids)) := by
    simp [gossipPayload, some_nids]
  obtain ⟨reply, accepted, _⟩ := understood _ built
  rw [gossip_refused enabled nids t env built] at accepted
  cases accepted

/-- The key under which a relay with a secret keeps the mailbox of `nid-r`. -/
def blindNid : String := (recipientTag (sumConfig (some "secret")) "nid-r" 0).getD ""

theorem gossip_never_understood_one :
    ¬ GossipUnderstood (smallConfig (some "secret")) (smallConfig (some "secret")) [blindNid]
        (started false) moment :=
  (gossip_never_understood (smallConfig (some "secret")) (smallConfig (some "secret")) [blindNid]
    (List.cons_ne_nil _ _) rfl (started false) (started false) moment moment).1

def storesOne : List Action := [.message (.store RelayReplay.promptStore) moment]

/-- A relay that has stored one message advertises its mailbox in vain. -/
theorem gossip_of_one_mailbox_refused :
    ((final (serverStep (smallConfig (some "secret"))) (started false) storesOne).mail.mailboxes
        blindNid).isSome = true ∧
      gossipPayload (smallConfig (some "secret")) [blindNid] =
        some (.object (routePayload "ws://here" [blindNid])) ∧
      (serverStep (smallConfig (some "secret")) (started false)
          (.message (.routeAdvertise (.object (routePayload "ws://here" [blindNid]))) moment)).1 =
        .error (.invalidRouteAdvertise (.missingField "route_count")) := by
  refine ⟨by decide +kernel, rfl, rfl⟩

end Gossip

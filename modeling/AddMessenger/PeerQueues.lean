import AddMessenger.Mealy
import AddMessenger.Protocol
import Mathlib.Algebra.Order.BigOperators.Group.List
import Mathlib.Data.List.AList

/-!
# Peers and their pending messages

`PeerManager` of `p2p/src/peer.rs`: one map of the registered peers, one of the messages
that wait for a peer. Every call is one step, as it holds its locks to the end. Instants
are nanoseconds; an error is the text of its `P2pError::Peer`.
-/

namespace PeerQueues

open Protocol

def maxIdleSeconds : Nat := 300

def maxPendingMessages : Nat := 100

inductive PeerState where
  | connecting
  | connected
  | disconnected
  deriving DecidableEq

structure PeerInfo where
  peerId : String
  state : PeerState
  connectedAt : Nat
  lastActivity : Nat
  messagesSent : Nat
  messagesReceived : Nat
  publicKey : Option String

def PeerInfo.new (peerId : String) (now : Nat) : PeerInfo where
  peerId
  state := .connecting
  connectedAt := now
  lastActivity := now
  messagesSent := 0
  messagesReceived := 0
  publicKey := none

def PeerInfo.isIdle (info : PeerInfo) (now : Nat) : Bool :=
  maxIdleSeconds * 10 ^ 9 < now - info.lastActivity

structure PendingMessage where
  envelope : WireEnvelope
  queuedAt : Nat
  retryCount : Nat

structure PeerManager where
  peers : AList fun _ : String => PeerInfo
  pending : AList fun _ : String => List PendingMessage
  maxPeers : Nat

/-- Remove several keys, one after the other. -/
def eraseAll {Value : String → Type} (ids : List String) (table : AList Value) : AList Value :=
  ids.foldl (fun t id => t.erase id) table

namespace PeerManager

def new (maxPeers : Nat) : PeerManager := ⟨∅, ∅, maxPeers⟩

def addPeer (m : PeerManager) (peerId : String) (now : Nat) :
    Except String Unit × PeerManager :=
  if m.maxPeers ≤ m.peers.keys.length then (.error s!"max peers reached ({m.maxPeers})", m)
  else (.ok (), { m with peers := m.peers.insert peerId (PeerInfo.new peerId now) })

def removePeer (m : PeerManager) (peerId : String) : PeerManager :=
  { m with peers := m.peers.erase peerId, pending := m.pending.erase peerId }

def setState (m : PeerManager) (peerId : String) (state : PeerState) (now : Nat) : PeerManager :=
  match m.peers.lookup peerId with
  | some info =>
    { m with peers := m.peers.insert peerId { info with state, lastActivity := now } }
  | none => m

/-- `pending.entry(..).or_insert_with(Vec::new)`. -/
def queueOf (m : PeerManager) (peerId : String) : List PendingMessage :=
  (m.pending.lookup peerId).getD []

def queueMessage (m : PeerManager) (peerId : String) (envelope : WireEnvelope) (now : Nat) :
    Except String Unit × PeerManager :=
  let queue := m.queueOf peerId
  if maxPendingMessages ≤ queue.length then
    (.error s!"message queue full for peer {peerId}",
      { m with pending := m.pending.insert peerId queue })
  else
    (.ok (), { m with pending := m.pending.insert peerId (queue ++ [⟨envelope, now, 0⟩]) })

/-- The queue is taken out of its entry, which stays. -/
def drainPending (m : PeerManager) (peerId : String) : List PendingMessage × PeerManager :=
  match m.pending.lookup peerId with
  | some queue => (queue, { m with pending := m.pending.insert peerId [] })
  | none => ([], m)

def idleIds (m : PeerManager) (now : Nat) : List String :=
  (m.peers.entries.filter fun entry => entry.2.isIdle now).map Sigma.fst

def cleanupIdle (m : PeerManager) (now : Nat) : List String × PeerManager :=
  (m.idleIds now, { m with
    peers := eraseAll (m.idleIds now) m.peers
    pending := eraseAll (m.idleIds now) m.pending })

/-- All that is pending. -/
def pendingTotal (m : PeerManager) : Nat := (m.pending.entries.map fun e => e.2.length).sum

end PeerManager

inductive Event where
  | addPeer (peerId : String) (now : Nat)
  | removePeer (peerId : String)
  | setState (peerId : String) (state : PeerState) (now : Nat)
  | queueMessage (peerId : String) (envelope : WireEnvelope) (now : Nat)
  | drainPending (peerId : String)
  | cleanupIdle (now : Nat)

inductive Reply where
  | none
  | answer (result : Except String Unit)
  | messages (drained : List PendingMessage)
  | ids (removed : List String)

def step (m : PeerManager) : Event → Reply × PeerManager
  | .addPeer peerId now => ((m.addPeer peerId now).map .answer id)
  | .removePeer peerId => (.none, m.removePeer peerId)
  | .setState peerId state now => (.none, m.setState peerId state now)
  | .queueMessage peerId envelope now => ((m.queueMessage peerId envelope now).map .answer id)
  | .drainPending peerId => ((m.drainPending peerId).map .messages id)
  | .cleanupIdle now => ((m.cleanupIdle now).map .ids id)

/-- What a call adds to the queue of a peer. -/
def accepted (id : String) : Event → Reply → List PendingMessage
  | .queueMessage peerId envelope now, .answer (.ok ()) =>
    if peerId = id then [⟨envelope, now, 0⟩] else []
  | _, _ => []

/-- What a call returns of the queue of a peer. -/
def drained (id : String) : Event → Reply → List PendingMessage
  | .drainPending peerId, .messages queue => if peerId = id then queue else []
  | _, _ => []

/-- What the calls of a run put into, or returned of, a queue. -/
def collected (view : Event → Reply → List PendingMessage) :
    PeerManager → List Event → List PendingMessage
  | _, [] => []
  | m, e :: rest => view e (step m e).1 ++ collected view (step m e).2 rest

/-- Only registered peers own a queue. -/
def Owned (m : PeerManager) : Prop := ∀ id ∈ m.pending, id ∈ m.peers

/-- No more peers than allowed, none but theirs are the queues, and so many messages. -/
structure Sound (m : PeerManager) : Prop where
  peers : m.peers.keys.length ≤ m.maxPeers
  owned : Owned m
  total : m.pendingTotal ≤ m.maxPeers * maxPendingMessages

/-- A message is only queued for a registered peer. -/
def ForRegistered (m : PeerManager) : Event → Prop
  | .queueMessage peerId _ _ => peerId ∈ m.peers
  | _ => True

section Tables

variable {Value : String → Type} {ids : List String} {table : AList Value} {id : String}

theorem eraseAll_cons (first : String) :
    eraseAll (first :: ids) table = eraseAll ids (table.erase first) := rfl

theorem mem_eraseAll : id ∈ eraseAll ids table ↔ id ∉ ids ∧ id ∈ table := by
  induction ids generalizing table with
  | nil => simp [eraseAll]
  | cons first rest ih =>
    rw [eraseAll_cons, ih, AList.mem_erase, List.mem_cons, not_or]
    tauto

theorem lookup_eraseAll (spared : id ∉ ids) : (eraseAll ids table).lookup id = table.lookup id := by
  induction ids generalizing table with
  | nil => rfl
  | cons first rest ih =>
    obtain ⟨other, spared⟩ := List.ne_and_not_mem_of_not_mem_cons spared
    rw [eraseAll_cons, ih spared, AList.lookup_erase_ne other]

theorem length_keys_eraseAll_le : (eraseAll ids table).keys.length ≤ table.keys.length := by
  induction ids generalizing table with
  | nil => exact Nat.le_refl _
  | cons first rest ih =>
    apply ih.trans
    rw [AList.keys_erase]
    exact List.length_erase_le

theorem length_keys_insert {value : Value id} :
    (table.insert id value).keys.length =
      if id ∈ table then table.keys.length else table.keys.length + 1 := by
  rw [AList.keys_insert, List.length_cons]
  split
  · next known =>
    have some := List.length_pos_of_mem (AList.mem_keys.mp known)
    rw [List.length_erase_of_mem (AList.mem_keys.mp known)]
    omega
  · next unknown => rw [List.erase_of_not_mem (mt AList.mem_keys.mpr unknown)]

end Tables

/-- The limits that the calls themselves check. -/
structure Limited (m : PeerManager) : Prop where
  peers : m.peers.keys.length ≤ m.maxPeers
  queues : ∀ id queue, m.pending.lookup id = some queue → queue.length ≤ maxPendingMessages

variable {m : PeerManager}

theorem new_limited (maxPeers : Nat) : Limited (PeerManager.new maxPeers) where
  peers := Nat.zero_le _
  queues id queue found := by
    rw [PeerManager.new, AList.lookup_empty] at found
    cases found

theorem step_maxPeers (m : PeerManager) (e : Event) : (step m e).2.maxPeers = m.maxPeers := by
  cases e with
  | addPeer peerId now =>
    simp only [step, PeerManager.addPeer]
    split <;> rfl
  | removePeer peerId => rfl
  | setState peerId state now =>
    simp only [step, PeerManager.setState]
    split <;> rfl
  | queueMessage peerId envelope now =>
    simp only [step, PeerManager.queueMessage]
    split <;> rfl
  | drainPending peerId =>
    simp only [step, PeerManager.drainPending]
    split <;> rfl
  | cleanupIdle now => rfl

theorem length_queueOf_le (limited : Limited m) (id : String) :
    (m.queueOf id).length ≤ maxPendingMessages := by
  rw [PeerManager.queueOf]
  cases found : m.pending.lookup id with
  | none => exact Nat.zero_le _
  | some queue => exact limited.queues id queue found

/-- A queue of admitted length may be written. -/
theorem Limited.insertQueue (limited : Limited m) {id : String} {queue : List PendingMessage}
    (short : queue.length ≤ maxPendingMessages) :
    Limited { m with pending := m.pending.insert id queue } where
  peers := limited.peers
  queues other found isFound := by
    by_cases here : other = id
    · subst here
      rw [AList.lookup_insert] at isFound
      exact Option.some.inj isFound ▸ short
    · rw [AList.lookup_insert_ne here] at isFound
      exact limited.queues other found isFound

/-- What is left of the queues after some were removed. -/
theorem lookup_of_eraseAll {Value : String → Type} {ids : List String} {table : AList Value}
    {id : String} {value : Value id} (found : (eraseAll ids table).lookup id = some value) :
    table.lookup id = some value := by
  have member : id ∈ eraseAll ids table := AList.lookup_isSome.mp (found ▸ rfl)
  rwa [lookup_eraseAll (mem_eraseAll.mp member).1] at found

theorem step_limited (limited : Limited m) (e : Event) : Limited (step m e).2 := by
  cases e with
  | addPeer peerId now =>
    simp only [step, PeerManager.addPeer]
    split
    · exact limited
    · next room =>
      refine ⟨?_, limited.queues⟩
      have length := @length_keys_insert (fun _ => PeerInfo) m.peers peerId
        (PeerInfo.new peerId now)
      simp only [Prod.map_snd, id_eq, length]
      split <;> omega
  | removePeer peerId =>
    refine ⟨?_, fun other queue found => ?_⟩
    · exact (@length_keys_eraseAll_le _ [peerId] m.peers).trans limited.peers
    · exact limited.queues other queue (@lookup_of_eraseAll _ [peerId] _ _ _ found)
  | setState peerId state now =>
    simp only [step, PeerManager.setState]
    split
    · next info known =>
      refine ⟨?_, limited.queues⟩
      have member : peerId ∈ m.peers := AList.lookup_isSome.mp (known ▸ rfl)
      simp only [length_keys_insert, if_pos member]
      exact limited.peers
    · exact limited
  | queueMessage peerId envelope now =>
    simp only [step, PeerManager.queueMessage]
    split
    · exact limited.insertQueue (length_queueOf_le limited peerId)
    · next room =>
      apply limited.insertQueue
      rw [List.length_append, List.length_singleton]
      omega
  | drainPending peerId =>
    simp only [step, PeerManager.drainPending]
    split
    · exact limited.insertQueue (Nat.zero_le _)
    · exact limited
  | cleanupIdle now =>
    refine ⟨length_keys_eraseAll_le.trans limited.peers, fun other queue found => ?_⟩
    exact limited.queues other queue (lookup_of_eraseAll found)

/-- Queues stay with registered peers exactly when a message is not queued for another. -/
theorem step_owned_iff (owned : Owned m) (e : Event) :
    Owned (step m e).2 ↔ ForRegistered m e := by
  cases e with
  | addPeer peerId now =>
    refine iff_of_true (fun id member => ?_) trivial
    simp only [step, PeerManager.addPeer] at member ⊢
    split at member
    · next full => simpa [full] using owned id member
    · next room =>
      simp only [if_neg room, Prod.map_snd, id_eq, AList.mem_insert]
      exact .inr (owned id member)
  | removePeer peerId =>
    refine iff_of_true (fun id member => ?_) trivial
    obtain ⟨other, member⟩ := AList.mem_erase.mp member
    exact AList.mem_erase.mpr ⟨other, owned id member⟩
  | setState peerId state now =>
    refine iff_of_true (fun id member => ?_) trivial
    simp only [step, PeerManager.setState] at member ⊢
    split at member
    · next info known =>
      simp only [AList.mem_insert]
      exact .inr (owned id member)
    · next unknown => simpa [unknown] using owned id member
  | queueMessage peerId envelope now =>
    have written : ∃ queue, (step m (.queueMessage peerId envelope now)).2 =
        { m with pending := m.pending.insert peerId queue } := by
      simp only [step, PeerManager.queueMessage]
      split
      · exact ⟨_, rfl⟩
      · exact ⟨_, rfl⟩
    obtain ⟨queue, isQueue⟩ := written
    rw [isQueue]
    constructor
    · intro all
      exact all peerId ((AList.mem_insert _).mpr (.inl rfl))
    · intro registered id member
      rcases (AList.mem_insert _).mp member with rfl | member
      · exact registered
      · exact owned id member
  | drainPending peerId =>
    refine iff_of_true (fun id member => ?_) trivial
    simp only [step, PeerManager.drainPending] at member ⊢
    split at member
    · next queue found =>
      rcases (AList.mem_insert _).mp member with rfl | member
      · exact owned id (AList.lookup_isSome.mp (found ▸ rfl))
      · exact owned id member
    · next none => simpa [none] using owned id member
  | cleanupIdle now =>
    refine iff_of_true (fun id member => ?_) trivial
    obtain ⟨spared, member⟩ := mem_eraseAll.mp member
    exact mem_eraseAll.mpr ⟨spared, owned id member⟩

/-- As many queues as peers, each of admitted length. -/
theorem pendingTotal_le (limited : Limited m) (owned : Owned m) :
    m.pendingTotal ≤ m.maxPeers * maxPendingMessages := by
  have fewer : m.pending.keys.length ≤ m.peers.keys.length := by
    apply List.Subperm.length_le
    exact List.subperm_of_subset m.pending.keys_nodup fun id member =>
      AList.mem_keys.mp (owned id (AList.mem_keys.mpr member))
  have short : ∀ n ∈ m.pending.entries.map (fun e => e.2.length), n ≤ maxPendingMessages := by
    intro n member
    obtain ⟨⟨id, queue⟩, isEntry, rfl⟩ := List.mem_map.mp member
    exact limited.queues id queue (AList.mem_lookup_iff.mpr isEntry)
  calc m.pendingTotal
      ≤ (m.pending.entries.map fun e => e.2.length).length • maxPendingMessages :=
        List.sum_le_card_nsmul _ _ short
    _ = m.pending.keys.length * maxPendingMessages := by
        rw [smul_eq_mul, List.length_map, AList.keys, List.keys, List.length_map]
    _ ≤ m.maxPeers * maxPendingMessages :=
        Nat.mul_le_mul_right _ (fewer.trans limited.peers)

theorem Sound.of_owned (limited : Limited m) (owned : Owned m) :
    Sound m := ⟨limited.peers, owned, pendingTotal_le limited owned⟩

theorem queueOf_insert_self (id : String) (queue : List PendingMessage) :
    PeerManager.queueOf { m with pending := m.pending.insert id queue } id = queue := by
  rw [PeerManager.queueOf, AList.lookup_insert]
  rfl

theorem queueOf_insert_ne {id other : String} (apart : id ≠ other)
    (queue : List PendingMessage) :
    PeerManager.queueOf { m with pending := m.pending.insert other queue } id = m.queueOf id := by
  rw [PeerManager.queueOf, AList.lookup_insert_ne apart]
  rfl

/-- What a call returns of a queue, before what it leaves there, is what was there before
what it adds, unless the peer is gone afterwards. -/
theorem step_queueOf {id : String} (e : Event) (stays : id ∈ (step m e).2.peers) :
    drained id e (step m e).1 ++ (step m e).2.queueOf id =
      m.queueOf id ++ accepted id e (step m e).1 := by
  cases e with
  | addPeer peerId now =>
    simp only [step, PeerManager.addPeer]
    split <;> simp [drained, accepted, PeerManager.queueOf]
  | removePeer peerId =>
    have other := (AList.mem_erase.mp stays).1
    simp [step, drained, accepted, PeerManager.removePeer, PeerManager.queueOf,
      AList.lookup_erase_ne other]
  | setState peerId state now =>
    simp only [step, PeerManager.setState]
    split <;> simp [drained, accepted, PeerManager.queueOf]
  | queueMessage peerId envelope now =>
    by_cases here : id = peerId
    · subst here
      simp only [step, PeerManager.queueMessage]
      split
      · simp [drained, accepted, queueOf_insert_self]
      · simp [drained, accepted, queueOf_insert_self]
    · have apart : ¬ peerId = id := Ne.symm here
      simp only [step, PeerManager.queueMessage]
      split
      · simp [drained, accepted, queueOf_insert_ne here]
      · simp [drained, accepted, queueOf_insert_ne here, apart]
  | drainPending peerId =>
    by_cases here : id = peerId
    · subst here
      simp only [step, PeerManager.drainPending]
      split
      · next queue found =>
        simp [drained, accepted, PeerManager.queueOf, found]
      · simp [drained, accepted]
    · have apart : ¬ peerId = id := Ne.symm here
      simp only [step, PeerManager.drainPending]
      split
      · simp [drained, accepted, queueOf_insert_ne here, apart]
      · simp [drained, accepted]
  | cleanupIdle now =>
    have spared := (mem_eraseAll.mp stays).1
    simp [step, drained, accepted, PeerManager.cleanupIdle, PeerManager.queueOf,
      lookup_eraseAll spared]

/-- In a stretch in which the peer stays, what was returned is followed by what still waits. -/
theorem collected_queueOf {id : String} (events : List Event)
    (stays : ∀ front back, events = front ++ back → id ∈ (Mealy.final step m front).peers) :
    collected (drained id) m events ++ (Mealy.final step m events).queueOf id =
      m.queueOf id ++ collected (accepted id) m events := by
  induction events generalizing m with
  | nil => exact (List.append_nil (m.queueOf id)).symm
  | cons e rest ih =>
    have here := step_queueOf e (stays [e] rest rfl)
    have later := ih (m := (step m e).2) fun front back split =>
      stays (e :: front) back (by rw [split, List.cons_append])
    rw [collected, collected, Mealy.final_cons, List.append_assoc, later, ← List.append_assoc,
      here, List.append_assoc]

theorem queueOf_drainPending (m : PeerManager) (id : String) :
    (m.drainPending id).2.queueOf id = [] := by
  rw [PeerManager.drainPending]
  split
  · exact queueOf_insert_self id []
  · next none => rw [PeerManager.queueOf, none]; rfl

theorem sound_iff_forRegistered (maxPeers : Nat) (events : List Event) :
    (∀ front back, events = front ++ back →
        Sound (Mealy.final step (PeerManager.new maxPeers) front)) ↔
      Mealy.Along step ForRegistered (PeerManager.new maxPeers) events := by
  have limited : ∀ front, Limited (Mealy.final step (PeerManager.new maxPeers) front) :=
    fun front => Mealy.final_preserved Limited (fun _ e h => step_limited h e)
      (new_limited maxPeers) front
  have start : Owned (PeerManager.new maxPeers) :=
    fun id member => absurd member (AList.notMem_empty id)
  have one : ∀ m e, Owned m → (Owned (step m e).2 ↔ ForRegistered m e) :=
    fun m e owned => step_owned_iff owned e
  have exactly := Mealy.forall_final_iff_along one start events
  rw [← exactly]
  constructor
  · intro sound front back split
    exact (sound front back split).owned
  · intro owned front back split
    exact Sound.of_owned (limited front) (owned front back split)

/-- The bounds hold in every state of a run exactly if messages are queued for registered
peers only; the peers are never too many; and of a peer that stays, everything queued is
returned once and in order, by the next drain at the latest. -/
theorem peer_manager_sound_iff (maxPeers : Nat) (events : List Event) :
    ((∀ front back, events = front ++ back →
        Sound (Mealy.final step (PeerManager.new maxPeers) front)) ↔
      Mealy.Along step ForRegistered (PeerManager.new maxPeers) events) ∧
    (∀ front back, events = front ++ back →
      (Mealy.final step (PeerManager.new maxPeers) front).peers.keys.length ≤ maxPeers) ∧
    ∀ (before stretch after : List Event) (id : String),
      events = before ++ (stretch ++ after) →
      (∀ front back, stretch = front ++ back →
        id ∈ (Mealy.final step (PeerManager.new maxPeers) (before ++ front)).peers) →
      collected (drained id) (Mealy.final step (PeerManager.new maxPeers) before) stretch ++
          (Mealy.final step (PeerManager.new maxPeers) (before ++ stretch)).queueOf id =
        (Mealy.final step (PeerManager.new maxPeers) before).queueOf id ++
          collected (accepted id) (Mealy.final step (PeerManager.new maxPeers) before) stretch ∧
      (((step (Mealy.final step (PeerManager.new maxPeers) (before ++ stretch))
        (.drainPending id)).2).queueOf id = []) := by
  refine ⟨sound_iff_forRegistered maxPeers events, ?_, ?_⟩
  · intro front back split
    have limited := Mealy.final_preserved Limited (fun _ e h => step_limited h e)
      (new_limited maxPeers) front
    have kept : (Mealy.final step (PeerManager.new maxPeers) front).maxPeers = maxPeers :=
      Mealy.final_preserved (fun m => m.maxPeers = maxPeers)
        (fun m e same => (step_maxPeers m e).trans same) rfl front
    exact limited.peers.trans_eq kept
  · intro before stretch after id split stays
    refine ⟨?_, queueOf_drainPending _ id⟩
    rw [Mealy.final_append]
    apply collected_queueOf
    intro front back isFront
    rw [← Mealy.final_append]
    exact stays front back isFront

/-- Messages for strangers: with one peer allowed and none registered, 101 of them wait. -/
theorem strangers_fill_queues :
    ¬ Sound (Mealy.final step (PeerManager.new 1)
      (List.replicate 100 (.queueMessage "NN-a" ⟨"chat", .null, ""⟩ 0) ++
        [.queueMessage "NN-b" ⟨"chat", .null, ""⟩ 0])) ∧
    (Mealy.final step (PeerManager.new 1)
      (List.replicate 100 (.queueMessage "NN-a" ⟨"chat", .null, ""⟩ 0) ++
        [.queueMessage "NN-b" ⟨"chat", .null, ""⟩ 0])).pendingTotal = 101 := by
  have total : (Mealy.final step (PeerManager.new 1)
      (List.replicate 100 (.queueMessage "NN-a" ⟨"chat", .null, ""⟩ 0) ++
        [.queueMessage "NN-b" ⟨"chat", .null, ""⟩ 0])).pendingTotal = 101 := by
    decide +kernel
  refine ⟨fun sound => ?_, total⟩
  have bound := sound.total
  rw [total] at bound
  exact absurd bound (by decide +kernel)

end PeerQueues

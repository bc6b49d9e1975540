import AddMessenger.Mealy
import AddMessenger.Ratchet
import AddMessenger.Windows

/-!
# The chains of the KEM ratchet

`KemRatchetState` of `crypto-pq/src/ratchet_pq.rs`: a send chain and a receive chain, each
advanced with the shared secret of a message, and one table for the message keys of both. A
sender takes the key of its next number from the table, a receiver that of the number it is
given. The counters are natural numbers here; the source's have 64 bits, which fewer than 2 ^ 53
calls do not fill (`KemReplay.counters_fit`).

HKDF and AES-256-GCM are those of `Ratchet`.
-/

namespace KemRatchet

open ByteStrings
open Ratchet (Primitives Nonce hkdfExpand)

def maxSkippedKeys : Nat := 1024

def maxSkipAhead : Nat := 1024

def messageKeyInfo : String := "add-pq-ratchet-msg-key-v1"

inductive PqError where
  | encapsulationFailed (text : String)
  | decapsulationFailed (text : String)
  | derivationFailed (text : String)
  deriving DecidableEq, Repr

structure KemRatchetState where
  rootKey : Bytes
  sendChainKey : Bytes
  recvChainKey : Bytes
  skippedKeys : List (Nat × Bytes)
  sendSeq : Nat
  recvSeq : Nat

def new (rootKey sendChainKey recvChainKey : Bytes) : KemRatchetState :=
  ⟨rootKey, sendChainKey, recvChainKey, [], 0, 0⟩

variable (P : Primitives)

def deriveMessageKey (chainKey combinedSs : Bytes) : Except PqError (Bytes × Bytes) :=
  match hkdfExpand P (chainKey ++ combinedSs) messageKeyInfo 64 with
  | none => .error (.derivationFailed "message key")
  | some output => .ok (output.take 32, output.drop 32)

def storeSkippedKey (s : KemRatchetState) (seq : Nat) (msgKey : Bytes) : KemRatchetState :=
  { s with skippedKeys := Windows.insertHighest maxSkippedKeys s.skippedKeys seq msgKey }

def getMessageKey (s : KemRatchetState) (seq : Nat) : Option Bytes := s.skippedKeys.lookup seq

def advanceSendChain (s : KemRatchetState) (combinedSs : Bytes) :
    Except PqError Unit × KemRatchetState :=
  match deriveMessageKey P s.sendChainKey combinedSs with
  | .error e => (.error e, s)
  | .ok (msgKey, newChainKey) =>
    (.ok (), { storeSkippedKey s s.sendSeq msgKey with
      sendChainKey := newChainKey
      sendSeq := s.sendSeq + 1 })

def advanceRecvChain (s : KemRatchetState) (combinedSs : Bytes) :
    Except PqError Unit × KemRatchetState :=
  match deriveMessageKey P s.recvChainKey combinedSs with
  | .error e => (.error e, s)
  | .ok (msgKey, newChainKey) =>
    (.ok (), { storeSkippedKey s s.recvSeq msgKey with
      recvChainKey := newChainKey
      recvSeq := s.recvSeq + 1 })

/-- The first two bytes of a nonce are mixed with the first byte of the root key. -/
def mixNonce (rootKey : Bytes) (nonce : Bytes) : Bytes :=
  let epochByte := rootKey.headD 0
  (nonce.take 2).map (· ^^^ epochByte) ++ nonce.drop 2

def encryptMessage (s : KemRatchetState) (plaintext combinedSs : Bytes) (nonce : Nonce) :
    Except PqError (Bytes × Bytes) × KemRatchetState :=
  match advanceSendChain P s combinedSs with
  | (.error e, s) => (.error e, s)
  | (.ok (), s) =>
    match getMessageKey s (s.sendSeq - 1) with
    | none => (.error (.derivationFailed "missing msg key"), s)
    | some msgKey =>
      let nonce := mixNonce s.rootKey nonce
      match P.aesEncrypt msgKey nonce plaintext with
      | none => (.error (.encapsulationFailed "AES-GCM encrypt"), s)
      | some ciphertext => (.ok (ciphertext, nonce), s)

/-- `while self.recv_seq <= seq`; every round raises `recv_seq`. -/
def advanceTo (seq : Nat) (combinedSs : Bytes) :
    Nat → KemRatchetState → Except PqError Unit × KemRatchetState
  | 0, s => (.ok (), s)
  | rounds + 1, s =>
    if s.recvSeq ≤ seq then
      match advanceRecvChain P s combinedSs with
      | (.error e, s) => (.error e, s)
      | (.ok (), s) => advanceTo seq combinedSs rounds s
    else (.ok (), s)

def decryptMessage (s : KemRatchetState) (seq : Nat) (combinedSs nonce ciphertext : Bytes) :
    Except PqError Bytes × KemRatchetState :=
  let gap := seq - s.recvSeq
  if gap > maxSkipAhead then
    (.error (.derivationFailed s!"seq gap too large: {gap} > {maxSkipAhead}"), s)
  else
    match advanceTo P seq combinedSs (seq + 1 - s.recvSeq) s with
    | (.error e, s) => (.error e, s)
    | (.ok (), s) =>
      match getMessageKey s seq with
      | none => (.error (.decapsulationFailed "missing msg key for seq"), s)
      | some msgKey =>
        match P.aesDecrypt msgKey nonce ciphertext with
        | none => (.error (.decapsulationFailed "AES-GCM decrypt / auth failure"), s)
        | some plaintext => (.ok plaintext, s)

inductive Party where
  | a
  | b
  deriving DecidableEq, Repr

def Party.peer : Party → Party
  | a => b
  | b => a

/-- A message on its way, with the text it was made from. -/
structure Sent where
  plaintext : Bytes
  combinedSs : Bytes
  nonce : Bytes
  ciphertext : Bytes

/-- Both states, what each has sent under which number, and which numbers of each have been
delivered. -/
structure World where
  party : Party → KemRatchetState
  sent : Party → Nat → Option Sent
  delivered : Party → List Nat

/-- The chain keys of the two are mirrored. -/
def start (rootKeys : Party → Bytes) (chainKey : Party → Bytes) : World where
  party p := new (rootKeys p) (chainKey p) (chainKey p.peer)
  sent _ _ := none
  delivered _ := []

inductive Event where
  | encrypt (sender : Party) (plaintext combinedSs : Bytes) (nonce : Nonce)
  | deliver (sender : Party) (seq : Nat)

inductive Answer where
  | encrypted (result : Except PqError (Bytes × Bytes))
  | decrypted (plaintext : Bytes) (result : Except PqError Bytes)
  | idle

def step (w : World) : Event → Answer × World
  | .encrypt sender plaintext combinedSs nonce =>
    let (result, s) := encryptMessage P (w.party sender) plaintext combinedSs nonce
    let log := match result with
      | .ok (ciphertext, nonce) => Function.update (w.sent sender) (w.party sender).sendSeq
          (some ⟨plaintext, combinedSs, nonce, ciphertext⟩)
      | .error _ => w.sent sender
    (.encrypted result, { w with
      party := Function.update w.party sender s
      sent := Function.update w.sent sender log })
  | .deliver sender seq =>
    match w.sent sender seq with
    | none => (.idle, w)
    | some m =>
      let (result, s) :=
        decryptMessage P (w.party sender.peer) seq m.combinedSs m.nonce m.ciphertext
      (.decrypted m.plaintext result, { w with
        party := Function.update w.party sender.peer s
        delivered := Function.update w.delivered sender (seq :: w.delivered sender) })

/-- A call has succeeded, with the text that was sent. -/
def Answer.Right : Answer → Prop
  | encrypted result => ∃ wire, result = .ok wire
  | decrypted plaintext result => result = .ok plaintext
  | idle => True

/-- Messages that were sent are delivered, each before its sender is 1024 messages ahead. -/
def Timely (w : World) : Event → Prop
  | .encrypt sender _ _ _ =>
    ∀ seq, seq + maxSkipAhead ≤ (w.party sender).sendSeq → seq ∈ w.delivered sender
  | .deliver sender seq =>
    seq < (w.party sender).sendSeq ∧ (w.party sender).sendSeq ≤ seq + maxSkipAhead

/-- The two directions keep out of each other's way: a sender is not 1024 behind what it has
received, and has received the number it sends or is the first to send it; a receiver has not
sent 1024 more than the number it gets, and the messages it passes over have the secret of
the one it gets. -/
def Fits (w : World) : Event → Prop
  | .encrypt sender _ _ _ =>
    (w.party sender).recvSeq ≤ (w.party sender).sendSeq + maxSkippedKeys ∧
      ((w.party sender).sendSeq < (w.party sender).recvSeq ∨
        (w.party sender.peer).sendSeq ≤ (w.party sender).sendSeq)
  | .deliver sender seq =>
    (w.party sender.peer).sendSeq ≤ seq + maxSkippedKeys ∧
      ∀ m passed, w.sent sender seq = some m → ∀ i, (w.party sender.peer).recvSeq ≤ i → i < seq →
        w.sent sender i = some passed → passed.combinedSs = m.combinedSs

def messageKey (chainKey combinedSs : Bytes) : Bytes :=
  (P.okm (chainKey ++ combinedSs) messageKeyInfo 64).val.take 32

def nextChainKey (chainKey combinedSs : Bytes) : Bytes :=
  (P.okm (chainKey ++ combinedSs) messageKeyInfo 64).val.drop 32

theorem deriveMessageKey_eq (chainKey combinedSs : Bytes) :
    deriveMessageKey P chainKey combinedSs =
      .ok (messageKey P chainKey combinedSs, nextChainKey P chainKey combinedSs) := rfl

variable {P} {s : KemRatchetState} {key : Nat → Bytes} {plaintext combinedSs : Bytes}

/-- The number after the last one that was sent or received. -/
def KemRatchetState.top (s : KemRatchetState) : Nat := max s.sendSeq s.recvSeq

def KemRatchetState.Keeps (key : Nat → Bytes) (s : KemRatchetState) : Prop :=
  Windows.Holds key maxSkippedKeys s.top s.skippedKeys

/-- A number that is sent is the next one of the table, with its own key, or it is there
already. -/
theorem keeps_advance {seq : Nat} {msgKey : Bytes} (keeps : s.Keeps key) (upto : seq ≤ s.top)
    (fresh : seq = s.top → msgKey = key seq) :
    Windows.Holds key maxSkippedKeys (max s.top (seq + 1))
      (storeSkippedKey s seq msgKey).skippedKeys := by
  rcases Nat.lt_or_eq_of_le upto with earlier | next
  · rw [Nat.max_eq_left earlier]
    exact Windows.insertHighest_again keeps msgKey earlier
  · rw [fresh next, next, Nat.max_eq_right (Nat.le_succ _)]
    exact Windows.insertHighest_next keeps

/-- A sender that is not too far behind uses the key of its number. -/
theorem encryptMessage_eq {nonce : Nonce} {ciphertext : Bytes} (keeps : s.Keeps key)
    (within : s.recvSeq ≤ s.sendSeq + maxSkippedKeys)
    (fresh : s.recvSeq ≤ s.sendSeq → messageKey P s.sendChainKey combinedSs = key s.sendSeq)
    (encrypted : P.aesEncrypt (key s.sendSeq) (mixNonce s.rootKey nonce) plaintext =
      some ciphertext) :
    ∃ table, encryptMessage P s plaintext combinedSs nonce =
        (.ok (ciphertext, mixNonce s.rootKey nonce), { s with
          sendChainKey := nextChainKey P s.sendChainKey combinedSs
          sendSeq := s.sendSeq + 1
          skippedKeys := table }) ∧
      Windows.Holds key maxSkippedKeys (max (s.sendSeq + 1) s.recvSeq) table := by
  have stored := @keeps_advance s key s.sendSeq (messageKey P s.sendChainKey combinedSs) keeps
    (Nat.le_max_left _ _) (fun next => fresh (by rw [KemRatchetState.top] at next; omega))
  have top : max s.top (s.sendSeq + 1) = max (s.sendSeq + 1) s.recvSeq := by
    rw [KemRatchetState.top]
    omega
  rw [top] at stored
  refine ⟨_, ?_, stored⟩
  have positive : 1 ≤ maxSkippedKeys := Nat.succ_le_succ (Nat.zero_le _)
  have found := Windows.lookup_of_holds stored (n := s.sendSeq) (by omega) (by omega)
  simp only [encryptMessage, advanceSendChain, deriveMessageKey_eq, Nat.add_sub_cancel,
    getMessageKey, found]
  simp only [storeSkippedKey, encrypted]

/-- The receiver follows the chain of the sender up to a number. -/
theorem advanceTo_eq {chain : Nat → Bytes} {seq rounds : Nat} (keeps : s.Keeps key)
    (current : s.recvChainKey = chain s.recvSeq) (upto : s.recvSeq + rounds = seq + 1)
    (links : ∀ i, s.recvSeq ≤ i → i ≤ seq → nextChainKey P (chain i) combinedSs = chain (i + 1) ∧
      (s.sendSeq ≤ i → messageKey P (chain i) combinedSs = key i)) :
    ∃ table, advanceTo P seq combinedSs rounds s = (.ok (), { s with
          recvChainKey := chain (seq + 1)
          recvSeq := seq + 1
          skippedKeys := table }) ∧
      Windows.Holds key maxSkippedKeys (max s.sendSeq (seq + 1)) table := by
  -- Each round stores the key of one number and takes the chain one step further.
  induction rounds generalizing s with
  | zero =>
    have done : s.recvSeq = seq + 1 := by omega
    refine ⟨s.skippedKeys, ?_, done ▸ keeps⟩
    rw [← done, ← current]
    rfl
  | succ rounds ih =>
    have more : s.recvSeq ≤ seq := by omega
    obtain ⟨next, ours⟩ := links s.recvSeq (Nat.le_refl _) more
    let s' : KemRatchetState :=
      { storeSkippedKey s s.recvSeq (messageKey P (chain s.recvSeq) combinedSs) with
        recvChainKey := chain (s.recvSeq + 1)
        recvSeq := s.recvSeq + 1 }
    have one : advanceRecvChain P s combinedSs = (.ok (), s') := by
      simp only [advanceRecvChain, deriveMessageKey_eq, current, next, s']
    have kept : s'.Keeps key := by
      have stored := @keeps_advance s key s.recvSeq (messageKey P (chain s.recvSeq) combinedSs)
        keeps (Nat.le_max_right _ _)
        (fun last => ours (by rw [KemRatchetState.top] at last; omega))
      have top : s'.top = max s.top (s.recvSeq + 1) := by
        simp only [KemRatchetState.top, s', storeSkippedKey]
        omega
      rwa [KemRatchetState.Keeps, top]
    obtain ⟨table, run, holds⟩ := ih kept rfl (by simp only [s']; omega)
      (fun i low high => links i (by simp only [s'] at low; omega) high)
    exact ⟨table, by simp only [advanceTo, if_pos more, one, run]; rfl, holds⟩

/-- The receiver reads a message of the chain it follows. -/
theorem decryptMessage_eq {chain : Nat → Bytes} {seq : Nat} {nonce ciphertext : Bytes}
    (keeps : s.Keeps key) (current : s.recvChainKey = chain s.recvSeq)
    (near : seq ≤ s.recvSeq + maxSkipAhead) (within : s.top ≤ seq + maxSkippedKeys)
    (links : ∀ i, s.recvSeq ≤ i → i ≤ seq → nextChainKey P (chain i) combinedSs = chain (i + 1) ∧
      (s.sendSeq ≤ i → messageKey P (chain i) combinedSs = key i))
    (decrypted : P.aesDecrypt (key seq) nonce ciphertext = some plaintext) :
    ∃ table, decryptMessage P s seq combinedSs nonce ciphertext = (.ok plaintext, { s with
          recvChainKey := chain (max s.recvSeq (seq + 1))
          recvSeq := max s.recvSeq (seq + 1)
          skippedKeys := table }) ∧
      Windows.Holds key maxSkippedKeys (max s.sendSeq (max s.recvSeq (seq + 1))) table := by
  have positive : 1 ≤ maxSkippedKeys := Nat.succ_le_succ (Nat.zero_le _)
  have gap : ¬ seq - s.recvSeq > maxSkipAhead := by omega
  have advanced : ∃ table, advanceTo P seq combinedSs (seq + 1 - s.recvSeq) s = (.ok (), { s with
        recvChainKey := chain (max s.recvSeq (seq + 1))
        recvSeq := max s.recvSeq (seq + 1)
        skippedKeys := table }) ∧
      Windows.Holds key maxSkippedKeys (max s.sendSeq (max s.recvSeq (seq + 1))) table := by
    rcases Nat.lt_or_ge seq s.recvSeq with passed | ahead
    · have none_ : seq + 1 - s.recvSeq = 0 := by omega
      rw [Nat.max_eq_left passed, none_, ← current]
      exact ⟨s.skippedKeys, rfl, keeps⟩
    · rw [Nat.max_eq_right (Nat.le_succ_of_le ahead)]
      exact advanceTo_eq keeps current (by omega) links
  obtain ⟨table, run, holds⟩ := advanced
  refine ⟨table, ?_, holds⟩
  have found := Windows.lookup_of_holds holds (n := seq)
    (by rw [KemRatchetState.top] at within; omega) (by omega)
  simp only [decryptMessage, if_neg gap, run, getMessageKey, found, decrypted]

@[simp] theorem Party.peer_peer (p : Party) : p.peer.peer = p := by cases p <;> rfl

theorem Party.peer_ne (p : Party) : p.peer ≠ p := by cases p <;> decide

theorem Party.both (p : Party) {φ : Party → Prop} (here : φ p) (there : φ p.peer) : ∀ q, φ q
  | a => by
    cases p with
    | a => exact here
    | b => exact there
  | b => by
    cases p with
    | a => exact there
    | b => exact here

/-- A message of a chain: it leads from one chain key to the next, its key is that of its
number unless the peer has used the number too, and it can be read with the key of the
number. -/
structure Linked (P : Primitives) (chain : Nat → Bytes) (key : Nat → Bytes) (peerSeq i : Nat)
    (m : Sent) : Prop where
  next : nextChainKey P (chain i) m.combinedSs = chain (i + 1)
  own : peerSeq ≤ i → messageKey P (chain i) m.combinedSs = key i
  opens : P.aesDecrypt (key i) m.nonce m.ciphertext = some m.plaintext

/-- The chain of each party is known to both, and both tables have the same keys. -/
structure Agree (P : Primitives) (w : World) (chain : Party → Nat → Bytes) (key : Nat → Bytes) :
    Prop where
  send : ∀ p, (w.party p).sendChainKey = chain p (w.party p).sendSeq
  recv : ∀ p, (w.party p).recvChainKey = chain p.peer (w.party p).recvSeq
  behind : ∀ p, (w.party p).recvSeq ≤ (w.party p.peer).sendSeq
  near : ∀ p, (w.party p.peer).sendSeq ≤ (w.party p).recvSeq + maxSkipAhead
  keeps : ∀ p, (w.party p).Keeps key
  linked : ∀ p i, i < (w.party p).sendSeq →
    ∃ m, w.sent p i = some m ∧ Linked P (chain p) key (w.party p.peer).sendSeq i m
  delivered : ∀ p, ∀ i ∈ w.delivered p, i < (w.party p.peer).recvSeq

theorem agree_start (rootKeys chainKey : Party → Bytes) :
    Agree P (start rootKeys chainKey) (fun p _ => chainKey p) fun _ => [] where
  send _ := rfl
  recv _ := rfl
  behind _ := Nat.le_refl _
  near _ := Nat.zero_le _
  keeps _ := Windows.holds_nil
  linked _ _ none := absurd none (Nat.not_lt_zero _)
  delivered _ _ none := by cases none

section

variable {w : World} {chain : Party → Nat → Bytes} {p : Party} {nonce : Nonce}

/-- The key of the number that is sent next: the one that is there, or a new one. -/
theorem exists_key (agree : Agree P w chain key)
    (fits : Fits w (.encrypt p plaintext combinedSs nonce)) :
    ∃ key' : Nat → Bytes, (∀ q i, i < (w.party q).top → key i = key' i) ∧
      ((w.party p).recvSeq ≤ (w.party p).sendSeq ∨
          (w.party p.peer).sendSeq ≤ (w.party p).sendSeq →
        messageKey P (w.party p).sendChainKey combinedSs = key' (w.party p).sendSeq) := by
  have behind := agree.behind p
  rcases Nat.lt_or_ge (w.party p).sendSeq (w.party p).recvSeq with received | first
  · exact ⟨key, fun _ _ _ => rfl, fun other => by omega⟩
  · have peerSeq : (w.party p.peer).sendSeq ≤ (w.party p).sendSeq := by
      have := fits.2
      omega
    have peerBehind := agree.behind p.peer
    rw [Party.peer_peer] at peerBehind
    have tops : ∀ q, (w.party q).top ≤ (w.party p).sendSeq :=
      p.both (Nat.max_le.mpr ⟨Nat.le_refl _, first⟩) (Nat.max_le.mpr ⟨peerSeq, peerBehind⟩)
    refine ⟨Function.update key (w.party p).sendSeq
      (messageKey P (w.party p).sendChainKey combinedSs), fun q i below => ?_, fun _ => ?_⟩
    · rw [Function.update_of_ne (below.trans_le (tops q)).ne]
    · rw [Function.update_self]

/-- A chain with one more key. -/
def extend (chain : Party → Nat → Bytes) (p : Party) (n : Nat) (chainKey : Bytes) :
    Party → Nat → Bytes :=
  Function.update chain p (Function.update (chain p) n chainKey)

theorem extend_self (chain : Party → Nat → Bytes) (p : Party) (n : Nat) (chainKey : Bytes) :
    extend chain p n chainKey p n = chainKey := by
  simp only [extend, Function.update_self]

theorem extend_below {n i : Nat} (chainKey : Bytes) (q : Party) (below : q = p → i < n) :
    extend chain p n chainKey q i = chain q i := by
  by_cases here : q = p
  · subst here
    rw [extend, Function.update_self, Function.update_of_ne (below rfl).ne]
  · rw [extend, Function.update_of_ne here]

/-- A link stays when keys are added above it. -/
theorem Linked.mono {chain' key' : Nat → Bytes} {peerSeq peerSeq' i : Nat} {m : Sent}
    (linked : Linked P (chain p) key peerSeq i m) (here : chain' i = chain p i)
    (next : chain' (i + 1) = chain p (i + 1)) (same : key i = key' i) (later : peerSeq ≤ peerSeq') :
    Linked P chain' key' peerSeq' i m where
  next := by rw [here, next, linked.next]
  own used := by rw [here, ← same, linked.own (later.trans used)]
  opens := by rw [← same, linked.opens]

variable (aes : ∀ key nonce pt, ∃ ct, P.aesEncrypt key nonce pt = some ct ∧
  P.aesDecrypt key nonce ct = some pt)
include aes

theorem agree_encrypt (agree : Agree P w chain key)
    (timely : Timely w (.encrypt p plaintext combinedSs nonce))
    (fits : Fits w (.encrypt p plaintext combinedSs nonce)) :
    (step P w (.encrypt p plaintext combinedSs nonce)).1.Right ∧
      ∃ chain' key', Agree P (step P w (.encrypt p plaintext combinedSs nonce)).2 chain' key' := by
  obtain ⟨key', same, own⟩ := exists_key agree fits
  obtain ⟨ciphertext, encrypted, opens⟩ :=
    aes (key' (w.party p).sendSeq) (mixNonce (w.party p).rootKey nonce) plaintext
  obtain ⟨table, run, holds⟩ := encryptMessage_eq
    ((agree.keeps p).congr (same p)) fits.1 (fun first => own (.inl first)) encrypted
  simp only [step, run]
  refine ⟨⟨_, rfl⟩, extend chain p ((w.party p).sendSeq + 1)
    (nextChainKey P (w.party p).sendChainKey combinedSs), key', ?_⟩
  have other : p.peer ≠ p := p.peer_ne
  have behind := agree.behind p
  have peerBehind := agree.behind p.peer
  have near := agree.near p.peer
  rw [Party.peer_peer] at peerBehind near
  refine ⟨p.both ?_ ?_, p.both ?_ ?_, p.both ?_ ?_, p.both ?_ ?_, p.both ?_ ?_, p.both ?_ ?_,
    p.both ?_ ?_⟩
  all_goals simp only [Function.update_self, Function.update_of_ne other, Party.peer_peer]
  -- the chain of the sender is one key longer
  · rw [extend_self]
  · rw [extend_below _ _ fun same => absurd same other, agree.send]
  · rw [extend_below _ _ fun same => absurd same other, agree.recv]
  · rw [extend_below _ _ fun _ => Nat.lt_succ_of_le peerBehind, agree.recv, Party.peer_peer]
  · exact behind
  · exact Nat.le_succ_of_le peerBehind
  · exact agree.near p
  · rcases Nat.lt_or_ge (w.party p).sendSeq maxSkipAhead with early | late
    · omega
    · have reached := agree.delivered p _
        (timely ((w.party p).sendSeq - maxSkipAhead) (Nat.sub_add_cancel late).le)
      omega
  · exact holds
  · exact (agree.keeps p.peer).congr (same p.peer)
  -- the links: the new message, and those before it
  · intro i below
    rcases Nat.lt_succ_iff_lt_or_eq.mp below with before | rfl
    · obtain ⟨m, found, linked⟩ := agree.linked p i before
      refine ⟨m, by rw [Function.update_of_ne before.ne, found], ?_⟩
      exact linked.mono (extend_below _ _ fun _ => below) (extend_below _ _ fun _ => by omega)
        (same p i (before.trans_le (Nat.le_max_left _ _))) (Nat.le_refl _)
    · have here : extend chain p ((w.party p).sendSeq + 1)
          (nextChainKey P (w.party p).sendChainKey combinedSs) p (w.party p).sendSeq =
            (w.party p).sendChainKey := by
        rw [extend_below _ _ fun _ => below, agree.send]
      refine ⟨_, Function.update_self .., ?_, ?_, opens⟩
      · rw [here, extend_self]
      · intro unused
        rw [here, own (.inr unused)]
  · intro i below
    obtain ⟨m, found, linked⟩ := agree.linked p.peer i below
    rw [Party.peer_peer] at linked
    refine ⟨m, found, ?_⟩
    exact linked.mono (extend_below _ _ fun same => absurd same other)
      (extend_below _ _ fun same => absurd same other)
      (same p.peer i (below.trans_le (Nat.le_max_left _ _))) (Nat.le_succ _)
  · exact agree.delivered p
  · intro i member
    have reached := agree.delivered p.peer i member
    rwa [Party.peer_peer] at reached

omit aes in
theorem agree_deliver {seq : Nat} (agree : Agree P w chain key)
    (timely : Timely w (.deliver p seq)) (fits : Fits w (.deliver p seq)) :
    (step P w (.deliver p seq)).1.Right ∧ Agree P (step P w (.deliver p seq)).2 chain key := by
  obtain ⟨sentBefore, ahead⟩ := timely
  obtain ⟨unused, passes⟩ := fits
  obtain ⟨m, found, linked⟩ := agree.linked p seq sentBefore
  have behind := agree.behind p.peer
  have near := agree.near p.peer
  have recv := agree.recv p.peer
  rw [Party.peer_peer] at behind near recv
  have links : ∀ i, (w.party p.peer).recvSeq ≤ i → i ≤ seq →
      nextChainKey P (chain p i) m.combinedSs = chain p (i + 1) ∧
        ((w.party p.peer).sendSeq ≤ i → messageKey P (chain p i) m.combinedSs = key i) := by
    intro i low high
    obtain ⟨passed, there, link⟩ := agree.linked p i (high.trans_lt sentBefore)
    have secret : passed.combinedSs = m.combinedSs := by
      rcases Nat.lt_or_eq_of_le high with between | rfl
      · exact passes m passed found i low between there
      · rw [there] at found
        rw [Option.some.inj found]
    exact ⟨secret ▸ link.next, fun free => secret ▸ link.own free⟩
  have top : (w.party p.peer).top ≤ seq + maxSkippedKeys :=
    Nat.max_le.mpr ⟨unused, behind.trans ahead⟩
  obtain ⟨table, run, holds⟩ :=
    decryptMessage_eq (agree.keeps p.peer) recv (by omega) top links linked.opens
  simp only [step, found, run]
  refine ⟨rfl, ?_⟩
  have other : p ≠ p.peer := p.peer_ne.symm
  refine ⟨p.both ?_ ?_, p.both ?_ ?_, p.both ?_ ?_, p.both ?_ ?_, p.both ?_ ?_, p.both ?_ ?_,
    p.both ?_ ?_⟩
  all_goals simp only [Function.update_self, Function.update_of_ne other, Party.peer_peer,
    Function.update_of_ne p.peer_ne]
  · exact agree.send p
  · exact agree.send p.peer
  · exact agree.recv p
  · exact agree.behind p
  · exact Nat.max_le.mpr ⟨behind, sentBefore⟩
  · exact agree.near p
  · omega
  · exact agree.keeps p
  · exact holds
  · exact agree.linked p
  · have back := agree.linked p.peer
    rwa [Party.peer_peer] at back
  · intro i member
    rcases List.mem_cons.mp member with rfl | before
    · exact Nat.lt_of_lt_of_le (Nat.lt_succ_self i) (Nat.le_max_right _ _)
    · exact (agree.delivered p i before).trans_le (Nat.le_max_left _ _)
  · have back := agree.delivered p.peer
    rwa [Party.peer_peer] at back

end

/-- In every run that delivers in time and whose steps fit, every call succeeds and every
message is read as it was sent. -/
theorem right_where_fits (P : Primitives)
    (aes : ∀ key nonce pt, ∃ ct, P.aesEncrypt key nonce pt = some ct ∧
      P.aesDecrypt key nonce ct = some pt)
    (rootKeys chainKey : Party → Bytes) (run : List Event)
    (timely : Mealy.Along (step P) Timely (start rootKeys chainKey) run)
    (fits : Mealy.Along (step P) Fits (start rootKeys chainKey) run) :
    Mealy.Along (step P) (fun w e => (step P w e).1.Right) (start rootKeys chainKey) run := by
  have one : ∀ w e, (∃ chain key, Agree P w chain key) → Timely w e ∧ Fits w e →
      (step P w e).1.Right ∧ ∃ chain key, Agree P (step P w e).2 chain key := by
    rintro w e ⟨chain, key, agree⟩ ⟨inTime, fitting⟩
    cases e with
    | encrypt sender plaintext combinedSs nonce => exact agree_encrypt aes agree inTime fitting
    | deliver sender seq =>
      obtain ⟨right, kept⟩ := agree_deliver agree inTime fitting
      exact ⟨right, chain, key, kept⟩
  exact Mealy.along_of_invariant (fun w => ∃ chain key, Agree P w chain key)
    (fun w e agree ok => (one w e agree ok).2) (fun w e agree ok => (one w e agree ok).1)
    ⟨_, _, agree_start rootKeys chainKey⟩ (Mealy.along_and timely fits)

open Ratchet (checksumPrimitives checksumNonce checksumOpen_seal)

def zeroRoot : Party → Bytes := fun _ => List.replicate 32 0

def twoChains : Party → Bytes
  | .a => List.replicate 32 1
  | .b => List.replicate 32 2

def secret (byte : UInt8) : Bytes := List.replicate 32 byte

/-- Both send their number 0 before they have received the other's. -/
def crossing : List Event :=
  [.encrypt .a [104, 105] (secret 3) checksumNonce, .encrypt .b [121, 111] (secret 3) checksumNonce,
    .deliver .a 0]

/-- The second message overtakes the first, which has another secret. -/
def overtaking : List Event :=
  [.encrypt .a [104, 105] (secret 3) checksumNonce, .encrypt .a [121, 111] (secret 4) checksumNonce,
    .deliver .a 1]

def inTurn : List Event :=
  [.encrypt .a [104, 105] (secret 3) checksumNonce, .deliver .a 0,
    .encrypt .b [121, 111] (secret 4) checksumNonce, .deliver .b 0]

def Answer.failed : Answer → Bool
  | encrypted (.error _) | decrypted _ (.error _) => true
  | _ => false

theorem Answer.not_right_of_failed {answer : Answer} (failed : answer.failed = true) :
    ¬ answer.Right := by
  intro right
  cases answer with
  | encrypted result =>
    obtain ⟨wire, rfl⟩ := right
    cases failed
  | decrypted plaintext result =>
    cases right
    cases failed
  | idle => cases failed

theorem not_right_along {w : World} (front : List Event) (e : Event) (back : List Event)
    (failed : (step P (Mealy.final (step P) w front) e).1.failed = true) :
    ¬ Mealy.Along (step P) (fun w e => (step P w e).1.Right) w (front ++ e :: back) := by
  intro right
  exact Answer.not_right_of_failed failed
    ((Mealy.along_iff_split _ _).mp right front e back rfl)

section

variable {w : World} {p : Party} {nonce : Nonce} {seq : Nat}

theorem timely_early (early : (w.party p).sendSeq < maxSkipAhead) :
    Timely w (.encrypt p plaintext combinedSs nonce) := by
  intro seq late
  omega

/-- A message that is the receiver's next passes over nothing. -/
theorem fits_next (within : (w.party p.peer).sendSeq ≤ seq + maxSkippedKeys)
    (next : seq ≤ (w.party p.peer).recvSeq) : Fits w (.deliver p seq) := by
  refine ⟨within, ?_⟩
  intro m passed found i low high
  omega

end

/-- One message each way, one after the other. -/
theorem right_inTurn :
    Mealy.Along (step checksumPrimitives) (fun w e => (step checksumPrimitives w e).1.Right)
      (start zeroRoot twoChains) inTurn := by
  refine right_where_fits checksumPrimitives (fun key nonce pt => ⟨_, rfl, checksumOpen_seal ..⟩)
    zeroRoot twoChains inTurn ?_ ?_
  · refine ⟨timely_early ?_, ⟨?_, ?_⟩, timely_early ?_, ⟨?_, ?_⟩, trivial⟩
    all_goals decide +kernel
  · refine ⟨⟨?_, ?_⟩, fits_next ?_ ?_, ⟨?_, ?_⟩, fits_next ?_ ?_, trivial⟩
    all_goals decide +kernel

/-- Neither a message that crosses another of its number is read, nor one that overtakes a
message with another secret. -/
theorem crossing_unread :
    (Mealy.Along (step checksumPrimitives) Timely (start zeroRoot twoChains) crossing ∧
      ¬ Mealy.Along (step checksumPrimitives) (fun w e => (step checksumPrimitives w e).1.Right)
        (start zeroRoot twoChains) crossing) ∧
    (Mealy.Along (step checksumPrimitives) Timely (start zeroRoot twoChains) overtaking ∧
      ¬ Mealy.Along (step checksumPrimitives) (fun w e => (step checksumPrimitives w e).1.Right)
        (start zeroRoot twoChains) overtaking) := by
  constructor
  · constructor
    · refine ⟨timely_early ?_, timely_early ?_, ⟨?_, ?_⟩, trivial⟩
      all_goals decide +kernel
    · exact not_right_along (crossing.take 2) (.deliver .a 0) [] (by decide +kernel)
  · constructor
    · refine ⟨timely_early ?_, timely_early ?_, ⟨?_, ?_⟩, trivial⟩
      all_goals decide +kernel
    · exact not_right_along (overtaking.take 2) (.deliver .a 1) [] (by decide +kernel)

end KemRatchet

import AddMessenger.KemReplay

/-!
# A receiver of the KEM ratchet

One `KemRatchetState` of `crypto-pq/src/ratchet_pq.rs` that only decrypts, and the one it
receives from, which only encrypts, both with one shared secret. Whatever the receiver is
given, its table is the window of the last 1024 keys below its number.
-/

namespace KemReceiver

open ByteStrings KemRatchet
open Ratchet (Primitives Nonce)

/-- What a receiver is given: forged, repeated, or sent. -/
structure Incoming where
  seq : Nat
  nonce : Bytes
  ciphertext : Bytes

structure Outgoing where
  plaintext : Bytes
  nonce : Nonce

variable (P : Primitives) (combinedSs : Bytes)

def receive (s : KemRatchetState) (m : Incoming) : Except PqError Bytes × KemRatchetState :=
  decryptMessage P s m.seq combinedSs m.nonce m.ciphertext

def send (s : KemRatchetState) (m : Outgoing) :
    Except PqError (Bytes × Bytes) × KemRatchetState :=
  encryptMessage P s m.plaintext combinedSs m.nonce

/-- The chain from a key on. -/
def chainFrom (chainKey : Bytes) (n : Nat) : Bytes :=
  (fun key => nextChainKey P key combinedSs)^[n] chainKey

/-- The key of a number of the chain. -/
def keyFrom (chainKey : Bytes) (n : Nat) : Bytes :=
  messageKey P (chainFrom P combinedSs chainKey n) combinedSs

/-- The key that a sender derives for its next message. -/
def sendingKey (s : KemRatchetState) : Except PqError Bytes :=
  (deriveMessageKey P s.sendChainKey combinedSs).map Prod.fst

/-- Exactly the keys of the 1024 largest numbers below the receiver's, as many as there are,
each as the sender derives it when it comes to the number. -/
structure IsWindow (sender receiver : KemRatchetState) : Prop where
  length : receiver.skippedKeys.length = min maxSkippedKeys receiver.recvSeq
  distinct : (receiver.skippedKeys.map Prod.fst).Nodup
  numbers : ∀ n, n ∈ receiver.skippedKeys.map Prod.fst ↔
    n < receiver.recvSeq ∧ receiver.recvSeq ≤ n + maxSkippedKeys
  keys : ∀ sent : List Outgoing, ∀ key, (sent.length, key) ∈ receiver.skippedKeys →
    sendingKey P combinedSs (Mealy.final (send P combinedSs) sender sent) = .ok key

/-- The message that the sender makes after `sent` is read as it was sent. -/
def Reads (sender receiver : KemRatchetState) (sent : List Outgoing) : Prop :=
  ∀ m ciphertext nonce,
    (send P combinedSs (Mealy.final (send P combinedSs) sender sent) m).1 =
      .ok (ciphertext, nonce) →
    (receive P combinedSs receiver ⟨sent.length, nonce, ciphertext⟩).1 = .ok m.plaintext

theorem chainFrom_succ (chainKey : Bytes) (n : Nat) :
    nextChainKey P (chainFrom P combinedSs chainKey n) combinedSs =
      chainFrom P combinedSs chainKey (n + 1) := by
  rw [chainFrom, chainFrom, Function.iterate_succ_apply']

variable {P combinedSs}

/-- A state that has sent so many messages of the chain, and received none. -/
structure Sending (P : Primitives) (combinedSs chainKey : Bytes) (n : Nat)
    (s : KemRatchetState) : Prop where
  count : s.sendSeq = n
  none_ : s.recvSeq = 0
  chain : s.sendChainKey = chainFrom P combinedSs chainKey n
  keeps : s.Keeps (keyFrom P combinedSs chainKey)

variable {chainKey : Bytes} {n : Nat} {s : KemRatchetState}

/-- Also a message that cannot be encrypted has used up its number. -/
theorem sending_send (sending : Sending P combinedSs chainKey n s) (m : Outgoing) :
    Sending P combinedSs chainKey (n + 1) (send P combinedSs s m).2 ∧
      (send P combinedSs s m).1 =
        match P.aesEncrypt (keyFrom P combinedSs chainKey n) (mixNonce s.rootKey m.nonce)
          m.plaintext with
        | none => .error (.encapsulationFailed "AES-GCM encrypt")
        | some ciphertext => .ok (ciphertext, mixNonce s.rootKey m.nonce) := by
  have next := chainFrom_succ P combinedSs chainKey n
  have top : s.top = n := by
    rw [KemRatchetState.top, sending.count, sending.none_, Nat.max_zero]
  have stored := @keeps_advance s _ n (keyFrom P combinedSs chainKey n) sending.keeps top.ge
    fun _ => rfl
  rw [top, Nat.max_eq_right (Nat.le_succ n)] at stored
  have positive : 1 ≤ maxSkippedKeys := Nat.succ_le_succ (Nat.zero_le _)
  have found := Windows.lookup_of_holds stored (n := n) (by omega) (Nat.lt_succ_self n)
  have own : messageKey P (chainFrom P combinedSs chainKey n) combinedSs =
      keyFrom P combinedSs chainKey n := rfl
  let s' : KemRatchetState :=
    { storeSkippedKey s n (keyFrom P combinedSs chainKey n) with
      sendChainKey := chainFrom P combinedSs chainKey (n + 1)
      sendSeq := n + 1 }
  have advanced : advanceSendChain P s combinedSs = (.ok (), s') := by
    simp only [advanceSendChain, deriveMessageKey_eq, sending.chain, own, next, sending.count, s']
  have root : s'.rootKey = s.rootKey := rfl
  have held : getMessageKey s' (s'.sendSeq - 1) = some (keyFrom P combinedSs chainKey n) := found
  have after : Sending P combinedSs chainKey (n + 1) s' := by
    refine ⟨rfl, sending.none_, rfl, ?_⟩
    have top' : s'.top = n + 1 := by
      show max (n + 1) s.recvSeq = n + 1
      rw [sending.none_, Nat.max_zero]
    rw [KemRatchetState.Keeps, top']
    exact stored
  simp only [send, encryptMessage, advanced, held, root]
  cases P.aesEncrypt (keyFrom P combinedSs chainKey n) (mixNonce s.rootKey m.nonce)
    m.plaintext with
  | none => exact ⟨after, rfl⟩
  | some ciphertext => exact ⟨after, rfl⟩

theorem sending_final {n : Nat} (sending : Sending P combinedSs chainKey n s)
    (sent : List Outgoing) :
    Sending P combinedSs chainKey (n + sent.length)
      (Mealy.final (send P combinedSs) s sent) := by
  induction sent generalizing s n with
  | nil => exact sending
  | cons m rest ih =>
    have later := ih (sending_send sending m).1
    rwa [Nat.add_right_comm, Nat.add_assoc] at later

/-- A state that has received along the chain, and sent nothing. -/
structure Receiving (P : Primitives) (combinedSs chainKey : Bytes) (s : KemRatchetState) :
    Prop where
  none_ : s.sendSeq = 0
  chain : s.recvChainKey = chainFrom P combinedSs chainKey s.recvSeq
  keeps : s.Keeps (keyFrom P combinedSs chainKey)

/-- What is too far ahead changes nothing, and anything else moves the receiver along the
chain, whether it can be read or not. -/
theorem receiving_receive (receiving : Receiving P combinedSs chainKey s) (m : Incoming) :
    Receiving P combinedSs chainKey (receive P combinedSs s m).2 := by
  obtain ⟨seq, nonce, ciphertext⟩ := m
  by_cases far : seq - s.recvSeq > maxSkipAhead
  · rw [receive, decryptMessage, if_pos far]
    exact receiving
  · have moved : Receiving P combinedSs chainKey
        (advanceTo P seq combinedSs (seq + 1 - s.recvSeq) s).2 := by
      rcases Nat.lt_or_ge seq s.recvSeq with passed | ahead
      · rw [Nat.sub_eq_zero_of_le passed]
        exact receiving
      · obtain ⟨table, run, holds⟩ := @advanceTo_eq P s _ combinedSs _ seq
          (seq + 1 - s.recvSeq) receiving.keeps receiving.chain (by omega)
          fun i _ _ => ⟨chainFrom_succ P combinedSs chainKey i, fun _ => rfl⟩
        rw [run]
        exact ⟨receiving.none_, rfl, holds⟩
    have ended := (@KemReplay.advanceTo_ok P s seq combinedSs (seq + 1 - s.recvSeq)
      (by omega)).1
    rw [receive, decryptMessage, if_neg far]
    rcases chain : advanceTo P seq combinedSs (seq + 1 - s.recvSeq) s with ⟨result, s'⟩
    rw [chain] at moved ended
    obtain rfl : result = .ok () := ended
    simp only
    split
    · exact moved
    · split
      · exact moved
      · exact moved

/-- Invariant of every run. -/
theorem receiving_final (receiving : Receiving P combinedSs chainKey s)
    (calls : List Incoming) :
    Receiving P combinedSs chainKey (Mealy.final (receive P combinedSs) s calls) :=
  Mealy.final_preserved (Receiving P combinedSs chainKey)
    (fun _ m inv => receiving_receive inv m) receiving calls

/-- Receiving is one of the calls on a state. -/
theorem final_receive (calls : List Incoming) :
    Mealy.final (receive P combinedSs) s calls =
      Mealy.final (KemReplay.call P) s
        (calls.map fun m => .decrypt m.seq combinedSs m.nonce m.ciphertext) := by
  induction calls generalizing s with
  | nil => rfl
  | cons m rest ih =>
    rw [Mealy.final_cons, List.map_cons, Mealy.final_cons]
    exact ih

theorem recvSeq_final_le (calls : List Incoming) :
    (Mealy.final (receive P combinedSs) s calls).recvSeq ≤
      s.recvSeq + calls.length * (maxSkipAhead + 1) := by
  rw [final_receive]
  have far := (@KemReplay.counters_final_le P s
    (calls.map fun m => .decrypt m.seq combinedSs m.nonce m.ciphertext)).2
  rwa [List.length_map] at far

theorem isWindow_of_receiving {sender : KemRatchetState}
    (sending : Sending P combinedSs chainKey 0 sender)
    (receiving : Receiving P combinedSs chainKey s) : IsWindow P combinedSs sender s := by
  have top : s.top = s.recvSeq := by
    rw [KemRatchetState.top, receiving.none_, Nat.zero_max]
  have holds := receiving.keeps
  rw [KemRatchetState.Keeps, top] at holds
  refine ⟨?_, ?_, fun n => ?_, fun sent key member => ?_⟩
  · rw [Windows.length_of_holds holds]
    omega
  · exact (holds.map Prod.fst).nodup_iff.mpr (Windows.nodup_numbers Windows.pairwise_window)
  · have there := Windows.any_number (n := n) holds
    rw [List.any_eq_true] at there
    simp only [beq_iff_eq] at there
    rw [List.mem_map, there]
    omega
  · have derived := (Windows.mem_window.mp (holds.subset member)).2.2
    have state := sending_final sending sent
    rw [Nat.zero_add] at state
    simp only at derived
    rw [sendingKey, deriveMessageKey_eq, state.chain, derived]
    rfl

/-- Both ends of the window are in it. -/
theorem reads_of_receiving {sender : KemRatchetState}
    (aes : ∀ key nonce pt ct, P.aesEncrypt key nonce pt = some ct →
      P.aesDecrypt key nonce ct = some pt)
    (sending : Sending P combinedSs chainKey 0 sender)
    (receiving : Receiving P combinedSs chainKey s) {sent : List Outgoing}
    (low : s.recvSeq ≤ sent.length + maxSkippedKeys)
    (high : sent.length ≤ s.recvSeq + maxSkipAhead) :
    Reads P combinedSs sender s sent := by
  intro m ciphertext nonce made
  have state := sending_final sending sent
  rw [Nat.zero_add] at state
  rw [(sending_send state m).2] at made
  have opens : P.aesDecrypt (keyFrom P combinedSs chainKey sent.length) nonce ciphertext =
      some m.plaintext := by
    split at made
    · cases made
    · next ct encrypted =>
      cases made
      exact aes _ _ _ _ encrypted
  have top : s.top ≤ sent.length + maxSkippedKeys := by
    rw [KemRatchetState.top, receiving.none_, Nat.zero_max]
    exact low
  obtain ⟨table, run, -⟩ := decryptMessage_eq receiving.keeps receiving.chain high top
    (fun i _ _ => ⟨chainFrom_succ P combinedSs chainKey i, fun _ => rfl⟩) opens
  rw [receive, run]

/-- In every run of a receiver its table is the window below its number, and what the sender
makes for a number in reach is read, whenever it comes and however often. A call moves the number
by at most 1025, so 64 bits hold it for 2 ^ 53 calls. -/
theorem receive_window (P : Primitives)
    (aes : ∀ key nonce pt ct, P.aesEncrypt key nonce pt = some ct →
      P.aesDecrypt key nonce ct = some pt)
    (combinedSs chainKey : Bytes) (rootKeys otherKeys : Party → Bytes) (calls : List Incoming) :
    let sender := new (rootKeys .a) chainKey (otherKeys .a)
    let receiver := Mealy.final (receive P combinedSs)
      (new (rootKeys .b) (otherKeys .b) chainKey) calls
    receiver.skippedKeys.length ≤ maxSkippedKeys ∧
      receiver.recvSeq ≤ calls.length * (maxSkipAhead + 1) ∧
      IsWindow P combinedSs sender receiver ∧
      ∀ sent : List Outgoing, receiver.recvSeq ≤ sent.length + maxSkippedKeys →
        sent.length ≤ receiver.recvSeq + maxSkipAhead →
          Reads P combinedSs sender receiver sent := by
  have sending : Sending P combinedSs chainKey 0 (new (rootKeys .a) chainKey (otherKeys .a)) :=
    ⟨rfl, rfl, rfl, Windows.holds_nil⟩
  have fresh : Receiving P combinedSs chainKey (new (rootKeys .b) (otherKeys .b) chainKey) :=
    ⟨rfl, rfl, Windows.holds_nil⟩
  have receiving := receiving_final fresh calls
  have window := isWindow_of_receiving sending receiving
  have counted := @recvSeq_final_le P combinedSs (new (rootKeys .b) (otherKeys .b) chainKey) calls
  refine ⟨?_, ?_, window, fun sent low high => reads_of_receiving aes sending receiving low high⟩
  · rw [window.length]
    exact Nat.min_le_left ..
  · exact counted.trans (Nat.zero_add _).le

open Ratchet (checksumPrimitives checksumOpen_seal)

/-- A forged number 3 has moved the receiver before message 0 comes. -/
def forgedFirst : KemRatchetState :=
  Mealy.final (receive checksumPrimitives (secret 3))
    (new (zeroRoot .b) (twoChains .b) (twoChains .a)) [⟨3, [], [1]⟩]

theorem receive_window_forgedFirst :
    forgedFirst.recvSeq = 4 ∧
      Reads checksumPrimitives (secret 3) (new (zeroRoot .a) (twoChains .a) (twoChains .b))
        forgedFirst [] := by
  have moved : forgedFirst.recvSeq = 4 := by decide +kernel
  have aes : ∀ key nonce pt ct, checksumPrimitives.aesEncrypt key nonce pt = some ct →
      checksumPrimitives.aesDecrypt key nonce ct = some pt := by
    intro key nonce pt ct sealed
    rw [← Option.some.inj sealed]
    exact checksumOpen_seal key nonce pt
  refine ⟨moved, (receive_window checksumPrimitives aes (secret 3) (twoChains .a) zeroRoot
    (fun _ => twoChains .b) [⟨3, [], [1]⟩]).2.2.2 [] ?_ ?_⟩
  · show forgedFirst.recvSeq ≤ _
    rw [moved]
    decide
  · exact Nat.zero_le _

end KemReceiver

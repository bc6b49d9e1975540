import Mathlib.Data.List.AList
import Mathlib.Data.UInt
import AddMessenger.ByteStrings

/-!
# The double ratchet session

`DoubleRatchetSession` of `crypto/src/lib.rs`: one session is the sending and the
receiving end of two key chains. A message either mixes a fresh ML-KEM secret
into the chain (`encryptMessage`) or takes the plain next step of it
(`encryptFirst`); `decryptMessage` tells the two apart by the last two bytes.

AES-256-GCM, HKDF-SHA256, ML-KEM-1024, base64 and the iteration order of a hash
map are parameters. A call answers with a result and a state: what a failed call
has already written stays written, as it does behind `&mut self`.
-/

namespace Ratchet

open ByteStrings

def nonceSize : Nat := 12

def maxSkippedKeys : Nat := 1024

def maxSkipAhead : Nat := 1024

abbrev Nonce := {b : Bytes // b.length = nonceSize}

/-- ML-KEM-1024 ciphertexts and shared keys are arrays of fixed size. -/
abbrev MlKem1024Ciphertext := {b : Bytes // b.length = 1568}

abbrev MlKem1024SharedSecret := {b : Bytes // b.length = 32}

/-- The code outside the repository. `coins` is the randomness of one
encapsulation, `okm` the output keying material HKDF expands without a salt,
`firstKey` the key a hash map iterates first. -/
structure Primitives where
  EncapsulationKey : Type
  DecapsulationKey : Type
  Coins : Type
  encapsulate : EncapsulationKey → Coins → MlKem1024Ciphertext × MlKem1024SharedSecret
  decapsulate : DecapsulationKey → MlKem1024Ciphertext → MlKem1024SharedSecret
  aesEncrypt : Bytes → Bytes → Bytes → Option Bytes
  aesDecrypt : Bytes → Bytes → Bytes → Option Bytes
  okm : Bytes → String → (len : Nat) → {b : Bytes // b.length = len}
  base64Encode : Bytes → String
  base64Decode : String → Except String Bytes
  utf8Error : Bytes → String
  firstKey : List String → Option String
  firstKey_mem : ∀ keys k, firstKey keys = some k → k ∈ keys
  firstKey_isSome : ∀ keys, keys ≠ [] → (firstKey keys).isSome

inductive CryptoError where
  | invalidFingerprint (text : String)
  | encryptFailed (text : String)
  | decryptFailed (text : String)
  | serialization (text : String)
  | ratchet (text : String)
  | keyPersistence (text : String)
  | pir (text : String)
  | hardwareError (text : String)
  | io (text : String)
  | derivationFailed (text : String)
  deriving DecidableEq, Repr

@[ext] structure RatchetState where
  peerFp : String
  peerNid : String
  ourFp : String
  isInitiator : Bool
  selfMode : Bool
  rootKey : Bytes
  sendChainKey : Bytes
  recvChainKey : Bytes
  sendMessageNumber : UInt64
  recvMessageNumber : UInt64
  skippedKeys : AList fun _ : String => Bytes

structure MlKem1024Keypair (P : Primitives) where
  enc : P.EncapsulationKey
  dec : P.DecapsulationKey

variable (P : Primitives)

/-- HKDF-Expand refuses more than 255 blocks of 32 bytes. -/
def hkdfExpand (ikm : Bytes) (info : String) (len : Nat) : Option Bytes :=
  if len ≤ 255 * 32 then some (P.okm ikm info len) else none

def newWithMode (peerFp peerNid ourFp : String) (isInitiator selfMode : Bool)
    (sharedSecret : Bytes) : Except CryptoError RatchetState :=
  if sharedSecret.length < 32 then
    .error (.ratchet "shared_secret must be at least 32 bytes")
  else
    match hkdfExpand P sharedSecret "add-double-ratchet-v1-root" 32 with
    | none => .error (.ratchet "HKDF root_key")
    | some rootKey =>
      match hkdfExpand P sharedSecret "add-double-ratchet-v1-chains" 64 with
      | none => .error (.ratchet "HKDF chain_keys")
      | some chainKeys =>
        let sendCk := if isInitiator then chainKeys.take 32 else chainKeys.drop 32
        let recvCk := if isInitiator then chainKeys.drop 32 else chainKeys.take 32
        .ok {
          peerFp := peerFp
          peerNid := peerNid
          ourFp := ourFp
          isInitiator := isInitiator
          selfMode := selfMode
          rootKey := rootKey
          sendChainKey := sendCk
          recvChainKey := if selfMode then sendCk else recvCk
          sendMessageNumber := 0
          recvMessageNumber := 0
          skippedKeys := ∅ }

def new (peerFp peerNid ourFp : String) (isInitiator : Bool) (sharedSecret : Bytes) :
    Except CryptoError RatchetState :=
  newWithMode P peerFp peerNid ourFp isInitiator false sharedSecret

def newSelf (peerFp peerNid ourFp : String) (sharedSecret : Bytes) :
    Except CryptoError RatchetState :=
  newWithMode P peerFp peerNid ourFp true true sharedSecret

def deriveMessageKey (chainKey : Bytes) : Except CryptoError (Bytes × Bytes) :=
  match hkdfExpand P chainKey "add-double-ratchet-v1-step" 64 with
  | none => .error (.ratchet "HKDF step")
  | some output => .ok (output.take 32, output.drop 32)

/-- The message key of a chain position. -/
def messageKey (chainKey : Bytes) : Bytes :=
  (P.okm chainKey "add-double-ratchet-v1-step" 64).val.take 32

/-- The chain key after a chain position. -/
def nextChainKey (chainKey : Bytes) : Bytes :=
  (P.okm chainKey "add-double-ratchet-v1-step" 64).val.drop 32

@[simp] theorem deriveMessageKey_eq (chainKey : Bytes) :
    deriveMessageKey P chainKey = .ok (messageKey P chainKey, nextChainKey P chainKey) := rfl

/-- Evict one entry when the table is over its cap. -/
def pruneSkippedKeys (s : RatchetState) : RatchetState :=
  if s.skippedKeys.keys.length > maxSkippedKeys then
    match P.firstKey s.skippedKeys.keys with
    | some k => { s with skippedKeys := s.skippedKeys.erase k }
    | none => s
  else s

def storeKey (s : RatchetState) (index : UInt64) (key : Bytes) : RatchetState :=
  { s with skippedKeys := s.skippedKeys.insert (toString index) key }

/-- Sending moves the send chain; in self mode both ends are one chain. -/
def advanceSend (s : RatchetState) (newCk : Bytes) : RatchetState :=
  { s with
    sendChainKey := newCk
    recvChainKey := if s.selfMode then newCk else s.recvChainKey }

/-- Receiving moves the receive chain, except in self mode. -/
def advanceRecv (s : RatchetState) (newCk : Bytes) : RatchetState :=
  { s with recvChainKey := if s.selfMode then s.recvChainKey else newCk }

def encryptFirst (s : RatchetState) (plaintext : String) (nonce : Nonce) :
    Except CryptoError Bytes × RatchetState :=
  match deriveMessageKey P s.sendChainKey with
  | .error e => (.error e, s)
  | .ok (msgKey, newCk) =>
    let s := advanceSend s newCk
    match P.aesEncrypt msgKey nonce (asBytes plaintext) with
    | none => (.error (.encryptFailed "AES-GCM: aead::Error"), s)
    | some ciphertext =>
      (.ok (nonce ++ ciphertext), { s with sendMessageNumber := s.sendMessageNumber + 1 })

def encryptMessage (s : RatchetState) (plaintext : String)
    (recipientKyberEnc : P.EncapsulationKey) (coins : P.Coins) (nonce : Nonce) :
    Except CryptoError Bytes × RatchetState :=
  let (kyberCt, kyberSs) := P.encapsulate recipientKyberEnc coins
  match deriveMessageKey P (s.sendChainKey ++ kyberSs) with
  | .error e => (.error e, s)
  | .ok (msgKey, newCk) =>
    let s := advanceSend s newCk
    match P.aesEncrypt msgKey nonce (asBytes plaintext) with
    | none => (.error (.encryptFailed "AES-GCM: aead::Error"), s)
    | some ciphertext =>
      (.ok (nonce ++ ciphertext ++ kyberCt ++ toBeBytes16 kyberCt.val.length),
        { s with sendMessageNumber := s.sendMessageNumber + 1 })

def toText (pt : Bytes) : Except CryptoError String :=
  match fromUtf8 pt with
  | some text => .ok text
  | none => .error (.decryptFailed ("utf8: " ++ P.utf8Error pt))

/-- One iteration of the skip-forward loop. -/
def skipOne (s : RatchetState) : Except CryptoError Unit × RatchetState :=
  match deriveMessageKey P s.recvChainKey with
  | .error e => (.error e, s)
  | .ok (mk, newCk) =>
    let idx := s.recvMessageNumber
    let s := pruneSkippedKeys P (storeKey (advanceRecv s newCk) idx mk)
    (.ok (), { s with recvMessageNumber := s.recvMessageNumber + 1 })

/-- `while recv_message_number < seq` runs once for every number in between. -/
def skipForward : Nat → RatchetState → Except CryptoError Unit × RatchetState
  | 0, s => (.ok (), s)
  | n + 1, s =>
    match skipOne P s with
    | (.error e, s) => (.error e, s)
    | (.ok (), s) => skipForward n s

def simpleDecrypt (s : RatchetState) (nonce body : Bytes) (seq : UInt64) :
    Except CryptoError Bytes × RatchetState :=
  let gap := seq.toNat - s.recvMessageNumber.toNat
  if gap > maxSkipAhead then (.error (.decryptFailed "seq gap too large"), s)
  else
    match skipForward P gap s with
    | (.error e, s) => (.error e, s)
    | (.ok (), s) =>
      match deriveMessageKey P s.recvChainKey with
      | .error e => (.error e, s)
      | .ok (msgKey, newCk) =>
        let s := advanceRecv s newCk
        match P.aesDecrypt msgKey nonce body with
        | none => (.error (.decryptFailed "AES-GCM: aead::Error"), s)
        | some pt =>
          let s := { s with recvMessageNumber := s.recvMessageNumber + 1 }
          (.ok pt, pruneSkippedKeys P (storeKey s seq msgKey))

def ciphertextTryFrom (bytes : Bytes) : Option MlKem1024Ciphertext :=
  if sized : bytes.length = 1568 then some ⟨bytes, sized⟩ else none

/-- The AES part of a body with `kyberLen` bytes of ciphertext before its last two. -/
def aesPart (body : Bytes) (kyberLen : Nat) : Bytes := body.take (body.length - 2 - kyberLen)

def kyberPart (body : Bytes) (kyberLen : Nat) : Bytes :=
  (body.take (body.length - 2)).drop (body.length - 2 - kyberLen)

/-- A body that carries an ML-KEM ciphertext and its length at the end. -/
def kyberDecrypt (s : RatchetState) (nonce body : Bytes) (kyberLen : Nat)
    (ourKyber : MlKem1024Keypair P) (seq : UInt64) : Except CryptoError Bytes × RatchetState :=
  match ciphertextTryFrom (kyberPart body kyberLen) with
  | none => (.error (.decryptFailed "kyber parse: TryFromSliceError(())"), s)
  | some kyberCt =>
    let kyberSs := P.decapsulate ourKyber.dec kyberCt
    match deriveMessageKey P (s.recvChainKey ++ kyberSs) with
    | .error e => (.error e, s)
    | .ok (msgKey, newCk) =>
      let s := advanceRecv s newCk
      match P.aesDecrypt msgKey nonce (aesPart body kyberLen) with
      | none => (.error (.decryptFailed "AES-GCM: aead::Error"), s)
      | some pt =>
        let s := { s with recvMessageNumber := s.recvMessageNumber + 1 }
        (.ok pt, pruneSkippedKeys P (storeKey s seq msgKey))

/-- The key for `seq` is still in the table: the chain is not moved. -/
def storedDecrypt (s : RatchetState) (stored nonce body : Bytes) (seq : UInt64) :
    Except CryptoError String × RatchetState :=
  match P.aesDecrypt stored nonce body with
  | none => (.error (.decryptFailed "AES-GCM (skipped): aead::Error"), s)
  | some pt =>
    (toText P pt, { s with recvMessageNumber := max s.recvMessageNumber (seq + 1) })

/-- The trailing two bytes name an appended ML-KEM ciphertext. -/
def HasKyber (body : Bytes) : Prop :=
  body.length > 2 ∧ trailingLength body > 0 ∧ trailingLength body + 2 ≤ body.length

instance (body : Bytes) : Decidable (HasKyber body) := by
  unfold HasKyber; infer_instance

def asText (r : Except CryptoError Bytes × RatchetState) :
    Except CryptoError String × RatchetState :=
  match r with
  | (.error e, s) => (.error e, s)
  | (.ok pt, s) => (toText P pt, s)

def decryptMessage (s : RatchetState) (ciphertextB64 : String)
    (ourKyber : MlKem1024Keypair P) (seq : UInt64) : Except CryptoError String × RatchetState :=
  match P.base64Decode ciphertextB64 with
  | .error e => (.error (.decryptFailed ("base64 decode: " ++ e)), s)
  | .ok raw =>
    if raw.length < nonceSize + 16 + 2 then
      (.error (.decryptFailed "ciphertext too short"), s)
    else
      let nonce := raw.take nonceSize
      let body := raw.drop nonceSize
      match s.skippedKeys.lookup (toString seq) with
      | some stored => storedDecrypt P s stored nonce body seq
      | none =>
        asText P <|
          if HasKyber body then kyberDecrypt P s nonce body (trailingLength body) ourKyber seq
          else simpleDecrypt P s nonce body seq

def decryptFirst (s : RatchetState) (ciphertextB64 : String) :
    Except CryptoError String × RatchetState :=
  match P.base64Decode ciphertextB64 with
  | .error e => (.error (.decryptFailed ("base64 decode: " ++ e)), s)
  | .ok raw =>
    if raw.length < nonceSize + 16 then
      (.error (.decryptFailed "ciphertext too short"), s)
    else asText P (simpleDecrypt P s (raw.take nonceSize) (raw.drop nonceSize) 0)

/-- A session as `newWithMode` builds it. -/
def started (peerFp peerNid ourFp : String) (isInitiator selfMode : Bool)
    (sharedSecret : Bytes) : RatchetState :=
  let chainKeys := (P.okm sharedSecret "add-double-ratchet-v1-chains" 64).val
  let sendCk := if isInitiator then chainKeys.take 32 else chainKeys.drop 32
  let recvCk := if isInitiator then chainKeys.drop 32 else chainKeys.take 32
  { peerFp, peerNid, ourFp, isInitiator, selfMode
    rootKey := (P.okm sharedSecret "add-double-ratchet-v1-root" 32).val
    sendChainKey := sendCk
    recvChainKey := if selfMode then sendCk else recvCk
    sendMessageNumber := 0
    recvMessageNumber := 0
    skippedKeys := ∅ }

theorem newWithMode_started (peerFp peerNid ourFp : String) (isInitiator selfMode : Bool)
    {sharedSecret : Bytes} (long : 32 ≤ sharedSecret.length) :
    newWithMode P peerFp peerNid ourFp isInitiator selfMode sharedSecret =
      .ok (started P peerFp peerNid ourFp isInitiator selfMode sharedSecret) := by
  rw [newWithMode, if_neg (Nat.not_lt.mpr long)]
  rfl

/-- The state after one skipped position. -/
def skipStep (s : RatchetState) : RatchetState :=
  let t := pruneSkippedKeys P (storeKey (advanceRecv s (nextChainKey P s.recvChainKey))
    s.recvMessageNumber (messageKey P s.recvChainKey))
  { t with recvMessageNumber := t.recvMessageNumber + 1 }

theorem skipForward_eq (n : Nat) (s : RatchetState) :
    skipForward P n s = (.ok (), (skipStep P)^[n] s) := by
  induction n generalizing s with
  | zero => rfl
  | succ n ih =>
    rw [Function.iterate_succ_apply]
    exact ih (skipStep P s)

/-- The state after a message key was accepted at `seq`. -/
def keepKey (s : RatchetState) (newCk : Bytes) (seq : UInt64) (msgKey : Bytes) : RatchetState :=
  let t := advanceRecv s newCk
  pruneSkippedKeys P (storeKey { t with recvMessageNumber := t.recvMessageNumber + 1 } seq msgKey)

theorem simpleDecrypt_eq (s : RatchetState) (nonce body : Bytes) (seq : UInt64)
    (near : seq.toNat - s.recvMessageNumber.toNat ≤ maxSkipAhead) :
    simpleDecrypt P s nonce body seq =
      let t := (skipStep P)^[seq.toNat - s.recvMessageNumber.toNat] s
      match P.aesDecrypt (messageKey P t.recvChainKey) nonce body with
      | none => (.error (.decryptFailed "AES-GCM: aead::Error"),
          advanceRecv t (nextChainKey P t.recvChainKey))
      | some pt => (.ok pt, keepKey P t (nextChainKey P t.recvChainKey) seq
          (messageKey P t.recvChainKey)) := by
  simp only [simpleDecrypt, if_neg (Nat.not_lt.mpr near), skipForward_eq, deriveMessageKey_eq]
  split <;> rfl

@[simp] theorem ciphertextTryFrom_val (kyberCt : MlKem1024Ciphertext) :
    ciphertextTryFrom kyberCt.val = some kyberCt := by
  simp [ciphertextTryFrom, kyberCt.property]

theorem kyberDecrypt_eq (s : RatchetState) (nonce body : Bytes) {kyberLen : Nat}
    {kyberCt : MlKem1024Ciphertext}
    (parsed : ciphertextTryFrom (kyberPart body kyberLen) = some kyberCt)
    (ourKyber : MlKem1024Keypair P) (seq : UInt64) :
    kyberDecrypt P s nonce body kyberLen ourKyber seq =
      let mixed := s.recvChainKey ++ (P.decapsulate ourKyber.dec kyberCt).val
      match P.aesDecrypt (messageKey P mixed) nonce (aesPart body kyberLen) with
      | none => (.error (.decryptFailed "AES-GCM: aead::Error"),
          advanceRecv s (nextChainKey P mixed))
      | some pt => (.ok pt, keepKey P s (nextChainKey P mixed) seq (messageKey P mixed)) := by
  simp only [kyberDecrypt, parsed, deriveMessageKey_eq]
  split <;> rfl

/-- A sealed first message, and the counter after it. -/
theorem encryptFirst_sealed (s : RatchetState) {plaintext : String} {nonce : Nonce} {ct : Bytes}
    (sealed : P.aesEncrypt (messageKey P s.sendChainKey) nonce (asBytes plaintext) = some ct) :
    encryptFirst P s plaintext nonce =
      (.ok (nonce ++ ct), { advanceSend s (nextChainKey P s.sendChainKey) with
        sendMessageNumber := s.sendMessageNumber + 1 }) := by
  simp only [encryptFirst, deriveMessageKey_eq, sealed]
  rfl

theorem encryptMessage_sealed (s : RatchetState) {plaintext : String}
    {enc : P.EncapsulationKey} {coins : P.Coins} {nonce : Nonce} {ct : Bytes}
    (sealed : P.aesEncrypt (messageKey P (s.sendChainKey ++ (P.encapsulate enc coins).2.val)) nonce
      (asBytes plaintext) = some ct) :
    ∃ wire after, encryptMessage P s plaintext enc coins nonce = (.ok wire, after) := by
  simp only [encryptMessage, deriveMessageKey_eq, sealed]
  exact ⟨_, _, rfl⟩

/-- Cutting a body that was put together by `encryptMessage`. -/
theorem parts_append (aesCt : Bytes) (kyberCt : MlKem1024Ciphertext) {trailer : Bytes}
    (two : trailer.length = 2) :
    aesPart (aesCt ++ kyberCt.val ++ trailer) 1568 = aesCt ∧
      kyberPart (aesCt ++ kyberCt.val ++ trailer) 1568 = kyberCt.val := by
  have sized := kyberCt.property
  have stop : (aesCt ++ kyberCt.val ++ trailer).length - 2 = (aesCt ++ kyberCt.val).length := by
    simp only [List.length_append]; omega
  have aesEnd : (aesCt ++ kyberCt.val).length - 1568 = aesCt.length := by
    simp only [List.length_append]; omega
  constructor
  · rw [aesPart, stop, aesEnd, List.append_assoc, List.take_left]
  · rw [kyberPart, stop, aesEnd, List.take_left, List.drop_left]

theorem take_nonce (nonce : Nonce) (body : Bytes) :
    (nonce.val ++ body).take nonceSize = nonce.val := List.take_left' nonce.property

theorem drop_nonce (nonce : Nonce) (body : Bytes) :
    (nonce.val ++ body).drop nonceSize = body := List.drop_left' nonce.property

/-- Pruning only forgets keys. -/
theorem pruneSkippedKeys_frame (s : RatchetState) :
    ∃ table, pruneSkippedKeys P s = { s with skippedKeys := table } ∧
      ∀ k ∈ table, k ∈ s.skippedKeys := by
  rw [pruneSkippedKeys]
  split
  · cases P.firstKey s.skippedKeys.keys with
    | none => exact ⟨s.skippedKeys, rfl, fun _ hk => hk⟩
    | some k => exact ⟨s.skippedKeys.erase k, rfl, fun _ hk => (AList.mem_erase.mp hk).2⟩
  · exact ⟨s.skippedKeys, rfl, fun _ hk => hk⟩

theorem pruneSkippedKeys_of_room {s : RatchetState}
    (room : s.skippedKeys.keys.length ≤ maxSkippedKeys) : pruneSkippedKeys P s = s :=
  if_neg (Nat.not_lt.mpr room)

/-- Pruning looks at the table only. -/
theorem pruneSkippedKeys_number (s : RatchetState) (number : UInt64) :
    pruneSkippedKeys P { s with recvMessageNumber := number } =
      { pruneSkippedKeys P s with recvMessageNumber := number } := by
  by_cases full : s.skippedKeys.keys.length > maxSkippedKeys
  · simp only [pruneSkippedKeys, if_pos full]
    cases P.firstKey s.skippedKeys.keys with
    | none => rfl
    | some k => rfl
  · simp only [pruneSkippedKeys, if_neg full]

/-- Accepting a message at the current position is a skip over it. -/
theorem keepKey_current (s : RatchetState) :
    keepKey P s (nextChainKey P s.recvChainKey) s.recvMessageNumber
      (messageKey P s.recvChainKey) = skipStep P s := by
  let stored := storeKey (advanceRecv s (nextChainKey P s.recvChainKey)) s.recvMessageNumber
    (messageKey P s.recvChainKey)
  obtain ⟨table, pruned, -⟩ := pruneSkippedKeys_frame P stored
  calc keepKey P s (nextChainKey P s.recvChainKey) s.recvMessageNumber
        (messageKey P s.recvChainKey)
      = pruneSkippedKeys P { stored with recvMessageNumber := s.recvMessageNumber + 1 } := rfl
    _ = { pruneSkippedKeys P stored with recvMessageNumber := s.recvMessageNumber + 1 } :=
        pruneSkippedKeys_number P stored _
    _ = skipStep P s := by
        change _ = { pruneSkippedKeys P stored with
          recvMessageNumber := (pruneSkippedKeys P stored).recvMessageNumber + 1 }
        rw [pruned]
        rfl

theorem skipStep_frame (s : RatchetState) :
    ∃ table, skipStep P s =
      { advanceRecv s (nextChainKey P s.recvChainKey) with
        recvMessageNumber := s.recvMessageNumber + 1, skippedKeys := table } := by
  obtain ⟨table, pruned, -⟩ := pruneSkippedKeys_frame P (storeKey
    (advanceRecv s (nextChainKey P s.recvChainKey)) s.recvMessageNumber
    (messageKey P s.recvChainKey))
  refine ⟨table, ?_⟩
  simp only [skipStep, pruned]
  rfl

/-- The receive chain key `n` positions ahead. -/
def chainKeyAhead (s : RatchetState) (n : Nat) : Bytes :=
  if s.selfMode then s.recvChainKey else (nextChainKey P)^[n] s.recvChainKey

@[simp] theorem chainKeyAhead_zero (s : RatchetState) :
    chainKeyAhead P s 0 = s.recvChainKey := by
  simp [chainKeyAhead]

theorem chainKeyAhead_succ (s : RatchetState) (n : Nat) :
    chainKeyAhead P s (n + 1) =
      if s.selfMode then chainKeyAhead P s n else nextChainKey P (chainKeyAhead P s n) := by
  cases self : s.selfMode with
  | false =>
    simp only [chainKeyAhead, self, Bool.false_eq_true, if_false, Function.iterate_succ_apply']
  | true => simp only [chainKeyAhead, self, if_true]

/-- Skipping moves the chain and the counter, and changes no key but in the table. -/
theorem skipStep_iterate (n : Nat) (s : RatchetState) :
    ∃ table, (skipStep P)^[n] s =
      { s with
        recvChainKey := chainKeyAhead P s n
        recvMessageNumber := s.recvMessageNumber + UInt64.ofNat n
        skippedKeys := table } := by
  induction n with
  | zero => exact ⟨s.skippedKeys, by simp⟩
  | succ n ih =>
    obtain ⟨before, skipped⟩ := ih
    obtain ⟨after, next⟩ := skipStep_frame P ((skipStep P)^[n] s)
    refine ⟨after, ?_⟩
    rw [Function.iterate_succ_apply', next, skipped]
    simp only [advanceRecv, chainKeyAhead_succ, UInt64.ofNat_add, add_assoc, UInt64.reduceOfNat]

/-- What an accepted message leaves behind: the moved chain and no key besides
the old ones and its own. -/
theorem keepKey_frame (s : RatchetState) (newCk : Bytes) (seq : UInt64) (msgKey : Bytes) :
    ∃ table, keepKey P s newCk seq msgKey =
        { advanceRecv s newCk with
          recvMessageNumber := s.recvMessageNumber + 1, skippedKeys := table } ∧
      ∀ k ∈ table, k = toString seq ∨ k ∈ s.skippedKeys := by
  obtain ⟨table, pruned, subset⟩ := pruneSkippedKeys_frame P (storeKey
    { advanceRecv s newCk with recvMessageNumber := s.recvMessageNumber + 1 } seq msgKey)
  exact ⟨table, pruned, fun k hk => (AList.mem_insert _).mp (subset k hk)⟩

/-- One byte that depends on every byte of the input. -/
def checksum (b : Bytes) : UInt8 := b.foldl (fun acc x => acc + x + 1) 0

/-- Blocks of 32 bytes, each the checksum followed by zeros. -/
def checksumBlocks (b : Bytes) (len : Nat) : {b : Bytes // b.length = len} :=
  ⟨(List.range len).map fun i => if i % 32 = 0 then checksum b else 0, by simp⟩

def checksumTag (key nonce pt : Bytes) : Bytes :=
  List.replicate 16 (checksum (key ++ nonce ++ pt))

def checksumSeal (key nonce pt : Bytes) : Bytes := pt ++ checksumTag key nonce pt

def checksumOpen (key nonce ct : Bytes) : Option Bytes :=
  let pt := ct.take (ct.length - 16)
  if ct = checksumSeal key nonce pt then some pt else none

theorem checksumOpen_seal (key nonce pt : Bytes) :
    checksumOpen key nonce (checksumSeal key nonce pt) = some pt := by
  have cut : (checksumSeal key nonce pt).take ((checksumSeal key nonce pt).length - 16) = pt := by
    simp [checksumSeal, checksumTag]
  rw [checksumOpen, cut]
  exact if_pos rfl

/-- One character a byte. -/
def latin1Encode (b : Bytes) : String := String.ofList (b.map Char.ofUInt8)

def latin1Decode (text : String) : Except String Bytes :=
  if text.toList.all fun c => c.toNat < 256 then .ok (text.toList.map Char.toUInt8)
  else .error "invalid character"

theorem latin1Decode_encode (b : Bytes) : latin1Decode (latin1Encode b) = .ok b := by
  have bounded : ∀ x : UInt8, (Char.ofUInt8 x).toNat < 256 := fun x => x.toNat_lt
  have inverse : Char.toUInt8 ∘ Char.ofUInt8 = id := by
    funext x
    simp [Char.toUInt8, Char.ofUInt8]
  simp only [latin1Decode, latin1Encode, String.toList_ofList, List.all_map, List.map_map, inverse,
    List.map_id]
  exact if_pos (List.all_eq_true.mpr fun x _ => decide_eq_true (bounded x))

/-- A small instance: tags and keys are checksums, base64 is one character a byte. -/
def checksumPrimitives : Primitives where
  EncapsulationKey := UInt8
  DecapsulationKey := UInt8
  Coins := UInt8
  encapsulate key coins := (⟨List.replicate 1568 coins, List.length_replicate⟩,
    ⟨List.replicate 32 (key + coins), List.length_replicate⟩)
  decapsulate key ct := ⟨List.replicate 32 (key + ct.val.headD 0), List.length_replicate⟩
  aesEncrypt key nonce pt := some (checksumSeal key nonce pt)
  aesDecrypt := checksumOpen
  okm ikm info len := checksumBlocks (ikm ++ asBytes info) len
  base64Encode := latin1Encode
  base64Decode := latin1Decode
  utf8Error _ := "invalid utf-8 sequence"
  firstKey := List.head?
  firstKey_mem _ _ := List.mem_of_head?
  firstKey_isSome keys nonempty := by
    cases keys with
    | nil => exact absurd rfl nonempty
    | cons => rfl

def checksumNonce : Nonce := ⟨List.replicate nonceSize 9, List.length_replicate⟩

def checksumSecret : Bytes := List.replicate 32 0

end Ratchet

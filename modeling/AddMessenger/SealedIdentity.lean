import AddMessenger.PeerConnection

/-!
# The sealed identity of a hello

What `send_message` puts into the field `sealed_identity` is the ciphertext of a fresh
encapsulation to the responder, and `handle_incoming_connection` reads the 32 bytes it
decapsulates as a null id, a bar and a fingerprint. A null id alone is longer than that.
-/

namespace SealedIdentity

open ByteStrings ClientSessions MessageStore PeerConnection PeerHandshake Protocol Ratchet
  Signatures

variable {F : Platform}

/-- The payload of the hello of `send_message`. -/
def sentPayload (a : Account F) (lookup : Except String F.R.EncapsulationKey)
    (coins : F.R.Coins) : Json :=
  helloPayload a.identity.fingerprint (encodeEncKey F a.kyber.enc) (sealedIdentity F lookup coins)
    a.verifyingKeyB64

/-- An honest initiator reaches an honest responder that has it in its contacts and its key
in the cache; the hello arrives as it was signed and the key as it was streamed. -/
structure Meets (a b : Account F) (lookup : Except String F.R.EncapsulationKey)
    (coins : F.R.Coins) (cache : KeyCache F.S) (c : Incoming F) : Prop where
  ownNid : b.identity.nullId = computeNullId F.S b.identity.fingerprint
  valid : validateFingerprint a.identity.fingerprint = true
  contact : a.identity.fingerprint ∈ c.contacts
  arrives : ∃ msgId ts sig,
    a.sign (helloSigPayload F.J (sentPayload a lookup coins)) = .ok sig ∧ sig ≠ "" ∧
    F.J.fromStr c.helloText =
      .ok (wireFrame "p2p-hello" msgId ts (sentPayload a lookup coins) sig) ∧
    ∃ vk, cachedKey cache a.identity.fingerprint = some vk ∧
      Genuine vk (helloSigPayload F.J (sentPayload a lookup coins)) sig
  streamed : c.exchange = .ok (F.encKeyToBytes a.kyber.enc)
  answers : ∃ sig, b.sign (helloAckSigData F.J (ackPayload b c)) = .ok sig

theorem sealed_sent {a : Account F} {lookup : Except String F.R.EncapsulationKey}
    {coins : F.R.Coins} :
    strField (sentPayload a lookup coins) "sealed_identity" =
      some (sealedIdentity F lookup coins) := rfl

/-- Whatever was encapsulated, it does not hold the null id of the responder. -/
theorem sealed_refused {a b : Account F} {responderKyber : F.R.EncapsulationKey}
    {coins : F.R.Coins} {peerFp : String}
    (ownNid : b.identity.nullId = computeNullId F.S b.identity.fingerprint) :
    checkSealedIdentity F b.toParty peerFp (sentPayload a (.ok responderKyber) coins) ≠ .ok () := by
  have digits := hexEncode_toList_length (F.R.encapsulate responderKyber coins).1.val
  rw [(F.R.encapsulate responderKyber coins).1.property] at digits
  have present : hexEncode (F.R.encapsulate responderKyber coins).1.val ≠ "" := by
    intro empty
    rw [empty] at digits
    cases digits
  have kept : (some (hexEncode (F.R.encapsulate responderKyber coins).1.val)).filter (· ≠ "") =
      some (hexEncode (F.R.encapsulate responderKyber coins).1.val) := by
    simp [Option.filter, present]
  intro passed
  simp only [checkSealedIdentity, sealed_sent, sealedIdentity, kept, hexDecode_hexEncode,
    ciphertextTryFrom_val] at passed
  have size := (F.R.decapsulate b.kyber.dec (F.R.encapsulate responderKyber coins).1).property
  split at passed
  · cases passed
  · rename_i nidBytes fpBytes split
    rw [splitOnce_eq_some split, List.length_append, List.length_cons] at size
    split at passed
    · cases passed
    · cases passed
    · rename_i nid fp read _
      have long := length_computeNullId (P := F.S) b.identity.fingerprint
      split_ifs at passed with other
      rw [fromUtf8_eq_some read, not_not.mp other, ownNid] at size
      omega

/-- Without a lookup there is nothing to unseal. -/
theorem unsealed_passes {a b : Account F} {coins : F.R.Coins} {e peerFp : String} :
    checkSealedIdentity F b.toParty peerFp (sentPayload a (.error e) coins) = .ok () := rfl

/-- A hello of `send_message` passes the responder's checks exactly where the responder's
key was not found, so that nothing is sealed. -/
theorem hello_passes_iff (roundTrip : ∀ b, F.R.base64Decode (F.R.base64Encode b) = .ok b)
    (parses : ∀ key, F.encKeyNewFromSlice (F.encKeyToBytes key) = some key) (a b : Account F)
    (lookup : Except String F.R.EncapsulationKey) (coins : F.R.Coins) (cache : KeyCache F.S)
    (c : Incoming F) (meets : Meets a b lookup coins cache c) :
    (∃ peer, (acceptHello F b cache c).1 = .ok peer) ↔ ∃ e, lookup = .error e := by
  obtain ⟨msgId, ts, sig, signed, nonempty, parsed, vk, cached, ⟨signature, found, -⟩⟩ :=
    meets.arrives
  have payload : framePayload (frameOf F.J c.helloText) = sentPayload a lookup coins := by
    rw [frameOf_of_ok parsed, framePayload_wireFrame]
  constructor
  · rintro ⟨⟨peerFp, peerKyber⟩, accepted⟩
    obtain ⟨-, checked, -, -⟩ := acceptHello_iff.mp accepted
    rw [payload] at checked
    cases lookup with
    | error e => exact ⟨e, rfl⟩
    | ok responderKyber => exact absurd checked (sealed_refused meets.ownNid)
  · rintro ⟨e, rfl⟩
    refine ⟨(a.identity.fingerprint, some a.kyber.enc),
      acceptHello_iff.mpr ⟨?_, ?_, meets.answers, ?_⟩⟩
    · refine receiveHello_iff.mpr
        ⟨_, parsed, ⟨rfl, .inl meets.contact, nonempty, meets.valid, ?_, ?_⟩, rfl⟩
      · exact Option.isSome_of_eq_some (helloKey_of_cached cached)
      · exact Option.isSome_of_eq_some found
    · rw [payload]
      exact unsealed_passes
    · rw [payload, meets.streamed]
      exact helloKyberKey_streamed roundTrip rfl (roundTrip _) (parses _)

def aliceFp : String := "AAAAAAAAAAAAAAAAAAAAAAAAAAAAAAAAAAAAAAAA"

def bobFp : String := "BBBBBBBBBBBBBBBBBBBBBBBBBBBBBBBBBBBBBBBB"

def account (known : List Json) (fp : String) (key : UInt8) : Account (smallPlatform known) where
  identity := ⟨fp, computeNullId sumScheme fp⟩
  kyber := ⟨key, key⟩
  verifyingKeyB64 := String.ofList [Char.ofUInt8 key]
  sign data := .ok (sumSign key data)

def sentHello (lookup : Except String UInt8) : Json :=
  let payload := sentPayload (account [] aliceFp 65) lookup (4 : UInt8)
  wireFrame "p2p-hello" "1" 0 payload (sumSign 65 ("p2p-hello:" ++ compact payload ++ "\n"))

def metCache : KeyCache sumScheme := cacheVerifyingKey ∅ aliceFp (65 : UInt8) 0

def meeting (hello : Json) : Incoming (smallPlatform [hello]) where
  helloText := compact hello
  frames := []
  exchange := .ok [65]
  coins := (4 : UInt8)
  serverChallenge := "challenge"
  contacts := [aliceFp]
  fetched := none
  written := .ok ()
  clock := id

theorem parsed_meeting (hello : Json) :
    (smallPlatform [hello]).J.fromStr (meeting hello).helloText = .ok hello :=
  knownJson_fromStr hello []

theorem aliceFp_valid : validateFingerprint aliceFp = true := by decide +kernel

theorem metCache_alice : cachedKey metCache aliceFp = some (65 : UInt8) := rfl

/-- What is sent does not depend on what can be read. -/
theorem sentPayload_known (known : List Json) (lookup : Except String UInt8) :
    sentPayload (account known aliceFp 65) lookup (4 : UInt8) =
      sentPayload (account [] aliceFp 65) lookup (4 : UInt8) := by
  cases lookup with
  | error e => rfl
  | ok key => rfl

theorem sentHello_signed (known : List Json) (lookup : Except String UInt8) :
    sentHello lookup = wireFrame "p2p-hello" "1" 0
      (sentPayload (account known aliceFp 65) lookup (4 : UInt8))
      (sumSign 65 (helloSigPayload (smallPlatform known).J
        (sentPayload (account known aliceFp 65) lookup (4 : UInt8)))) := by
  rw [sentPayload_known, sentHello]
  rfl

theorem meets (lookup : Except String UInt8) :
    Meets (F := smallPlatform [sentHello lookup]) (account _ aliceFp 65) (account _ bobFp 66) lookup
      (4 : UInt8) metCache (meeting (sentHello lookup)) := by
  refine ⟨rfl, aliceFp_valid, List.mem_singleton_self _, ⟨"1", 0, _, rfl, sumSign_ne_empty _ _,
    (parsed_meeting _).trans (congrArg Except.ok (sentHello_signed _ lookup)), (65 : UInt8),
    metCache_alice, genuine_sumSign_iff.mpr rfl⟩, rfl, ⟨_, rfl⟩⟩

/-- Bob's key was not found, and the hello passes. -/
theorem hello_passes_iff_unsealed : ∃ peer, (acceptHello (smallPlatform [sentHello (.error "")])
    (account _ bobFp 66) metCache (meeting (sentHello (.error "")))).1 = .ok peer :=
  (hello_passes_iff (F := smallPlatform [sentHello (.error "")]) latin1Decode_encode
    (fun _ => rfl) (account _ aliceFp 65) (account _ bobFp 66) (.error "") (4 : UInt8) metCache
    (meeting (sentHello (.error ""))) (meets (.error ""))).mpr ⟨"", rfl⟩

/-- Bob's own key was found, and Bob refuses the hello that was sealed with it. -/
theorem sealed_hello_refused :
    Meets (F := smallPlatform [sentHello (.ok 66)]) (account _ aliceFp 65) (account _ bobFp 66)
        (.ok (66 : UInt8)) (4 : UInt8) metCache (meeting (sentHello (.ok 66))) ∧
      ¬ ∃ peer, (acceptHello (smallPlatform [sentHello (.ok 66)]) (account _ bobFp 66) metCache
        (meeting (sentHello (.ok 66)))).1 = .ok peer := by
  refine ⟨meets (.ok 66), ?_⟩
  rintro ⟨⟨peerFp, peerKyber⟩, accepted⟩
  obtain ⟨-, checked, -, -⟩ := acceptHello_iff.mp accepted
  rw [frameOf_of_ok (parsed_meeting _), sentHello_signed [sentHello (.ok 66)],
    framePayload_wireFrame] at checked
  exact sealed_refused rfl checked

end SealedIdentity

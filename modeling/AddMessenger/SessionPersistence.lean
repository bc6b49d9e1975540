import AddMessenger.ClientSessions
import AddMessenger.Mealy

/-!
# Whether the stored session keeps up

Runs of one client: sending and receiving, directly and by relay, in any order. After
a message the session in memory has moved on; the stored one has too only if it was
saved afterwards. The two direct paths save it before, so that every later message
starts from the chain key of the first; a relayed message is saved afterwards, if the
relay confirms it.
-/

namespace SessionPersistence

open ByteStrings ClientSessions Mealy MessageStore Protocol Ratchet

variable {F : Platform}

/-- The way a message takes: over a connection, with the outcome of the handshake, or by
relay, with the outcome of the key lookup and the answer of the relay. -/
inductive Route (F : Platform) where
  | direct (peerKyber : Except String F.R.EncapsulationKey)
  | relay (recipientKyber : Except String F.R.EncapsulationKey) (reply : RelayReply)

inductive Operation (F : Platform) where
  | sendMessage (recipientNid recipientFp message : String) (ttl : Option String)
      (route : Route F) (draws : Draws F) (written : Except String Unit)
  | sendViaRelay (recipientNid recipientFp message : String)
      (recipientKyber : Except String F.R.EncapsulationKey) (forceFirst : Bool)
      (draws : Draws F) (reply : RelayReply) (written : Except String Unit)
  | relayDecryptMessage (signedBlob senderNid senderFp : String) (written : Except String Unit)
  | incomingMessage (peerFp : String) (peerKyber : Option F.R.EncapsulationKey)
      (coins : F.R.Coins) (payload : Json) (written : Except String Unit)

def report {α : Type} (r : Outcome α × Store) : Option Use × Store := (r.1.used, r.2)

/-- Without a connection `send_message` hands over to `send_via_relay`, which then
starts a new session. -/
def step (me : Party F) (store : Store) : Operation F → Option Use × Store
  | .sendMessage _ _ _ _ (.direct (.error _)) _ _ => (none, store)
  | .sendMessage _ recipientFp message ttl (.direct (.ok peerKyber)) draws written =>
    report (sendDirect F me.identity recipientFp message ttl peerKyber draws written store)
  | .sendMessage recipientNid recipientFp message _ (.relay kyber reply) draws written =>
    report (sendViaRelay F me.identity recipientNid recipientFp message kyber true draws reply
      written store)
  | .sendViaRelay recipientNid recipientFp message kyber forceFirst draws reply written =>
    report (sendViaRelay F me.identity recipientNid recipientFp message kyber forceFirst draws
      reply written store)
  | .relayDecryptMessage signedBlob senderNid senderFp written =>
    report (relayDecryptMessage F signedBlob senderNid senderFp me.identity.fingerprint me.kyber
      written store)
  | .incomingMessage peerFp peerKyber coins payload written =>
    report (decryptDirect F me.identity peerFp me.kyber peerKyber coins payload written store)

section

variable {me : Party F} {store : Store} {u : Use}

end

section

variable {me : Party F} {store : Store}

end

def bob : Party (smallPlatform []) := ⟨⟨"B", "nb"⟩, ⟨(7 : UInt8), (7 : UInt8)⟩⟩

end SessionPersistence

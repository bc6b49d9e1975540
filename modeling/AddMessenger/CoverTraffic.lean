import AddMessenger.NullIds
import AddMessenger.Outcomes

/-!
# Cover traffic

The packets of `crypto/src/cbnp.rs`, the task of `connect_to_peer` in `relay/src/main.rs` that
sends one behind each message to a peer, and the fetches of `start_cover_traffic` in
`client/src/main.rs`. SHA-256 and the random numbers are arguments.
-/

namespace CoverTraffic

open ByteStrings Outcomes

variable (sha256 : Bytes → Sized UInt8 32)

structure CbnpSession where
  coverSecret : Sized UInt8 32
  coverCount : UInt64

section

variable {sha256}

end

inductive FederationFrame where
  | text (message : String)
  | binary (packet : Bytes)

/-- A message for the peer comes out of the channel, or the entry of the peer changes. -/
inductive SenderEvent where
  | message (text : String) (draw : Fin 2049)
  | entry (session : Option CbnpSession)

def messages (events : List SenderEvent) : List String :=
  events.filterMap fun
    | .message text _ => some text
    | .entry _ => none

/-- Each packet stands behind a message of its own. -/
inductive Behind : List FederationFrame → Prop where
  | nil : Behind []
  | alone {frames : List FederationFrame} (text : String) (rest : Behind frames) :
    Behind (.text text :: frames)
  | covered {frames : List FederationFrame} (text : String) (packet : Bytes)
    (rest : Behind frames) : Behind (.text text :: .binary packet :: frames)

section

variable {sha256}

end

end CoverTraffic

import AddMessenger.BraidTransport
import AddMessenger.Exchange

/-!
# The exchange of the keys over the braid

`exchange_ek_braid` and `exchange_ek_braid_split` of `p2p/src/braid_handshake.rs`: the initiator
and the responder each stream all of their key and only then read the other's. A write that the
connection has no room for waits, without a timeout.
-/

namespace BraidExchange

open Braid BraidTransport ByteStrings Exchange P2pHandshake

section

variable (J : EnvelopeJson) (sha512 : Bytes → Bytes) (stamps : Bool → Nat → Stamp)
  (keys : Bool → Bytes)

variable {J sha512 stamps keys}

end

end BraidExchange

import AddMessenger.BootstrapVerify
import AddMessenger.Registers
import AddMessenger.StunQuery

/-!
# The address of a listener

`traverse_nat`, `lan_address`, `addr_host` and the refreshing task of `run_listener` in
`client/src/main.rs`, with the choice among the servers of `p2p/src/nat.rs`. What the host, the
gateway and the servers answer is an argument, and so is whether a publication succeeds. The
listener is bound to all interfaces.
-/

namespace ListenAddress

open Outcomes Registers StunQuery
open BootstrapVerify (rsplitOnce)
open Signatures (startsWith)

abbrev Ipv4Addr := Sized UInt8 4

def wsAddress (host : String) (port : ℕ) : String := "ws://" ++ host ++ ":" ++ toString port

/-- The address in front of the last colon, without scheme and path. -/
def addrHost (addr : String) : List Char :=
  let s :=
    if startsWith addr "ws://" then addr.toList.drop 5
    else if startsWith addr "wss://" then addr.toList.drop 6
    else addr.toList
  let hostport := s.takeWhile (· ≠ '/')
  match rsplitOnce ':' hostport with
  | some (host, _) => host
  | none => hostport

/-- What is answered to one attempt: the address of this host in its network, whether a gateway is
found, the port it maps, its public address, and what each STUN server says. -/
structure Answers where
  primaryIpv4 : Option Ipv4Addr
  discovered : Bool
  mapped : Option UInt16
  externalIp : Option Ipv4Addr
  stun : List (Outcome P2pError StunResult)

/-- Without an address of its own the host shows where it is bound. -/
def lanAddress (primaryIpv4 : Option Ipv4Addr) (port : UInt16) : String :=
  match primaryIpv4 with
  | some ip => wsAddress (dotted ip.val) port.toNat
  | none => wsAddress "0.0.0.0" port.toNat

/-- The first server that answers. -/
def discoverPublicAddress : List (Outcome P2pError StunResult) → Option StunResult
  | [] => none
  | .ok result :: _ => some result
  | _ :: rest => discoverPublicAddress rest

/-- The port that the gateway maps; its public address is asked for behind that. -/
def mappedPort (a : Answers) : Option UInt16 :=
  if a.primaryIpv4.isSome && a.discovered then a.mapped else none

def traverseNat (a : Answers) : Option String :=
  match mappedPort a, a.externalIp with
  | some extPort, some pubIp => some (wsAddress (dotted pubIp.val) extPort.toNat)
  | _, _ => (discoverPublicAddress a.stun).map fun found =>
    wsAddress found.publicIp found.publicPort

structure Settings where
  advertisedUrl : Option String
  noNat : Bool
  port : UInt16

def Settings.traverses (o : Settings) : Bool := o.advertisedUrl.isNone && !o.noNat

def listenAddress (o : Settings) (a : Answers) : String :=
  match o.advertisedUrl with
  | some url => url
  | none =>
    if o.noNat then lanAddress a.primaryIpv4 o.port
    else (traverseNat a).getD (lanAddress a.primaryIpv4 o.port)

/-- The address the task remembers, and the one that contacts find. -/
structure Listener where
  lastRegisteredAddress : String
  record : Option String

/-- One turn of the task. -/
def refresh (s : Listener) (currentAddr : String) (published : Bool) : Listener :=
  if addrHost currentAddr ≠ addrHost s.lastRegisteredAddress then
    if published then ⟨currentAddr, some currentAddr⟩ else s
  else if published then { s with record := some s.lastRegisteredAddress } else s

/-- A listener, and the ports under which its gateway lets connections through to it. -/
structure World where
  listener : Listener
  forwards : List UInt16

/-- A turn of the task, a restart of the gateway, or a port that is opened by someone else. -/
inductive Event where
  | refresh (a : Answers) (published : Bool)
  | forgets
  | opened (port : UInt16)

def mappedBy (o : Settings) (a : Answers) : Option UInt16 :=
  if o.traverses then mappedPort a else none

def step (o : Settings) (w : World) : Event → World
  | .refresh a published =>
    ⟨refresh w.listener (listenAddress o a) published, (mappedBy o a).toList ++ w.forwards⟩
  | .forgets => { w with forwards := [] }
  | .opened port => { w with forwards := port :: w.forwards }

def run (o : Settings) (w : World) (events : List Event) : World := events.foldl (step o) w

/-- The addresses that were found when a publication succeeded. -/
def taken (o : Settings) : List Event → List String
  | [] => []
  | .refresh a true :: rest => listenAddress o a :: taken o rest
  | _ :: rest => taken o rest

/-- Who takes the address from the record is let through to the listener. -/
def Reached (ip : Ipv4Addr) (w : World) : Prop :=
  ∃ port ∈ w.forwards, w.listener.record = some (wsAddress (dotted ip.val) port.toNat)

/-- The event lets connections to the port through. -/
def Opens (o : Settings) (port : UInt16) : Event → Prop
  | .refresh a _ => mappedBy o a = some port
  | .forgets => False
  | .opened other => other = port

section

variable {o : Settings}

end

def publicIp : Ipv4Addr := ⟨[93, 184, 216, 34], rfl⟩

end ListenAddress

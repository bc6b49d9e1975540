import AddMessenger.P2pHandshake
import AddMessenger.Streams

/-!
# A peer behind Tor

`connect_through_tor` and `socks5_handshake` in `p2p/src/transport.rs`: the greeting, the request
to connect by name, and the one read that has to bring the whole reply of the proxy, before the
WebSocket takes the stream over. What arrives is given in chunks. The writes succeed, and a stream
that brings nothing more leaves a read waiting until the timeout.

Over it, what a SOCKS5 proxy without authentication reads and answers.
-/

namespace Socks5

open ByteStrings P2pHandshake Streams

inductive Scheme where
  | ws
  | wss
  deriving DecidableEq

/-- The port of a URL that names none. -/
def Scheme.knownPort : Scheme → UInt16
  | .ws => 80
  | .wss => 443

/-- A parsed URL. A port that is the one of the scheme is not kept. -/
structure Url where
  scheme : Scheme
  hostStr : Option String
  port : Option UInt16
  other : port ≠ some scheme.knownPort

def greeting : Bytes := [0x05, 0x01, 0x00]

/-- The CONNECT request for a domain. -/
def connectRequest (host : String) (port : UInt16) : Bytes :=
  [0x05, 0x01, 0x00, 0x03, UInt8.ofNat (asBytes host).length] ++ asBytes host ++
    [(port >>> 8).toUInt8, (port &&& 0xFF).toUInt8]

/-- The error for the first bytes of a reply. -/
def connectFailed (buf : Bytes) : P2pError :=
  let rep := (buf[1]?.getD 0xFF).toNat
  .connection s!"SOCKS5 connect failed with REP={rep}"

/-- What was written to the proxy, and the stream that is left for the WebSocket. -/
def socks5Handshake (host : String) (port : UInt16) (arrived : List Bytes) :
    Bytes × Except P2pError (List Bytes) :=
  match readExact 2 arrived with
  | .waiting => (greeting, .error .timeout)
  | .closed => (greeting, .error (.connection "SOCKS5 read greeting: early eof"))
  | .full resp arrived =>
    if resp[0]? ≠ some 0x05 ∨ resp[1]? ≠ some 0x00 then
      (greeting, .error (.connection "SOCKS5 auth method rejected"))
    else
      let sent := greeting ++ connectRequest host port
      match read 256 arrived with
      | none => (sent, .error .timeout)
      | some (buf, arrived) =>
        if buf.length < 10 ∨ buf[1]? ≠ some 0x00 then (sent, .error (connectFailed buf))
        else (sent, .ok arrived)

def connectThroughTor (url : Url) (arrived : List Bytes) : Bytes × Except P2pError (List Bytes) :=
  socks5Handshake (url.hostStr.getD "127.0.0.1") (url.port.getD 443) arrived

/-- What follows a greeting that offers to go without authentication. -/
def readGreeting : Bytes → Option Bytes
  | 0x05 :: n :: rest =>
    if n.toNat ≤ rest.length ∧ 0x00 ∈ rest.take n.toNat then some (rest.drop n.toNat) else none
  | _ => none

/-- The name and the port of a CONNECT request for a domain, and what follows it. -/
def readConnect : Bytes → Option ((Bytes × ℕ) × Bytes)
  | 0x05 :: 0x01 :: 0x00 :: 0x03 :: n :: rest =>
    match rest.drop n.toNat with
    | hi :: lo :: later => some ((rest.take n.toNat, fromBeBytes16 hi lo), later)
    | _ => none
  | _ => none

/-- Where the proxy connects for what it is sent, and what it passes on. -/
def proxy (sent : Bytes) : Option ((Bytes × ℕ) × Bytes) := (readGreeting sent).bind readConnect

/-- The address that a proxy reports to be bound to. -/
inductive Address where
  | v4 (octets : Vector UInt8 4)
  | domain (name : { name : Bytes // name.length < 256 })
  | v6 (octets : Vector UInt8 16)

def Address.toBytes : Address → Bytes
  | .v4 octets => 0x01 :: octets.toList
  | .domain name => 0x03 :: UInt8.ofNat name.1.length :: name.1
  | .v6 octets => 0x04 :: octets.toList

structure Reply where
  rep : UInt8
  bound : Address
  port : UInt16

def Reply.toBytes (reply : Reply) : Bytes :=
  [0x05, reply.rep, 0x00] ++ reply.bound.toBytes ++
    [(reply.port >>> 8).toUInt8, (reply.port &&& 0xFF).toUInt8]

theorem fromBeBytes16_port (port : UInt16) :
    fromBeBytes16 (port >>> 8).toUInt8 (port &&& 0xFF).toUInt8 = port.toNat := by
  have high : (port >>> 8).toUInt8.toNat = port.toNat / 256 := by
    have small := port.toNat_lt
    simp [Nat.shiftRight_eq_div_pow]
    omega
  have low : (port &&& 0xFF).toUInt8.toNat = port.toNat % 256 := by
    simpa using Nat.and_two_pow_sub_one_eq_mod (port.toNat % 256) 8
  rw [fromBeBytes16, high, low]
  omega

/-- The proxy reads the name that was asked for exactly when its length fits in its byte. -/
theorem proxy_eq_iff (host : String) (port asked : UInt16) (later : Bytes) :
    proxy (greeting ++ connectRequest host port ++ later)
        = some ((asBytes host, asked.toNat), later) ↔
      (asBytes host).length < 256 ∧ port = asked := by
  have request : proxy (greeting ++ connectRequest host port ++ later) =
      readConnect (connectRequest host port ++ later) := by
    simp [proxy, readGreeting, greeting]
  rw [request]
  generalize name : asBytes host = bytes
  have low : (UInt8.ofNat bytes.length).toNat = bytes.length % 256 := by simp
  have fits : (readConnect (connectRequest host port ++ later)
      = some ((bytes, asked.toNat), later)) → bytes.length < 256 := by
    intro read
    simp only [connectRequest, name, readConnect, List.cons_append, low] at read
    split at read
    · simp only [Option.some.injEq, Prod.mk.injEq] at read
      have taken := congrArg List.length read.1.1
      simp only [List.length_take] at taken
      have bound : bytes.length % 256 < 256 := Nat.mod_lt _ (by decide)
      omega
    · cases read
  have read (short : bytes.length < 256) : readConnect (connectRequest host port ++ later)
      = some ((bytes, port.toNat), later) := by
    have whole : bytes.length % 256 = bytes.length := Nat.mod_eq_of_lt short
    simp only [connectRequest, name, readConnect, List.cons_append, List.nil_append,
      List.append_assoc, low, whole, List.drop_left, List.take_left, fromBeBytes16_port]
  constructor
  · intro asks
    have short := fits asks
    rw [read short] at asks
    simp only [Option.some.injEq, Prod.mk.injEq, true_and, and_true] at asks
    exact ⟨short, UInt16.toNat_inj.mp asks⟩
  · rintro ⟨short, rfl⟩
    exact read short

theorem Reply.second (reply : Reply) (tunnel : Bytes) :
    (reply.toBytes ++ tunnel)[1]? = some reply.rep := by
  simp [Reply.toBytes]

/-- After the greeting, one read decides. -/
theorem socks5Handshake_greeted {host : String} {port : UInt16} {greetings : List Bytes}
    (opened : [] ∉ greetings) (greeted : greetings.flatten = [0x05, 0x00]) (arrived : List Bytes) :
    socks5Handshake host port (greetings ++ arrived) =
      (greeting ++ connectRequest host port,
        match read 256 arrived with
        | none => .error .timeout
        | some (buf, left) =>
          if buf.length < 10 ∨ buf[1]? ≠ some 0x00 then .error (connectFailed buf)
          else .ok left) := by
  have exact := readExact_append greetings arrived opened
  rw [greeted] at exact
  change readExact 2 (greetings ++ arrived) = _ at exact
  simp only [socks5Handshake, exact]
  cases read 256 arrived with
  | none => rfl
  | some got =>
    obtain ⟨buf, left⟩ := got
    by_cases fails : buf.length < 10 ∨ buf[1]? ≠ some 0x00 <;> simp [fails]

/-- The stream is handed over at its first byte after the reply exactly when the reply grants the
connection, has ten bytes at least and comes alone in the first read. -/
theorem handed_over_iff {host : String} {port : UInt16} {greetings arrived : List Bytes}
    {reply : Reply} {tunnel : Bytes} (opened : [] ∉ greetings)
    (greeted : greetings.flatten = [0x05, 0x00])
    (replied : arrived.flatten = reply.toBytes ++ tunnel) :
    (∃ left, (socks5Handshake host port (greetings ++ arrived)).2 = .ok left ∧
        left.flatten = tunnel) ↔
      reply.rep = 0 ∧ 10 ≤ reply.toBytes.length ∧
        min 256 (arrived.headD []).length = reply.toBytes.length := by
  rw [socks5Handshake_greeted opened greeted]
  cases first : read 256 arrived with
  | none =>
    have none_came : arrived = [] := by
      cases arrived with
      | nil => rfl
      | cons chunk later => cases first
    simp [none_came]
    omega
  | some got =>
    obtain ⟨buf, left⟩ := got
    have size : buf.length = min 256 (arrived.headD []).length := by
      cases arrived with
      | nil => cases first
      | cons chunk later =>
        simp only [Streams.read, Option.some.injEq, Prod.mk.injEq] at first
        simp [← first.1]
    have parts := read_flatten first
    have second (long : 10 ≤ buf.length) : buf[1]? = some reply.rep := by
      have whole := reply.second tunnel
      rw [← replied, ← parts, List.getElem?_append_left (by omega)] at whole
      exact whole
    have step := read_rest_iff first replied
    rw [← size]
    by_cases long : 10 ≤ buf.length
    · by_cases granted : reply.rep = 0
      · simp only [second long, granted, Nat.not_lt.mpr long, ne_eq, not_true_eq_false, or_self,
          if_false, Except.ok.injEq, exists_eq_left', step, true_and]
        omega
      · simp [second long, granted]
    · simp only [Nat.lt_of_not_le long, true_or, if_true, reduceCtorEq, false_and, exists_false,
        false_iff]
      omega

/-- The proxy connects to where the URL points, and the WebSocket gets the stream from there from
its first byte on. -/
def Connected (url : Url) (host : String) (arrived : List Bytes) (upgrade tunnel : Bytes) : Prop :=
  proxy ((connectThroughTor url arrived).1 ++ upgrade) =
      some ((asBytes host, (url.port.getD url.scheme.knownPort).toNat), upgrade) ∧
    ∃ left, (connectThroughTor url arrived).2 = .ok left ∧ left.flatten = tunnel

/-- A peer is reached through Tor exactly when its name fits in the request, its parsed address is
not a plain one without a port (as that of `ws://host:80` is), and the reply grants the connection
and comes in one read. -/
theorem connected_iff {url : Url} {host : String} {greetings arrived : List Bytes}
    (reply : Reply) {tunnel : Bytes} (upgrade : Bytes) (named : url.hostStr = some host)
    (opened : [] ∉ greetings) (greeted : greetings.flatten = [0x05, 0x00])
    (replied : arrived.flatten = reply.toBytes ++ tunnel) :
    Connected url host (greetings ++ arrived) upgrade tunnel ↔
      ((asBytes host).length < 256 ∧ (url.port = none → url.scheme = .wss)) ∧
        reply.rep = 0 ∧ 10 ≤ reply.toBytes.length ∧
          min 256 (arrived.headD []).length = reply.toBytes.length := by
  have port : url.port.getD 443 = url.port.getD url.scheme.knownPort ↔
      (url.port = none → url.scheme = .wss) := by
    cases url.port with
    | none => cases url.scheme <;> decide
    | some p => simp
  have sent : (connectThroughTor url (greetings ++ arrived)).1 =
      greeting ++ connectRequest host (url.port.getD 443) := by
    rw [connectThroughTor, socks5Handshake_greeted opened greeted, named, Option.getD_some]
  rw [Connected, sent, proxy_eq_iff, port, connectThroughTor,
    handed_over_iff opened greeted replied]

/-- An onion service with the reply of Tor, which names no address. -/
theorem connected_onion :
    Connected ⟨.wss, some "example.onion", none, by decide⟩ "example.onion"
      ([[0x05, 0x00]] ++ [[0x05, 0x00, 0x00, 0x01, 0, 0, 0, 0, 0, 0]]) [0x47] [] :=
  (connected_iff ⟨0, .v4 ⟨#[0, 0, 0, 0], rfl⟩, 0⟩ [0x47] rfl (by decide) rfl
    (by decide)).mpr ⟨⟨by decide +kernel, fun _ => rfl⟩, rfl, by decide, by decide⟩

end Socks5

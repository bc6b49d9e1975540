import AddMessenger.PinCache
import AddMessenger.Signatures

/-!
# Checking the certificate of a bootstrap server

`dht-core/src/bootstrap_verify.rs`: how a seed URL is cut into host and port, whom
`verify_bootstrap_cert` calls, and what it makes of the certificate. `rustls`, the X.509 reader
and the network are parameters; the native root store is taken to hold anchors, without which
the verifier is not built.
-/

namespace BootstrapVerify

open ByteStrings PinCache Protocol Signatures

/-- What `IpAddr::from_str` of the standard library reads. -/
inductive IpAddr where
  | v4 (a b c d : UInt8)
  | v6 (segments : List UInt16)
  deriving DecidableEq

def IpAddr.localhost : IpAddr := .v4 127 0 0 1

/-- `char::to_digit`. -/
def toDigit (radix : Nat) (c : Char) : Option Nat :=
  let digit :=
    if '0' ≤ c ∧ c ≤ '9' then some (c.toNat - 48)
    else if 'a' ≤ c ∧ c ≤ 'z' then some (c.toNat - 87)
    else if 'A' ≤ c ∧ c ≤ 'Z' then some (c.toNat - 55)
    else none
  digit.filter (· < radix)

def numberOf (radix : Nat) (digits : List Char) : Nat :=
  digits.foldl (fun n c => n * radix + (toDigit radix c).getD 0) 0

def readNumber (radix maxDigits : Nat) (allowZeroPrefix : Bool) (bound : Nat)
    (text : List Char) : Option (Nat × List Char) :=
  let digits := text.takeWhile fun c => (toDigit radix c).isSome
  if maxDigits < digits.length ∨ digits = [] then none
  else if !allowZeroPrefix ∧ digits.head? = some '0' ∧ 1 < digits.length then none
  else if numberOf radix digits < bound then some (numberOf radix digits, text.drop digits.length)
  else none

def readGivenChar (given : Char) : List Char → Option (List Char)
  | [] => none
  | c :: rest => if c = given then some rest else none

/-- `read_separator`: every part but the first stands behind a separator. -/
def behind {Part : Type} (sep : Char) (index : Nat)
    (read : List Char → Option (Part × List Char)) (text : List Char) :
    Option (Part × List Char) :=
  if index = 0 then read text else (readGivenChar sep text).bind read

def readIpv4Addr (text : List Char) : Option ((UInt8 × UInt8 × UInt8 × UInt8) × List Char) := do
  let octet := readNumber 10 3 false 256
  let (a, text) ← behind '.' 0 octet text
  let (b, text) ← behind '.' 1 octet text
  let (c, text) ← behind '.' 2 octet text
  let (d, text) ← behind '.' 3 octet text
  some ((.ofNat a, .ofNat b, .ofNat c, .ofNat d), text)

/-- `read_groups`: up to `left` groups; two of them may be an IPv4 address, which ends them. -/
def readGroups (index : Nat) : Nat → List Char → List UInt16 × Bool × List Char
  | 0, text => ([], false, text)
  | left + 1, text =>
    match if left = 0 then none else behind ':' index readIpv4Addr text with
    | some ((a, b, c, d), text) =>
      ([.ofNat (a.toNat * 256 + b.toNat), .ofNat (c.toNat * 256 + d.toNat)], true, text)
    | none =>
      match behind ':' index (readNumber 16 4 true 65536) text with
      | some (group, text) =>
        let (groups, ipv4, text) := readGroups (index + 1) left text
        (.ofNat group :: groups, ipv4, text)
      | none => ([], false, text)

def readIpv6Addr (text : List Char) : Option (List UInt16 × List Char) := do
  let (head, ipv4, text) := readGroups 0 8 text
  if head.length = 8 then some (head, text)
  else if ipv4 then none
  else
    let text ← readGivenChar ':' text
    let text ← readGivenChar ':' text
    let (tail, _, text) := readGroups 0 (8 - (head.length + 1)) text
    some (head ++ List.replicate (8 - tail.length - head.length) 0 ++ tail, text)

def parseIpAddr (text : List Char) : Option IpAddr :=
  match readIpv4Addr text with
  | some ((a, b, c, d), rest) => if rest = [] then some (.v4 a b c d) else none
  | none =>
    match readIpv6Addr text with
    | some (segments, rest) => if rest = [] then some (.v6 segments) else none
    | none => none

/-- `u16::from_str`. -/
def parseU16 (text : List Char) : Option UInt16 :=
  let digits := if text.head? = some '+' then text.tail else text
  if digits = [] ∨ ¬ digits.all Char.isDigit then none
  else if numberOf 10 digits < 65536 then some (.ofNat (numberOf 10 digits))
  else none

/-- `rfind` and the two parts around what it finds. -/
def rsplitOnce (sep : Char) : List Char → Option (List Char × List Char)
  | [] => none
  | c :: rest =>
    match rsplitOnce sep rest with
    | some (front, back) => some (c :: front, back)
    | none => if c = sep then some ([], rest) else none

def hostPort (seedUrl : String) : List Char :=
  if startsWith seedUrl "wss://" then seedUrl.toList.drop 6
  else if startsWith seedUrl "https://" then seedUrl.toList.drop 8
  else seedUrl.toList

def hostAndPort (hostPort : List Char) : List Char × UInt16 :=
  match rsplitOnce ':' hostPort with
  | some (host, port) => (host, (parseU16 port).getD 443)
  | none => (hostPort, 443)

/-- The text that becomes the TLS server name, and the socket address. -/
structure Dial where
  serverName : String
  addr : IpAddr
  port : UInt16
  deriving DecidableEq

/-- Up to `TcpStream::connect_timeout`; `none` is an invalid host name. The argument says
for which texts `ServerName::try_from` succeeds. -/
def dial (serverName : String → Bool) (seedUrl : String) : Option Dial :=
  let (host, port) := hostAndPort (hostPort seedUrl)
  if serverName (String.ofList host) then
    some ⟨String.ofList host, (parseIpAddr host).getD .localhost, port⟩
  else none

def trustedDomains : List String :=
  ["bootstrap-eu.gnoppix.org", "bootstrap-us.gnoppix.org", "bootstrap-asia.gnoppix.org",
    "relay-eu.gnoppix.org", "relay-us.gnoppix.org", "relay-asia.gnoppix.org"]

structure CertInfo where
  subjectAltNames : List String
  subjectCn : Option String
  issuerCn : Option String
  issuerOrg : Option String
  notBefore : String
  notAfter : String

/-- The world around the check: names `rustls` accepts; the certificates of a finished
handshake, `none` if it was refused on the way; reading a certificate and its hash. -/
structure World where
  serverName : String → Bool
  handshake : Dial → Option (List Bytes)
  extractCertInfo : Bytes → Except String CertInfo
  sha256Hex : Bytes → String
  toLowercase : String → String

variable (W : World)

def domainMatches (certDomain pattern : String) : Bool :=
  let certDomain := W.toLowercase certDomain
  let pattern := W.toLowercase pattern
  if startsWith pattern "*." then
    let base := stripped pattern "*."
    certDomain == base || ("." ++ base).toList.isSuffixOf certDomain.toList
  else certDomain == pattern

def certHasTrustedDomain (info : CertInfo) : Bool :=
  (info.subjectAltNames.any fun san => trustedDomains.any (domainMatches W san)) ||
    match info.subjectCn with
    | some cn => trustedDomains.any (domainMatches W cn)
    | none => false

/-- `bootstrap_pin_check`, and the map of pins it saves. -/
def bootstrapPinCheck (cache : PinMap) (now : UInt64)
    (seedUrl certFp notBefore notAfter : String) : Bool × PinMap :=
  match cache.lookup seedUrl with
  | some existing => ((fpOf existing).getD "" == certFp, cache)
  | none =>
    (true, cache.insert seedUrl (.object [("fp", .string certFp), ("not_before", .string notBefore),
      ("not_after", .string notAfter), ("first_seen", timestamp now),
      ("last_verified", timestamp now)]))

/-- What becomes of the certificates of a handshake. -/
def judge (cache : PinMap) (now : UInt64) (seedUrl : String) :
    Option (List Bytes) → Bool × PinMap
  | some (der :: _) =>
    match W.extractCertInfo der with
    | .error _ => (false, cache)
    | .ok info =>
      if !certHasTrustedDomain W info then (false, cache)
      else bootstrapPinCheck cache now seedUrl (W.sha256Hex der) info.notBefore info.notAfter
  | _ => (false, cache)

def verifyBootstrapCert (cache : PinMap) (now : UInt64) (seedUrl : String) : Bool × PinMap :=
  match dial W.serverName seedUrl with
  | none => (false, cache)
  | some called => judge W cache now seedUrl (W.handshake called)

inductive Scheme where
  | wss
  | https

def Scheme.text : Scheme → List Char
  | wss => "wss://".toList
  | https => "https://".toList

/-- No mark that ends a host. -/
def Plain (text : String) : Prop := ':' ∉ text.toList ∧ '/' ∉ text.toList

instance (text : String) : Decidable (Plain text) :=
  inferInstanceAs (Decidable (':' ∉ text.toList ∧ '/' ∉ text.toList))

/-- A DNS name is what is accepted as a server name and no address. -/
inductive Host where
  | name (text : String) (accepted : W.serverName text = true) (plain : Plain text)
      (named : parseIpAddr text.toList = none)
  | ipv4 (text : String) (a b c d : UInt8) (plain : Plain text)
      (reads : parseIpAddr text.toList = some (.v4 a b c d))
  | ipv6 (text : String) (segments : List UInt16)
      (reads : parseIpAddr text.toList = some (.v6 segments))

namespace Host

variable {W}

/-- As it stands in a URL. -/
def text : Host W → List Char
  | name text _ _ _ => text.toList
  | ipv4 text _ _ _ _ _ _ => text.toList
  | ipv6 text _ _ => '[' :: (text.toList ++ [']'])

def serverName : Host W → String
  | name text _ _ _ => text
  | ipv4 text _ _ _ _ _ _ => text
  | ipv6 text _ _ => text

def addresses (resolve : String → List IpAddr) : Host W → List IpAddr
  | name text _ _ _ => resolve text
  | ipv4 _ a b c d _ _ => [.v4 a b c d]
  | ipv6 _ segments _ => [.v6 segments]

end Host

structure Port where
  digits : List Char
  value : UInt16
  plain : digits.all Char.isDigit = true
  reads : parseU16 digits = some value

structure SeedUrl where
  scheme : Scheme
  host : Host W
  port : Option Port
  path : Option String

def portPart : Option Port → List Char
  | none => []
  | some port => ':' :: port.digits

def pathPart : Option String → List Char
  | none => []
  | some path => '/' :: path.toList

namespace SeedUrl

variable {W}

def text (u : SeedUrl W) : String :=
  String.ofList (u.scheme.text ++ (u.host.text ++ (portPart u.port ++ pathPart u.path)))

/-- The port of the URL. -/
def portNumber (u : SeedUrl W) : UInt16 := (u.port.map Port.value).getD 443

/-- The call goes to the named server. -/
def Reaches (resolve : String → List IpAddr) (u : SeedUrl W) : Prop :=
  ∃ addr ∈ u.host.addresses resolve,
    dial W.serverName u.text = some ⟨u.host.serverName, addr, u.portNumber⟩

/-- There is no path, or the port 443 is given and the path has no colon; and the host is an
IPv4 address, or a name of the local host. -/
def Direct (resolve : String → List IpAddr) (u : SeedUrl W) : Prop :=
  (∀ path, u.path = some path → ':' ∉ path.toList ∧ ∃ port, u.port = some port ∧
    port.value = 443) ∧
  match u.host with
  | .name text _ _ _ => .localhost ∈ resolve text
  | .ipv4 .. => True
  | .ipv6 .. => False

end SeedUrl

theorem rsplitOnce_eq_some {sep : Char} {text front back : List Char}
    (split : rsplitOnce sep text = some (front, back)) : text = front ++ sep :: back := by
  induction text generalizing front with
  | nil => cases split
  | cons c rest ih =>
    rw [rsplitOnce] at split
    split at split
    · next later =>
      cases split
      rw [ih later, List.cons_append]
    · split at split
      · next here =>
        cases split
        rw [here, List.nil_append]
      · cases split

theorem rsplitOnce_eq_none {sep : Char} {text : List Char} (plain : sep ∉ text) :
    rsplitOnce sep text = none := by
  cases split : rsplitOnce sep text with
  | none => rfl
  | some parts =>
    have whole := rsplitOnce_eq_some split
    exact absurd (whole ▸ List.mem_append_right _ List.mem_cons_self) plain

theorem rsplitOnce_append {sep : Char} (front : List Char) {back : List Char}
    (plain : sep ∉ back) : rsplitOnce sep (front ++ sep :: back) = some (front, back) := by
  induction front with
  | nil =>
    rw [List.nil_append, rsplitOnce, rsplitOnce_eq_none plain]
    exact if_pos rfl
  | cons c rest ih => rw [List.cons_append, rsplitOnce, ih]

/-- Where a separator occurs, there is a last one. -/
theorem exists_last {sep : Char} {text : List Char} (member : sep ∈ text) :
    ∃ front back, text = front ++ sep :: back ∧ sep ∉ back := by
  obtain ⟨front, back, split, plain⟩ :=
    List.eq_append_cons_of_mem (List.mem_reverse.mpr member)
  refine ⟨back.reverse, front.reverse, ?_, fun again => plain (List.mem_reverse.mp again)⟩
  simpa using congrArg List.reverse split

theorem colon_not_mem_digits {digits : List Char} (plain : digits.all Char.isDigit = true) :
    ':' ∉ digits := fun colon => absurd (List.all_eq_true.mp plain ':' colon) (by decide)

/-- A path behind the port hides it. -/
theorem parseU16_of_slash {text : List Char} (slash : '/' ∈ text) : parseU16 text = none := by
  have kept : '/' ∈ if text.head? = some '+' then text.tail else text := by
    split
    · next plus =>
      obtain ⟨rest, rfl⟩ := List.head?_eq_some_iff.mp plus
      rcases List.mem_cons.mp slash with wrong | later
      · exact absurd wrong (by decide)
      · exact later
    · exact slash
  have bad : ¬ (if text.head? = some '+' then text.tail else text).all Char.isDigit = true := by
    intro all
    exact absurd (List.all_eq_true.mp all '/' kept) (by decide)
  exact if_pos (.inr bad)

/-- The host comes out whole, with the right port, in these cases only. -/
theorem hostAndPort_iff {host : List Char} (noColon : ':' ∉ host) (noSlash : '/' ∉ host)
    (port : Option Port) (path : Option String) :
    hostAndPort (host ++ (portPart port ++ pathPart path)) =
        (host, (port.map Port.value).getD 443) ↔
      ∀ p, path = some p → ':' ∉ p.toList ∧ ∃ given, port = some given ∧ given.value = 443 := by
  cases path with
  | none =>
    refine iff_of_true ?_ (fun p none => nomatch none)
    cases port with
    | none =>
      rw [hostAndPort, portPart, pathPart, List.append_nil, List.append_nil,
        rsplitOnce_eq_none noColon]
      rfl
    | some given =>
      have last := rsplitOnce_append host (colon_not_mem_digits given.plain)
      rw [hostAndPort, portPart, pathPart, List.append_nil, last]
      simp only [given.reads, Option.getD_some, Option.map_some]
  | some path =>
    simp only [Option.some.injEq, forall_eq', pathPart]
    by_cases colon : ':' ∈ path.toList
    · obtain ⟨front, back, split, plain⟩ := exists_last colon
      refine iff_of_false (fun same => ?_) (fun shape => shape.1 colon)
      have cut : host ++ (portPart port ++ '/' :: path.toList) =
          (host ++ (portPart port ++ '/' :: front)) ++ ':' :: back := by
        rw [split]
        simp only [List.append_assoc, List.cons_append]
      rw [hostAndPort, cut, rsplitOnce_append _ plain] at same
      have longer := congrArg (fun parts => '/' ∈ parts.1) same
      simp [noSlash] at longer
    · cases port with
      | none =>
        refine iff_of_false (fun same => ?_) (fun shape => ?_)
        · have plain : ':' ∉ host ++ '/' :: path.toList := by
            simp [noColon, colon]
          rw [portPart, List.nil_append, hostAndPort, rsplitOnce_eq_none plain] at same
          have longer := congrArg (fun parts => '/' ∈ parts.1) same
          simp [noSlash] at longer
        · obtain ⟨_, given, none, _⟩ := shape
          cases none
      | some given =>
        have plain : ':' ∉ given.digits ++ '/' :: path.toList := by
          simp [colon_not_mem_digits given.plain, colon]
        have unread : parseU16 (given.digits ++ '/' :: path.toList) = none :=
          parseU16_of_slash (by simp)
        rw [portPart, List.cons_append, hostAndPort, rsplitOnce_append host plain]
        simp only [unread, Option.getD_none, Option.map_some, Option.getD_some, Prod.mk.injEq,
          true_and]
        constructor
        · intro right
          exact ⟨colon, given, rfl, right.symm⟩
        · rintro ⟨_, _, ⟨⟩, right⟩
          exact right.symm

section

variable {W} {resolve : String → List IpAddr}

theorem hostPort_text (u : SeedUrl W) :
    hostPort u.text = u.host.text ++ (portPart u.port ++ pathPart u.path) := by
  have whole : u.text.toList =
      u.scheme.text ++ (u.host.text ++ (portPart u.port ++ pathPart u.path)) :=
    String.toList_ofList
  simp only [hostPort, startsWith, whole]
  generalize u.host.text ++ (portPart u.port ++ pathPart u.path) = rest
  cases u.scheme with
  | wss => rfl
  | https => rfl

theorem dial_eq_some_iff {accepts : String → Bool} {seedUrl : String} {called : Dial} :
    dial accepts seedUrl = some called ↔
      accepts called.serverName = true ∧
        hostAndPort (hostPort seedUrl) = (called.serverName.toList, called.port) ∧
        called.addr = (parseIpAddr called.serverName.toList).getD .localhost := by
  obtain ⟨name, addr, port⟩ := called
  cases cut : hostAndPort (hostPort seedUrl) with
  | mk host number =>
    rw [dial, cut]
    constructor
    · intro calls
      simp only [Option.ite_none_right_eq_some, Option.some.injEq, Dial.mk.injEq] at calls
      obtain ⟨accepted, rfl, rfl, rfl⟩ := calls
      exact ⟨accepted, by rw [String.toList_ofList], by rw [String.toList_ofList]⟩
    · rintro ⟨accepted, parts, isAddr⟩
      cases parts
      simp only [String.ofList_toList, if_pos accepted, ← isAddr]

/-- What starts with a bracket is not an address, whatever follows. -/
theorem parseIpAddr_bracket (rest : List Char) : parseIpAddr ('[' :: rest) = none := rfl

theorem hostAndPort_bracket (rest : List Char) :
    ∃ more, (hostAndPort ('[' :: rest)).1 = '[' :: more := by
  rw [hostAndPort]
  split
  · next host port split =>
    have whole := rsplitOnce_eq_some split
    cases host with
    | nil => exact absurd (List.cons.inj whole).1 (by decide)
    | cons c more => exact ⟨more, by rw [(List.cons.inj whole).1]⟩
  · exact ⟨rest, rfl⟩

/-- `ServerName::try_from` takes the text of every IP address. -/
def AddressesAccepted (W : World) : Prop :=
  ∀ text addr, parseIpAddr text.toList = some addr → W.serverName text = true

theorem reaches_iff (accepts : AddressesAccepted W) (u : SeedUrl W) :
    u.Reaches resolve ↔ u.Direct resolve := by
  obtain ⟨scheme, host, port, path⟩ := u
  simp only [SeedUrl.Reaches, dial_eq_some_iff, hostPort_text, SeedUrl.portNumber]
  cases host with
  | name text accepted plain named =>
    simp only [Host.serverName, Host.text, Host.addresses, SeedUrl.Direct, accepted, named,
      Option.getD_none, true_and, hostAndPort_iff plain.1 plain.2]
    constructor
    · rintro ⟨addr, member, shape, rfl⟩
      exact ⟨shape, member⟩
    · rintro ⟨shape, member⟩
      exact ⟨_, member, shape, rfl⟩
  | ipv4 text a b c d plain reads =>
    simp only [Host.serverName, Host.text, Host.addresses, SeedUrl.Direct, reads,
      accepts text _ reads, Option.getD_some, true_and, hostAndPort_iff plain.1 plain.2]
    constructor
    · rintro ⟨addr, member, shape, rfl⟩
      exact ⟨shape, trivial⟩
    · rintro ⟨shape, _⟩
      exact ⟨_, List.mem_singleton_self _, shape, rfl⟩
  | ipv6 text segments reads =>
    refine iff_of_false ?_ (fun direct => direct.2)
    rintro ⟨addr, _, _, parts, _⟩
    obtain ⟨more, bracket⟩ := hostAndPort_bracket
      ((text.toList ++ [']']) ++ (portPart port ++ pathPart path))
    rw [Host.text, List.cons_append] at parts
    have starts : text.toList = '[' :: more := by
      rw [parts] at bracket
      exact bracket
    rw [starts, parseIpAddr_bracket] at reads
    cases reads

end

/-- Nobody but the named server finishes a handshake. -/
def SeedUrl.OnlyHost (resolve : String → List IpAddr) (u : SeedUrl W) : Prop :=
  ∀ called, W.handshake called ≠ none → called.serverName = u.host.serverName ∧
    called.addr ∈ u.host.addresses resolve ∧ called.port = u.portNumber

/-- The check calls the named server exactly for the direct URLs. For the others it refuses a
genuine server; for these the certificate that the server shows decides. -/
theorem calls_host_iff (resolve : String → List IpAddr) (accepts : AddressesAccepted W)
    (u : SeedUrl W) :
    (u.Reaches resolve ↔ u.Direct resolve) ∧
    (¬ u.Direct resolve → u.OnlyHost W resolve → ∀ cache now,
      (verifyBootstrapCert W cache now u.text).1 = false) ∧
    (u.Direct resolve → ∃ addr ∈ u.host.addresses resolve, ∀ cache now,
      verifyBootstrapCert W cache now u.text = judge W cache now u.text
        (W.handshake ⟨u.host.serverName, addr, u.portNumber⟩)) := by
  have exactly : u.Reaches resolve ↔ u.Direct resolve := reaches_iff accepts u
  refine ⟨exactly, ?_, ?_⟩
  · intro elsewhere only cache now
    rw [verifyBootstrapCert]
    cases call : dial W.serverName u.text with
    | none => rfl
    | some called =>
      have unanswered : W.handshake called = none := by
        by_contra answered
        obtain ⟨name, member, port⟩ := only called answered
        refine elsewhere (exactly.mp ⟨called.addr, member, ?_⟩)
        rw [call, ← name, ← port]
      simp only [unanswered, judge]
  · intro direct
    obtain ⟨addr, member, call⟩ := exactly.mpr direct
    refine ⟨addr, member, fun cache now => ?_⟩
    rw [verifyBootstrapCert, call]

/-- Letters, digits, hyphens and dots are a name, and every address is accepted. One server
answers, at `203.0.113.7`. -/
def smallWorld : World where
  serverName text :=
    (text.toList.all fun c => c.isAlphanum || c == '-' || c == '.') ||
      (parseIpAddr text.toList).isSome
  handshake called :=
    if called = ⟨"203.0.113.7", .v4 203 0 113 7, 443⟩ then some [[1]] else none
  extractCertInfo _ := .ok ⟨["relay-eu.gnoppix.org"], none, none, none, "", ""⟩
  sha256Hex _ := ""
  toLowercase text := text

theorem smallWorld_accepts : AddressesAccepted smallWorld := by
  intro text addr reads
  simp [smallWorld, reads]

def addressSeed : SeedUrl smallWorld where
  scheme := .https
  host := .ipv4 "203.0.113.7" 203 0 113 7 (by decide +kernel) (by decide +kernel)
  port := some ⟨"443".toList, 443, by decide +kernel, by decide +kernel⟩
  path := some "ws"

theorem calls_host_iff_address :
    addressSeed.Reaches (fun _ => []) ∧
      (verifyBootstrapCert smallWorld ∅ 0 addressSeed.text).1 = true := by
  have direct : addressSeed.Direct fun _ => [] := by
    refine ⟨?_, trivial⟩
    rintro path ⟨⟩
    exact ⟨by decide +kernel, _, rfl, rfl⟩
  obtain ⟨exactly, -, judged⟩ := calls_host_iff smallWorld (fun _ => []) smallWorld_accepts
    addressSeed
  obtain ⟨addr, member, verdict⟩ := judged direct
  obtain rfl := List.mem_singleton.mp member
  exact ⟨exactly.mpr direct, verdict ∅ 0 ▸ by decide +kernel⟩

/-- The first of the built-in seeds. -/
def builtInSeed : SeedUrl smallWorld where
  scheme := .wss
  host := .name "bootstrap-eu.gnoppix.org" (by decide +kernel) (by decide +kernel)
    (by decide +kernel)
  port := some ⟨"9001".toList, 9001, by decide +kernel, by decide +kernel⟩
  path := none

/-- The built-in seed is looked for at the local host, a seed with a path nowhere, and an
address with a port and a path at the wrong port. -/
theorem builtInSeed_local :
    dial smallWorld.serverName builtInSeed.text =
        some ⟨"bootstrap-eu.gnoppix.org", .v4 127 0 0 1, 9001⟩ ∧
      ¬ builtInSeed.Reaches (fun _ => [.v4 203 0 113 7]) ∧
      dial smallWorld.serverName "wss://bootstrap-eu.gnoppix.org/ws" = none ∧
      dial smallWorld.serverName "https://203.0.113.7:8443/ws" =
        some ⟨"203.0.113.7", .v4 203 0 113 7, 443⟩ := by
  have calls : dial smallWorld.serverName builtInSeed.text =
      some ⟨"bootstrap-eu.gnoppix.org", .v4 127 0 0 1, 9001⟩ := by decide +kernel
  refine ⟨calls, ?_, by decide +kernel, by decide +kernel⟩
  rintro ⟨addr, member, named⟩
  obtain rfl := List.mem_singleton.mp member
  rw [calls] at named
  exact absurd named (by decide +kernel)

end BootstrapVerify

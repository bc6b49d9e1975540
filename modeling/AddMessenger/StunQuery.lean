import AddMessenger.ByteStrings
import AddMessenger.ByteXor
import AddMessenger.Outcomes

/-!
# The query of a STUN server

`NatManager::query_stun` in `p2p/src/nat.rs`: a binding request goes out, and the attributes of
what comes back are scanned for the public address. What the socket does is an argument.
-/

namespace StunQuery

open ByteStrings ByteXor Outcomes

inductive P2pError where
  | nat (text : String)
  | timeout
  deriving DecidableEq, Repr

structure StunResult where
  publicIp : String
  publicPort : Nat
  deriving DecidableEq, Repr

/-- What becomes of a request: the socket fails, the time is up, or a datagram comes. -/
inductive Exchange where
  | bindFailed (e : String)
  | connectFailed (e : String)
  | sendFailed (e : String)
  | elapsed
  | recvFailed (e : String)
  | received (datagram : Bytes)

/-- Type, length and magic cookie, and the random bytes of the transaction. -/
def bindingRequest (transactionId : Sized UInt8 12) : Bytes :=
  [0x00, 0x01, 0x00, 0x00, 0x21, 0x12, 0xA4, 0x42] ++ transactionId.val

/-- `u16::from_be_bytes` of two bytes of the response. -/
def readU16 (response : Bytes) (i : Nat) : Outcome P2pError Nat := do
  let hi ← index response i
  let lo ← index response (i + 1)
  return fromBeBytes [hi, lo]

def readU32 (response : Bytes) (i : Nat) : Outcome P2pError Nat := do
  let a ← index response i
  let b ← index response (i + 1)
  let c ← index response (i + 2)
  let d ← index response (i + 3)
  return fromBeBytes [a, b, c, d]

/-- Private, loopback and link-local addresses. -/
def isReserved : Bytes → Bool
  | first :: second :: _ =>
    first = 10 || (first = 172 && (16 ≤ second && second ≤ 31)) ||
      (first = 192 && second = 168) || first = 127 || (first = 169 && second = 254)
  | _ => false

def dotted (ip : Bytes) : String := ".".intercalate (ip.map fun b => toString b.toNat)

/-- `(attr_len + 3) & !3` -/
def paddedLen (attrLen : Nat) : Nat := (attrLen + 3) &&& (2 ^ 64 - 1 - 3)

/-- The body of the loop: the address in an attribute, unless the attribute is to be skipped. -/
def mappedAddress (response : Bytes) (offset attrType attrLen : Nat) :
    Outcome P2pError (Option StunResult) :=
  if attrType = 0x0020 then
    if offset + 4 + 8 ≤ response.length ∧ 8 ≤ attrLen then do
      let family ← index response (offset + 5)
      let xport ← readU16 response (offset + 6)
      if family = 0x01 then do
        let xip ← readU32 response (offset + 8)
        let ipBytes := toBeBytes 4 (xip ^^^ 0x2112A442)
        if isReserved ipBytes then return none
        else return some ⟨dotted ipBytes, xport ^^^ 0x2112⟩
      else return none
    else return none
  else return none

/-- Both ways of skipping an attribute advance by the same amount. -/
def scanAttributes (response : Bytes) (offset : Nat) : Outcome P2pError StunResult :=
  if offset + 4 ≤ response.length then do
    let attrType ← readU16 response offset
    let attrLen ← readU16 response (offset + 2)
    match ← mappedAddress response offset attrType attrLen with
    | some found => return found
    | none => scanAttributes response (offset + (4 + paddedLen attrLen))
  else .error (.nat "No XOR-MAPPED-ADDRESS in STUN response")
termination_by response.length - offset

def parseResponse (response : Bytes) : Outcome P2pError StunResult := do
  errorIf (response.length < 20) (.nat "STUN response too short")
  let first ← index response 0
  let second ← index response 1
  errorIf (first ≠ 0x01 ∨ second ≠ 0x01) (.nat "Not a STUN success response")
  scanAttributes response 20

/-- The buffer has 512 bytes; what is longer is cut. -/
def queryStun (socket : Bytes → Exchange) (transactionId : Sized UInt8 12) :
    Outcome P2pError StunResult :=
  match socket (bindingRequest transactionId) with
  | .bindFailed e => .error (.nat ("UDP bind: " ++ e))
  | .connectFailed e => .error (.nat ("STUN connect: " ++ e))
  | .sendFailed e => .error (.nat ("STUN send: " ++ e))
  | .elapsed => .error .timeout
  | .recvFailed e => .error (.nat ("STUN recv: " ++ e))
  | .received datagram => parseResponse (datagram.take 512)

def magicCookie : Bytes := [0x21, 0x12, 0xA4, 0x42]

/-- A header, and the type of an answer to a binding request that went well. -/
def BindingSuccess (response : Bytes) : Prop := 20 ≤ response.length ∧ response.take 2 = [1, 1]

def typeAt (response : Bytes) (offset : Nat) : Nat := fromBeBytes ((response.drop offset).take 2)

def lengthAt (response : Bytes) (offset : Nat) : Nat :=
  fromBeBytes ((response.drop (offset + 2)).take 2)

/-- The first bytes of a value, as many as there are up to eight. -/
def valueAt (response : Bytes) (offset : Nat) : Bytes := (response.drop (offset + 4)).take 8

/-- The least multiple of four from a length on. -/
def paddedTo4 (length : Nat) : Nat := (length + 3) / 4 * 4

/-- The attributes from an offset on, each with all four bytes of its header. -/
inductive AttributeFrom (response : Bytes) (start : Nat) : Nat → Prop
  | first : start + 4 ≤ response.length → AttributeFrom response start start
  | next {offset : Nat} : AttributeFrom response start offset →
      offset + (4 + paddedTo4 (lengthAt response offset)) + 4 ≤ response.length →
      AttributeFrom response start (offset + (4 + paddedTo4 (lengthAt response offset)))

/-- The blocks of addresses that no public address is from, by base and length of the prefix. -/
def privateBlocks : List (Nat × Nat) :=
  [(0x0A000000, 8), (0xAC100000, 12), (0xC0A80000, 16), (0x7F000000, 8), (0xA9FE0000, 16)]

def InBlock (ip : Nat) (block : Nat × Nat) : Prop :=
  ip / 2 ^ (32 - block.2) = block.1 / 2 ^ (32 - block.2)

def IsPublic (ip : Bytes) : Prop := ∀ block ∈ privateBlocks, ¬ InBlock (fromBeBytes ip) block

/-- The value of an IPv4 address: an unused byte, the family, and port and address under the
cookie. -/
def DecodesTo (value : Bytes) (found : StunResult) : Prop :=
  ∃ unused port ip, value = unused :: 1 :: (port ++ ip) ∧ port.length = 2 ∧ ip.length = 4 ∧
    IsPublic (xorBytes ip magicCookie) ∧
    found = ⟨dotted (xorBytes ip magicCookie), fromBeBytes (xorBytes port magicCookie)⟩

/-- The attribute is an XOR-MAPPED-ADDRESS with this public address. -/
def Carries (response : Bytes) (offset : Nat) (found : StunResult) : Prop :=
  typeAt response offset = 0x0020 ∧ 8 ≤ lengthAt response offset ∧
    DecodesTo (valueAt response offset) found

/-- The first attribute with a public address has this one. -/
def FirstAddress (response : Bytes) (start : Nat) (found : StunResult) : Prop :=
  ∃ offset, AttributeFrom response start offset ∧ Carries response offset found ∧
    ∀ earlier < offset, AttributeFrom response start earlier →
      ∀ other, ¬ Carries response earlier other

theorem paddedLen_eq {attrLen : Nat} (bounded : attrLen < 2 ^ 16) :
    paddedLen attrLen = paddedTo4 attrLen := by
  have mask : 2 ^ 64 - 1 - 3 = (2 ^ 62 - 1) * 2 ^ 2 := by decide
  have shifted : paddedTo4 attrLen = ((attrLen + 3) >>> 2) <<< 2 := by
    rw [Nat.shiftLeft_eq, Nat.shiftRight_eq_div_pow, paddedTo4]
  rw [paddedLen, shifted, mask, ← Nat.shiftLeft_eq]
  apply Nat.eq_of_testBit_eq
  intro i
  rw [Nat.testBit_and, Nat.testBit_shiftLeft, Nat.testBit_shiftLeft, Nat.testBit_two_pow_sub_one,
    Nat.testBit_shiftRight]
  by_cases low : 2 ≤ i
  · by_cases high : i - 2 < 62
    · simp [low, high]
    · have zero : (attrLen + 3).testBit i = false := by
        apply Nat.testBit_lt_two_pow
        calc attrLen + 3 < 2 ^ 17 := by omega
          _ ≤ 2 ^ i := Nat.pow_le_pow_right (by decide) (by omega)
      simp [low, high, zero]
  · simp [low]

theorem isReserved_iff {ip : Bytes} (sized : ip.length = 4) :
    isReserved ip = false ↔ IsPublic ip := by
  match ip, sized with
  | [a, b, c, d], _ =>
    have ha := a.toNat_lt
    have hb := b.toNat_lt
    have hc := c.toNat_lt
    have hd := d.toNat_lt
    have value : fromBeBytes [a, b, c, d] =
        ((a.toNat * 256 + b.toNat) * 256 + c.toNat) * 256 + d.toNat := by
      simp [fromBeBytes]
    simp only [isReserved, IsPublic, privateBlocks, List.forall_mem_cons, InBlock, value,
      Bool.or_eq_false_iff, Bool.and_eq_false_iff, decide_eq_false_iff_not, ← UInt8.toNat_inj,
      UInt8.le_iff_toNat_le]
    simp
    omega

theorem readU16_eq {response : Bytes} {i : Nat} (inside : i + 2 ≤ response.length) :
    readU16 response i = .ok (fromBeBytes ((response.drop i).take 2)) := by
  have first : i < response.length := by omega
  have second : i + 1 < response.length := by omega
  rw [readU16, index_eq_ok.mpr (List.getElem?_eq_getElem first),
    index_eq_ok.mpr (List.getElem?_eq_getElem second), List.drop_eq_getElem_cons first,
    List.drop_eq_getElem_cons second]
  rfl

theorem readU32_eq {response : Bytes} {i : Nat} (inside : i + 4 ≤ response.length) :
    readU32 response i = .ok (fromBeBytes ((response.drop i).take 4)) := by
  have a : i < response.length := by omega
  have b : i + 1 < response.length := by omega
  have c : i + 2 < response.length := by omega
  have d : i + 3 < response.length := by omega
  rw [readU32, index_eq_ok.mpr (List.getElem?_eq_getElem a),
    index_eq_ok.mpr (List.getElem?_eq_getElem b), index_eq_ok.mpr (List.getElem?_eq_getElem c),
    index_eq_ok.mpr (List.getElem?_eq_getElem d), List.drop_eq_getElem_cons a,
    List.drop_eq_getElem_cons b, List.drop_eq_getElem_cons c, List.drop_eq_getElem_cons d]
  rfl

theorem Carries.inside {response : Bytes} {offset : Nat} {found : StunResult}
    (carries : Carries response offset found) : offset + 4 + 8 ≤ response.length := by
  obtain ⟨-, -, zero, port, ip, value, ports, ips, -⟩ := carries
  have sizes := congrArg List.length value
  simp only [valueAt, List.length_take, List.length_drop, List.length_cons, List.length_append,
    ports, ips] at sizes
  omega

/-- Eight bytes as the value of an address. -/
theorem valueAt_eq {response : Bytes} {offset : Nat} (inside : offset + 4 + 8 ≤ response.length) :
    ∃ unused family port ip, valueAt response offset = unused :: family :: (port ++ ip) ∧
      port.length = 2 ∧ ip.length = 4 ∧ response[offset + 5]? = some family ∧
      (response.drop (offset + 6)).take 2 = port ∧ (response.drop (offset + 8)).take 4 = ip := by
  have first : offset + 4 < response.length := by omega
  have second : offset + 5 < response.length := by omega
  refine ⟨response[offset + 4], response[offset + 5], (response.drop (offset + 6)).take 2,
    (response.drop (offset + 8)).take 4, ?_, ?_, ?_, List.getElem?_eq_getElem second, rfl, rfl⟩
  · have rest : (response.drop (offset + 6)).take 2 ++ (response.drop (offset + 8)).take 4 =
        (response.drop (offset + 6)).take 6 := by
      rw [show response.drop (offset + 8) = (response.drop (offset + 6)).drop 2 by
        rw [List.drop_drop], ← List.take_add]
    rw [rest, valueAt, List.drop_eq_getElem_cons first, List.drop_eq_getElem_cons second]
    rfl
  · simp only [List.length_take, List.length_drop]
    omega
  · simp only [List.length_take, List.length_drop]
    omega

/-- The body of the loop finds what the attribute carries. -/
theorem mappedAddress_spec (response : Bytes) (offset : Nat) :
    ∃ result, mappedAddress response offset (typeAt response offset) (lengthAt response offset) =
      .ok result ∧ ∀ found, result = some found ↔ Carries response offset found := by
  have skipped : (∀ found, ¬ Carries response offset found) → ∀ found,
      (none : Option StunResult) = some found ↔ Carries response offset found :=
    fun never found => iff_of_false (by simp) (never found)
  unfold mappedAddress
  by_cases kind : typeAt response offset = 0x0020
  · rw [if_pos kind]
    by_cases room : offset + 4 + 8 ≤ response.length ∧ 8 ≤ lengthAt response offset
    · obtain ⟨unused, family, port, ip, value, ports, ips, familyAt, portAt, ipAt⟩ :=
        valueAt_eq room.1
      have shape : ∀ found, Carries response offset found → family = 1 ∧
          IsPublic (xorBytes ip magicCookie) ∧
          found = ⟨dotted (xorBytes ip magicCookie), fromBeBytes (xorBytes port magicCookie)⟩ := by
        rintro found ⟨-, -, unused', port', ip', value', ports', -, open', rfl⟩
        rw [value] at value'
        obtain ⟨-, tail⟩ := List.cons.inj value'
        obtain ⟨same, parts⟩ := List.cons.inj tail
        obtain ⟨rfl, rfl⟩ := List.append_inj parts (ports.trans ports'.symm)
        exact ⟨same, open', rfl⟩
      rw [if_pos room, index_eq_ok.mpr familyAt, readU16_eq (by omega), portAt]
      simp only [Outcome.ok_bind]
      by_cases v4 : family = 0x01
      · have address : toBeBytes 4 (fromBeBytes ip ^^^ 0x2112A442) = xorBytes ip magicCookie := by
          rw [show (0x2112A442 : Nat) = fromBeBytes magicCookie from rfl,
            ← fromBeBytes_xorBytes (ips.trans rfl), toBeBytes_fromBeBytes]
          rw [length_xorBytes, ips]
          rfl
        have portNumber :
            fromBeBytes port ^^^ 0x2112 = fromBeBytes (xorBytes port magicCookie) := by
          match port, ports with
          | [p, q], _ => exact (@fromBeBytes_xorBytes [p, q] [0x21, 0x12] rfl).symm
        have four : (xorBytes ip magicCookie).length = 4 := by
          rw [length_xorBytes, ips]
          rfl
        rw [if_pos v4, readU32_eq (by omega), ipAt, Outcome.ok_bind, address, portNumber]
        cases reserved : isReserved (xorBytes ip magicCookie) with
        | true =>
          refine ⟨none, rfl, skipped fun found carries => ?_⟩
          have free := (isReserved_iff four).mpr (shape found carries).2.1
          rw [reserved] at free
          cases free
        | false =>
          refine ⟨_, rfl, fun found => ?_⟩
          constructor
          · intro same
            cases same
            refine ⟨kind, room.2, unused, port, ip, ?_, ports, ips,
              (isReserved_iff four).mp reserved, rfl⟩
            rw [value, v4]
          · intro carries
            rw [(shape found carries).2.2]
      · rw [if_neg v4]
        exact ⟨none, rfl, skipped fun found carries => v4 (shape found carries).1⟩
    · rw [if_neg room]
      exact ⟨none, rfl, skipped fun found carries => room ⟨carries.inside, carries.2.1⟩⟩
  · rw [if_neg kind]
    exact ⟨none, rfl, skipped fun found carries => kind carries.1⟩

section

variable {response : Bytes} {start offset : Nat}

theorem Carries.unique {found other : StunResult} (first : Carries response offset found)
    (second : Carries response offset other) : found = other := by
  obtain ⟨result, -, spec⟩ := mappedAddress_spec response offset
  exact Option.some.inj (((spec found).mpr first).symm.trans ((spec other).mpr second))

theorem lengthAt_lt (response : Bytes) (offset : Nat) : lengthAt response offset < 2 ^ 16 := by
  have short : ((response.drop (offset + 2)).take 2).length ≤ 2 := List.length_take_le ..
  calc lengthAt response offset < 256 ^ ((response.drop (offset + 2)).take 2).length :=
        fromBeBytes_lt _
    _ ≤ 256 ^ 2 := Nat.pow_le_pow_right (by decide) short

/-- One turn of the loop. -/
theorem scanAttributes_step (header : start + 4 ≤ response.length) :
    (∃ found, Carries response start found ∧ scanAttributes response start = .ok found) ∨
      (∀ found, ¬ Carries response start found) ∧ scanAttributes response start =
        scanAttributes response (start + (4 + paddedTo4 (lengthAt response start))) := by
  obtain ⟨result, body, spec⟩ := mappedAddress_spec response start
  have type : readU16 response start = .ok (typeAt response start) := readU16_eq (by omega)
  have length : readU16 response (start + 2) = .ok (lengthAt response start) :=
    readU16_eq (by omega)
  rw [scanAttributes, if_pos header, type, Outcome.ok_bind, length, Outcome.ok_bind, body,
    Outcome.ok_bind, paddedLen_eq (lengthAt_lt response start)]
  cases result with
  | some found => exact .inl ⟨found, (spec found).mp rfl, rfl⟩
  | none =>
    refine .inr ⟨fun found carries => ?_, rfl⟩
    cases (spec found).mpr carries

theorem AttributeFrom.start_le (placed : AttributeFrom response start offset) :
    start ≤ offset := by
  induction placed with
  | first => exact Nat.le_refl _
  | next _ _ ih => omega

theorem AttributeFrom.header (placed : AttributeFrom response start offset) :
    offset + 4 ≤ response.length := by
  cases placed with
  | first header => exact header
  | next _ header => exact header

/-- An attribute is the first one, or one of those behind it. -/
theorem attributeFrom_iff (header : start + 4 ≤ response.length) :
    AttributeFrom response start offset ↔ offset = start ∨
      AttributeFrom response (start + (4 + paddedTo4 (lengthAt response start))) offset := by
  constructor
  · intro placed
    induction placed with
    | first => exact .inl rfl
    | next _ inside ih =>
      rcases ih with rfl | behind
      · exact .inr (.first inside)
      · exact .inr (.next behind inside)
  · rintro (rfl | behind)
    · exact .first header
    · induction behind with
      | first inside => exact .next (.first header) inside
      | next _ inside ih => exact .next ih inside

/-- If the first attribute carries an address, it is the one. -/
theorem firstAddress_here {found : StunResult} (header : start + 4 ≤ response.length)
    (carries : Carries response start found) (other : StunResult) :
    FirstAddress response start other ↔ found = other := by
  constructor
  · rintro ⟨offset, placed, late, earliest⟩
    rcases Nat.eq_or_lt_of_le placed.start_le with rfl | behind
    · exact carries.unique late
    · exact absurd carries (earliest start behind (.first header) found)
  · rintro rfl
    refine ⟨start, .first header, carries, fun earlier before placed => ?_⟩
    exact absurd placed.start_le (Nat.not_le.mpr before)

/-- If it does not, the search goes on behind it. -/
theorem firstAddress_behind (header : start + 4 ≤ response.length)
    (none_here : ∀ found, ¬ Carries response start found) (found : StunResult) :
    FirstAddress response start found ↔
      FirstAddress response (start + (4 + paddedTo4 (lengthAt response start))) found := by
  constructor
  · rintro ⟨offset, placed, carries, earliest⟩
    rcases (attributeFrom_iff header).mp placed with rfl | behind
    · exact absurd carries (none_here found)
    · refine ⟨offset, behind, carries, fun earlier before placed => ?_⟩
      exact earliest earlier before ((attributeFrom_iff header).mpr (.inr placed))
  · rintro ⟨offset, placed, carries, earliest⟩
    refine ⟨offset, (attributeFrom_iff header).mpr (.inr placed), carries, ?_⟩
    intro earlier before placed
    rcases (attributeFrom_iff header).mp placed with rfl | behind
    · exact none_here
    · exact earliest earlier before behind

/-- The scan reads inside the response and ends with the first public address. -/
theorem scanAttributes_spec (response : Bytes) (start : Nat) :
    scanAttributes response start ≠ .panicked ∧ ∀ found,
      scanAttributes response start = .ok found ↔ FirstAddress response start found := by
  induction rest : response.length - start using Nat.strong_induction_on generalizing start with
  | _ rest ih =>
    subst rest
    by_cases header : start + 4 ≤ response.length
    · rcases scanAttributes_step header with ⟨found, carries, turn⟩ | ⟨none_here, turn⟩
      · rw [turn]
        refine ⟨by simp, fun other => ?_⟩
        rw [firstAddress_here header carries, Outcome.ok.injEq]
      · rw [turn]
        obtain ⟨safe, whole⟩ := ih _ (by omega)
          (start + (4 + paddedTo4 (lengthAt response start))) rfl
        refine ⟨safe, fun found => ?_⟩
        rw [whole, firstAddress_behind header none_here]
    · rw [scanAttributes, if_neg header]
      refine ⟨by simp, fun found => iff_of_false (by simp) ?_⟩
      rintro ⟨offset, placed, -⟩
      have inside := placed.header
      have behind := placed.start_le
      omega

theorem parseResponse_spec (response : Bytes) :
    parseResponse response ≠ .panicked ∧ ∀ found, parseResponse response = .ok found ↔
      BindingSuccess response ∧ FirstAddress response 20 found := by
  unfold parseResponse
  by_cases short : response.length < 20
  · have early : (errorIf (response.length < 20) (.nat "STUN response too short") :
        Outcome P2pError PUnit) = .error (.nat "STUN response too short") := if_pos short
    rw [early]
    refine ⟨by simp, fun found => iff_of_false (by simp) ?_⟩
    rintro ⟨⟨long, -⟩, -⟩
    exact Nat.not_lt.mpr long short
  · match response, short with
    | first :: second :: more, short =>
      have heads : BindingSuccess (first :: second :: more) ↔ ¬ (first ≠ 0x01 ∨ second ≠ 0x01) := by
        simp only [BindingSuccess, List.take_succ_cons, List.take_zero, List.cons.injEq, and_true]
        rw [and_iff_right (Nat.le_of_not_lt short)]
        tauto
      rw [heads]
      simp only [errorIf_of_not short, Outcome.ok_bind]
      change (errorIf (first ≠ 0x01 ∨ second ≠ 0x01) _ >>= fun _ => _) ≠ _ ∧ ∀ found,
        (errorIf (first ≠ 0x01 ∨ second ≠ 0x01) _ >>= fun _ => _) = _ ↔ _
      by_cases other : first ≠ 0x01 ∨ second ≠ 0x01
      · rw [errorIf, if_pos other]
        exact ⟨by simp, fun found => iff_of_false (by simp) fun both => both.1 other⟩
      · rw [errorIf_of_not other, Outcome.ok_bind]
        obtain ⟨safe, whole⟩ := scanAttributes_spec (first :: second :: more) 20
        exact ⟨safe, fun found => by rw [whole, and_iff_right other]⟩
    | [_], short => exact absurd (Nat.lt_of_sub_eq_succ rfl) short
    | [], short => exact absurd (Nat.lt_of_sub_eq_succ rfl) short

end

/-- Whatever comes back, the query ends without a panic, and it returns the first public address
of a binding success response and nothing else. -/
theorem query_stun_exact (socket : Bytes → Exchange) (transactionId : Sized UInt8 12) :
    queryStun socket transactionId ≠ .panicked ∧
    ∀ found, queryStun socket transactionId = .ok found ↔
      ∃ datagram, socket (bindingRequest transactionId) = .received datagram ∧
        BindingSuccess (datagram.take 512) ∧ FirstAddress (datagram.take 512) 20 found := by
  unfold queryStun
  cases socket (bindingRequest transactionId) with
  | received datagram =>
    obtain ⟨safe, whole⟩ := parseResponse_spec (datagram.take 512)
    refine ⟨safe, fun found => (whole found).trans ?_⟩
    constructor
    · intro both
      exact ⟨datagram, rfl, both⟩
    · rintro ⟨other, same, both⟩
      cases same
      exact both
  | bindFailed e => simp
  | connectFailed e => simp
  | sendFailed e => simp
  | elapsed => simp
  | recvFailed e => simp

end StunQuery

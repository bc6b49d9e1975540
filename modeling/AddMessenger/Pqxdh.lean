import AddMessenger.HybridKem

/-!
# The PQXDH handshake

`crypto-pq/src/pqxdh.rs`: the wire form of a handshake, the session keys both parties derive
from their two shared secrets, and the ratchet state they start with.

`serialize_handshake_to_wire` does not write the encapsulation keys it is given but the all-zero
key, and `deserialize_handshake_from_wire` checks the length of the wire only up to the
ephemeral keys. The fresh ephemeral secret of `init_ratchet_state` is an argument here.
-/

namespace Pqxdh

open ByteStrings Outcomes HybridKem
open Signatures (PqError)

def pqxdhVersion : String := "add-pqxdh-v1"

def masterSecretInfo : String := "add-pqxdh-master-v1"

def sendKeyInfo : String := "add-pqxdh-send-v1"

def recvKeyInfo : String := "add-pqxdh-recv-v1"

structure PqxDhHandshake where
  version : String
  initEphemeralX25519Pk : Sized UInt8 32
  respEphemeralX25519Pk : Sized UInt8 32
  initMlkemEncKey : Bytes
  respMlkemEncKey : Bytes
  initHybridCt : HybridCiphertext
  respHybridCt : HybridCiphertext
  deriving DecidableEq

structure PqxDhSessionKeys where
  sendKey : Sized UInt8 32
  recvKey : Sized UInt8 32
  sendIv : Sized UInt8 12
  recvIv : Sized UInt8 12

structure PqxDhRatchetState where
  rootKey : Sized UInt8 32
  sendChainKey : Sized UInt8 32
  recvChainKey : Sized UInt8 32
  sendMessageCounter : UInt64
  recvMessageCounter : UInt64
  isInitiator : Bool

variable (L : PqLibrary)

def zeroEncKey : Bytes := List.replicate mlkem768PkSize 0

/-- The two encapsulation keys are not looked at. -/
def serializeHandshakeToWire (initEphPk respEphPk : Sized UInt8 32)
    (_initMlkemEnc _respMlkemEnc : L.EncapsulationKey) (initCt respCt : HybridCiphertext) :
    Outcome PqError Bytes := do
  let versionBytes := asBytes pqxdhVersion
  let initEnc ← unwrapOption (L.newFromSlice zeroEncKey)
  let respEnc ← unwrapOption (L.newFromSlice zeroEncKey)
  let initCt ← initCt.toBytes
  let respCt ← respCt.toBytes
  return [UInt8.ofNat versionBytes.length] ++ versionBytes ++ initEphPk.val ++ respEphPk.val ++
    (L.encBytes initEnc).val ++ (L.encBytes respEnc).val ++ initCt ++ respCt

/-- The version and the ephemeral keys, and how far they reach. -/
def readHeader (wire : Bytes) :
    Outcome PqError (String × Sized UInt8 32 × Sized UInt8 32 × Nat) := do
  errorIf (0 ≥ wire.length) (.invalidKeyLength 1 0)
  let versionLen ← index wire 0
  let versionLen := versionLen.toNat
  let offset := 1
  errorIf (offset + versionLen > wire.length)
    (.invalidKeyLength versionLen (wire.length - offset))
  let version ← slice wire offset (offset + versionLen)
  let version ← okOr (.decapsulationFailed "version not UTF-8") (fromUtf8 version)
  let offset := offset + versionLen
  errorIf (offset + 32 > wire.length) (.invalidKeyLength 32 (wire.length - offset))
  let initEphPk ← slice wire offset (offset + 32)
  let initEphPk ← copyFromSlice 32 initEphPk
  let offset := offset + 32
  errorIf (offset + 32 > wire.length) (.invalidKeyLength 32 (wire.length - offset))
  let respEphPk ← slice wire offset (offset + 32)
  let respEphPk ← copyFromSlice 32 respEphPk
  return (version, initEphPk, respEphPk, offset + 32)

/-- The encapsulation keys and the ciphertexts, without a look at the length. -/
def readBody (wire : Bytes) (offset : Nat) :
    Outcome PqError (Bytes × Bytes × HybridCiphertext × HybridCiphertext) := do
  let initMlkemEncKey ← slice wire offset (offset + 1184)
  let offset := offset + 1184
  let respMlkemEncKey ← slice wire offset (offset + 1184)
  let offset := offset + 1184
  let initCt ← slice wire offset (offset + combinedCtSize)
  let initCt ← HybridCiphertext.fromBytes initCt
  let offset := offset + combinedCtSize
  let respCt ← slice wire offset (offset + combinedCtSize)
  let respCt ← HybridCiphertext.fromBytes respCt
  return (initMlkemEncKey, respMlkemEncKey, initCt, respCt)

def deserializeHandshakeFromWire (wire : Bytes) : Outcome PqError PqxDhHandshake := do
  let (version, initEphPk, respEphPk, offset) ← readHeader wire
  let (initMlkemEncKey, respMlkemEncKey, initCt, respCt) ← readBody wire offset
  return ⟨version, initEphPk, respEphPk, initMlkemEncKey, respMlkemEncKey, initCt, respCt⟩

/-- The version can be read and both ephemeral keys are there; the rest starts at `start`. -/
def Header (wire : Bytes) (start : Nat) : Prop :=
  ∃ versionLen : UInt8, wire[0]? = some versionLen ∧
    (fromUtf8 ((wire.drop 1).take versionLen.toNat)).isSome ∧
    start = 1 + versionLen.toNat + 64 ∧ start ≤ wire.length

/-- What two encapsulation keys and two ciphertexts take. -/
def bodySize : Nat := 2 * mlkem768PkSize + 2 * combinedCtSize

theorem readHeader_ne_panicked (wire : Bytes) : readHeader wire ≠ .panicked := by
  have copied : ∀ {lo : Nat} {part : Bytes},
      (slice wire lo (lo + 32) : Outcome PqError Bytes) = .ok part →
      (copyFromSlice 32 part : Outcome PqError _) ≠ .panicked := by
    intro lo part cut
    have sized : part.length = 32 := by
      rw [slice_length cut]
      omega
    rw [copyFromSlice_of_length sized]
    simp
  refine Outcome.bind_ne_panicked errorIf_ne_panicked fun _ nonempty => ?_
  have nonempty := errorIf_eq_ok.mp nonempty
  refine Outcome.bind_ne_panicked (index_ne_panicked (by omega)) fun _ _ => ?_
  refine Outcome.bind_ne_panicked errorIf_ne_panicked fun _ long => ?_
  have long := errorIf_eq_ok.mp long
  refine Outcome.bind_ne_panicked (slice_ne_panicked (by omega) (by omega)) fun _ _ => ?_
  refine Outcome.bind_ne_panicked okOr_ne_panicked fun _ _ => ?_
  refine Outcome.bind_ne_panicked errorIf_ne_panicked fun _ long => ?_
  have long := errorIf_eq_ok.mp long
  refine Outcome.bind_ne_panicked (slice_ne_panicked (by omega) (by omega)) fun _ cut => ?_
  refine Outcome.bind_ne_panicked (copied cut) fun _ _ => ?_
  refine Outcome.bind_ne_panicked errorIf_ne_panicked fun _ long => ?_
  have long := errorIf_eq_ok.mp long
  refine Outcome.bind_ne_panicked (slice_ne_panicked (by omega) (by omega)) fun _ cut => ?_
  exact Outcome.bind_ne_panicked (copied cut) (fun _ _ => by simp)

theorem readHeader_eq_ok {wire : Bytes} {start : Nat} :
    (∃ version initEphPk respEphPk,
      readHeader wire = .ok (version, initEphPk, respEphPk, start)) ↔ Header wire start := by
  constructor
  · rintro ⟨version, initEphPk, respEphPk, read⟩
    obtain ⟨_, -, read⟩ := Outcome.bind_eq_ok.mp read
    obtain ⟨versionLen, first, read⟩ := Outcome.bind_eq_ok.mp read
    obtain ⟨_, -, read⟩ := Outcome.bind_eq_ok.mp read
    obtain ⟨bytes, cut, read⟩ := Outcome.bind_eq_ok.mp read
    obtain ⟨text, utf8, read⟩ := Outcome.bind_eq_ok.mp read
    obtain ⟨_, -, read⟩ := Outcome.bind_eq_ok.mp read
    obtain ⟨_, -, read⟩ := Outcome.bind_eq_ok.mp read
    obtain ⟨_, -, read⟩ := Outcome.bind_eq_ok.mp read
    obtain ⟨_, long, read⟩ := Outcome.bind_eq_ok.mp read
    obtain ⟨_, -, read⟩ := Outcome.bind_eq_ok.mp read
    obtain ⟨_, -, read⟩ := Outcome.bind_eq_ok.mp read
    have long := errorIf_eq_ok.mp long
    obtain ⟨-, same⟩ := slice_eq_ok.mp cut
    rw [okOr_eq_ok, ← same, Nat.add_sub_cancel_left] at utf8
    cases read
    exact ⟨versionLen, index_eq_ok.mp first, by rw [utf8]; rfl, by omega, by omega⟩
  · rintro ⟨versionLen, first, utf8, rfl, long⟩
    obtain ⟨text, utf8⟩ := Option.isSome_iff_exists.mp utf8
    have nonempty : 0 < wire.length := by omega
    obtain ⟨initEphPk, initCut, initSize⟩ :=
      @exists_slice PqError _ wire (1 + versionLen.toNat) (1 + versionLen.toNat + 32) (by omega)
        (by omega)
    obtain ⟨respEphPk, respCut, respSize⟩ :=
      @exists_slice PqError _ wire (1 + versionLen.toNat + 32) (1 + versionLen.toNat + 32 + 32)
        (by omega) (by omega)
    rw [Nat.add_sub_cancel_left] at initSize respSize
    have version : (slice wire 1 (1 + versionLen.toNat) : Outcome PqError Bytes) =
        .ok ((wire.drop 1).take versionLen.toNat) :=
      slice_eq_ok.mpr ⟨by omega, by rw [Nat.add_sub_cancel_left]⟩
    refine ⟨text, ⟨initEphPk, initSize⟩, ⟨respEphPk, respSize⟩, ?_⟩
    rw [readHeader, errorIf_of_not (by omega), Outcome.ok_bind, index_eq_ok.mpr first,
      Outcome.ok_bind]
    dsimp only
    rw [errorIf_of_not (by omega), Outcome.ok_bind, version, Outcome.ok_bind, utf8, okOr_some,
      Outcome.ok_bind, errorIf_of_not (by omega), Outcome.ok_bind, initCut, Outcome.ok_bind,
      copyFromSlice_of_length initSize, Outcome.ok_bind, errorIf_of_not (by omega),
      Outcome.ok_bind, respCut, Outcome.ok_bind, copyFromSlice_of_length respSize]
    rfl

/-- The first part of the body that is cut short panics. -/
theorem readBody_eq (wire : Bytes) (start : Nat) :
    (start + bodySize ≤ wire.length ∧ ∃ body, readBody wire start = .ok body) ∨
      (wire.length < start + bodySize ∧ readBody wire start = .panicked) := by
  have size : bodySize = 1184 + 1184 + combinedCtSize + combinedCtSize := rfl
  rw [readBody]
  dsimp only
  rcases Nat.lt_or_ge wire.length (start + 1184) with short | long
  · exact .inr ⟨by omega, by rw [slice_outside short]; rfl⟩
  obtain ⟨initKey, initKeyCut, -⟩ := @exists_slice PqError _ wire start _ (by omega) long
  rw [initKeyCut, Outcome.ok_bind]
  rcases Nat.lt_or_ge wire.length (start + 1184 + 1184) with short | long
  · exact .inr ⟨by omega, by rw [slice_outside short]; rfl⟩
  obtain ⟨respKey, respKeyCut, -⟩ := @exists_slice PqError _ wire (start + 1184) _ (by omega) long
  rw [respKeyCut, Outcome.ok_bind]
  rcases Nat.lt_or_ge wire.length (start + 1184 + 1184 + combinedCtSize) with short | long
  · exact .inr ⟨by omega, by rw [slice_outside short]; rfl⟩
  obtain ⟨initBytes, initCut, initSize⟩ :=
    @exists_slice PqError _ wire (start + 1184 + 1184) _ (by omega) long
  rw [Nat.add_sub_cancel_left] at initSize
  obtain ⟨initCt, initRead⟩ := exists_fromBytes initSize
  rw [initCut, Outcome.ok_bind, initRead, Outcome.ok_bind]
  rcases Nat.lt_or_ge wire.length (start + 1184 + 1184 + combinedCtSize + combinedCtSize) with
    short | long
  · exact .inr ⟨by omega, by rw [slice_outside short]; rfl⟩
  obtain ⟨respBytes, respCut, respSize⟩ :=
    @exists_slice PqError _ wire (start + 1184 + 1184 + combinedCtSize) _ (by omega) long
  rw [Nat.add_sub_cancel_left] at respSize
  obtain ⟨respCt, respRead⟩ := exists_fromBytes respSize
  rw [respCut, Outcome.ok_bind, respRead]
  exact .inl ⟨by omega, _, rfl⟩

/-- The reader panics on a good header with too little after it, and on nothing else. -/
theorem deserialize_panics_iff (wire : Bytes) :
    deserializeHandshakeFromWire wire = .panicked ↔
      ∃ start, Header wire start ∧ wire.length < start + bodySize := by
  cases header : readHeader wire with
  | panicked => exact absurd header (readHeader_ne_panicked wire)
  | error e =>
    rw [deserializeHandshakeFromWire, header]
    refine iff_of_false (by simp) ?_
    rintro ⟨start, good, -⟩
    obtain ⟨_, _, _, read⟩ := readHeader_eq_ok.mpr good
    rw [header] at read
    cases read
  | ok parts =>
    obtain ⟨version, initEphPk, respEphPk, start⟩ := parts
    have good := readHeader_eq_ok.mp ⟨version, initEphPk, respEphPk, header⟩
    rw [deserializeHandshakeFromWire, header, Outcome.ok_bind]
    rcases readBody_eq wire start with ⟨long, body, read⟩ | ⟨short, panics⟩
    · simp only [read, Outcome.ok_bind]
      refine iff_of_false (by simp) ?_
      rintro ⟨start', good', short⟩
      obtain ⟨_, _, _, read'⟩ := readHeader_eq_ok.mpr good'
      rw [header] at read'
      cases read'
      omega
    · simp only [panics, Outcome.panicked_bind, true_iff]
      exact ⟨start, good, short⟩

/-- All six values come back. -/
def RoundTrips (initEphPk respEphPk : Sized UInt8 32)
    (initMlkemEnc respMlkemEnc : L.EncapsulationKey) (initCt respCt : HybridCiphertext) : Prop :=
  ∃ version, serializeHandshakeToWire L initEphPk respEphPk initMlkemEnc respMlkemEnc initCt
      respCt >>= deserializeHandshakeFromWire =
    .ok ⟨version, initEphPk, respEphPk, (L.encBytes initMlkemEnc).val,
      (L.encBytes respMlkemEnc).val, initCt, respCt⟩

variable {L}

/-- A ciphertext with an ML-KEM part of another size is not written. -/
theorem toBytes_eq_ok {ct : HybridCiphertext} {bytes : Bytes}
    (written : (ct.toBytes : Outcome PqError Bytes) = .ok bytes) :
    ct.mlkemCt.length = mlkem768CtSize := by
  by_contra other
  rw [HybridCiphertext.toBytes, copyFromSlice, tryInto, dif_neg other] at written
  cases written

/-- What arrives: the all-zero key in the place of both encapsulation keys. -/
theorem deserialize_serialize (initEphPk respEphPk : Sized UInt8 32)
    (initMlkemEnc respMlkemEnc : L.EncapsulationKey) {initCt respCt : HybridCiphertext}
    (initSized : initCt.mlkemCt.length = mlkem768CtSize)
    (respSized : respCt.mlkemCt.length = mlkem768CtSize) :
    serializeHandshakeToWire L initEphPk respEphPk initMlkemEnc respMlkemEnc initCt respCt >>=
        deserializeHandshakeFromWire =
      .ok ⟨pqxdhVersion, initEphPk, respEphPk, zeroEncKey, zeroEncKey, initCt, respCt⟩ := by
  obtain ⟨zero, made⟩ := Option.isSome_iff_exists.mp L.newFromSlice_zero
  have zeroBytes := L.encBytes_of_newFromSlice _ _ made
  let vb := asBytes pqxdhVersion
  let wire := [UInt8.ofNat vb.length] ++ (vb ++ (initEphPk.val ++ (respEphPk.val ++ (zeroEncKey ++
    (zeroEncKey ++ ((initCt.x25519Ct.val ++ initCt.mlkemCt) ++
      ((respCt.x25519Ct.val ++ respCt.mlkemCt) ++ [])))))))
  have sent : serializeHandshakeToWire L initEphPk respEphPk initMlkemEnc respMlkemEnc initCt
      respCt = .ok wire := by
    rw [serializeHandshakeToWire, zeroEncKey, made, toBytes_of_length initSized,
      toBytes_of_length respSized]
    simp only [unwrapOption, Outcome.ok_bind, Outcome.pure_eq, zeroBytes, wire, vb,
      List.append_assoc, List.append_nil, zeroEncKey]
  have ctSize : ∀ {ct : HybridCiphertext}, ct.mlkemCt.length = mlkem768CtSize →
      (ct.x25519Ct.val ++ ct.mlkemCt).length = combinedCtSize := by
    intro ct sized
    rw [List.length_append, ct.x25519Ct.property, sized]
    rfl
  have keySize : zeroEncKey.length = 1184 := List.length_replicate
  -- The reader comes past one field after the other.
  have atVersion : Remains wire 1 _ := (remains_all wire).next List.length_singleton
  have atInitPk := atVersion.next rfl
  have atRespPk := atInitPk.next initEphPk.property
  have atInitKey := atRespPk.next respEphPk.property
  have atRespKey := atInitKey.next keySize
  have atInitCt := atRespKey.next keySize
  have atRespCt := atInitCt.next (ctSize initSized)
  have whole := atInitKey.length
  have header : readHeader wire = .ok (pqxdhVersion, initEphPk, respEphPk,
      1 + vb.length + 32 + 32) := by
    rw [readHeader, errorIf_of_not (by omega), Outcome.ok_bind,
      show (index wire 0 : Outcome PqError UInt8) = .ok (UInt8.ofNat vb.length) from rfl,
      Outcome.ok_bind, show (UInt8.ofNat vb.length).toNat = vb.length by decide]
    dsimp only
    rw [errorIf_of_not (by omega), Outcome.ok_bind, atVersion.slice rfl, Outcome.ok_bind,
      fromUtf8_asBytes, okOr_some, Outcome.ok_bind, errorIf_of_not (by omega), Outcome.ok_bind,
      atInitPk.slice initEphPk.property, Outcome.ok_bind, copyFromSlice_val, Outcome.ok_bind,
      errorIf_of_not (by omega), Outcome.ok_bind, atRespPk.slice respEphPk.property,
      Outcome.ok_bind, copyFromSlice_val]
    rfl
  have body : readBody wire (1 + vb.length + 32 + 32) =
      .ok (zeroEncKey, zeroEncKey, initCt, respCt) := by
    rw [readBody]
    dsimp only
    rw [atInitKey.slice keySize, Outcome.ok_bind, atRespKey.slice keySize, Outcome.ok_bind,
      atInitCt.slice (ctSize initSized), Outcome.ok_bind, fromBytes_append _ initSized,
      Outcome.ok_bind, atRespCt.slice (ctSize respSized), Outcome.ok_bind,
      fromBytes_append _ respSized]
    rfl
  rw [sent, Outcome.ok_bind, deserializeHandshakeFromWire, header, Outcome.ok_bind]
  simp only [body, Outcome.ok_bind, Outcome.pure_eq]

/-- The six values come back exactly when both encapsulation keys are the all-zero key and both
ciphertexts have their size. -/
theorem roundTrips_iff (initEphPk respEphPk : Sized UInt8 32)
    (initMlkemEnc respMlkemEnc : L.EncapsulationKey) (initCt respCt : HybridCiphertext) :
    RoundTrips L initEphPk respEphPk initMlkemEnc respMlkemEnc initCt respCt ↔
      (L.encBytes initMlkemEnc).val = zeroEncKey ∧ (L.encBytes respMlkemEnc).val = zeroEncKey ∧
        initCt.mlkemCt.length = mlkem768CtSize ∧ respCt.mlkemCt.length = mlkem768CtSize := by
  constructor
  · rintro ⟨version, back⟩
    obtain ⟨wire, written, -⟩ := Outcome.bind_eq_ok.mp back
    have sizes : initCt.mlkemCt.length = mlkem768CtSize ∧
        respCt.mlkemCt.length = mlkem768CtSize := by
      rw [serializeHandshakeToWire] at written
      obtain ⟨_, -, written⟩ := Outcome.bind_eq_ok.mp written
      obtain ⟨_, -, written⟩ := Outcome.bind_eq_ok.mp written
      obtain ⟨_, initWritten, written⟩ := Outcome.bind_eq_ok.mp written
      obtain ⟨_, respWritten, written⟩ := Outcome.bind_eq_ok.mp written
      exact ⟨toBytes_eq_ok initWritten, toBytes_eq_ok respWritten⟩
    rw [deserialize_serialize _ _ _ _ sizes.1 sizes.2] at back
    simp only [Outcome.ok.injEq, PqxDhHandshake.mk.injEq] at back
    exact ⟨back.2.2.2.1.symm, back.2.2.2.2.1.symm, sizes⟩
  · rintro ⟨initZero, respZero, initSized, respSized⟩
    refine ⟨pqxdhVersion, ?_⟩
    rw [deserialize_serialize _ _ _ _ initSized respSized, initZero, respZero]

/-- When the six values come back, and on which bytes the reader does not panic. -/
theorem handshake_wire_iff :
    (∀ initEphPk respEphPk (initMlkemEnc respMlkemEnc : L.EncapsulationKey) initCt respCt,
      RoundTrips L initEphPk respEphPk initMlkemEnc respMlkemEnc initCt respCt ↔
        (L.encBytes initMlkemEnc).val = zeroEncKey ∧ (L.encBytes respMlkemEnc).val = zeroEncKey ∧
          initCt.mlkemCt.length = mlkem768CtSize ∧ respCt.mlkemCt.length = mlkem768CtSize) ∧
      ∀ wire, deserializeHandshakeFromWire wire ≠ .panicked ↔
        ∀ start, Header wire start → start + bodySize ≤ wire.length := by
  refine ⟨roundTrips_iff, fun wire => ?_⟩
  rw [Ne, deserialize_panics_iff]
  push Not
  rfl

def zeroPk : Sized UInt8 32 := ⟨List.replicate 32 0, List.length_replicate⟩

def zeroCt : HybridCiphertext := ⟨zeroPk, List.replicate mlkem768CtSize 0⟩

/-- A handshake that ends after the ephemeral keys. -/
def cutHandshake : Bytes := [12] ++ (asBytes pqxdhVersion ++ List.replicate 64 0)

theorem header_cutHandshake : Header cutHandshake 77 := by
  refine ⟨12, rfl, ?_, rfl, by decide +kernel⟩
  have version : (cutHandshake.drop 1).take (12 : UInt8).toNat = asBytes pqxdhVersion := by
    decide +kernel
  rw [version, fromUtf8_asBytes]
  rfl

/-- A key that is not zero does not come back, and a handshake without its last parts panics. -/
theorem handshake_wire_fails :
    ¬ RoundTrips checksumLibrary zeroPk zeroPk (padTo mlkem768PkSize [1])
        (padTo mlkem768PkSize [1]) zeroCt zeroCt ∧
      deserializeHandshakeFromWire cutHandshake = .panicked := by
  constructor
  · intro back
    have zero := ((roundTrips_iff _ _ _ _ _ _).mp back).1
    have first := congrArg List.head? zero
    revert first
    decide +kernel
  · refine (deserialize_panics_iff cutHandshake).mpr ⟨77, header_cutHandshake, ?_⟩
    decide +kernel

variable (L)

/-- Both secrets, the smaller one first. -/
def combinedSecrets (initSs respSs : Sized UInt8 32) : Bytes :=
  if respSs.val < initSs.val then respSs.val ++ initSs.val else initSs.val ++ respSs.val

def deriveSessionKeys (initSs respSs nonce : Sized UInt8 32) (isInitiator : Bool) :
    Outcome PqError PqxDhSessionKeys := do
  let ikdf ← okOr (.derivationFailed "master secret")
    (hkdfExpand L nonce.val (combinedSecrets initSs respSs) masterSecretInfo 64)
  let saltInitiator := nonce.val ++ [0x01]
  let saltResponder := nonce.val ++ [0x02]
  let forwardKey ← okOr (.derivationFailed "forward key")
    (hkdfExpand L ikdf.val saltInitiator sendKeyInfo 32)
  let backwardKey ← okOr (.derivationFailed "backward key")
    (hkdfExpand L ikdf.val saltResponder recvKeyInfo 32)
  let sendKey := if isInitiator then forwardKey else backwardKey
  let recvKey := if isInitiator then backwardKey else forwardKey
  let sendIv ← okOr (.derivationFailed "send iv")
    (hkdfExpand L ikdf.val (asBytes "add-pqxdh-iv-send-v1") "" 12)
  let recvIv ← okOr (.derivationFailed "recv iv")
    (hkdfExpand L ikdf.val (asBytes "add-pqxdh-iv-recv-v1") "" 12)
  return ⟨sendKey, recvKey, sendIv, recvIv⟩

def initRatchetState (sessionKeys : PqxDhSessionKeys) (_initEphPk respEphPk : Sized UInt8 32)
    (isInitiator : Bool) (ephemeralSecret : Sized UInt8 32) :
    Outcome PqError PqxDhRatchetState := do
  let ecdhSs := L.diffieHellman ephemeralSecret respEphPk
  let combinedInput := ecdhSs.val ++ sessionKeys.sendKey.val ++ sessionKeys.recvKey.val
  let rootKey := L.sha3 (asBytes "add-pqxdh-root-v1" ++ combinedInput)
  let sendChainKey ← okOr (.derivationFailed "send chain")
    (hkdfExpand L rootKey.val (asBytes "add-pqxdh-chains-v1") "" 32)
  let recvChainKey ← okOr (.derivationFailed "recv chain")
    (hkdfExpand L rootKey.val (asBytes "add-pqxdh-chains-v2") "" 32)
  let (sendCk, recvCk) :=
    if isInitiator then (sendChainKey, recvChainKey) else (recvChainKey, sendChainKey)
  return ⟨rootKey, sendCk, recvCk, 0, 0, isInitiator⟩

/-- The two parties' keys and states fit together: each sends under what the other receives
under. -/
def Mirrored (initSs respSs nonce initEphPk respEphPk initSecret respSecret : Sized UInt8 32) :
    Prop :=
  ∃ initKeys respKeys, deriveSessionKeys L initSs respSs nonce true = .ok initKeys ∧
    deriveSessionKeys L respSs initSs nonce false = .ok respKeys ∧
    initKeys.sendKey = respKeys.recvKey ∧ initKeys.recvKey = respKeys.sendKey ∧
    initKeys.sendIv = respKeys.recvIv ∧ initKeys.recvIv = respKeys.sendIv ∧
    ∃ initState respState,
      initRatchetState L initKeys initEphPk respEphPk true initSecret = .ok initState ∧
      initRatchetState L respKeys initEphPk respEphPk false respSecret = .ok respState ∧
      initState.rootKey = respState.rootKey ∧
      initState.sendChainKey = respState.recvChainKey ∧
      initState.recvChainKey = respState.sendChainKey

def masterSecret (initSs respSs nonce : Sized UInt8 32) : Sized UInt8 64 :=
  L.okm nonce.val (combinedSecrets initSs respSs) masterSecretInfo 64

def forwardKey (initSs respSs nonce : Sized UInt8 32) : Sized UInt8 32 :=
  L.okm (masterSecret L initSs respSs nonce).val (nonce.val ++ [0x01]) sendKeyInfo 32

def backwardKey (initSs respSs nonce : Sized UInt8 32) : Sized UInt8 32 :=
  L.okm (masterSecret L initSs respSs nonce).val (nonce.val ++ [0x02]) recvKeyInfo 32

def iv (initSs respSs nonce : Sized UInt8 32) (label : String) : Sized UInt8 12 :=
  L.okm (masterSecret L initSs respSs nonce).val (asBytes label) "" 12

def rootKey (respEphPk secret firstKey secondKey : Sized UInt8 32) : Sized UInt8 32 :=
  L.sha3 (asBytes "add-pqxdh-root-v1" ++
    ((L.diffieHellman secret respEphPk).val ++ firstKey.val ++ secondKey.val))

def chainKey (root : Sized UInt8 32) (label : String) : Sized UInt8 32 :=
  L.okm root.val (asBytes label) "" 32

variable {L} {initSs respSs nonce : Sized UInt8 32}

/-- The order of the two secrets does not matter. -/
theorem combinedSecrets_comm (initSs respSs : Sized UInt8 32) :
    combinedSecrets respSs initSs = combinedSecrets initSs respSs := by
  rw [combinedSecrets, combinedSecrets]
  by_cases below : respSs.val < initSs.val
  · rw [if_neg (List.lt_asymm below), if_pos below]
  · by_cases above : initSs.val < respSs.val
    · rw [if_pos above, if_neg below]
    · rw [if_neg above, if_neg below, List.le_antisymm above below]

theorem masterSecret_comm (initSs respSs nonce : Sized UInt8 32) :
    masterSecret L respSs initSs nonce = masterSecret L initSs respSs nonce := by
  rw [masterSecret, combinedSecrets_comm, masterSecret]

theorem deriveSessionKeys_init :
    deriveSessionKeys L initSs respSs nonce true =
      .ok ⟨forwardKey L initSs respSs nonce, backwardKey L initSs respSs nonce,
        iv L initSs respSs nonce "add-pqxdh-iv-send-v1",
        iv L initSs respSs nonce "add-pqxdh-iv-recv-v1"⟩ := rfl

/-- The keys are exchanged for the responder, the initialisation vectors are not. -/
theorem deriveSessionKeys_resp :
    deriveSessionKeys L respSs initSs nonce false =
      .ok ⟨backwardKey L initSs respSs nonce, forwardKey L initSs respSs nonce,
        iv L initSs respSs nonce "add-pqxdh-iv-send-v1",
        iv L initSs respSs nonce "add-pqxdh-iv-recv-v1"⟩ := by
  have derived : deriveSessionKeys L respSs initSs nonce false =
      .ok ⟨backwardKey L respSs initSs nonce, forwardKey L respSs initSs nonce,
        iv L respSs initSs nonce "add-pqxdh-iv-send-v1",
        iv L respSs initSs nonce "add-pqxdh-iv-recv-v1"⟩ := rfl
  rw [derived]
  simp only [backwardKey, forwardKey, iv, masterSecret_comm]

theorem initRatchetState_eq (keys : PqxDhSessionKeys)
    (initEphPk respEphPk secret : Sized UInt8 32) (isInitiator : Bool) :
    let root := rootKey L respEphPk secret keys.sendKey keys.recvKey
    initRatchetState L keys initEphPk respEphPk isInitiator secret =
      .ok ⟨root, chainKey L root (if isInitiator then "add-pqxdh-chains-v1"
          else "add-pqxdh-chains-v2"),
        chainKey L root (if isInitiator then "add-pqxdh-chains-v2" else "add-pqxdh-chains-v1"),
        0, 0, isInitiator⟩ := by
  cases isInitiator <;> rfl

/-- The keys always fit. The rest fits exactly when the two initialisation vectors are the same
and the two root keys are, which hash different ephemeral secrets and the session keys in
opposite orders. -/
theorem mirrored_iff (initSs respSs nonce initEphPk respEphPk initSecret respSecret :
    Sized UInt8 32) :
    Mirrored L initSs respSs nonce initEphPk respEphPk initSecret respSecret ↔
      iv L initSs respSs nonce "add-pqxdh-iv-send-v1" =
          iv L initSs respSs nonce "add-pqxdh-iv-recv-v1" ∧
        rootKey L respEphPk initSecret (forwardKey L initSs respSs nonce)
            (backwardKey L initSs respSs nonce) =
          rootKey L respEphPk respSecret (backwardKey L initSs respSs nonce)
            (forwardKey L initSs respSs nonce) := by
  rw [Mirrored, deriveSessionKeys_init, deriveSessionKeys_resp]
  constructor
  · rintro ⟨initKeys, respKeys, init, resp, -, -, ivs, -, initState, respState, initStarts,
      respStarts, roots, -, -⟩
    cases init
    cases resp
    rw [initRatchetState_eq] at initStarts respStarts
    cases initStarts
    cases respStarts
    exact ⟨ivs, roots⟩
  · rintro ⟨ivs, roots⟩
    refine ⟨_, _, rfl, rfl, rfl, rfl, ivs, ivs.symm, _, _, initRatchetState_eq _ _ _ _ _,
      initRatchetState_eq _ _ _ _ _, roots, ?_, ?_⟩
    · exact congrArg (chainKey L · "add-pqxdh-chains-v1") roots
    · exact congrArg (chainKey L · "add-pqxdh-chains-v2") roots

/-- Two secrets of the small library: the two vectors differ. -/
theorem not_mirrored_checksum :
    ¬ Mirrored checksumLibrary (sumBytes 32 [0xAB]) (sumBytes 32 [0xCD]) zeroPk zeroPk zeroPk
      zeroPk zeroPk := by
  rintro ⟨initKeys, respKeys, init, resp, -, -, ivs, -⟩
  rw [deriveSessionKeys_init] at init
  rw [deriveSessionKeys_resp] at resp
  cases init
  cases resp
  revert ivs
  decide +kernel

end Pqxdh

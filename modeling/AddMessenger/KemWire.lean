import AddMessenger.HybridKem

/-!
# The wire format of the KEM ratchet

`KemRatchetMessage` of `crypto-pq/src/ratchet_pq.rs`. The ciphertext has no tag of its own:
`from_wire` takes it to be there when enough bytes are left after the encapsulation key, and
takes an epoch that is missing for zero.
-/

namespace KemWire

open ByteStrings Outcomes HybridKem
open Signatures (PqError)

structure KemRatchetMessage where
  version : String
  x25519Pk : Sized UInt8 32
  mlkemEncKey : Bytes
  hybridCt : Option HybridCiphertext
  seq : UInt64
  epoch : UInt64
  deriving DecidableEq

/-- The optional ciphertext, without a tag. -/
def ctBytes {ε : Type} : Option HybridCiphertext → Outcome ε Bytes
  | some hct => hct.toBytes
  | none => .ok []

def toWire {ε : Type} (m : KemRatchetMessage) : Outcome ε Bytes := do
  let vb := asBytes m.version
  let ct ← ctBytes m.hybridCt
  return [UInt8.ofNat vb.length] ++ vb ++ m.x25519Pk.val ++ m.mlkemEncKey ++ ct ++
    toBeBytes 8 m.seq.toNat ++ toBeBytes 8 m.epoch.toNat

/-- `u64::from_be_bytes(wire[offset..offset + 8].try_into().unwrap())` -/
def readU64 (wire : Bytes) (offset : Nat) : Outcome PqError UInt64 := do
  let bytes ← slice wire offset (offset + 8)
  let bytes ← unwrapOption (tryInto 8 bytes)
  return UInt64.ofNat (fromBeBytes bytes.val)

def readCt (wire : Bytes) (offset : Nat) : Outcome PqError (Option HybridCiphertext) :=
  if wire.length - offset ≥ combinedCtSize then do
    let bytes ← slice wire offset (offset + combinedCtSize)
    let ct ← HybridCiphertext.fromBytes bytes
    return some ct
  else .ok none

def readEpoch (wire : Bytes) (offset : Nat) : Outcome PqError UInt64 :=
  if wire.length - offset ≥ 8 then readU64 wire offset else .ok 0

def fromWire (wire : Bytes) : Outcome PqError KemRatchetMessage := do
  errorIf (0 ≥ wire.length) (.invalidKeyLength 1 0)
  let vlen ← index wire 0
  let vlen := vlen.toNat
  let offset := 1
  errorIf (offset + vlen > wire.length) (.invalidKeyLength vlen (wire.length - offset))
  let version ← slice wire offset (offset + vlen)
  let version ← okOr (.decapsulationFailed "version not UTF-8") (fromUtf8 version)
  let offset := offset + vlen
  errorIf (offset + 32 > wire.length) (.invalidKeyLength 32 (wire.length - offset))
  let x25519Pk ← slice wire offset (offset + 32)
  let x25519Pk ← okOr (.invalidKeyLength 32 (wire.length - offset)) (tryInto 32 x25519Pk)
  let offset := offset + 32
  errorIf (offset + 1184 > wire.length) (.invalidKeyLength 1184 (wire.length - offset))
  let mlkemEncKey ← slice wire offset (offset + 1184)
  let offset := offset + 1184
  let hybridCt ← readCt wire offset
  let offset := if hybridCt.isSome then offset + combinedCtSize else offset
  let remaining := wire.length - offset
  errorIf (remaining < 8) (.invalidKeyLength 8 remaining)
  let seq ← readU64 wire offset
  let offset := offset + 8
  let epoch ← readEpoch wire offset
  return ⟨version, x25519Pk, mlkemEncKey, hybridCt, seq, epoch⟩

theorem readU64_of_remains {wire back : Bytes} {offset : Nat} {n : UInt64}
    (ahead : Remains wire offset (toBeBytes 8 n.toNat ++ back)) :
    readU64 wire offset = .ok n := by
  have below : n.toNat < 256 ^ 8 := n.toNat_lt
  have value : UInt64.ofNat (fromBeBytes (toBeBytes 8 n.toNat)) = n := by
    rw [fromBeBytes_toBeBytes, Nat.mod_eq_of_lt below, UInt64.ofNat_toNat]
  rw [readU64, ahead.slice (length_toBeBytes 8 n.toNat), Outcome.ok_bind,
    tryInto_of_length (length_toBeBytes 8 n.toNat)]
  exact congrArg Outcome.ok value

theorem readU64_ne_panicked {wire : Bytes} {offset : Nat} (inside : offset + 8 ≤ wire.length) :
    readU64 wire offset ≠ .panicked := by
  refine Outcome.bind_ne_panicked (slice_ne_panicked (Nat.le_add_right _ _) inside) ?_
  intro bytes cut
  have sized : bytes.length = 8 := by
    rw [slice_length cut]
    omega
  rw [tryInto_of_length sized]
  exact Outcome.bind_ne_panicked (by simp [unwrapOption]) (fun _ _ => by simp)

theorem readCt_ne_panicked (wire : Bytes) (offset : Nat) : readCt wire offset ≠ .panicked := by
  unfold readCt
  split
  case isTrue enough =>
    have inside : offset + combinedCtSize ≤ wire.length := by
      have positive : 0 < combinedCtSize := by decide
      omega
    refine Outcome.bind_ne_panicked (slice_ne_panicked (Nat.le_add_right _ _) inside) ?_
    intro bytes _
    exact Outcome.bind_ne_panicked (fromBytes_ne_panicked bytes) (fun _ _ => by simp)
  case isFalse => simp

theorem readEpoch_ne_panicked (wire : Bytes) (offset : Nat) :
    readEpoch wire offset ≠ .panicked := by
  unfold readEpoch
  split
  case isTrue enough => exact readU64_ne_panicked (by omega)
  case isFalse => simp

/-- Every read is behind the check of its length. -/
theorem fromWire_ne_panicked (wire : Bytes) : fromWire wire ≠ .panicked := by
  refine Outcome.bind_ne_panicked errorIf_ne_panicked fun _ nonempty => ?_
  have nonempty := errorIf_eq_ok.mp nonempty
  refine Outcome.bind_ne_panicked (index_ne_panicked (by omega)) fun vlen _ => ?_
  refine Outcome.bind_ne_panicked errorIf_ne_panicked fun _ long => ?_
  have long := errorIf_eq_ok.mp long
  refine Outcome.bind_ne_panicked (slice_ne_panicked (by omega) (by omega)) fun version _ => ?_
  refine Outcome.bind_ne_panicked okOr_ne_panicked fun _ _ => ?_
  refine Outcome.bind_ne_panicked errorIf_ne_panicked fun _ long => ?_
  have long := errorIf_eq_ok.mp long
  refine Outcome.bind_ne_panicked (slice_ne_panicked (by omega) (by omega)) fun _ _ => ?_
  refine Outcome.bind_ne_panicked okOr_ne_panicked fun _ _ => ?_
  refine Outcome.bind_ne_panicked errorIf_ne_panicked fun _ long => ?_
  have long := errorIf_eq_ok.mp long
  refine Outcome.bind_ne_panicked (slice_ne_panicked (by omega) (by omega)) fun _ _ => ?_
  refine Outcome.bind_ne_panicked (readCt_ne_panicked _ _) fun hybridCt _ => ?_
  refine Outcome.bind_ne_panicked errorIf_ne_panicked fun _ long => ?_
  have long := errorIf_eq_ok.mp long
  refine Outcome.bind_ne_panicked (readU64_ne_panicked (by omega)) fun _ _ => ?_
  exact Outcome.bind_ne_panicked (readEpoch_ne_panicked _ _) (fun _ _ => by simp)

/-- A ciphertext that is there takes its 1120 bytes, one that is not there leaves only the two
counters behind the key. -/
theorem readCt_ctBytes {hybridCt : Option HybridCiphertext}
    (sized : ∀ ct ∈ hybridCt, ct.mlkemCt.length = mlkem768CtSize) :
    ∃ ct, (ctBytes hybridCt : Outcome PqError Bytes) = .ok ct ∧
      ct.length = (if hybridCt.isSome then combinedCtSize else 0) ∧
      ∀ {wire back : Bytes} {offset : Nat}, Remains wire offset (ct ++ back) →
        back.length = 16 → readCt wire offset = .ok hybridCt := by
  cases hybridCt with
  | none =>
    refine ⟨[], rfl, rfl, fun {wire back offset} ahead rest => ?_⟩
    have few : ¬ wire.length - offset ≥ combinedCtSize := by
      have size : combinedCtSize = 1120 := rfl
      have whole := ahead.length
      rw [List.nil_append] at whole
      omega
    exact if_neg few
  | some hct =>
    have sized := sized hct rfl
    have long : (hct.x25519Ct.val ++ hct.mlkemCt).length = combinedCtSize := by
      rw [List.length_append, hct.x25519Ct.property, sized]
      rfl
    refine ⟨_, toBytes_of_length sized, long, fun {wire back offset} ahead _ => ?_⟩
    have enough : wire.length - offset ≥ combinedCtSize := by
      rw [ahead.length, List.length_append, long]
      omega
    rw [readCt, if_pos enough, ahead.slice long, Outcome.ok_bind, fromBytes_append _ sized]
    rfl

theorem fromWire_toWire {m : KemRatchetMessage} (short : (asBytes m.version).length ≤ 255)
    (key : m.mlkemEncKey.length = mlkem768PkSize)
    (ct : ∀ ct ∈ m.hybridCt, ct.mlkemCt.length = mlkem768CtSize) :
    toWire m >>= fromWire = .ok m := by
  obtain ⟨bytes, written, size, reads⟩ := readCt_ctBytes ct
  let vb := asBytes m.version
  let tail := toBeBytes 8 m.seq.toNat ++ toBeBytes 8 m.epoch.toNat
  have tailSize : tail.length = 16 := by
    rw [List.length_append, length_toBeBytes, length_toBeBytes]
  have vlen : (UInt8.ofNat vb.length).toNat = vb.length := by
    rw [UInt8.toNat_ofNat']
    exact Nat.mod_eq_of_lt (Nat.lt_succ_of_le short)
  let wire := [UInt8.ofNat vb.length] ++ (vb ++ (m.x25519Pk.val ++ (m.mlkemEncKey ++
    (bytes ++ tail))))
  have sent : (toWire m : Outcome PqError Bytes) = .ok wire := by
    rw [toWire, written, Outcome.ok_bind]
    simp only [wire, tail, vb, List.append_assoc, Outcome.pure_eq]
  -- The reader comes past one field after the other.
  have atVersion : Remains wire 1 _ := (remains_all wire).next List.length_singleton
  have atPk := atVersion.next rfl
  have atKey := atPk.next m.x25519Pk.property
  have keySize : m.mlkemEncKey.length = 1184 := key
  have atCt := atKey.next keySize
  have atSeq := atCt.next rfl
  have atEpoch := atSeq.next (length_toBeBytes 8 m.seq.toNat)
  rw [← List.append_nil (toBeBytes 8 m.epoch.toNat)] at atEpoch
  have whole := atSeq.length
  have place : (if m.hybridCt.isSome then 1 + vb.length + 32 + 1184 + combinedCtSize
      else 1 + vb.length + 32 + 1184) = 1 + vb.length + 32 + 1184 + bytes.length := by
    rw [size]
    split <;> rfl
  have readLast : readEpoch wire (1 + vb.length + 32 + 1184 + bytes.length + 8) =
      .ok m.epoch := by
    rw [readEpoch, if_pos (by omega)]
    exact readU64_of_remains atEpoch
  rw [sent, Outcome.ok_bind, fromWire, errorIf_of_not (by omega), Outcome.ok_bind,
    show (index wire 0 : Outcome PqError UInt8) = .ok (UInt8.ofNat vb.length) from rfl,
    Outcome.ok_bind, vlen]
  dsimp only
  rw [errorIf_of_not (by omega), Outcome.ok_bind, atVersion.slice rfl, Outcome.ok_bind,
    fromUtf8_asBytes, okOr_some, Outcome.ok_bind, errorIf_of_not (by omega), Outcome.ok_bind,
    atPk.slice m.x25519Pk.property, Outcome.ok_bind, tryInto_val, okOr_some, Outcome.ok_bind,
    errorIf_of_not (by omega), Outcome.ok_bind, atKey.slice keySize, Outcome.ok_bind,
    reads atCt tailSize, Outcome.ok_bind, place, errorIf_of_not (by omega), Outcome.ok_bind,
    readU64_of_remains atSeq, Outcome.ok_bind, readLast]
  rfl

/-- What is written is read back in every field, with or without a ciphertext, and whatever
is read does not panic. -/
theorem wire_roundTrip_and_total :
    (∀ m : KemRatchetMessage, (asBytes m.version).length ≤ 255 →
      m.mlkemEncKey.length = mlkem768PkSize →
      (∀ ct ∈ m.hybridCt, ct.mlkemCt.length = mlkem768CtSize) →
        toWire m >>= fromWire = .ok m) ∧
      ∀ wire, fromWire wire ≠ .panicked :=
  ⟨fun _ short key ct => fromWire_toWire short key ct, fromWire_ne_panicked⟩

def sampleCt : HybridCiphertext :=
  ⟨⟨List.replicate 32 0x43, List.length_replicate⟩, List.replicate mlkem768CtSize 0x44⟩

def sampleMessage (hybridCt : Option HybridCiphertext) : KemRatchetMessage where
  version := "add-kem-ratchet-v1"
  x25519Pk := ⟨List.replicate 32 0x42, List.length_replicate⟩
  mlkemEncKey := List.replicate mlkem768PkSize 0x41
  hybridCt := hybridCt
  seq := 42
  epoch := 1

/-- The message of the source's own test, with its ciphertext and without. -/
theorem wire_roundTrip_sample :
    toWire (sampleMessage (some sampleCt)) >>= fromWire = .ok (sampleMessage (some sampleCt)) ∧
      toWire (sampleMessage none) >>= fromWire = .ok (sampleMessage none) := by
  have short : (asBytes "add-kem-ratchet-v1").length ≤ 255 := by decide
  refine ⟨wire_roundTrip_and_total.1 _ short List.length_replicate ?_,
    wire_roundTrip_and_total.1 _ short List.length_replicate (by simp [sampleMessage])⟩
  intro ct member
  obtain rfl := Option.mem_some.mp member
  exact List.length_replicate

end KemWire

import AddMessenger.BraidTransport

/-!
# The codec of braid chunks

`parse_braid_chunk` of `protocol/src/braid.rs` against `build_braid_chunk_msg`: which envelopes
are read as a chunk, and whether they are the ones that the chunk is written as.
-/

namespace BraidTransport

open Braid ByteStrings P2pHandshake Protocol

def numberItem (n : UInt64) : Json := .number (.posInt n)

theorem asU64_eq_some {value : Json} {n : UInt64} :
    value.asU64 = some n ↔ value = numberItem n := by
  constructor
  · intro read
    match value, read with
    | .number (.posInt m), read =>
      cases read
      rfl
  · rintro rfl
    rfl

theorem byteOf_eq_some {item : Json} {b : UInt8} :
    byteOf item = some b ↔ item = jsonNat b.toNat := by
  constructor
  · intro read
    obtain ⟨n, kept, cut⟩ := Option.map_eq_some_iff.mp read
    obtain ⟨number, small⟩ := Option.filter_eq_some_iff.mp kept
    rw [asU64_eq_some.mp number, numberItem, jsonNat, ← cut]
    have bound : n.toNat ≤ 255 := UInt64.le_iff_toNat_le.mp (of_decide_eq_true small)
    have same : n = UInt64.ofNat n.toUInt8.toNat := by
      apply UInt64.toNat_inj.mp
      rw [UInt64.toNat_toUInt8, Nat.mod_eq_of_lt (by omega), UInt64.ofNat_toNat]
    rw [← same]
  · rintro rfl
    exact byteOf_jsonNat b

theorem asBytesField_eq_some {value : Json} {bytes : Bytes} :
    asBytesField value = some bytes ↔ value = byteItems bytes := by
  constructor
  · intro read
    obtain ⟨items, array, each⟩ := Option.bind_eq_some_iff.mp read
    have isArray : value = .array items := by
      match value, array with
      | .array list, array =>
        cases array
        rfl
    have same : items = bytes.map fun b => jsonNat b.toNat := by
      clear array isArray read
      induction items generalizing bytes with
      | nil =>
        cases each
        rfl
      | cons item rest ih =>
        simp only [List.mapM_cons, Option.bind_eq_bind, Option.bind_eq_some_iff,
          Option.pure_def, Option.some.injEq] at each
        obtain ⟨b, here, others, later, rfl⟩ := each
        rw [byteOf_eq_some.mp here, List.map_cons, ← ih later]
    rw [isArray, same]
    rfl
  · rintro rfl
    exact asBytesField_byteItems bytes

/-- The envelope is of the type of a chunk, with two numbers and three arrays of bytes. -/
structure Shaped (env : Envelope) (chunkNum totalChunks : UInt64) (ekHash seed payload : Bytes) :
    Prop where
  msgType : env.msgType = "p2p-braid-chunk"
  chunkNum : env.payload.get "chunk_num" = some (numberItem chunkNum)
  totalChunks : env.payload.get "total_chunks" = some (numberItem totalChunks)
  ekHash : env.payload.get "ek_hash" = some (byteItems ekHash)
  seed : env.payload.get "seed" = some (byteItems seed)
  payload : env.payload.get "payload" = some (byteItems payload)

theorem parseBraidChunk_eq_some {env : Envelope} {chunk : BraidChunk} :
    parseBraidChunk env = some chunk ↔
      ∃ chunkNum totalChunks, Shaped env chunkNum totalChunks chunk.ekHash chunk.seed
          chunk.payload ∧
        chunk.chunkNum = chunkNum.toUInt32 ∧ chunk.totalChunks = totalChunks.toUInt32 := by
  by_cases typed : env.msgType = "p2p-braid-chunk"
  · simp only [parseBraidChunk, typed, ne_eq, not_true_eq_false, if_false, Option.bind_eq_bind,
      Option.bind_eq_some_iff, asU64_eq_some, asBytesField_eq_some, Option.pure_def,
      Option.some.injEq]
    constructor
    · rintro ⟨_, hasNum, n, rfl, _, hasTotal, m, rfl, _, hasHash, ekHash, rfl, _, hasSeed, seed,
        rfl, _, hasPayload, payload, rfl, rfl⟩
      exact ⟨n, m, ⟨typed, hasNum, hasTotal, hasHash, hasSeed, hasPayload⟩, rfl, rfl⟩
    · rintro ⟨n, m, shaped, num, total⟩
      refine ⟨_, shaped.chunkNum, n, rfl, _, shaped.totalChunks, m, rfl, _, shaped.ekHash, _, rfl,
        _, shaped.seed, _, rfl, _, shaped.payload, _, rfl, ?_⟩
      rw [← num, ← total]
  · refine iff_of_false ?_ ?_
    · rw [parseBraidChunk, if_pos typed]
      simp
    · rintro ⟨n, m, shaped, -⟩
      exact typed shaped.msgType

def chunkFields : List String := ["chunk_num", "total_chunks", "ek_hash", "seed", "payload"]

/-- The five fields are those that the chunk is written with. -/
def WrittenAs (env : Envelope) (chunk : BraidChunk) : Prop :=
  ∀ stamp, ∀ name ∈ chunkFields,
    env.payload.get name = (buildBraidChunkMsg chunk stamp).payload.get name

theorem writtenAs_iff {env : Envelope} {chunk : BraidChunk} :
    WrittenAs env chunk ↔
      env.payload.get "chunk_num" = some (jsonNat chunk.chunkNum.toNat) ∧
      env.payload.get "total_chunks" = some (jsonNat chunk.totalChunks.toNat) ∧
      env.payload.get "ek_hash" = some (byteItems chunk.ekHash) ∧
      env.payload.get "seed" = some (byteItems chunk.seed) ∧
      env.payload.get "payload" = some (byteItems chunk.payload) := by
  constructor
  · intro written
    have fields := written ⟨"", 0⟩
    simp only [chunkFields, List.forall_mem_cons] at fields
    exact ⟨fields.1, fields.2.1, fields.2.2.1, fields.2.2.2.1, fields.2.2.2.2.1⟩
  · rintro ⟨num, total, hash, seed, payload⟩ stamp
    simp only [chunkFields, List.forall_mem_cons]
    exact ⟨num, total, hash, seed, payload, List.forall_mem_nil _⟩

/-- A number is written as what is left of it exactly if it fits. -/
theorem numberItem_eq_iff (n : UInt64) :
    numberItem n = jsonNat n.toUInt32.toNat ↔ n.toNat < 2 ^ 32 := by
  have low : n.toUInt32.toNat = n.toNat % 2 ^ 32 := UInt64.toNat_toUInt32 n
  constructor
  · intro same
    rw [numberItem, jsonNat, Json.number.injEq, Number.posInt.injEq] at same
    have values := congrArg UInt64.toNat same
    rw [low, UInt64.toNat_ofNat'] at values
    omega
  · intro small
    rw [numberItem, jsonNat, low, Nat.mod_eq_of_lt small, UInt64.ofNat_toNat]

/-- Every chunk is read back. What is read as a chunk is what that chunk is written as, exactly
if both numbers of the envelope have 32 bits. -/
theorem braid_codec_iff (sent : BraidChunk) (stamp : Stamp) (env : Envelope) :
    parseBraidChunk (buildBraidChunkMsg sent stamp) = some sent ∧
    ((∀ chunk, parseBraidChunk env = some chunk → WrittenAs env chunk) ↔
      ∀ chunkNum totalChunks ekHash seed payload,
        Shaped env chunkNum totalChunks ekHash seed payload →
          chunkNum.toNat < 2 ^ 32 ∧ totalChunks.toNat < 2 ^ 32) := by
  refine ⟨parseBraidChunk_build sent stamp, ?_⟩
  constructor
  · intro exactly n m ekHash seed payload shaped
    let chunk : BraidChunk := ⟨n.toUInt32, m.toUInt32, ekHash, seed, payload⟩
    have read : parseBraidChunk env = some chunk :=
      parseBraidChunk_eq_some.mpr ⟨n, m, shaped, rfl, rfl⟩
    obtain ⟨num, total, -⟩ := writtenAs_iff.mp (exactly chunk read)
    rw [shaped.chunkNum, Option.some.injEq, numberItem_eq_iff] at num
    rw [shaped.totalChunks, Option.some.injEq, numberItem_eq_iff] at total
    exact ⟨num, total⟩
  · intro fits chunk read
    obtain ⟨n, m, shaped, num, total⟩ := parseBraidChunk_eq_some.mp read
    obtain ⟨smallNum, smallTotal⟩ := fits n m _ _ _ shaped
    refine writtenAs_iff.mpr ⟨?_, ?_, shaped.ekHash, shaped.seed, shaped.payload⟩
    · rw [shaped.chunkNum, num, (numberItem_eq_iff n).mpr smallNum]
    · rw [shaped.totalChunks, total, (numberItem_eq_iff m).mpr smallTotal]

/-- The number 2^32 + 1 stands for the chunk 1. -/
def wideEnvelope : Envelope where
  msgType := "p2p-braid-chunk"
  payload := .object [("chunk_num", numberItem (2 ^ 32 + 1)), ("ek_hash", byteItems []),
    ("payload", byteItems [7]), ("seed", byteItems []), ("total_chunks", numberItem 2)]
  msgId := "c3"
  ts := 0
  sig := ""

theorem wideEnvelope_read_as_first :
    parseBraidChunk wideEnvelope = some ⟨1, 2, [], [], [7]⟩ ∧
      ¬ WrittenAs wideEnvelope ⟨1, 2, [], [], [7]⟩ := by
  refine ⟨by decide +kernel, fun written => ?_⟩
  have num := (writtenAs_iff.mp written).1
  have same : numberItem (2 ^ 32 + 1) = jsonNat 1 := Option.some.inj num
  rw [numberItem, jsonNat, Json.number.injEq, Number.posInt.injEq] at same
  exact absurd same (by decide)

end BraidTransport

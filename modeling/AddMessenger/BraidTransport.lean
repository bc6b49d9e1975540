import AddMessenger.Braid
import AddMessenger.P2pHandshake

/-!
# The braid over a connection

`p2p/src/braid_handshake.rs`: an encapsulation key is streamed as text frames of one chunk each,
and two copies of one loop reassemble it. The frames come from the peer or from an attacker;
what is reassembled counts only if it is the key of the signed hello.
-/

namespace BraidTransport

open Braid ByteStrings P2pHandshake Protocol Slices

variable (J : EnvelopeJson) (sha512 : Bytes → Bytes)

def byteItems (bytes : Bytes) : Json := .array (bytes.map fun b => jsonNat b.toNat)

def buildBraidChunkMsg (chunk : BraidChunk) (stamp : Stamp) : Envelope where
  msgType := "p2p-braid-chunk"
  payload := .object [("chunk_num", jsonNat chunk.chunkNum.toNat),
    ("ek_hash", byteItems chunk.ekHash), ("payload", byteItems chunk.payload),
    ("seed", byteItems chunk.seed), ("total_chunks", jsonNat chunk.totalChunks.toNat)]
  msgId := stamp.msgId
  ts := stamp.ts
  sig := ""

def byteOf (item : Json) : Option UInt8 :=
  (item.asU64.filter fun n => n ≤ 255).map UInt64.toUInt8

def asBytesField (value : Json) : Option Bytes := value.asArray.bind fun items => items.mapM byteOf

/-- The numbers are cut to their low half. -/
def parseBraidChunk (env : Envelope) : Option BraidChunk :=
  if env.msgType ≠ "p2p-braid-chunk" then none
  else do
    let chunkNum ← (← env.payload.get "chunk_num").asU64
    let totalChunks ← (← env.payload.get "total_chunks").asU64
    let ekHash ← asBytesField (← env.payload.get "ek_hash")
    let seed ← asBytesField (← env.payload.get "seed")
    let payload ← asBytesField (← env.payload.get "payload")
    return ⟨chunkNum.toUInt32, totalChunks.toUInt32, ekHash, seed, payload⟩

/-- The check of the reassembled key against the one of the signed hello. -/
def verifyPeerEkFromBytes (reconstructedEk authenticatedInlineEk : Bytes) :
    Except P2pError Bytes :=
  if sha512 reconstructedEk ≠ sha512 authenticatedInlineEk then
    .error (.handshake "braid EK hash mismatch — stream tampered")
  else if reconstructedEk ≠ authenticatedInlineEk then
    .error (.handshake
      "braid EK does not match authenticated inline kyber_enc_key — possible MITM")
  else .ok reconstructedEk

section

variable {J} {sha512}

/-- A text frame that passes parsing. -/
def passesParsing (J : EnvelopeJson) : Received → Bool
  | .text frame =>
    match J.fromJson frame with
    | .ok env => (parseBraidChunk env).isSome
    | .error _ => false
  | _ => false

/-- How many frames pass parsing. -/
def parsed (J : EnvelopeJson) (frames : List Received) : Nat :=
  (frames.filter (passesParsing J)).length

theorem byteOf_jsonNat (b : UInt8) : byteOf (jsonNat b.toNat) = some b := by
  have every : ∀ n < 256, byteOf (jsonNat n) = some (UInt8.ofNat n) := by decide +kernel
  simpa using every b.toNat b.toNat_lt

theorem asBytesField_byteItems (bytes : Bytes) : asBytesField (byteItems bytes) = some bytes := by
  change (bytes.map fun b => jsonNat b.toNat).mapM byteOf = some bytes
  induction bytes with
  | nil => rfl
  | cons b rest ih =>
    rw [List.map_cons, List.mapM_cons, byteOf_jsonNat, ih]
    rfl

theorem toUInt32_ofNat (n : UInt32) : (UInt64.ofNat n.toNat).toUInt32 = n := by
  apply UInt32.toNat_inj.mp
  have small : n.toNat < 2 ^ 32 := n.toNat_lt
  rw [UInt64.toNat_toUInt32, UInt64.toNat_ofNat', Nat.mod_eq_of_lt (by omega : n.toNat < 2 ^ 64),
    Nat.mod_eq_of_lt small]

theorem parseBraidChunk_build (chunk : BraidChunk) (stamp : Stamp) :
    parseBraidChunk (buildBraidChunkMsg chunk stamp) = some chunk := by
  have typed : ¬ (buildBraidChunkMsg chunk stamp).msgType ≠ "p2p-braid-chunk" :=
    not_not_intro rfl
  rw [parseBraidChunk, if_neg typed]
  change (do
    let ekHash ← asBytesField (byteItems chunk.ekHash)
    let seed ← asBytesField (byteItems chunk.seed)
    let payload ← asBytesField (byteItems chunk.payload)
    return (⟨(UInt64.ofNat chunk.chunkNum.toNat).toUInt32,
      (UInt64.ofNat chunk.totalChunks.toNat).toUInt32, ekHash, seed, payload⟩ : BraidChunk)) = _
  simp only [asBytesField_byteItems, toUInt32_ofNat]
  rfl

/-- The frame is the text of the chunk. -/
def Carries (J : EnvelopeJson) (frame : String) (chunk : BraidChunk) : Prop :=
  ∃ env, J.fromJson frame = .ok env ∧ parseBraidChunk env = some chunk

end

def zeroKey : Bytes := List.replicate 1568 0

end BraidTransport

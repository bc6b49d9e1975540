import AddMessenger.ByteStrings
import AddMessenger.ByteXor
import AddMessenger.Outcomes
import AddMessenger.Slices

/-!
# Blind contact lookup

The bins of `crypto/src/pir.rs` and the contact cache that `client/src/main.rs` keeps in them:
registering contacts, the tokens of a query, the server's answer and the client's unmasking.

SHA-256 is a parameter, and what the client draws at random is an argument. Where a function of
the source returns `Ok` on every path, its model returns the value. The node's key and nonce in
an answer are left out: nothing reads them.
-/

namespace Pir

open ByteStrings ByteXor Outcomes Slices

def pirEntrySize : Nat := 224

def pirMaxEntriesPerBin : Nat := 18

def pirBinSize : Nat := pirEntrySize * 18

def pirCuckooFanout : Nat := 2

abbrev Digest := Sized UInt8 32

abbrev Mask := Sized UInt8 pirBinSize

inductive PirError where
  | hex
  | pir (text : String)
  deriving DecidableEq, Repr

structure PirQueryToken where
  binIndex : UInt32
  xorMask : Bytes
  clientEphemeralPk : Digest
  deriving DecidableEq

structure PirResponse where
  binData : Bytes

structure PirContactEntry where
  fingerprintHash : Digest
  metadata : Sized UInt8 pirEntrySize

def PirContactEntry.new (fingerprintHash : Digest) (metadata : Bytes) : PirContactEntry :=
  let padded := overwrite (List.replicate pirEntrySize 0) 0 fingerprintHash.val
  let metaLen := min metadata.length (pirEntrySize - 32)
  ⟨fingerprintHash, overwrite padded 32 (metadata.take metaLen), by
    have room : padded.length = pirEntrySize := by
      rw [overwrite_length, List.length_replicate]
      rw [fingerprintHash.property, List.length_replicate]
      decide
    rw [overwrite_length, room]
    rw [room, List.length_take]
    have size : pirEntrySize = 224 := rfl
    omega⟩

def PirContactEntry.toBytes (entry : PirContactEntry) : Bytes := entry.metadata.val

def PirContactEntry.fromBytes (bytes : Sized UInt8 pirEntrySize) : PirContactEntry :=
  ⟨⟨bytes.val.take 32, by rw [List.length_take, bytes.property]; rfl⟩, bytes⟩

/-- `data[..len]` and `mask[..len]`, byte by byte. -/
def xorApply (data mask : Bytes) : Bytes :=
  let len := min data.length mask.length
  xorBytes (data.take len) (mask.take len)

/-- A map from bin indices to bins. -/
structure PirRegistry where
  bins : UInt32 → Option (Sized UInt8 pirBinSize)

def PirRegistry.new : PirRegistry := ⟨fun _ => none⟩

/-- The first slot of zeros; a bin has 18 slots. -/
def emptySlot (bin : Bytes) : Option (Fin pirMaxEntriesPerBin) :=
  (List.finRange pirMaxEntriesPerBin).find? fun i => (block pirEntrySize bin i).all (· = 0)

def putEntry (bin : Sized UInt8 pirBinSize) (slot : Fin pirMaxEntriesPerBin)
    (entry : PirContactEntry) : Sized UInt8 pirBinSize :=
  ⟨overwrite bin.val (pirEntrySize * slot) entry.toBytes, by
    have inside : slot.val < 18 := slot.isLt
    have sized : entry.toBytes.length = pirEntrySize := entry.metadata.property
    have fits : pirEntrySize * slot + pirEntrySize ≤ pirBinSize := by
      show 224 * slot.val + 224 ≤ 224 * 18
      omega
    rw [overwrite_length, bin.property]
    rw [sized, bin.property]
    exact fits⟩

def PirRegistry.addEntry (registry : PirRegistry) (binIndex : UInt32) (entry : PirContactEntry) :
    Except PirError Unit × PirRegistry :=
  let bin := (registry.bins binIndex).getD ⟨List.replicate pirBinSize 0, List.length_replicate⟩
  match emptySlot bin.val with
  | some slot => (.ok (), ⟨Function.update registry.bins binIndex (some (putEntry bin slot entry))⟩)
  | none =>
    (.error (.pir s!"bin {binIndex} is full (max {pirMaxEntriesPerBin} entries)"),
      ⟨Function.update registry.bins binIndex (some bin)⟩)

def PirRegistry.getBin (registry : PirRegistry) (binIndex : UInt32) : Option Bytes :=
  (registry.bins binIndex).map Subtype.val

def PirRegistry.handleQuery (registry : PirRegistry) (query : PirQueryToken) :
    Option PirResponse :=
  (registry.getBin query.binIndex).map PirResponse.mk

variable (sha256 : Bytes → Digest)

def cuckooDigest (fingerprintHash : Digest) (i : Nat) : Digest :=
  sha256 (asBytes "pir-cuckoo-v1" ++ fingerprintHash.val ++ toBeBytes 4 i)

/-- The big-endian number in the first four bytes. -/
def cuckooBin (fingerprintHash : Digest) (i : Nat) : UInt32 :=
  UInt32.ofNat (fromBeBytes ((cuckooDigest sha256 fingerprintHash i).val.take 4))

def cuckooHashBins (fingerprintHash : Digest) (fanout : Nat) : List UInt32 :=
  (List.range fanout).map (cuckooBin sha256 fingerprintHash)

structure PirClient where
  ephemeralSecret : Digest
  ephemeralPublic : Digest

def PirClient.new (secret : Digest) : PirClient :=
  ⟨secret, sha256 (asBytes "pir-ephemeral-pk-v1" ++ secret.val)⟩

/-- What a client draws for one lookup: its secret, and a mask for each token. -/
structure Draws where
  secret : Digest
  masks : Nat → Mask

def queryContact (client : PirClient) (masks : Nat → Mask) (fingerprintHash : Digest) :
    List PirQueryToken :=
  (cuckooHashBins sha256 fingerprintHash pirCuckooFanout).mapIdx fun n binIdx =>
    ⟨binIdx, (masks n).val, client.ephemeralPublic⟩

/-- What the server sees of a lookup. -/
def tokens (hash : Digest) (draws : Draws) : List PirQueryToken :=
  queryContact sha256 (.new sha256 draws.secret) draws.masks hash

def scanEntries (targetHash : Digest) : List Bytes → Option PirContactEntry
  | [] => none
  | entryBytes :: rest =>
    if sized : entryBytes.length = pirEntrySize then
      if entryBytes.take 32 = targetHash.val then some (.fromBytes ⟨entryBytes, sized⟩)
      else scanEntries targetHash rest
    else scanEntries targetHash rest

def processResponse (response : PirResponse) (xorMask : Bytes) (targetHash : Digest) :
    Option PirContactEntry :=
  scanEntries targetHash (chunks pirEntrySize (xorApply response.binData xorMask))

/-- The client of the source is not read. -/
def prepareRegistration (fingerprintHash : Digest) :
    Outcome PirError (UInt32 × PirContactEntry) := do
  let chosenBin ← index (cuckooHashBins sha256 fingerprintHash pirCuckooFanout) 0
  .ok (chosenBin, .new fingerprintHash [])

def sha256Hex (text : String) : String := hexEncode (sha256 (asBytes text)).val

def fingerprintHash (fingerprint : String) : Outcome PirError Digest := do
  let hashBytes ← okOr .hex (hexDecode (sha256Hex sha256 fingerprint))
  copyFromSlice 32 hashBytes

/-- The loop of `PirContactCache::build` over pairs of a null id and a fingerprint. -/
def addContacts (registry : PirRegistry) : List (String × String) → Outcome PirError PirRegistry
  | [] => .ok registry
  | (nid, fingerprint) :: rest => do
    let hash ← fingerprintHash sha256 fingerprint
    let entry := PirContactEntry.new hash (asBytes nid)
    let (binIdx, _) ← prepareRegistration sha256 hash
    match registry.addEntry binIdx entry with
    | (.ok (), registry) => addContacts registry rest
    | (.error e, _) => .error e

def build (contacts : List (String × String)) : Outcome PirError PirRegistry :=
  addContacts sha256 .new contacts

def entryNid (entry : PirContactEntry) : String :=
  trimEndMatches (Char.ofNat 0) (fromUtf8Lossy (entry.toBytes.drop 32))

def queryBins (registry : PirRegistry) (hash : Digest) : List PirQueryToken → Option String
  | [] => none
  | token :: rest =>
    match registry.handleQuery token with
    | none => queryBins registry hash rest
    | some response =>
      match processResponse response token.xorMask hash with
      | none => queryBins registry hash rest
      | some entry =>
        let nid := entryNid entry
        if nid ≠ "" then some nid else queryBins registry hash rest

def lookup (registry : PirRegistry) (fingerprint : String) (draws : Draws) :
    Outcome PirError (Option String) := do
  let hash ← fingerprintHash sha256 fingerprint
  .ok (queryBins registry hash (tokens sha256 hash draws))

variable {sha256}

theorem fingerprintHash_eq (fingerprint : String) :
    fingerprintHash sha256 fingerprint = .ok (sha256 (asBytes fingerprint)) := by
  have sized : (sha256 (asBytes fingerprint)).val.length = 32 := (sha256 _).property
  rw [fingerprintHash, sha256Hex, hexDecode_hexEncode, okOr_some, Outcome.ok_bind, copyFromSlice,
    tryInto, dif_pos sized]
  rfl

theorem prepareRegistration_eq (hash : Digest) :
    prepareRegistration sha256 hash = .ok (cuckooBin sha256 hash 0, .new hash []) := rfl

theorem addEntry_bins {registry after : PirRegistry} {binIndex : UInt32} {entry : PirContactEntry}
    (added : registry.addEntry binIndex entry = (.ok (), after)) (b : UInt32) :
    (after.bins b).isSome ↔ (registry.bins b).isSome ∨ b = binIndex := by
  rw [PirRegistry.addEntry] at added
  split at added
  · cases added
    by_cases same : b = binIndex
    · simp [same]
    · simp [same]
  · cases added

/-- The bins that exist are the first bins of the contacts. -/
theorem addContacts_bins {contacts : List (String × String)} {registry after : PirRegistry}
    (added : addContacts sha256 registry contacts = .ok after) (b : UInt32) :
    (after.bins b).isSome ↔ (registry.bins b).isSome ∨
      ∃ contact ∈ contacts, cuckooBin sha256 (sha256 (asBytes contact.2)) 0 = b := by
  induction contacts generalizing registry with
  | nil =>
    cases added
    simp
  | cons contact rest ih =>
    obtain ⟨nid, fingerprint⟩ := contact
    rw [addContacts, fingerprintHash_eq, Outcome.ok_bind] at added
    dsimp only at added
    rw [prepareRegistration_eq, Outcome.ok_bind] at added
    dsimp only at added
    split at added
    · rename_i next here
      simp only [ih added, addEntry_bins here, or_assoc, List.mem_cons, exists_eq_or_imp,
        @eq_comm _ b]
    · cases added

theorem build_bins {contacts : List (String × String)} {registry : PirRegistry}
    (built : build sha256 contacts = .ok registry) (b : UInt32) :
    (registry.bins b).isSome ↔
      ∃ contact ∈ contacts, cuckooBin sha256 (sha256 (asBytes contact.2)) 0 = b := by
  rw [addContacts_bins built]
  simp [PirRegistry.new]

theorem xorApply_eq {data mask : Bytes} (same : data.length = mask.length) :
    xorApply data mask = xorBytes data mask := by
  rw [xorApply, ← same, Nat.min_self, List.take_length, same, List.take_length]

theorem chunks_eq_cons {size : Nat} {l : Bytes} (pos : 0 < size) (filled : 0 < l.length) :
    ∃ rest, chunks size l = l.take size :: rest := by
  have count : 0 < blockCount size l.length := (Nat.zero_le _).trans_lt (lt_blockCount pos filled)
  obtain ⟨n, more⟩ := Nat.exists_eq_succ_of_ne_zero count.ne'
  refine ⟨(List.map Nat.succ (List.range n)).map (block size l), ?_⟩
  rw [chunks, more, List.range_succ_eq_map, List.map_cons, block, Nat.mul_zero, List.drop_zero]

/-- A bin whose first entry is a contact with this one-letter id. -/
def forged (hash : Digest) (letter : UInt8) : Bytes :=
  hash.val ++ letter :: List.replicate (pirBinSize - 33) 0

theorem length_forged (hash : Digest) (letter : UInt8) :
    (forged hash letter).length = pirBinSize := by
  rw [forged, List.length_append, hash.property, List.length_cons, List.length_replicate]
  decide

/-- The mask that turns a bin into a forged one. -/
def forgingMask (bin : Mask) (hash : Digest) (letter : UInt8) : Mask :=
  ⟨xorBytes bin.val (forged hash letter), by
    rw [length_xorBytes, bin.property, length_forged, Nat.min_self]⟩

theorem rdropWhile_replicate {x c : Char} (kept : x ≠ c) (n : Nat) :
    (x :: List.replicate n c).rdropWhile (· = c) = [x] := by
  induction n with
  | zero => exact List.rdropWhile_concat_neg _ [] x (by simpa using kept)
  | succ n ih =>
    rw [List.replicate_succ', ← List.cons_append, List.rdropWhile_concat_pos _ _ c (by simp), ih]

theorem entryNid_forged {letter : UInt8} (ascii : letter < 0x80) (visible : letter ≠ 0)
    {entry : PirContactEntry} (n : Nat)
    (bytes : entry.toBytes.drop 32 = letter :: List.replicate n 0) :
    entryNid entry = String.singleton (Char.ofNat letter.toNat) := by
  have plain : ∀ b ∈ letter :: List.replicate n 0, b < 0x80 := by
    intro b member
    rcases List.mem_cons.mp member with rfl | zero
    · exact ascii
    · rw [List.eq_of_mem_replicate zero]
      decide
  have kept : Char.ofNat letter.toNat ≠ Char.ofNat 0 :=
    (show ∀ b : UInt8, b ≠ 0 → Char.ofNat b.toNat ≠ Char.ofNat 0 by decide +kernel) letter visible
  rw [entryNid, bytes, fromUtf8Lossy_ascii plain, trimEndMatches, String.toList_ofList,
    List.map_cons, List.map_replicate]
  congr 1
  exact rdropWhile_replicate kept n

theorem processResponse_forged (bin : Mask) (hash : Digest) {letter : UInt8}
    (ascii : letter < 0x80) (visible : letter ≠ 0) :
    ∃ entry, processResponse ⟨bin.val⟩ (forgingMask bin hash letter).val hash = some entry ∧
      entryNid entry = String.singleton (Char.ofNat letter.toNat) := by
  have same : bin.val.length = (forged hash letter).length := by
    rw [bin.property, length_forged]
  have unmasked : xorApply bin.val (forgingMask bin hash letter).val = forged hash letter := by
    rw [xorApply_eq (bin.property.trans (forgingMask bin hash letter).property.symm)]
    exact xorBytes_xorBytes same
  obtain ⟨rest, first⟩ := @chunks_eq_cons pirEntrySize (forged hash letter) (by decide)
    (by rw [length_forged]; decide)
  have sized : ((forged hash letter).take pirEntrySize).length = pirEntrySize := by
    rw [List.length_take, length_forged]
    decide
  have hashed : ((forged hash letter).take pirEntrySize).take 32 = hash.val := by
    rw [List.take_take, forged]
    exact List.take_left' hash.property
  refine ⟨.fromBytes ⟨_, sized⟩, ?_, entryNid_forged ascii visible 191 ?_⟩
  · rw [processResponse, unmasked, first, scanEntries, dif_pos sized, if_pos hashed]
  · show ((forged hash letter).take pirEntrySize).drop 32 = letter :: List.replicate 191 0
    rw [List.drop_take, forged, List.drop_left' hash.property]
    rfl

/-- Whatever answer is wanted, some mask of a bin gives another one. -/
theorem exists_other_answer (bin : Mask) (hash : Digest) (wanted : Option String) :
    ∃ mask : Mask, ∃ entry, processResponse ⟨bin.val⟩ mask.val hash = some entry ∧
      entryNid entry ≠ "" ∧ wanted ≠ some (entryNid entry) := by
  obtain ⟨a, foundA, nidA⟩ := processResponse_forged bin hash (by decide : (97 : UInt8) < 0x80)
    (by decide)
  obtain ⟨b, foundB, nidB⟩ := processResponse_forged bin hash (by decide : (98 : UInt8) < 0x80)
    (by decide)
  by_cases first : wanted = some (entryNid a)
  · refine ⟨_, b, foundB, by rw [nidB]; decide, ?_⟩
    rw [first, nidA, nidB]
    decide
  · exact ⟨_, a, foundA, by rw [nidA]; decide, first⟩

theorem tokens_eq (hash : Digest) (draws : Draws) : tokens sha256 hash draws =
    [⟨cuckooBin sha256 hash 0, (draws.masks 0).val,
        (PirClient.new sha256 draws.secret).ephemeralPublic⟩,
      ⟨cuckooBin sha256 hash 1, (draws.masks 1).val,
        (PirClient.new sha256 draws.secret).ephemeralPublic⟩] := rfl

theorem lookup_eq (registry : PirRegistry) (fingerprint : String) (draws : Draws) :
    lookup sha256 registry fingerprint draws =
      .ok (queryBins registry (sha256 (asBytes fingerprint))
        (tokens sha256 (sha256 (asBytes fingerprint)) draws)) := by
  rw [lookup, fingerprintHash_eq, Outcome.ok_bind]

theorem queryBins_absent {registry : PirRegistry} {token : PirQueryToken} {hash : Digest}
    {rest : List PirQueryToken} (absent : registry.bins token.binIndex = none) :
    queryBins registry hash (token :: rest) = queryBins registry hash rest := by
  rw [queryBins, PirRegistry.handleQuery, PirRegistry.getBin, absent]
  rfl

theorem queryBins_found {registry : PirRegistry} {token : PirQueryToken} {hash : Digest}
    {rest : List PirQueryToken} {bin : Mask} {entry : PirContactEntry}
    (present : registry.bins token.binIndex = some bin)
    (found : processResponse ⟨bin.val⟩ token.xorMask hash = some entry)
    (named : entryNid entry ≠ "") :
    queryBins registry hash (token :: rest) = some (entryNid entry) := by
  rw [queryBins, PirRegistry.handleQuery, PirRegistry.getBin, present]
  dsimp only [Option.map_some]
  rw [found]
  exact if_pos named

theorem exists_other_lookup {registry : PirRegistry} {hash : Digest} {i : Nat} (read : i < 2)
    (present : (registry.bins (cuckooBin sha256 hash i)).isSome) (wanted : Option String) :
    ∃ draws, queryBins registry hash (tokens sha256 hash draws) ≠ wanted := by
  have one : ∀ {token : PirQueryToken} {bin : Mask} {rest : List PirQueryToken},
      registry.bins token.binIndex = some bin → ∀ {mask : Mask} {entry : PirContactEntry},
      processResponse ⟨bin.val⟩ mask.val hash = some entry → entryNid entry ≠ "" →
      wanted ≠ some (entryNid entry) → token.xorMask = mask.val →
      queryBins registry hash (token :: rest) ≠ wanted := by
    intro token bin rest here mask entry found named other masked
    rw [queryBins_found here (masked ▸ found) named]
    exact other.symm
  cases zero : registry.bins (cuckooBin sha256 hash 0) with
  | some bin =>
    obtain ⟨mask, entry, found, named, other⟩ := exists_other_answer bin hash wanted
    refine ⟨⟨hash, fun _ => mask⟩, ?_⟩
    rw [tokens_eq]
    exact one zero found named other rfl
  | none =>
    have second : i = 1 := by
      by_contra first
      obtain rfl : i = 0 := by omega
      rw [zero] at present
      cases present
    subst second
    obtain ⟨bin, here⟩ := Option.isSome_iff_exists.mp present
    obtain ⟨mask, entry, found, named, other⟩ := exists_other_answer bin hash wanted
    refine ⟨⟨hash, fun _ => mask⟩, ?_⟩
    rw [tokens_eq, queryBins_absent zero]
    exact one here found named other rfl

theorem queryBins_none {registry : PirRegistry} {hash : Digest}
    (absent : ∀ b ∈ cuckooHashBins sha256 hash pirCuckooFanout, registry.bins b = none)
    (draws : Draws) : queryBins registry hash (tokens sha256 hash draws) = none := by
  have member : ∀ i < 2, cuckooBin sha256 hash i ∈ cuckooHashBins sha256 hash pirCuckooFanout :=
    fun i read => List.mem_map_of_mem (List.mem_range.mpr read)
  rw [tokens_eq, queryBins_absent (absent _ (member 0 (by decide))),
    queryBins_absent (absent _ (member 1 (by decide))), queryBins]

/-- The null id of the first contact with a fingerprint. -/
def contactNid (contacts : List (String × String)) (fingerprint : String) : Option String :=
  (contacts.find? fun contact => contact.2 = fingerprint).map Prod.fst

/-- A lookup finds what is registered whatever the masks are if and only if no contact is stored
in a bin that it reads. -/
theorem lookup_finds_iff {contacts : List (String × String)} {registry : PirRegistry}
    (built : build sha256 contacts = .ok registry) (fingerprint : String) :
    (∀ draws, lookup sha256 registry fingerprint draws =
        .ok (contactNid contacts fingerprint)) ↔
      ∀ contact ∈ contacts, cuckooBin sha256 (sha256 (asBytes contact.2)) 0 ∉
        cuckooHashBins sha256 (sha256 (asBytes fingerprint)) pirCuckooFanout := by
  have stored := build_bins built
  constructor
  · intro finds contact member read
    obtain ⟨i, range, same⟩ := List.mem_map.mp read
    have present := (stored (cuckooBin sha256 (sha256 (asBytes fingerprint)) i)).mpr
      ⟨contact, member, same.symm⟩
    obtain ⟨draws, other⟩ := exists_other_lookup (List.mem_range.mp range) present
      (contactNid contacts fingerprint)
    have found := finds draws
    rw [lookup_eq, Outcome.ok.injEq] at found
    exact other found
  · intro apart draws
    have absent : ∀ b ∈ cuckooHashBins sha256 (sha256 (asBytes fingerprint)) pirCuckooFanout,
        registry.bins b = none := by
      intro b read
      rw [← Option.not_isSome_iff_eq_none, stored]
      rintro ⟨contact, member, rfl⟩
      exact apart contact member read
    have unknown : contactNid contacts fingerprint = none := by
      rw [contactNid, Option.map_eq_none_iff, List.find?_eq_none]
      intro contact member same
      have equal : contact.2 = fingerprint := of_decide_eq_true same
      refine apart contact member ?_
      rw [equal]
      exact List.mem_map_of_mem (List.mem_range.mpr (by decide : 0 < 2))
    rw [lookup_eq, queryBins_none absent, unknown]

/-- A checksum in the place of SHA-256. -/
def checksum256 (data : Bytes) : Digest :=
  ⟨List.replicate 32 (data.foldl (· + ·) 0), List.length_replicate⟩

def sampleContacts : List (String × String) := [("NN-alice", "A1B2")]

theorem lookup_finds_iff_sample :
    ∃ registry, build checksum256 sampleContacts = .ok registry ∧
      ((∀ draws, lookup checksum256 registry "A1B2" draws =
          .ok (contactNid sampleContacts "A1B2")) ↔
        ∀ contact ∈ sampleContacts, cuckooBin checksum256 (checksum256 (asBytes contact.2)) 0 ∉
          cuckooHashBins checksum256 (checksum256 (asBytes "A1B2")) pirCuckooFanout) :=
  ⟨_, rfl, lookup_finds_iff rfl "A1B2"⟩

def sampleDraws : Draws :=
  ⟨checksum256 [], fun _ => ⟨List.replicate pirBinSize 0xFF, List.length_replicate⟩⟩

/-- The registered contact is not found. -/
theorem not_lookup_finds_sample :
    (do let registry ← build checksum256 sampleContacts
        lookup checksum256 registry "A1B2" sampleDraws) = .ok none ∧
      contactNid sampleContacts "A1B2" = some "NN-alice" := by
  decide +kernel

theorem cuckooBin_eq_iff (h1 h2 : Digest) (i : Nat) :
    cuckooBin sha256 h1 i = cuckooBin sha256 h2 i ↔
      (cuckooDigest sha256 h1 i).val.take 4 = (cuckooDigest sha256 h2 i).val.take 4 := by
  have sized : ∀ h, ((cuckooDigest sha256 h i).val.take 4).length = 4 := by
    intro h
    rw [List.length_take, (cuckooDigest sha256 h i).property]
    rfl
  have small : ∀ h, fromBeBytes ((cuckooDigest sha256 h i).val.take 4) < 2 ^ 32 := by
    intro h
    have below := fromBeBytes_lt ((cuckooDigest sha256 h i).val.take 4)
    rwa [sized] at below
  constructor
  · intro same
    refine fromBeBytes_injective ((sized h1).trans (sized h2).symm) ?_
    have numbers := congrArg UInt32.toNat same
    rwa [cuckooBin, cuckooBin, UInt32.toNat_ofNat_of_lt' (small h1),
      UInt32.toNat_ofNat_of_lt' (small h2)] at numbers
  · intro same
    rw [cuckooBin, cuckooBin, same]

/-- Two contacts leave the same tokens, over all that a client may draw, if and only if the digests
of their bins begin with the same bytes. -/
theorem tokens_same_iff (h1 h2 : Digest) :
    (∀ draws1, ∃ draws2, tokens sha256 h1 draws1 = tokens sha256 h2 draws2) ↔
      ∀ i < pirCuckooFanout, (cuckooDigest sha256 h1 i).val.take 4 =
        (cuckooDigest sha256 h2 i).val.take 4 := by
  constructor
  · intro same i read
    obtain ⟨draws2, equal⟩ := same sampleDraws
    have bins := congrArg (List.map PirQueryToken.binIndex) equal
    simp only [tokens_eq, List.map_cons, List.map_nil, List.cons.injEq, and_true]
      at bins
    rw [← cuckooBin_eq_iff]
    have cases01 : i = 0 ∨ i = 1 := by
      have two : pirCuckooFanout = 2 := rfl
      omega
    rcases cases01 with rfl | rfl
    · exact bins.1
    · exact bins.2
  · intro same draws1
    refine ⟨draws1, ?_⟩
    have zero := (cuckooBin_eq_iff h1 h2 0).mpr (same 0 (by decide))
    have one := (cuckooBin_eq_iff h1 h2 1).mpr (same 1 (by decide))
    rw [tokens_eq, tokens_eq, zero, one]

/-- The bins tell two contacts apart, whatever is drawn. -/
theorem not_tokens_same_checksum :
    checksum256 [0] ≠ checksum256 [1] ∧ ∀ draws1 draws2,
      tokens checksum256 (checksum256 (asBytes "A1B2")) draws1 ≠
        tokens checksum256 (checksum256 (asBytes "A1B3")) draws2 := by
  have apart : cuckooBin checksum256 (checksum256 (asBytes "A1B2")) 0 ≠
      cuckooBin checksum256 (checksum256 (asBytes "A1B3")) 0 := by decide +kernel
  refine ⟨by decide, fun draws1 draws2 same => apart ?_⟩
  have bins := congrArg (List.map PirQueryToken.binIndex) same
  simp only [tokens_eq, List.map_cons, List.map_nil, List.cons.injEq] at bins
  exact bins.1

end Pir

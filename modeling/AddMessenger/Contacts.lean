import AddMessenger.Mealy
import AddMessenger.PeerConnection

/-!
# Contacts and fingerprints

A client has an OpenPGP fingerprint of 40 hexadecimal digits, which it is known by, and a
post-quantum one, the base64 text of eight bytes of a hash. The command `AddContact` of
`client/src/main.rs` takes 40 or 64 digits and stores the post-quantum fingerprint or the
64 digits; the consent gate, the safety number, `lookup_kyber_for_nid` and `FetchCert`
read what is stored.

The answers of the DHT are an argument: what each bootstrap holds under a key.
-/

namespace Contacts

open ByteStrings ClientSessions MessageStore PeerConnection PeerHandshake Protocol Ratchet
  Signatures

variable (F : Platform)

def certBlobKey (fingerprint : String) : String :=
  "cert:" ++ hexEncode (F.S.sha256 (asBytes fingerprint)).val

/-- The bundle under such a key: armored certificate, verifying key and Kyber key. -/
structure CertBundle where
  armored : String
  vkB64 : String
  kyberEnc : String

/-- What a bootstrap server, or a relay in front of it, answers for a key. -/
abbrev Server := String → Except String CertBundle

def dhtFetchCertBlind (server : Server) (fingerprint : String) : Except String CertBundle :=
  server (certBlobKey F fingerprint)

/-- The first bundle any of the servers has. -/
def firstCert (servers : List Server) (fingerprint : String) : Option CertBundle :=
  servers.findSome? fun server => (dhtFetchCertBlind F server fingerprint).toOption

/-- The post-quantum fingerprint of a bundle. -/
def pqFingerprint (vkB64 : String) : Except String String :=
  match F.R.base64Decode vkB64 with
  | .error e => .error ("decode vk: " ++ e)
  | .ok vkBytes =>
    match decodeVerifyingKey F.S vkBytes with
    | .error _ => .error "parse vk: invalid length"
    | .ok vk => .ok (fingerprintFromVerifyingKey F.S vk)

/-- The keys `dht_publish_cert` stores its bundle under. -/
def publishedKeys (fingerprint : String) (vk : F.S.VerifyingKey) : List String :=
  [certBlobKey F (fingerprintFromVerifyingKey F.S vk), certBlobKey F fingerprint]

def isHexOf (len : Nat) (text : String) : Bool :=
  text.utf8ByteSize == len && text.toList.all isAsciiHexdigit

/-- What is stored for a fingerprint. -/
def storedFingerprint (fingerprint : String) (servers : List Server) : Except String String :=
  if fingerprint.utf8ByteSize < 32 ∨ fingerprint.toList.all isAsciiHexdigit = false then
    .error "invalid fingerprint format — must be 32-64 hex chars"
  else if isHexOf 40 fingerprint then
    match firstCert F servers fingerprint with
    | none => .error ("✗ Could not resolve PQ fingerprint for GPG fingerprint " ++ fingerprint)
    | some bundle => pqFingerprint F bundle.vkB64
  else if isHexOf 64 fingerprint then .ok (F.S.toUppercase fingerprint)
  else .error "fingerprint must be 40-char GPG or 64-char PQ hex"

/-- Null ids and fingerprints. -/
abbrev ContactList := AList fun _ : String => String

structure AddRequest where
  nullId : String
  fingerprint : String
  servers : List Server

def addContact (contacts : ContactList) (req : AddRequest) : Except String Unit × ContactList :=
  match storedFingerprint F req.fingerprint req.servers with
  | .error e => (.error e, contacts)
  | .ok stored => (.ok (), contacts.insert req.nullId stored)

def fingerprints (contacts : ContactList) : List String := contacts.entries.map Sigma.snd

/-- The mutual-consent gate for an incoming hello. -/
def consentGate (contacts : ContactList) (peerFp : String) : Bool :=
  (fingerprints contacts).contains peerFp || isPublicServiceFingerprint peerFp

/-- Both fingerprints in upper case, the smaller first. -/
def combined (fp1 fp2 : String) : String :=
  let a := F.S.toUppercase fp1
  let b := F.S.toUppercase fp2
  if b < a then b ++ "|" ++ a else a ++ "|" ++ b

def safetyNumber (fp1 fp2 : String) : String :=
  let hash := sha256Hex F.S (asBytes (combined F fp1 fp2))
  " ".intercalate ((hash.toList.toChunks 8).map String.ofList)

/-- The key of the first server that has a bundle, or the last error. -/
def firstKyberKey (pqFp : String) :
    List Server → Option String → Except String F.R.EncapsulationKey
  | [], lastErr => .error (lastErr.getD "no bootstrap reachable to fetch peer cert")
  | server :: rest, _ =>
    match dhtFetchCertBlind F server pqFp with
    | .error e => firstKyberKey pqFp rest (some e)
    | .ok bundle =>
      match F.R.base64Decode bundle.kyberEnc with
      | .error e =>
        .error ("decode peer kyber enc key: key persistence error: base64 decode: " ++ e)
      | .ok bytes =>
        match F.encKeyNewFromSlice bytes with
        | none => .error ("decode peer kyber enc key: key persistence error: invalid enc key bytes")
        | some key => .ok key

/-- `seed` is the seed server, which is asked last. -/
def lookupKyberForNid (id : String) (servers : List Server) (seed : Server) :
    Except String F.R.EncapsulationKey :=
  if !isHexOf 64 id && !isHexOf 40 id then
    .error ("lookup_kyber_for_nid: '" ++ id ++
      "' is not a peer fingerprint; relay sealed-sender KEM lookup is not supported")
  else if isHexOf 40 id then
    match firstCert F servers id with
    | none => .error "could not resolve PQ fingerprint for GPG FP"
    | some bundle =>
      match pqFingerprint F bundle.vkB64 with
      | .error e => .error e
      | .ok pqFp => firstKyberKey F pqFp (servers ++ [seed]) none
  else firstKyberKey F id (servers ++ [seed]) none

/-- The command `FetchCert`; `certFingerprint` parses a certificate and gives its
fingerprint in upper-case digits. -/
def fetchCert (certFingerprint : String → Except String String) (fingerprint : String)
    (servers : List Server) : Except String CertBundle :=
  match firstCert F servers fingerprint with
  | none => .error ("✗ Certificate not found for fingerprint " ++ fingerprint)
  | some bundle =>
    match certFingerprint bundle.armored with
    | .error e => .error ("parse cert: " ++ e)
    | .ok gotGpgFp =>
      match pqFingerprint F bundle.vkB64 with
      | .error e => .error e
      | .ok gotPqFp =>
        if isHexOf 64 fingerprint then
          if F.S.toUppercase gotPqFp ≠ F.S.toUppercase fingerprint then
            .error ("✗ PQ FINGERPRINT MISMATCH: spoke '" ++ fingerprint ++ "' but cert has '" ++
              gotPqFp ++ "'")
          else .ok bundle
        else if isHexOf 40 fingerprint then
          if gotGpgFp ≠ F.S.toUppercase fingerprint then
            .error ("✗ GPG FINGERPRINT MISMATCH: spoke '" ++ fingerprint ++
              "' but cert hashes to '" ++ gotGpgFp ++ "'")
          else .ok bundle
        else .error "fingerprint must be 40-char GPG or 64-char PQ hex"

variable {F}

/-- What the code outside the repository does with the texts here: base64 of eight bytes is
short, in upper case too, and the upper case of a digit is a digit. -/
structure TextLaws (P : Signatures.Primitives) : Prop where
  hexUpper : ∀ text, text.toList.all isAsciiHexdigit = true →
    P.toUppercase text = String.ofList (text.toList.map Char.toUpper)
  base64Short : ∀ b : Bytes, b.length = 8 → (P.base64Encode b).toList.length ≤ 12
  base64Upper : ∀ b : Bytes, b.length = 8 → (P.toUppercase (P.base64Encode b)).toList.length ≤ 12

theorem hexdigit_bounds {c : Char} (digit : isAsciiHexdigit c = true) :
    48 ≤ c.toNat ∧ c.toNat ≤ 102 := by
  simp only [isAsciiHexdigit, Bool.or_eq_true, Bool.and_eq_true, decide_eq_true_eq, Char.le_def,
    UInt32.le_iff_toNat_le] at digit
  change 48 ≤ c.val.toNat ∧ c.val.toNat ≤ 102
  rcases digit with (⟨low, high⟩ | ⟨low, high⟩) | ⟨low, high⟩
  · exact ⟨low, le_trans high (by decide)⟩
  · exact ⟨le_trans (by decide) low, high⟩
  · exact ⟨le_trans (by decide) low, le_trans high (by decide)⟩

theorem isHexOf_iff {len : Nat} {text : String} :
    isHexOf len text = true ↔
      text.toList.length = len ∧ text.toList.all isAsciiHexdigit = true := by
  have size : ∀ l : List Char, l.all isAsciiHexdigit = true → String.utf8Len l = l.length := by
    intro l
    induction l with
    | nil => intro _; rfl
    | cons c rest ih =>
      intro digits
      rw [List.all_cons, Bool.and_eq_true] at digits
      have one : c.utf8Size = 1 := by
        rw [Char.utf8Size_eq_one_iff, UInt32.le_iff_toNat_le]
        exact le_trans (hexdigit_bounds digits.1).2 (by decide)
      rw [String.utf8Len_cons, ih digits.2, one, List.length_cons]
  rw [isHexOf, Bool.and_eq_true, beq_iff_eq, ← String.utf8Len_toList]
  constructor
  · rintro ⟨bytes, digits⟩
    exact ⟨(size _ digits).symm.trans bytes, digits⟩
  · rintro ⟨chars, digits⟩
    exact ⟨(size _ digits).trans chars, digits⟩

/-- A post-quantum fingerprint, or 64 digits in upper case. -/
inductive Stored (P : Signatures.Primitives) : String → Prop where
  | short (b : Bytes) (eight : b.length = 8) : Stored P (P.base64Encode b)
  | long (text : String) (digits : isHexOf 64 text = true) : Stored P (P.toUppercase text)

theorem pqFingerprint_eight {vkB64 fp : String} (parsed : pqFingerprint F vkB64 = .ok fp) :
    ∃ b : Bytes, b.length = 8 ∧ fp = F.S.base64Encode b := by
  simp only [pqFingerprint] at parsed
  split at parsed
  · cases parsed
  · split at parsed
    · cases parsed
    · rename_i vk _
      refine ⟨_, ?_, (Except.ok.inj parsed).symm⟩
      rw [List.length_take, (F.S.sha256 (F.S.verifyingKeyToBytes vk)).property]
      rfl

theorem storedFingerprint_stored {fingerprint fp : String} {servers : List Server}
    (resolved : storedFingerprint F fingerprint servers = .ok fp) : Stored F.S fp := by
  simp only [storedFingerprint] at resolved
  split_ifs at resolved with wrong gpg pq
  · split at resolved
    · cases resolved
    · obtain ⟨b, eight, rfl⟩ := pqFingerprint_eight resolved
      exact .short b eight
  · cases resolved
    exact .long fingerprint pq

/-- One `AddContact` after the other. -/
def added (F : Platform) (requests : List AddRequest) : ContactList :=
  Mealy.final (addContact F) ∅ requests

theorem addContact_stored {contacts : ContactList} {req : AddRequest}
    (all : ∀ e ∈ contacts.entries, Stored F.S e.2) :
    ∀ e ∈ (addContact F contacts req).2.entries, Stored F.S e.2 := by
  simp only [addContact]
  cases resolved : storedFingerprint F req.fingerprint req.servers with
  | error e => exact all
  | ok stored =>
    intro e member
    rw [AList.entries_insert] at member
    rcases List.mem_cons.mp member with rfl | earlier
    · exact storedFingerprint_stored resolved
    · exact all e ((List.kerase_sublist req.nullId contacts.entries).subset earlier)

theorem added_stored (requests : List AddRequest) :
    ∀ e ∈ (added F requests).entries, Stored F.S e.2 := by
  refine Mealy.final_preserved (fun contacts : ContactList =>
    ∀ e ∈ contacts.entries, Stored F.S e.2) ?_ ?_ requests
  · intro contacts req all
    exact addContact_stored all
  · intro e none
    cases none

/-- Short, or 64 digits. -/
def Other (text : String) : Prop := text.toList.length ≤ 12 ∨ isHexOf 64 text = true

theorem hexdigit_toUpper {c : Char} (digit : isAsciiHexdigit c = true) :
    isAsciiHexdigit c.toUpper = true := by
  have each : ∀ n < 103, isAsciiHexdigit (Char.ofNat n) = true →
      isAsciiHexdigit (Char.ofNat n).toUpper = true := by decide +kernel
  have found := each c.toNat (Nat.lt_succ_of_le (hexdigit_bounds digit).2)
  rw [Char.ofNat_toNat] at found
  exact found digit

theorem isHexOf_toUppercase (laws : TextLaws F.S) {len : Nat} {text : String}
    (digits : isHexOf len text = true) : isHexOf len (F.S.toUppercase text) = true := by
  obtain ⟨size, all⟩ := isHexOf_iff.mp digits
  rw [laws.hexUpper text all, isHexOf_iff, String.toList_ofList, List.length_map]
  refine ⟨size, ?_⟩
  rw [List.all_map, List.all_eq_true]
  intro c member
  exact hexdigit_toUpper (List.all_eq_true.mp all c member)

theorem Stored.other (laws : TextLaws F.S) {text : String} (stored : Stored F.S text) :
    Other text ∧ Other (F.S.toUppercase text) := by
  cases stored with
  | short b eight => exact ⟨.inl (laws.base64Short b eight), .inl (laws.base64Upper b eight)⟩
  | long text digits =>
    have upper := isHexOf_toUppercase laws digits
    exact ⟨.inr upper, .inr (isHexOf_toUppercase laws upper)⟩

theorem not_other {text : String} (openPgp : isHexOf 40 text = true) : ¬ Other text := by
  have size := (isHexOf_iff.mp openPgp).1
  rintro (short | long)
  · omega
  · have also := (isHexOf_iff.mp long).1
    omega

theorem bar_not_hexdigit {text : String} {len n : Nat} (digits : isHexOf len text = true)
    (found : text.toList[n]? = some '|') : False := by
  have digit := List.all_eq_true.mp (isHexOf_iff.mp digits).2 '|' (List.mem_of_getElem? found)
  exact absurd digit (by decide)

/-- The bar stands elsewhere if the order is another one. -/
theorem crossed_texts_differ {a x b y : String} (openPgp : isHexOf 40 a = true) (other : Other y) :
    a ++ "|" ++ x ≠ y ++ "|" ++ b := by
  intro same
  have texts : a.toList ++ '|' :: x.toList = y.toList ++ '|' :: b.toList := by
    simpa using congrArg String.toList same
  have size := (isHexOf_iff.mp openPgp).1
  rcases other with short | long
  · have here := congrArg (fun chars => chars[y.toList.length]?) texts
    simp only [List.getElem?_append_right le_rfl, Nat.sub_self, List.getElem?_cons_zero] at here
    rw [List.getElem?_append_left (by omega)] at here
    exact bar_not_hexdigit openPgp here
  · have also := (isHexOf_iff.mp long).1
    have here := congrArg (fun chars => chars[a.toList.length]?) texts
    simp only [List.getElem?_append_right le_rfl, Nat.sub_self, List.getElem?_cons_zero] at here
    rw [List.getElem?_append_left (by omega)] at here
    exact bar_not_hexdigit long here.symm

/-- The groups of digits determine the digits. -/
theorem filter_intercalate {sep : Char} {parts : List (List Char)} (plain : sep ∉ parts.flatten) :
    (List.intercalate [sep] parts).filter (· ≠ sep) = parts.flatten := by
  have keep : ∀ part ∈ parts, part.filter (· ≠ sep) = part := by
    intro part member
    refine List.filter_eq_self.mpr fun c inside => decide_eq_true ?_
    rintro rfl
    exact plain (List.mem_flatten.mpr ⟨part, member, inside⟩)
  induction parts with
  | nil => rfl
  | cons first rest ih =>
    have later := ih (fun inside => plain (List.mem_append_right first inside))
      fun part member => keep part (List.mem_cons_of_mem first member)
    cases rest with
    | nil => simpa using keep first List.mem_cons_self
    | cons second more =>
      rw [List.intercalate_cons_cons, List.filter_append, List.filter_append, later,
        keep first List.mem_cons_self]
      simp

theorem safetyNumber_eq_iff {fp1 fp2 fp3 fp4 : String} :
    safetyNumber F fp1 fp2 = safetyNumber F fp3 fp4 ↔
      F.S.sha256 (asBytes (combined F fp1 fp2)) = F.S.sha256 (asBytes (combined F fp3 fp4)) := by
  have texts : (String.toList ∘ String.ofList) = id := by
    funext chars
    exact String.toList_ofList
  have digits : ∀ b : Bytes, (" ".intercalate (((sha256Hex F.S b).toList.toChunks 8).map
      String.ofList)).toList.filter (· ≠ ' ') = (sha256Hex F.S b).toList := by
    intro b
    have plain : ' ' ∉ (sha256Hex F.S b).toList := fun member =>
      absurd (hexValue_of_mem member) (by decide)
    rw [String.toList_intercalate, List.map_map, texts, List.map_id]
    have joined : ((sha256Hex F.S b).toList.toChunks 8).flatten = (sha256Hex F.S b).toList :=
      flatten_toChunks 8 _
    exact (filter_intercalate (by rw [joined]; exact plain)).trans joined
  constructor
  · intro same
    have chars := congrArg (fun text => text.toList.filter (· ≠ ' ')) same
    simp only [safetyNumber] at chars
    rw [digits, digits] at chars
    exact sha256Hex_inj.mp (String.toList_inj.mp chars)
  · intro same
    simp only [safetyNumber, sha256Hex, same]

/-- A user: the OpenPGP fingerprint in upper case, the null id and the ML-DSA key. -/
structure User (F : Platform) where
  fingerprint : String
  nullId : String
  vk : F.S.VerifyingKey
  openPgp : isHexOf 40 fingerprint = true
  upper : F.S.toUppercase fingerprint = fingerprint

/-- The two users hash different texts. -/
theorem combined_ne (laws : TextLaws F.S) {a b : User F} (differ : a.fingerprint ≠ b.fingerprint)
    {storedA storedB : String} (isStoredA : Stored F.S storedA) (isStoredB : Stored F.S storedB) :
    combined F a.fingerprint storedB ≠ combined F b.fingerprint storedA := by
  have otherA := (isStoredA.other laws).2
  have otherB := (isStoredB.other laws).2
  have sizeA := (isHexOf_iff.mp a.openPgp).1
  have sizeB := (isHexOf_iff.mp b.openPgp).1
  intro same
  simp only [combined, a.upper, b.upper] at same
  split_ifs at same
  · have texts := congrArg String.toList same
    simp only [String.toList_append] at texts
    exact differ (String.toList_inj.mp (List.append_inj' texts (sizeA.trans sizeB.symm)).2)
  · exact crossed_texts_differ b.openPgp otherB same.symm
  · exact crossed_texts_differ a.openPgp otherA same
  · have texts := congrArg String.toList same
    simp only [String.toList_append, List.append_assoc] at texts
    exact differ (String.toList_inj.mp (List.append_inj texts (sizeA.trans sizeB.symm)).1)

/-- The contact entries identify their owners: `a` passes the gate of `b`, both see one
safety number, and what `a` has stored leads to the certificate of `b`. -/
structure Identified (certFingerprint : String → Except String String) (servers : List Server)
    (seed : Server) (a b : User F) (atB : ContactList) (storedA storedB : String) : Prop where
  gate : consentGate atB a.fingerprint = true
  safety : safetyNumber F a.fingerprint storedB = safetyNumber F b.fingerprint storedA
  kyber : ∃ key, lookupKyberForNid F storedB servers seed = .ok key
  cert : ∃ bundle, fetchCert F certFingerprint storedB servers = .ok bundle
  address : certBlobKey F storedB ∈ publishedKeys F b.fingerprint b.vk

theorem consentGate_added (laws : TextLaws F.S) (requests : List AddRequest) {fp : String}
    (openPgp : isHexOf 40 fp = true) :
    consentGate (added F requests) fp = true ↔ isPublicServiceFingerprint fp = true := by
  have absent : (fingerprints (added F requests)).contains fp = false := by
    rw [List.contains_eq_mem, decide_eq_false_iff_not]
    intro member
    obtain ⟨e, inside, rfl⟩ := List.mem_map.mp member
    exact not_other openPgp ((added_stored requests e inside).other laws).1
  rw [consentGate, absent, Bool.false_or]

/-- `FetchCert` takes nothing that was stored. -/
theorem fetchCert_refuses (laws : TextLaws F.S) {certFingerprint : String → Except String String}
    {servers : List Server} {stored : String} (isStored : Stored F.S stored) (bundle : CertBundle) :
    fetchCert F certFingerprint stored servers ≠ .ok bundle := by
  intro fetched
  simp only [fetchCert] at fetched
  split at fetched
  · cases fetched
  · split at fetched
    · cases fetched
    · split at fetched
      · cases fetched
      · rename_i gotPqFp parsed
        split_ifs at fetched with long same openPgp
        · have upper := (isHexOf_iff.mp (isHexOf_toUppercase laws long)).1
          obtain ⟨b, eight, rfl⟩ := pqFingerprint_eight parsed
          have short := laws.base64Upper b eight
          rw [not_not.mp same] at short
          omega
        · exact not_other openPgp (isStored.other laws).1

/-- What `AddContact` stores never identifies its owner everywhere: the gate lets only
public services in, the safety numbers agree only where two different texts have one
digest, and `FetchCert` takes none of it. -/
theorem contact_never_identified (laws : TextLaws F.S)
    (certFingerprint : String → Except String String) (servers : List Server) (seed : Server)
    (a b : User F) (differ : a.fingerprint ≠ b.fingerprint) (requestsA requestsB : List AddRequest)
    (storedA storedB : String) (hasB : (added F requestsA).lookup b.nullId = some storedB)
    (hasA : (added F requestsB).lookup a.nullId = some storedA) :
    ¬ Identified certFingerprint servers seed a b (added F requestsB) storedA storedB ∧
      (consentGate (added F requestsB) a.fingerprint = true ↔
        isPublicServiceFingerprint a.fingerprint = true) ∧
      combined F a.fingerprint storedB ≠ combined F b.fingerprint storedA ∧
      (safetyNumber F a.fingerprint storedB = safetyNumber F b.fingerprint storedA ↔
        F.S.sha256 (asBytes (combined F a.fingerprint storedB)) =
          F.S.sha256 (asBytes (combined F b.fingerprint storedA))) ∧
      ∀ bundle, fetchCert F certFingerprint storedB servers ≠ .ok bundle := by
  have isStoredB : Stored F.S storedB := added_stored requestsA _ (AList.mem_lookup_iff.mp hasB)
  have isStoredA : Stored F.S storedA := added_stored requestsB _ (AList.mem_lookup_iff.mp hasA)
  have refused : ∀ bundle, fetchCert F certFingerprint storedB servers ≠ .ok bundle :=
    fetchCert_refuses laws isStoredB
  refine ⟨?_, consentGate_added laws requestsB a.openPgp,
    combined_ne laws differ isStoredA isStoredB, safetyNumber_eq_iff, refused⟩
  intro identified
  obtain ⟨bundle, fetched⟩ := identified.cert
  exact refused bundle fetched

theorem sumScheme_laws : TextLaws sumScheme where
  hexUpper _ _ := rfl
  base64Short b eight := by
    change (String.ofList (b.map Char.ofUInt8)).toList.length ≤ 12
    rw [String.toList_ofList, List.length_map, eight]
    decide
  base64Upper b eight := by
    change (String.ofList ((String.ofList (b.map Char.ofUInt8)).toList.map
      Char.toUpper)).toList.length ≤ 12
    simp only [String.toList_ofList, List.length_map, eight]
    decide

def aliceFp : String := "AAAAAAAAAAAAAAAAAAAAAAAAAAAAAAAAAAAAAAAA"

def bobFp : String := "BBBBBBBBBBBBBBBBBBBBBBBBBBBBBBBBBBBBBBBB"

theorem aliceFp_openPgp : isHexOf 40 aliceFp = true := by decide +kernel

theorem bobFp_openPgp : isHexOf 40 bobFp = true := by decide +kernel

theorem aliceFp_upper : sumScheme.toUppercase aliceFp = aliceFp := by decide +kernel

theorem bobFp_upper : sumScheme.toUppercase bobFp = bobFp := by decide +kernel

def alice : User (smallPlatform []) :=
  ⟨aliceFp, "NN-a", (65 : UInt8), aliceFp_openPgp, aliceFp_upper⟩

def bob : User (smallPlatform []) := ⟨bobFp, "NN-b", (66 : UInt8), bobFp_openPgp, bobFp_upper⟩

/-- A server that has the certificate with this key. -/
def serverOf (vkB64 : String) : Server := fun _ => .ok ⟨"-----BEGIN", vkB64, "k"⟩

def addsBob : List AddRequest := [⟨"NN-b", bob.fingerprint, [serverOf "B"]⟩]

def addsAlice : List AddRequest := [⟨"NN-a", alice.fingerprint, [serverOf "A"]⟩]

def parseCert (_ : String) : Except String String := .ok bob.fingerprint

theorem contact_never_identified_alice :
    ¬ Identified parseCert [serverOf "B"] (serverOf "B") alice bob
      (added (smallPlatform []) addsAlice) "AAAAAAAA" "BBBBBBBB" :=
  (contact_never_identified (F := smallPlatform []) sumScheme_laws parseCert [serverOf "B"]
    (serverOf "B") alice bob (by decide +kernel) addsBob addsAlice "AAAAAAAA" "BBBBBBBB"
    (by decide +kernel) (by decide +kernel)).1

/-- Alice and Bob have added each other by their OpenPGP fingerprints: Bob refuses Alice's
hello, they see different safety numbers, and Bob's Kyber key cannot be looked up. -/
theorem added_contacts_disagree :
    (added (smallPlatform []) addsBob).lookup bob.nullId = some "BBBBBBBB" ∧
      (added (smallPlatform []) addsAlice).lookup alice.nullId = some "AAAAAAAA" ∧
      consentGate (added (smallPlatform []) addsAlice) alice.fingerprint = false ∧
      safetyNumber (smallPlatform []) alice.fingerprint "BBBBBBBB" ≠
        safetyNumber (smallPlatform []) bob.fingerprint "AAAAAAAA" ∧
      (lookupKyberForNid (smallPlatform []) "BBBBBBBB" [serverOf "B"] (serverOf "B")).isOk = false ∧
      ¬ Identified parseCert [serverOf "B"] (serverOf "B") alice bob
        (added (smallPlatform []) addsAlice) "AAAAAAAA" "BBBBBBBB" := by
  have gate : consentGate (added (smallPlatform []) addsAlice) alice.fingerprint = false := by
    decide +kernel
  refine ⟨by decide +kernel, by decide +kernel, gate, by decide +kernel, by decide +kernel, ?_⟩
  intro identified
  rw [identified.gate] at gate
  cases gate

end Contacts

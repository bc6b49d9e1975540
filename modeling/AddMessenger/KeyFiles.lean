import AddMessenger.Outcomes
import AddMessenger.Protocol

/-!
# Key files of ML-KEM-1024

`save` and `load` of `crypto/src/kyber.rs`, with their unencrypted siblings: a key pair as a
JSON object of hexadecimal fields, in which the seed is encrypted or plain and the public key
stands beside it. The content of a file is what `read_to_string` makes of it.
-/

namespace KeyFiles

open ByteStrings Outcomes Protocol

/-- `CryptoError::KeyPersistence` -/
inductive CryptoError where
  | keyPersistence (text : String)
  deriving DecidableEq, Repr

/-- ML-KEM-1024, HKDF-SHA256 and AES-256-GCM, as they are documented. A decapsulation key is
written as the seed that it was made from. `hexError` is the text of a failed `hex::decode`. -/
structure KyberLibrary where
  EncapsulationKey : Type
  DecapsulationKey : Type
  encBytes : EncapsulationKey → Bytes
  newFromSlice : Bytes → Option EncapsulationKey
  decBytes : DecapsulationKey → Sized UInt8 64
  fromSeed : Sized UInt8 64 → DecapsulationKey
  encapsulationKey : DecapsulationKey → EncapsulationKey
  hkdf : (salt ikm : Bytes) → (info : String) → Sized UInt8 32
  encrypt : (key : Sized UInt8 32) → (nonce : Sized UInt8 12) → Bytes → Except String Bytes
  decrypt : (key : Sized UInt8 32) → (nonce : Sized UInt8 12) → Bytes → Except String Bytes
  hexError : String → String
  newFromSlice_encBytes : ∀ key, newFromSlice (encBytes key) = some key
  encBytes_of_newFromSlice : ∀ bytes key, newFromSlice bytes = some key → encBytes key = bytes
  fromSeed_decBytes : ∀ key, fromSeed (decBytes key) = key
  decrypt_encrypt : ∀ key nonce text ct,
    encrypt key nonce text = .ok ct → decrypt key nonce ct = .ok text

structure MlKem1024Keypair (K : KyberLibrary) where
  enc : K.EncapsulationKey
  dec : K.DecapsulationKey

def orError {α : Type} (context : String) : Except String α → Outcome CryptoError α
  | .ok value => .ok value
  | .error e => .error (.keyPersistence (context ++ e))

variable (K : KyberLibrary) (J : SerdeJson)

def keyEncInfo : String := "add-kyber-key-enc-v1"

/-- The object that is written, with its fields in the order of a sorted map. -/
def savedObject (salt enc nonce decEncrypted : Bytes) : Json :=
  .object [("dec_encrypted", .string (hexEncode decEncrypted)), ("enc", .string (hexEncode enc)),
    ("nonce", .string (hexEncode nonce)), ("salt", .string (hexEncode salt))]

/-- What is in the file afterwards; `salt` and `nonce` are drawn. -/
def save (kp : MlKem1024Keypair K) (encryptionKey : Sized UInt8 32)
    (salt : Except String (Sized UInt8 32)) (nonce : Sized UInt8 12)
    (write : Except String Unit) : Outcome CryptoError String := do
  let salt ← orError "salt gen: " salt
  let aesKey := K.hkdf salt.val encryptionKey.val keyEncInfo
  let ciphertext ← orError "AES-GCM encrypt: " (K.encrypt aesKey nonce (K.decBytes kp.dec).val)
  let text := J.display (savedObject salt.val (K.encBytes kp.enc) nonce.val ciphertext)
  orError "write failed: " write
  return text

/-- The bytes of the four fields. -/
structure KeyFile where
  enc : Bytes
  nonce : Bytes
  decEncrypted : Bytes
  salt : Bytes
  deriving DecidableEq

def textField (data : Json) (name : String) : Outcome CryptoError String :=
  okOr (.keyPersistence ("missing " ++ name ++ " field")) ((data.get name).bind Json.asStr)

def decodeField (name hexText : String) : Outcome CryptoError Bytes :=
  okOr (.keyPersistence (name ++ " hex decode: " ++ K.hexError hexText)) (hexDecode hexText)

/-- A file from before there were salts has the salt zero. -/
def readSalt (data : Json) : Outcome CryptoError Bytes :=
  match (data.get "salt").bind Json.asStr with
  | some saltHex => decodeField K "salt" saltHex
  | none => .ok (List.replicate 32 0)

/-- `load` up to the use of the fields. -/
def readKeyFile (content : Except String String) : Outcome CryptoError KeyFile := do
  let content ← orError "read failed: " content
  let data ← orError "parse failed: " (J.fromStr content)
  let encHex ← textField data "enc"
  let nonceHex ← textField data "nonce"
  let decEncryptedHex ← textField data "dec_encrypted"
  let salt ← readSalt K data
  let enc ← decodeField K "enc" encHex
  let nonce ← decodeField K "nonce" nonceHex
  let decEncrypted ← decodeField K "dec_encrypted" decEncryptedHex
  return ⟨enc, nonce, decEncrypted, salt⟩

/-- The two keys, each from its own bytes. -/
def keysFrom (enc dec : Bytes) : Outcome CryptoError (MlKem1024Keypair K) := do
  let encKey ← okOr (.keyPersistence "invalid enc key bytes") (K.newFromSlice enc)
  let seed ← okOr (.keyPersistence "invalid seed length") (tryInto 64 dec)
  return ⟨encKey, K.fromSeed seed⟩

/-- `Nonce::from_slice` panics on another length than 12. -/
def load (content : Except String String) (encryptionKey : Sized UInt8 32) :
    Outcome CryptoError (MlKem1024Keypair K) := do
  let file ← readKeyFile K J content
  let aesKey := K.hkdf file.salt encryptionKey.val keyEncInfo
  let nonce ← unwrapOption (tryInto 12 file.nonce)
  let dec ← orError "AES-GCM decrypt: " (K.decrypt aesKey nonce file.decEncrypted)
  keysFrom K file.enc dec

def plainObject (enc dec : Bytes) : Json :=
  .object [("dec", .string (hexEncode dec)), ("enc", .string (hexEncode enc))]

def saveUnencrypted (kp : MlKem1024Keypair K) (write : Except String Unit) :
    Outcome CryptoError String := do
  let text := J.display (plainObject (K.encBytes kp.enc) (K.decBytes kp.dec).val)
  orError "write failed: " write
  return text

structure PlainKeyFile where
  enc : Bytes
  dec : Bytes
  deriving DecidableEq

def readPlainKeyFile (content : Except String String) : Outcome CryptoError PlainKeyFile := do
  let content ← orError "read failed: " content
  let data ← orError "parse failed: " (J.fromStr content)
  let encHex ← textField data "enc"
  let decHex ← textField data "dec"
  let enc ← decodeField K "enc" encHex
  let dec ← decodeField K "dec" decHex
  return ⟨enc, dec⟩

def loadUnencrypted (content : Except String String) :
    Outcome CryptoError (MlKem1024Keypair K) := do
  let file ← readPlainKeyFile K J content
  keysFrom K file.enc file.dec

/-- The file is JSON text. -/
def Parses (content : Except String String) (data : Json) : Prop :=
  ∃ text, content = .ok text ∧ J.fromStr text = .ok data

/-- A field holds these bytes in hexadecimal. -/
def HasBytes (data : Json) (name : String) (bytes : Bytes) : Prop :=
  ∃ hexText, (data.get name).bind Json.asStr = some hexText ∧ hexDecode hexText = some bytes

/-- The salt of a file, or zeros where it has none. -/
def HasSalt (data : Json) (salt : Bytes) : Prop :=
  HasBytes data "salt" salt ∨
    (data.get "salt").bind Json.asStr = none ∧ salt = List.replicate 32 0

def HoldsFile (content : Except String String) (file : KeyFile) : Prop :=
  ∃ data, Parses J content data ∧ HasBytes data "enc" file.enc ∧
    HasBytes data "nonce" file.nonce ∧ HasBytes data "dec_encrypted" file.decEncrypted ∧
    HasSalt data file.salt

def HoldsPlainFile (content : Except String String) (file : PlainKeyFile) : Prop :=
  ∃ data, Parses J content data ∧ HasBytes data "enc" file.enc ∧ HasBytes data "dec" file.dec

/-- The bytes are those of the encapsulation key of a seed, or of no key at all. -/
def BelongsTo (enc : Bytes) (seed : Sized UInt8 64) : Prop :=
  (K.newFromSlice enc).isSome → enc = K.encBytes (K.encapsulationKey (K.fromSeed seed))

/-- The nonce has its length, and the public key belongs to the seed that is decrypted. -/
def KeyFile.Fits (file : KeyFile) (encryptionKey : Sized UInt8 32) : Prop :=
  ∃ nonce : Sized UInt8 12, file.nonce = nonce.val ∧ ∀ seed : Sized UInt8 64,
    K.decrypt (K.hkdf file.salt encryptionKey.val keyEncInfo) nonce file.decEncrypted =
      .ok seed.val → BelongsTo K file.enc seed

def PlainKeyFile.Fits (file : PlainKeyFile) : Prop :=
  ∀ seed : Sized UInt8 64, file.dec = seed.val → BelongsTo K file.enc seed

variable {K} in
/-- A load ends without a panic, and a pair that it returns is one. -/
def Robust (result : Outcome CryptoError (MlKem1024Keypair K)) : Prop :=
  result ≠ .panicked ∧ ∀ kp, result = .ok kp → kp.enc = K.encapsulationKey kp.dec

section

variable {K J}

theorem orError_ne_panicked {α : Type} {context : String} {x : Except String α} :
    orError context x ≠ .panicked := by
  cases x <;> simp [orError]

theorem orError_eq_ok {α : Type} {context : String} {x : Except String α} {value : α} :
    orError context x = .ok value ↔ x = .ok value := by
  cases x <;> simp [orError]

theorem readSalt_eq_ok {data : Json} {salt : Bytes} :
    readSalt K data = .ok salt ↔ HasSalt data salt := by
  unfold readSalt HasSalt HasBytes
  cases (data.get "salt").bind Json.asStr with
  | none => simp [eq_comm]
  | some saltHex => simp [decodeField, okOr_eq_ok]

theorem readSalt_ne_panicked {data : Json} : readSalt K data ≠ .panicked := by
  unfold readSalt
  cases (data.get "salt").bind Json.asStr with
  | none => simp
  | some saltHex => exact okOr_ne_panicked

theorem readKeyFile_eq_ok {content : Except String String} {file : KeyFile} :
    readKeyFile K J content = .ok file ↔ HoldsFile J content file := by
  simp only [readKeyFile, Outcome.bind_eq_ok, orError_eq_ok, textField, decodeField, okOr_eq_ok,
    readSalt_eq_ok, Outcome.pure_eq, Outcome.ok.injEq]
  constructor
  · rintro ⟨text, read, data, parsed, encHex, hasEnc, nonceHex, hasNonce, decHex, hasDec, salt,
      hasSalt, enc, encBytes, nonce, nonceBytes, dec, decBytes, rfl⟩
    exact ⟨data, ⟨text, read, parsed⟩, ⟨encHex, hasEnc, encBytes⟩, ⟨nonceHex, hasNonce, nonceBytes⟩,
      ⟨decHex, hasDec, decBytes⟩, hasSalt⟩
  · rintro ⟨data, ⟨text, read, parsed⟩, ⟨encHex, hasEnc, encBytes⟩,
      ⟨nonceHex, hasNonce, nonceBytes⟩, ⟨decHex, hasDec, decBytes⟩, hasSalt⟩
    exact ⟨text, read, data, parsed, encHex, hasEnc, nonceHex, hasNonce, decHex, hasDec, _,
      hasSalt, _, encBytes, _, nonceBytes, _, decBytes, rfl⟩

theorem readPlainKeyFile_eq_ok {content : Except String String} {file : PlainKeyFile} :
    readPlainKeyFile K J content = .ok file ↔ HoldsPlainFile J content file := by
  simp only [readPlainKeyFile, Outcome.bind_eq_ok, orError_eq_ok, textField, decodeField,
    okOr_eq_ok, Outcome.pure_eq, Outcome.ok.injEq]
  constructor
  · rintro ⟨text, read, data, parsed, encHex, hasEnc, decHex, hasDec, enc, encBytes, dec, decBytes,
      rfl⟩
    exact ⟨data, ⟨text, read, parsed⟩, ⟨encHex, hasEnc, encBytes⟩, ⟨decHex, hasDec, decBytes⟩⟩
  · rintro ⟨data, ⟨text, read, parsed⟩, ⟨encHex, hasEnc, encBytes⟩, ⟨decHex, hasDec, decBytes⟩⟩
    exact ⟨text, read, data, parsed, encHex, hasEnc, decHex, hasDec, _, encBytes, _, decBytes, rfl⟩

theorem readKeyFile_ne_panicked (content : Except String String) :
    readKeyFile K J content ≠ .panicked := by
  unfold readKeyFile
  refine Outcome.bind_ne_panicked orError_ne_panicked fun _ _ => ?_
  refine Outcome.bind_ne_panicked orError_ne_panicked fun _ _ => ?_
  refine Outcome.bind_ne_panicked okOr_ne_panicked fun _ _ => ?_
  refine Outcome.bind_ne_panicked okOr_ne_panicked fun _ _ => ?_
  refine Outcome.bind_ne_panicked okOr_ne_panicked fun _ _ => ?_
  refine Outcome.bind_ne_panicked readSalt_ne_panicked fun _ _ => ?_
  refine Outcome.bind_ne_panicked okOr_ne_panicked fun _ _ => ?_
  refine Outcome.bind_ne_panicked okOr_ne_panicked fun _ _ => ?_
  exact Outcome.bind_ne_panicked okOr_ne_panicked fun _ _ => by simp

theorem readPlainKeyFile_ne_panicked (content : Except String String) :
    readPlainKeyFile K J content ≠ .panicked := by
  unfold readPlainKeyFile
  refine Outcome.bind_ne_panicked orError_ne_panicked fun _ _ => ?_
  refine Outcome.bind_ne_panicked orError_ne_panicked fun _ _ => ?_
  refine Outcome.bind_ne_panicked okOr_ne_panicked fun _ _ => ?_
  refine Outcome.bind_ne_panicked okOr_ne_panicked fun _ _ => ?_
  refine Outcome.bind_ne_panicked okOr_ne_panicked fun _ _ => ?_
  exact Outcome.bind_ne_panicked okOr_ne_panicked fun _ _ => by simp

theorem tryInto_eq_some {n : Nat} {items : Bytes} {sized : Sized UInt8 n} :
    tryInto n items = some sized ↔ items = sized.val := by
  constructor
  · intro fits
    unfold tryInto at fits
    split at fits
    · cases fits
      rfl
    · cases fits
  · rintro rfl
    exact tryInto_val sized

theorem keysFrom_eq_ok {enc dec : Bytes} {kp : MlKem1024Keypair K} :
    keysFrom K enc dec = .ok kp ↔ K.newFromSlice enc = some kp.enc ∧
      ∃ seed : Sized UInt8 64, dec = seed.val ∧ kp.dec = K.fromSeed seed := by
  simp only [keysFrom, Outcome.bind_eq_ok, okOr_eq_ok, tryInto_eq_some, Outcome.pure_eq,
    Outcome.ok.injEq]
  constructor
  · rintro ⟨key, known, seed, sized, rfl⟩
    exact ⟨known, seed, sized, rfl⟩
  · rintro ⟨known, seed, sized, made⟩
    exact ⟨_, known, seed, sized, by rw [← made]⟩

theorem keysFrom_ne_panicked {enc dec : Bytes} : keysFrom K enc dec ≠ .panicked :=
  Outcome.bind_ne_panicked okOr_ne_panicked fun _ _ =>
    Outcome.bind_ne_panicked okOr_ne_panicked fun _ _ => by simp

theorem robust_keysFrom_iff {enc dec : Bytes} :
    Robust (keysFrom K enc dec) ↔
      ∀ seed : Sized UInt8 64, dec = seed.val → BelongsTo K enc seed := by
  constructor
  · rintro ⟨-, pairs⟩ seed rfl known
    obtain ⟨key, parsed⟩ := Option.isSome_iff_exists.mp known
    have pair := pairs ⟨key, K.fromSeed seed⟩ (keysFrom_eq_ok.mpr ⟨parsed, seed, rfl, rfl⟩)
    rw [← K.encBytes_of_newFromSlice _ _ parsed]
    exact congrArg K.encBytes pair
  · intro belongs
    refine ⟨keysFrom_ne_panicked, fun kp loaded => ?_⟩
    obtain ⟨parsed, seed, rfl, dec⟩ := keysFrom_eq_ok.mp loaded
    have bytes := belongs seed rfl (by rw [parsed]; rfl)
    rw [bytes, K.newFromSlice_encBytes] at parsed
    rw [dec]
    exact (Option.some.inj parsed).symm

theorem keysFrom_of_pair (kp : MlKem1024Keypair K) :
    keysFrom K (K.encBytes kp.enc) (K.decBytes kp.dec).val = .ok kp :=
  keysFrom_eq_ok.mpr ⟨K.newFromSlice_encBytes kp.enc, K.decBytes kp.dec, rfl,
    (K.fromSeed_decBytes kp.dec).symm⟩

/-- Where the first part of a call cannot fail, the whole is robust as the rest is. -/
theorem robust_bind_iff {α : Type} {x : Outcome CryptoError α}
    {f : α → Outcome CryptoError (MlKem1024Keypair K)} (safe : x ≠ .panicked) :
    Robust (x >>= f) ↔ ∀ value, x = .ok value → Robust (f value) := by
  cases x with
  | ok value => simp
  | error e => simp [Robust]
  | panicked => exact absurd rfl safe

end

theorem robust_load_iff (content : Except String String) (encryptionKey : Sized UInt8 32) :
    Robust (load K J content encryptionKey) ↔
      ∀ file, HoldsFile J content file → file.Fits K encryptionKey := by
  unfold load
  rw [robust_bind_iff (readKeyFile_ne_panicked content)]
  refine forall_congr' fun file => ?_
  rw [readKeyFile_eq_ok]
  refine imp_congr_right fun _ => ?_
  dsimp only
  cases sized : tryInto 12 file.nonce with
  | none =>
    refine iff_of_false (fun robust => robust.1 rfl) ?_
    rintro ⟨nonce, same, -⟩
    rw [tryInto_eq_some.mpr same] at sized
    cases sized
  | some nonce =>
    have bytes := tryInto_eq_some.mp sized
    have opened : file.Fits K encryptionKey ↔ ∀ seed : Sized UInt8 64,
        K.decrypt (K.hkdf file.salt encryptionKey.val keyEncInfo) nonce file.decEncrypted =
          .ok seed.val → BelongsTo K file.enc seed := by
      constructor
      · rintro ⟨other, same, fits⟩
        rwa [← Subtype.ext (bytes.symm.trans same)] at fits
      · intro fits
        exact ⟨nonce, bytes, fits⟩
    rw [opened]
    change Robust (orError _ _ >>= keysFrom K file.enc) ↔ _
    rw [robust_bind_iff orError_ne_panicked]
    constructor
    · intro robust seed decrypted
      exact robust_keysFrom_iff.mp (robust _ (orError_eq_ok.mpr decrypted)) seed rfl
    · intro fits dec decrypted
      refine robust_keysFrom_iff.mpr fun seed same => fits seed ?_
      rw [orError_eq_ok.mp decrypted, same]

theorem robust_loadUnencrypted_iff (content : Except String String) :
    Robust (loadUnencrypted K J content) ↔
      ∀ file, HoldsPlainFile J content file → file.Fits K := by
  unfold loadUnencrypted
  rw [robust_bind_iff (readPlainKeyFile_ne_panicked content)]
  refine forall_congr' fun file => ?_
  rw [readPlainKeyFile_eq_ok, robust_keysFrom_iff]
  rfl

/-- `serde_json` reads a value back from its own text. -/
def ReadsBack (value : Json) : Prop := J.fromStr (J.display value) = .ok value

section

variable {K J}

theorem hasBytes_hexEncode {fields : List (String × Json)} {name : String} {bytes : Bytes}
    (found : fields.lookup name = some (.string (hexEncode bytes))) :
    HasBytes (.object fields) name bytes := by
  refine ⟨hexEncode bytes, ?_, hexDecode_hexEncode bytes⟩
  rw [Json.get, found]
  rfl

theorem holdsFile_savedObject {text : String} {salt enc nonce decEncrypted : Bytes}
    (parsed : J.fromStr text = .ok (savedObject salt enc nonce decEncrypted)) :
    HoldsFile J (.ok text) ⟨enc, nonce, decEncrypted, salt⟩ :=
  ⟨_, ⟨text, rfl, parsed⟩, hasBytes_hexEncode rfl, hasBytes_hexEncode rfl,
    hasBytes_hexEncode rfl, .inl (hasBytes_hexEncode rfl)⟩

theorem holdsPlainFile_plainObject {text : String} {enc dec : Bytes}
    (parsed : J.fromStr text = .ok (plainObject enc dec)) :
    HoldsPlainFile J (.ok text) ⟨enc, dec⟩ :=
  ⟨_, ⟨text, rfl, parsed⟩, hasBytes_hexEncode rfl, hasBytes_hexEncode rfl⟩

theorem load_save {kp : MlKem1024Keypair K} {encryptionKey : Sized UInt8 32}
    {salt : Except String (Sized UInt8 32)} {nonce : Sized UInt8 12}
    {write : Except String Unit} {text : String}
    (reads : ∀ drawn ct, salt = .ok drawn →
      K.encrypt (K.hkdf drawn.val encryptionKey.val keyEncInfo) nonce (K.decBytes kp.dec).val =
        .ok ct → ReadsBack J (savedObject drawn.val (K.encBytes kp.enc) nonce.val ct))
    (saved : save K J kp encryptionKey salt nonce write = .ok text) :
    load K J (.ok text) encryptionKey = .ok kp := by
  simp only [save, Outcome.bind_eq_ok, orError_eq_ok, Outcome.pure_eq, Outcome.ok.injEq] at saved
  obtain ⟨salt, drawn, ct, encrypted, -, -, rfl⟩ := saved
  have held := holdsFile_savedObject (reads salt ct drawn encrypted)
  rw [load, readKeyFile_eq_ok.mpr held]
  dsimp only [Outcome.ok_bind]
  rw [tryInto_val]
  change orError _ _ >>= keysFrom K (K.encBytes kp.enc) = _
  rw [K.decrypt_encrypt _ _ _ _ encrypted]
  exact keysFrom_of_pair kp

theorem loadUnencrypted_saveUnencrypted {kp : MlKem1024Keypair K} {write : Except String Unit}
    {text : String}
    (reads : ReadsBack J (plainObject (K.encBytes kp.enc) (K.decBytes kp.dec).val))
    (saved : saveUnencrypted K J kp write = .ok text) :
    loadUnencrypted K J (.ok text) = .ok kp := by
  simp only [saveUnencrypted, Outcome.bind_eq_ok, orError_eq_ok, Outcome.pure_eq,
    Outcome.ok.injEq] at saved
  obtain ⟨-, -, rfl⟩ := saved
  have held := holdsPlainFile_plainObject reads
  rw [loadUnencrypted, readPlainKeyFile_eq_ok.mpr held]
  exact keysFrom_of_pair kp

end

/-- What was saved is loaded again. A file of any content is loaded without a panic, and as a
pair, exactly if its nonce has twelve bytes and its public key belongs to its seed. -/
theorem key_files_iff :
    (∀ kp encryptionKey salt nonce write text,
      (∀ drawn ct, salt = .ok drawn →
        K.encrypt (K.hkdf drawn.val encryptionKey.val keyEncInfo) nonce (K.decBytes kp.dec).val =
          .ok ct → ReadsBack J (savedObject drawn.val (K.encBytes kp.enc) nonce.val ct)) →
      save K J kp encryptionKey salt nonce write = .ok text →
      load K J (.ok text) encryptionKey = .ok kp) ∧
    (∀ kp write text,
      ReadsBack J (plainObject (K.encBytes kp.enc) (K.decBytes kp.dec).val) →
      saveUnencrypted K J kp write = .ok text → loadUnencrypted K J (.ok text) = .ok kp) ∧
    (∀ content encryptionKey, Robust (load K J content encryptionKey) ↔
      ∀ file, HoldsFile J content file → file.Fits K encryptionKey) ∧
    ∀ content, Robust (loadUnencrypted K J content) ↔
      ∀ file, HoldsPlainFile J content file → file.Fits K :=
  ⟨fun _ _ _ _ _ _ => load_save, fun _ _ _ => loadUnencrypted_saveUnencrypted,
    robust_load_iff K J, robust_loadUnencrypted_iff K J⟩

theorem length_head (seed : Sized UInt8 64) : (seed.val.take 4).length = 4 := by
  rw [List.length_take, seed.property]
  rfl

theorem length_sums (sum : UInt8) : (List.replicate 32 sum).length = 32 := List.length_replicate

def shiftBytes (key : Sized UInt8 32) (nonce : Sized UInt8 12) : UInt8 :=
  key.val.sum + nonce.val.sum

/-- A key has four bytes, those of its seed in front, and encryption adds a byte to all others
and behind them. -/
def headLibrary : KyberLibrary where
  EncapsulationKey := Sized UInt8 4
  DecapsulationKey := Sized UInt8 64
  encBytes key := key.val
  newFromSlice := tryInto 4
  decBytes key := key
  fromSeed seed := seed
  encapsulationKey key := ⟨key.val.take 4, length_head key⟩
  hkdf salt ikm _ := ⟨List.replicate 32 (salt ++ ikm).sum, length_sums _⟩
  encrypt key nonce text := .ok (text.map (· + shiftBytes key nonce) ++ [shiftBytes key nonce])
  decrypt key nonce ct :=
    if ct.getLast? = some (shiftBytes key nonce) then
      .ok (ct.dropLast.map (· - shiftBytes key nonce))
    else .error "aead::Error"
  hexError _ := "Odd number of digits"
  newFromSlice_encBytes := tryInto_val
  encBytes_of_newFromSlice _ _ parsed := (tryInto_eq_some.mp parsed).symm
  fromSeed_decBytes _ := rfl
  decrypt_encrypt key nonce text ct encrypted := by
    cases encrypted
    rw [if_pos (by simp), List.dropLast_concat, List.map_map]
    simp [Function.comp_def]

def zeros (n : Nat) : Bytes := List.replicate n 0

theorem length_zeros (n : Nat) : (zeros n).length = n := List.length_replicate

def zeroBytes (n : Nat) : Sized UInt8 n := ⟨zeros n, length_zeros n⟩

/-- A nonce of eleven bytes, and nothing else wrong. -/
def shortNonceFile : Json := savedObject (zeros 32) (zeros 4) (zeros 11) (zeros 65)

/-- The public key of another seed. -/
def mixedFile : Json := plainObject [1, 1, 1, 1] (zeros 64)

def sampleJson : SerdeJson := knownJson [shortNonceFile, mixedFile]

theorem shortNonceFile_panics :
    ¬ Robust (load headLibrary sampleJson (.ok (compact shortNonceFile)) (zeroBytes 32)) := by
  intro robust
  have parsed : sampleJson.fromStr (compact shortNonceFile) = .ok shortNonceFile := by
    rw [sampleJson, knownJson_fromStr]
  have held := holdsFile_savedObject parsed
  obtain ⟨nonce, same, -⟩ := (robust_load_iff headLibrary sampleJson _ _).mp robust _ held
  have sized := congrArg List.length same
  rw [nonce.property] at sized
  cases sized

theorem mixedFile_no_pair :
    ¬ Robust (loadUnencrypted headLibrary sampleJson (.ok (compact mixedFile))) := by
  intro robust
  have parsed : sampleJson.fromStr (compact mixedFile) = .ok mixedFile := by
    have differ : compact shortNonceFile ≠ compact mixedFile := by decide +kernel
    rw [sampleJson, knownJson_fromStr_second mixedFile [] differ]
  have held := holdsPlainFile_plainObject parsed
  have fits := (robust_loadUnencrypted_iff headLibrary sampleJson _).mp robust _ held
  have bytes := fits (zeroBytes 64) rfl rfl
  exact absurd bytes (by decide +kernel)

/-- A file with a short nonce, and one with the public key of another seed. -/
theorem files_break_load :
    ¬ Robust (load headLibrary sampleJson (.ok (compact shortNonceFile)) (zeroBytes 32)) ∧
      ¬ Robust (loadUnencrypted headLibrary sampleJson (.ok (compact mixedFile))) :=
  ⟨shortNonceFile_panics, mixedFile_no_pair⟩

theorem knownJson_readsBack (value : Json) (rest : List Json) :
    ReadsBack (knownJson (value :: rest)) value := knownJson_fromStr value rest

def samplePair : MlKem1024Keypair headLibrary := ⟨zeroBytes 4, zeroBytes 64⟩

/-- The object that is saved for the pair of zeros. -/
def sampleObject : Json := savedObject (zeros 32) (zeros 4) (zeros 12) (zeros 65)

theorem sampleObject_saved :
    save headLibrary (knownJson [sampleObject]) samplePair (zeroBytes 32) (.ok (zeroBytes 32))
      (zeroBytes 12) (.ok ()) = .ok (compact sampleObject) := by
  have sealed : headLibrary.encrypt (headLibrary.hkdf (zeros 32) (zeros 32) keyEncInfo)
      (zeroBytes 12) (zeros 64) = .ok (zeros 65) := by
    decide +kernel
  have steps : save headLibrary (knownJson [sampleObject]) samplePair (zeroBytes 32)
      (.ok (zeroBytes 32)) (zeroBytes 12) (.ok ()) =
        orError "AES-GCM encrypt: " (headLibrary.encrypt
          (headLibrary.hkdf (zeros 32) (zeros 32) keyEncInfo) (zeroBytes 12) (zeros 64)) >>=
          fun ct => .ok (compact (savedObject (zeros 32) (zeros 4) (zeros 12) ct)) := rfl
  rw [steps, sealed]
  rfl

theorem key_files_sample :
    load headLibrary (knownJson [sampleObject]) (.ok (compact sampleObject)) (zeroBytes 32) =
      .ok samplePair := by
  have sealed : headLibrary.encrypt (headLibrary.hkdf (zeros 32) (zeros 32) keyEncInfo)
      (zeroBytes 12) (zeros 64) = .ok (zeros 65) := by
    decide +kernel
  refine (key_files_iff headLibrary (knownJson [sampleObject])).1 samplePair (zeroBytes 32)
    (.ok (zeroBytes 32)) (zeroBytes 12) (.ok ()) _ ?_ sampleObject_saved
  intro drawn ct same encrypted
  cases same
  change headLibrary.encrypt (headLibrary.hkdf (zeros 32) (zeros 32) keyEncInfo)
    (zeroBytes 12) (zeros 64) = .ok ct at encrypted
  rw [sealed] at encrypted
  cases encrypted
  have object : savedObject (zeroBytes 32).val (headLibrary.encBytes samplePair.enc)
      (zeroBytes 12).val (zeros 65) = sampleObject := rfl
  rw [object]
  exact knownJson_readsBack sampleObject []

end KeyFiles

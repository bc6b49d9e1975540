import AddMessenger.FailedAttempts
import AddMessenger.KeyFiles
import AddMessenger.Simulations

/-!
# The vault of the Master App Key

The passphrase mode of `crypto/src/tpm_vault.rs`, with the commands `init` and `unlock` of
`client/src/main.rs` as they are built without the feature `tpm`. The commands run one after the
other, and every access to a file succeeds; `display` stands for `to_string_pretty`.
-/

namespace VaultUnlock

open ByteStrings Outcomes Protocol
open FailedAttempts (maxWrongAttempts checkFailedAttempts persisted countText)
open KeyFiles (ReadsBack)

inductive CryptoError where
  | io (text : String)
  | serialization (text : String)
  | derivationFailed (text : String)
  | encryptFailed (text : String)
  | decryptFailed (text : String)
  deriving DecidableEq

/-- Salt strings, Argon2id with the parameters of the vault, AES-256-GCM and base64, as they are
documented. `serdeError` is the text of a JSON value that is no vault. -/
structure VaultLibrary where
  SaltString : Type
  asStr : SaltString → String
  fromB64 : String → Except String SaltString
  argon2id : (credential salt : Bytes) → Except String (Sized UInt8 32)
  encrypt : (kek : Sized UInt8 32) → (nonce : Sized UInt8 12) → (aad : String) → Bytes →
    Except String Bytes
  decrypt : (kek : Sized UInt8 32) → (nonce : Sized UInt8 12) → (aad : String) → Bytes →
    Except String Bytes
  b64Encode : Bytes → String
  b64Decode : String → Except String Bytes
  serdeError : Json → String
  fromB64_asStr : ∀ salt, fromB64 (asStr salt) = .ok salt
  decrypt_encrypt : ∀ kek nonce aad text ct,
    encrypt kek nonce aad text = .ok ct → decrypt kek nonce aad ct = .ok text
  b64Decode_b64Encode : ∀ bytes, b64Decode (b64Encode bytes) = .ok bytes

abbrev MasterAppKey : Type := Sized UInt8 32

inductive VaultKind where
  | tpm (sealedB64 : String)
  | passphrase (wrappedB64 : String)
  deriving DecidableEq

structure VaultFile where
  version : UInt8
  kind : VaultKind
  pwSaltB64 : Option String
  deriving DecidableEq

/-- The tag `t` beside the content `d`. -/
def VaultKind.toJson : VaultKind → Json
  | .tpm sealedB64 =>
    .object [("t", .string "Tpm"), ("d", .object [("sealed_b64", .string sealedB64)])]
  | .passphrase wrappedB64 =>
    .object [("t", .string "Passphrase"), ("d", .object [("wrapped_b64", .string wrappedB64)])]

def VaultKind.ofJson (value : Json) : Option VaultKind := do
  let tag ← (value.get "t").bind Json.asStr
  let content ← value.get "d"
  match tag with
  | "Tpm" => return .tpm (← (content.get "sealed_b64").bind Json.asStr)
  | "Passphrase" => return .passphrase (← (content.get "wrapped_b64").bind Json.asStr)
  | _ => none

def VaultFile.toJson (vault : VaultFile) : Json :=
  .object (("version", .number (.posInt vault.version.toUInt64)) :: ("kind", vault.kind.toJson) ::
    vault.pwSaltB64.toList.map fun salt => ("pw_salt_b64", .string salt))

/-- A field that may be absent or null. -/
def optionalStr (value : Json) (name : String) : Option (Option String) :=
  match value.get name with
  | none | some .null => some none
  | some field => field.asStr.map some

def VaultFile.ofJson (value : Json) : Option VaultFile := do
  let version ← (value.get "version").bind Json.asU64
  let kind ← (value.get "kind").bind VaultKind.ofJson
  let pwSaltB64 ← optionalStr value "pw_salt_b64"
  if version ≤ 255 then return ⟨version.toUInt8, kind, pwSaltB64⟩ else none

variable (L : VaultLibrary) (J : SerdeJson)

/-- The text that is in the file afterwards. -/
def writeTo (vault : VaultFile) : String := J.display vault.toJson

def readFrom (content : String) : Except CryptoError VaultFile := do
  let value ← (J.fromStr content).mapError fun e => .serialization ("vault parse: " ++ e)
  match VaultFile.ofJson value with
  | some vault => return vault
  | none => .error (.serialization ("vault parse: " ++ L.serdeError value))

def aad : String := "add-mak-v1"

def deriveKek (credential : Bytes) (salt : L.SaltString) : Except CryptoError (Sized UInt8 32) :=
  (L.argon2id credential (asBytes (L.asStr salt))).mapError .derivationFailed

/-- The nonce is drawn. -/
def aesWrap (kek : Sized UInt8 32) (nonce : Sized UInt8 12) (plaintext : Bytes) :
    Except CryptoError Bytes := do
  let ct ← (L.encrypt kek nonce aad plaintext).mapError fun e => .encryptFailed ("aes-wrap: " ++ e)
  return nonce.val ++ ct

def aesUnwrap (kek : Sized UInt8 32) (wrapped : Bytes) : Except CryptoError Bytes :=
  match tryInto 12 (wrapped.take 12) with
  | none => .error (.decryptFailed "aes-unwrap: too short")
  | some nonce => (L.decrypt kek nonce aad (wrapped.drop 12)).mapError fun _ =>
      .decryptFailed "aes-unwrap: auth failed (bad password)"

def sealWithPassphrase (mak : MasterAppKey) (password : Bytes) (salt : L.SaltString)
    (nonce : Sized UInt8 12) : Except CryptoError VaultFile := do
  let kek ← deriveKek L password salt
  let wrapped ← aesWrap L kek nonce mak.val
  return ⟨1, .passphrase (L.b64Encode wrapped), some (L.asStr salt)⟩

def unsealWithPassphrase (vault : VaultFile) (password : Bytes) :
    Except CryptoError MasterAppKey :=
  match vault.kind with
  | .tpm _ => .error (.decryptFailed "vault is not passphrase mode")
  | .passphrase wrappedB64 =>
    match vault.pwSaltB64 with
    | none => .error (.decryptFailed "passphrase vault missing salt")
    | some text => do
      let salt ← (L.fromB64 text).mapError fun e => .decryptFailed ("bad salt: " ++ e)
      let wrapped ← (L.b64Decode wrappedB64).mapError fun e =>
        .decryptFailed ("bad wrapped b64: " ++ e)
      let kek ← deriveKek L password salt
      let raw ← aesUnwrap L kek wrapped
      match tryInto 32 raw with
      | some mak => return mak
      | none => .error (.decryptFailed "unexpected MAK length")

/-- The files in `~/.add` that the commands read; `attempts` is `failed_attempts.json`. -/
structure Home where
  vault : Option String
  settings : Option String
  attempts : Option Bytes

structure Draws where
  mak : MasterAppKey
  salt : L.SaltString
  nonce : Sized UInt8 12

inductive Answer where
  | aborted
  | created
  | noVault
  | unlocked (mak : MasterAppKey)
  | destroyed
  | failed (e : CryptoError)
  deriving DecidableEq

/-- The vault that `init` makes: it takes a PIN for a passphrase, and without credentials there
is none. -/
def initVault (pin password : Option String) (d : Draws L) :
    Except CryptoError (Option VaultFile) :=
  match pin with
  | some pin => (sealWithPassphrase L d.mak (asBytes pin) d.salt d.nonce).map some
  | none =>
    match password with
    | some password => (sealWithPassphrase L d.mak (asBytes password) d.salt d.nonce).map some
    | none => .ok none

/-- The answer and the vault file afterwards; `confirmed`: there is no identity yet, or its loss
was confirmed. -/
def init (file : Option String) (confirmed : Bool) (pin password : Option String) (d : Draws L) :
    Answer × Option String :=
  if confirmed then
    match initVault L pin password d with
    | .error e => (.failed e, file)
    | .ok none => (.created, file)
    | .ok (some vault) => (.created, some (writeTo J vault))
  else (.aborted, file)

/-- Only the password is looked at. -/
def unlockMak (content : String) (password : Option String) : Except CryptoError MasterAppKey := do
  let vault ← readFrom L J content
  match password with
  | some password => unsealWithPassphrase L vault (asBytes password)
  | none => .error (.io "Either --pin or --password required for unlock")

def threshold (settings : Option String) : UInt8 :=
  maxWrongAttempts (fun text => (J.fromStr text).toOption) settings

/-- `removed`: `self_destruct` could remove the directory. -/
def unlock (s : Home) (_pin password : Option String) (removed : Bool) : Answer × Home :=
  match s.vault with
  | none => (.noVault, s)
  | some content =>
    match unlockMak L J content password with
    | .ok mak => (.unlocked mak, { s with attempts := none })
    | .error e =>
      match checkFailedAttempts (threshold J s.settings) s.attempts true with
      | .error (.io text) => (.failed (.io text), s)
      | .ok (.done true) => (.destroyed, if removed then ⟨none, none, none⟩ else s)
      | .ok (.done false) => (.failed e, s)
      | .ok (.persist count) => (.failed e, { s with attempts := some (countText count) })

inductive Event where
  | init (confirmed : Bool) (pin password : Option String) (d : Draws L)
  | unlock (pin password : Option String) (removed : Bool)
  | settings (text : Option String)

def step (s : Home) : Event L → Answer × Home
  | .init confirmed pin password d =>
    let (answer, vault) := init L J s.vault confirmed pin password d
    (answer, { s with vault })
  | .unlock pin password removed => unlock L J s pin password removed
  | .settings text => (.created, { s with settings := text })

def fresh : Home := ⟨none, none, none⟩

/-- A vault with the number of failed attempts in a row. -/
structure Watch where
  vault : Option String
  settings : Option String
  streak : Nat

/-- The attempt that reaches the threshold destroys everything, and a success starts anew. -/
def watch (w : Watch) : Event L → Answer × Watch
  | .init confirmed pin password d =>
    let (answer, vault) := init L J w.vault confirmed pin password d
    (answer, { w with vault })
  | .settings text => (.created, { w with settings := text })
  | .unlock _ password removed =>
    match w.vault with
    | none => (.noVault, w)
    | some content =>
      match unlockMak L J content password with
      | .ok mak => (.unlocked mak, { w with streak := 0 })
      | .error e =>
        if (threshold J w.settings).toNat ≤ w.streak + 1 then
          (.destroyed, if removed then ⟨none, none, 0⟩ else w)
        else (.failed e, { w with streak := w.streak + 1 })

/-- The file holds the number of failures in a row. -/
structure Counted (s : Home) (w : Watch) : Prop where
  vault : s.vault = w.vault
  settings : s.settings = w.settings
  attempts : s.attempts = persisted w.streak
  few : w.streak < 20

section

variable {L J}

theorem threshold_bounds (settings : Option String) :
    3 ≤ (threshold J settings).toNat ∧ (threshold J settings).toNat ≤ 20 :=
  FailedAttempts.maxWrongAttempts_bounds _ settings

theorem persisted_succ (n : Nat) : persisted (n + 1) = some (countText (UInt8.ofNat (n + 1))) :=
  if_neg (Nat.succ_ne_zero n)

/-- The threshold may have been lowered since the last attempt. -/
theorem check_counted {threshold : UInt8} {n : Nat} (few : n < 20) :
    checkFailedAttempts threshold (persisted n) true =
      .ok (if threshold.toNat ≤ n + 1 then .done true else .persist (UInt8.ofNat (n + 1))) := by
  have reach : threshold ≤ UInt8.ofNat (n + 1) ↔ threshold.toNat ≤ n + 1 := by
    rw [UInt8.le_iff_toNat_le, UInt8.toNat_ofNat', Nat.mod_eq_of_lt (by omega)]
  rw [checkFailedAttempts, FailedAttempts.failedCount_persisted]
  change (if threshold ≤ FailedAttempts.incremented (UInt8.ofNat n) then Except.ok _
    else .ok (FailedAttempts.Checked.persist (FailedAttempts.incremented (UInt8.ofNat n)))) = _
  rw [FailedAttempts.incremented_ofNat (by omega)]
  simp only [reach]
  split <;> rfl

/-- A failed attempt, by the number of those before it. -/
theorem unlock_error {s : Home} {content : String} {pin password : Option String} {n : Nat}
    {e : CryptoError} (removed : Bool) (here : s.vault = some content)
    (attempts : s.attempts = persisted n) (few : n < 20)
    (fails : unlockMak L J content password = .error e) :
    unlock L J s pin password removed =
      if (threshold J s.settings).toNat ≤ n + 1 then
        (.destroyed, if removed then ⟨none, none, none⟩ else s)
      else (.failed e, { s with attempts := persisted (n + 1) }) := by
  simp only [unlock, here, fails, attempts, check_counted few]
  by_cases reach : (threshold J s.settings).toNat ≤ n + 1
  · simp only [if_pos reach]
  · simp only [if_neg reach, persisted_succ]

theorem simulates_watch : Mealy.Simulates (step L J) (watch L J) Counted := by
  intro s w e counted
  obtain ⟨vault, settings, attempts, few⟩ := counted
  cases e with
  | init confirmed pin password d =>
    simp only [step, watch, vault]
    exact ⟨trivial, rfl, settings, attempts, few⟩
  | settings text => exact ⟨rfl, vault, rfl, attempts, few⟩
  | unlock pin password removed =>
    cases file : s.vault with
    | none =>
      have same : w.vault = none := vault.symm.trans file
      simp only [step, watch, unlock, file, same]
      exact ⟨trivial, vault, settings, attempts, few⟩
    | some content =>
      have same : w.vault = some content := vault.symm.trans file
      cases opened : unlockMak L J content password with
      | ok mak =>
        simp only [step, watch, unlock, file, same, opened]
        exact ⟨trivial, rfl, settings, rfl, Nat.zero_lt_succ 19⟩
      | error e =>
        have highest := (threshold_bounds (J := J) w.settings).2
        simp only [step, watch, same, opened, unlock_error removed file attempts few opened,
          settings]
        by_cases reach : (threshold J w.settings).toNat ≤ w.streak + 1
        · simp only [if_pos reach]
          cases removed with
          | true => exact ⟨trivial, rfl, rfl, rfl, Nat.zero_lt_succ 19⟩
          | false => exact ⟨trivial, vault, settings, attempts, few⟩
        · simp only [if_neg reach]
          refine ⟨trivial, file, rfl, rfl, ?_⟩
          change w.streak + 1 < 20
          omega

end

/-- In every run of the commands that starts without files the answers are those of the streak: the
attempt that completes a threshold of failures in a row destroys the identity, and no other
does. -/
theorem unlock_counts_streak (run : List (Event L)) :
    Mealy.outputs (step L J) fresh run = Mealy.outputs (watch L J) ⟨none, none, 0⟩ run :=
  simulates_watch.outputs ⟨rfl, rfl, rfl, by decide⟩ run

section

variable {L J}

theorem ofJson_toJson (vault : VaultFile) : VaultFile.ofJson vault.toJson = some vault := by
  obtain ⟨version, kind, salt⟩ := vault
  have small : version.toUInt64 ≤ 255 := by
    rw [UInt64.le_iff_toNat_le, UInt8.toNat_toUInt64]
    exact Nat.le_of_lt_succ version.toNat_lt
  cases kind <;> cases salt <;>
    simp [VaultFile.ofJson, VaultFile.toJson, VaultKind.toJson, VaultKind.ofJson, optionalStr,
      Json.get, Json.asU64, Json.asStr, List.lookup, small]

theorem readFrom_writeTo {vault : VaultFile} (reads : ReadsBack J vault.toJson) :
    readFrom L J (writeTo J vault) = .ok vault := by
  rw [readFrom, writeTo, reads]
  change (match VaultFile.ofJson vault.toJson with
    | some vault => pure vault
    | none => _) = _
  rw [ofJson_toJson]
  rfl

theorem aesUnwrap_aesWrap {kek : Sized UInt8 32} {nonce : Sized UInt8 12}
    {plaintext wrapped : Bytes} (sealed : aesWrap L kek nonce plaintext = .ok wrapped) :
    aesUnwrap L kek wrapped = .ok plaintext := by
  cases encrypted : L.encrypt kek nonce aad plaintext with
  | error e =>
    rw [aesWrap, encrypted] at sealed
    cases sealed
  | ok ct =>
    rw [aesWrap, encrypted] at sealed
    cases sealed
    rw [aesUnwrap, List.take_left' nonce.2, List.drop_left' nonce.2, tryInto_val]
    dsimp only
    rw [L.decrypt_encrypt _ _ _ _ _ encrypted]
    rfl

/-- The round trip of the vault. -/
theorem unseal_seal {mak : MasterAppKey} {password : Bytes} {salt : L.SaltString}
    {nonce : Sized UInt8 12} {vault : VaultFile}
    (sealed : sealWithPassphrase L mak password salt nonce = .ok vault) :
    unsealWithPassphrase L vault password = .ok mak := by
  cases derived : deriveKek L password salt with
  | error e =>
    rw [sealWithPassphrase, derived] at sealed
    cases sealed
  | ok kek =>
    cases wraps : aesWrap L kek nonce mak.val with
    | error e =>
      rw [sealWithPassphrase, derived] at sealed
      change (aesWrap L kek nonce mak.val >>= _) = _ at sealed
      rw [wraps] at sealed
      cases sealed
    | ok wrapped =>
      rw [sealWithPassphrase, derived] at sealed
      change (aesWrap L kek nonce mak.val >>= _) = _ at sealed
      rw [wraps] at sealed
      cases sealed
      simp only [unsealWithPassphrase, L.fromB64_asStr, L.b64Decode_b64Encode]
      change (deriveKek L password salt >>= fun kek => aesUnwrap L kek wrapped >>= _) = _
      rw [derived]
      change (aesUnwrap L kek wrapped >>= _) = _
      rw [aesUnwrap_aesWrap wraps]
      change (match tryInto 32 mak.val with
        | some mak => pure mak
        | none => _) = _
      rw [tryInto_val]
      rfl

theorem unlockMak_none (content : String) : ∃ e, unlockMak L J content none = .error e := by
  unfold unlockMak
  cases readFrom L J content with
  | error e => exact ⟨e, rfl⟩
  | ok vault => exact ⟨_, rfl⟩

/-- The credential that `init` seals under: the PIN before the password. -/
def credential (pin password : Option String) : Option String := pin <|> password

theorem initVault_some {pin password : Option String} {d : Draws L} {vault : VaultFile}
    (made : initVault L pin password d = .ok (some vault)) :
    ∃ c, credential pin password = some c ∧
      sealWithPassphrase L d.mak (asBytes c) d.salt d.nonce = .ok vault := by
  have unmap : ∀ x : Except CryptoError VaultFile, x.map some = .ok (some vault) →
      x = .ok vault := by
    intro x mapped
    cases x with
    | error e => cases mapped
    | ok value =>
      cases mapped
      rfl
  cases pin with
  | some pin => exact ⟨pin, rfl, unmap _ made⟩
  | none =>
    cases password with
    | some password => exact ⟨password, rfl, unmap _ made⟩
    | none => cases made

end

/-- Steps that leave the vault file where it is: an `init` that seals none, and an `unlock` that
removes nothing. -/
def Spares (s : Home) : Event L → Prop
  | .init confirmed pin password d =>
    confirmed = false ∨ ∀ vault, initVault L pin password d ≠ .ok (some vault)
  | .unlock pin password removed =>
    removed = false ∨ (unlock L J s pin password removed).1 ≠ .destroyed
  | .settings _ => True

section

variable {L J}

theorem spared_vault {s : Home} {e : Event L} (spared : Spares L J s e) :
    (step L J s e).2.vault = s.vault := by
  cases e with
  | settings text => rfl
  | init confirmed pin password d =>
    rcases spared with refused | unsealed
    · simp [step, init, refused]
    · cases confirmed with
      | false => rfl
      | true =>
        simp only [step, init, if_true]
        split
        · rfl
        · rfl
        · next vault made => exact absurd made (unsealed vault)
  | unlock pin password removed =>
    simp only [Spares] at spared
    simp only [step]
    unfold unlock at spared ⊢
    cases file : s.vault with
    | none => exact file
    | some content =>
      simp only [file] at spared ⊢
      cases opened : unlockMak L J content password with
      | ok mak => rfl
      | error e =>
        simp only [opened] at spared ⊢
        split at spared
        · exact file
        · rcases spared with kept | other
          · rw [if_neg (by simp [kept])]
            exact file
          · exact absurd rfl other
        · exact file
        · rfl

theorem unlock_opens {s : Home} {vault : VaultFile} {c : String} {mak : MasterAppKey}
    (reads : ReadsBack J vault.toJson) (file : s.vault = some (writeTo J vault))
    (opens : unsealWithPassphrase L vault (asBytes c) = .ok mak) (pin : Option String)
    (removed : Bool) : (unlock L J s pin (some c) removed).1 = .unlocked mak := by
  have found : unlockMak L J (writeTo J vault) (some c) = .ok mak := by
    rw [unlockMak, readFrom_writeTo reads]
    exact opens
  simp only [unlock, file, found]

theorem unlock_without_password (s : Home) (pin : Option String) (removed : Bool)
    (mak : MasterAppKey) : (unlock L J s pin none removed).1 ≠ .unlocked mak := by
  unfold unlock
  cases s.vault with
  | none => simp
  | some content =>
    obtain ⟨e, fails⟩ := unlockMak_none (L := L) (J := J) content
    simp only [fails]
    split <;> simp

end

/-- What `init` has sealed comes out of the vault again as long as no step takes it away: to the
text it was sealed under, given as the password, and without a password never, also where that
text was given as a PIN. -/
theorem vault_reopens {s : Home} {pin password : Option String} {d : Draws L} {vault : VaultFile}
    (made : initVault L pin password d = .ok (some vault)) (reads : ReadsBack J vault.toJson)
    (run : List (Event L))
    (spared : Mealy.Along (step L J) (Spares L J) (step L J s (.init true pin password d)).2 run) :
    ∃ c, credential pin password = some c ∧ ∀ pin' removed,
      (step L J (Mealy.final (step L J) (step L J s (.init true pin password d)).2 run)
        (.unlock pin' (some c) removed)).1 = .unlocked d.mak ∧
      ∀ mak, (step L J (Mealy.final (step L J) (step L J s (.init true pin password d)).2 run)
        (.unlock pin' none removed)).1 ≠ .unlocked mak := by
  obtain ⟨c, chosen, sealed⟩ := initVault_some made
  have written : (step L J s (.init true pin password d)).2.vault = some (writeTo J vault) := by
    simp [step, init, made]
  have kept : (Mealy.final (step L J) (step L J s (.init true pin password d)).2 run).vault =
      some (writeTo J vault) :=
    Mealy.final_invariant (fun s => s.vault = some (writeTo J vault))
      (fun _ _ here spared => (spared_vault spared).trans here) written spared
  refine ⟨c, chosen, fun pin' removed => ⟨?_, ?_⟩⟩
  · exact unlock_opens reads kept (unseal_seal sealed) pin' removed
  · exact unlock_without_password _ pin' removed

theorem padded_length (bytes : Bytes) :
    ((bytes ++ List.replicate 32 0).take 32).length = 32 := by
  simp

/-- A cipher that puts the key in front of the text. -/
def tagLibrary : VaultLibrary where
  SaltString := String
  asStr := id
  fromB64 := .ok
  argon2id credential salt :=
    .ok ⟨(credential ++ salt ++ List.replicate 32 0).take 32, padded_length _⟩
  encrypt kek _ _ text := .ok (kek.val ++ text)
  decrypt kek _ _ ct := if ct.take 32 = kek.val then .ok (ct.drop 32) else .error "aead::Error"
  b64Encode := hexEncode
  b64Decode text := match hexDecode text with
    | some bytes => .ok bytes
    | none => .error "invalid symbol"
  serdeError _ := "missing field"
  fromB64_asStr _ := rfl
  decrypt_encrypt := by
    rintro kek nonce aad text ct encrypted
    cases encrypted
    rw [List.take_left' kek.2, List.drop_left' kek.2, if_pos rfl]
  b64Decode_b64Encode bytes := by simp only [hexDecode_hexEncode]

def sampleDraws : Draws tagLibrary :=
  ⟨⟨List.replicate 32 7, rfl⟩, "c2FsdA", ⟨List.replicate 12 1, rfl⟩⟩

def sampleVault : VaultFile where
  version := 1
  kind := .passphrase (hexEncode (List.replicate 12 1 ++
    ((asBytes "123456" ++ asBytes "c2FsdA" ++ List.replicate 32 0).take 32 ++
      List.replicate 32 7)))
  pwSaltB64 := some "c2FsdA"

/-- A vault made with a PIN, and then an `init` that is not confirmed. -/
theorem vault_reopens_pin :
    ∃ c, credential (some "123456") none = some c ∧ ∀ pin' removed,
      (step tagLibrary (knownJson [sampleVault.toJson])
        (Mealy.final (step tagLibrary (knownJson [sampleVault.toJson]))
          (step tagLibrary (knownJson [sampleVault.toJson]) fresh
            (.init true (some "123456") none sampleDraws)).2
          [.settings none, .init false none (some "other") sampleDraws])
        (.unlock pin' (some c) removed)).1 = .unlocked sampleDraws.mak ∧
      ∀ mak, (step tagLibrary (knownJson [sampleVault.toJson])
        (Mealy.final (step tagLibrary (knownJson [sampleVault.toJson]))
          (step tagLibrary (knownJson [sampleVault.toJson]) fresh
            (.init true (some "123456") none sampleDraws)).2
          [.settings none, .init false none (some "other") sampleDraws])
        (.unlock pin' none removed)).1 ≠ .unlocked mak := by
  have made : initVault tagLibrary (some "123456") none sampleDraws = .ok (some sampleVault) := rfl
  exact vault_reopens tagLibrary _ made (knownJson_fromStr _ _) _ ⟨trivial, .inl rfl, trivial⟩

def pinUnlocks (pins : List (Option String)) : List (Event L) :=
  pins.map fun pin => .unlock pin none true

section

variable {L J}

theorem pinUnlocks_homeless (pins : List (Option String)) {s : Home} (gone : s.vault = none) :
    (Mealy.final (step L J) s (pinUnlocks L pins)).vault = none := by
  induction pins with
  | nil => exact gone
  | cons pin rest ih =>
    have same : (step L J s (.unlock pin none true)).2 = s := by simp [step, unlock, gone]
    simpa only [pinUnlocks, List.map_cons, Mealy.final_cons, same] using ih

/-- The induction is on the attempts, with those before them in the file. -/
theorem pinUnlocks_wipe {s : Home} {content : String} (pins : List (Option String)) {n : Nat}
    (here : s.vault = some content) (attempts : s.attempts = persisted n) (few : n < 20) :
    (Mealy.final (step L J) s (pinUnlocks L pins)).vault = none ↔
      pins ≠ [] ∧ (threshold J s.settings).toNat ≤ n + pins.length := by
  induction pins generalizing s n with
  | nil => simp [pinUnlocks, here]
  | cons pin rest ih =>
    obtain ⟨e, fails⟩ := unlockMak_none (L := L) (J := J) content
    have one : unlock L J s pin none true = _ := unlock_error true here attempts few fails
    simp only [pinUnlocks, List.map_cons, Mealy.final_cons, step, one]
    have highest := (threshold_bounds (J := J) s.settings).2
    by_cases reach : (threshold J s.settings).toNat ≤ n + 1
    · rw [if_pos reach]
      have gone := pinUnlocks_homeless (L := L) (J := J) rest (s := ⟨none, none, none⟩) rfl
      refine iff_of_true gone ⟨by simp, ?_⟩
      simp only [List.length_cons]
      omega
    · rw [if_neg reach]
      have later :=
        ih (s := { s with attempts := persisted (n + 1) }) (n := n + 1) here rfl (by omega)
      refine later.trans ?_
      cases rest with
      | nil => simpa using reach
      | cons next rest =>
        simp only [List.length_cons, ne_eq, reduceCtorEq, not_false_eq_true, true_and]
        omega

end

/-- Without the feature `tpm` the PIN of a vault does not open it: after a successful unlock,
whatever PINs are given, exactly a threshold of them destroys the identity. -/
theorem pins_destroy_iff {s : Home} {content : String} (here : s.vault = some content)
    (reset : s.attempts = none) (pins : List (Option String)) :
    (Mealy.final (step L J) s (pinUnlocks L pins)).vault = none ↔
      (threshold J s.settings).toNat ≤ pins.length := by
  have lowest := (threshold_bounds (J := J) s.settings).1
  have count := pinUnlocks_wipe (L := L) (J := J) pins here (n := 0) reset (by decide)
  refine count.trans ?_
  cases pins with
  | nil =>
    simp only [ne_eq, not_true_eq_false, false_and, List.length_nil, false_iff]
    omega
  | cons pin rest => simp

/-- Ten times the PIN that the vault was made with. -/
theorem pins_destroy_ten :
    (Mealy.final (step tagLibrary (knownJson [])) ⟨some "sealed", none, none⟩
      (pinUnlocks tagLibrary (List.replicate 10 (some "123456")))).vault = none :=
  (pins_destroy_iff tagLibrary (knownJson []) (s := ⟨some "sealed", none, none⟩) rfl rfl _).mpr
    (by decide)

end VaultUnlock

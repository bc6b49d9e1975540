import AddMessenger.JsonText
import AddMessenger.Numerals
import AddMessenger.Simulations

/-!
# The keys at rest

`DbEncryptionKey`, `load_db_key_interactive`, `load_cert`, `change_passphrase`, `generate_identity`
and the command `init` in `client/src/main.rs`, as far as they are about the key of the message
store, the certificate and the passphrases these are encrypted under. Every access to a file
succeeds, and the identity on disk is given by its fingerprint.

Over it, what is kept: values, each with the passphrase that locks it.
-/

namespace KeysAtRest

open ByteStrings JsonText Mealy Numerals Trimming

variable {Salt Cert : Type}

/-- Encryption under a passphrase, to armored text. -/
structure Age (Salt : Type) where
  encrypt : String → String → Salt → String
  decrypt : String → String → Except String String

/-- Certificates, as text and as read from it. -/
structure Pgp (Cert : Type) where
  armored : Cert → String
  fromBytes : String → Except String Cert
  fingerprint : Cert → String

abbrev Key := { key : Bytes // key.length = 32 }

inductive KeyError where
  | encrypted
  | age (text : String)
  | hex
  | length

/-- `kind() == ErrorKind::NotFound`. -/
def KeyError.notFound : KeyError → Bool
  | .encrypted => true
  | _ => false

def ageHeader : List Char := "-----BEGIN AGE ENCRYPTED FILE-----".toList

/-- A variable of the environment; an empty one counts as none. -/
def nonempty (pass : Option String) : Option String := pass.filter (· ≠ "")

/-- What `DbEncryptionKey::save` writes. -/
def saveKey (A : Age Salt) (key : Key) (passphrase : Option String) (salt : Salt) : String :=
  match nonempty passphrase with
  | some pass => A.encrypt (hexEncode key) pass salt
  | none => hexEncode key

def keyFromHex (text : List Char) : Except KeyError Key :=
  match hexBytes text with
  | none => .error .hex
  | some bytes => if sized : bytes.length = 32 then .ok ⟨bytes, sized⟩ else .error .length

/-- `DbEncryptionKey::load`, with the key and the salt for a new file. -/
def loadKey (A : Age Salt) (file passphrase : Option String) (random : Key) (salt : Salt) :
    Except KeyError Key × Option String :=
  match file with
  | none => (.ok random, some (saveKey A random passphrase salt))
  | some raw =>
    (if ageHeader.isPrefixOf (trimmed raw) then
      match passphrase with
      | none => .error .encrypted
      | some pass =>
        match A.decrypt (String.ofList (trimmed raw)) pass with
        | .error e => .error (.age e)
        | .ok decrypted => keyFromHex (trimmed decrypted)
    else keyFromHex (trimmed raw), file)

/-- The terminal gives what is typed at it, if there is one. -/
def loadKeyInteractive (A : Age Salt) (file passEnv terminal : Option String) (random : Key)
    (salt : Salt) : Except KeyError Key × Option String :=
  match passEnv with
  | some pass => loadKey A file (some pass) random salt
  | none =>
    match loadKey A file none random salt with
    | (.ok key, file) => (.ok key, file)
    | (.error e, file) =>
      if e.notFound then loadKey A file none random salt
      else
        match nonempty terminal with
        | some pass => loadKey A file (some pass) random salt
        | none => (.error .encrypted, file)

/-- The mark of a file that was written as binary data. -/
def corrupt (bytes : Bytes) : Bool :=
  (bytes[0]? = some 0xEF && (bytes.drop 1).take 2 = [0xBF, 0xBD]) || bytes[0]? = some 0x00

inductive CertError where
  | passphrase
  | age (text : String)
  | parse (text : String)
  | noIdentity
  | corrupt

structure Home where
  dbKey : Option String
  certAge : Option String
  certAsc : Option String
  identity : Option String

def loadCert (A : Age Salt) (G : Pgp Cert) (home : Home) (certPass dbPass : Option String) :
    Except CertError Cert :=
  match home.certAge with
  | some armored =>
    match (nonempty certPass).or (nonempty dbPass) with
    | none => .error .passphrase
    | some password =>
      match A.decrypt armored password with
      | .error e => .error (.age e)
      | .ok plaintext => (G.fromBytes plaintext).mapError .parse
  | none =>
    match home.certAsc with
    | none => .error .noIdentity
    | some armored =>
      if corrupt (asBytes armored) then .error .corrupt
      else (G.fromBytes armored).mapError .parse

/-- What a run of `init` is given. -/
structure Init (Salt Cert : Type) where
  confirm : String
  typed : String
  env : Option String
  terminal : Option String
  cert : Cert
  random : Key
  salts : Salt × Salt × Salt

def confirmed (identity : Option String) (confirm : String) : Bool :=
  identity.isNone || trimmed confirm = "yes".toList

/-- The certificate is written under the passphrase that was typed. -/
def Home.setCert (A : Age Salt) (G : Pgp Cert) (home : Home) (cert : Cert) (typed : String)
    (salt : Salt) : Home :=
  if typed = "" then { home with certAsc := some (G.armored cert) }
  else
    { home with
      certAge := some (A.encrypt (G.armored cert) typed salt)
      certAsc := none }

/-- A key that cannot be loaded ends the process, after the certificate was written. -/
def init (A : Age Salt) (G : Pgp Cert) (home : Home) (d : Init Salt Cert) : Bool × Home :=
  if confirmed home.identity d.confirm then
    let home := home.setCert A G d.cert d.typed d.salts.1
    match loadKeyInteractive A home.dbKey (nonempty d.env) d.terminal d.random d.salts.2.1 with
    | (.error _, file) => (false, { home with dbKey := file })
    | (.ok key, _) =>
      (true, { home with
        dbKey := some (saveKey A key (some d.typed) d.salts.2.2)
        identity := some (G.fingerprint d.cert) })
  else (true, home)

/-- `change_passphrase` with the passphrases as arguments. -/
def passwdArgs (A : Age Salt) (home : Home) (current : String) (new : Option String)
    (salt : Salt) : Bool × Home :=
  match nonempty new, home.certAge with
  | some new, some armored =>
    match A.decrypt armored current with
    | .error _ => (false, home)
    | .ok cert => (true, { home with certAge := some (A.encrypt cert new salt) })
  | _, _ => (false, home)

/-- `change_passphrase` with prompts. A certificate in plain text is encrypted. -/
def passwdPrompts (A : Age Salt) (home : Home) (old new again : String) (salt : Salt) :
    Bool × Home :=
  match home.certAsc, home.certAge with
  | some armored, _ =>
    if new = "" then (true, home)
    else (true, { home with certAge := some (A.encrypt armored new salt), certAsc := none })
  | none, none => (false, home)
  | none, some armored =>
    if old = "" then (false, home)
    else
      match A.decrypt armored old with
      | .error _ => (false, home)
      | .ok cert =>
        if new ≠ again then (false, home)
        else if new = "" then (true, { home with certAsc := some cert, certAge := none })
        else (true, { home with certAge := some (A.encrypt cert new salt), certAsc := none })

inductive Event (Salt Cert : Type) where
  | init (d : Init Salt Cert)
  | openStore (env terminal : Option String) (random : Key) (salt : Salt)
  | readCert (certPass dbPass : Option String)
  | passwdArgs (current : String) (new : Option String) (salt : Salt)
  | passwdPrompts (old new again : String) (salt : Salt)

inductive Answer (Cert : Type) where
  | done (fine : Bool)
  | key (key : Option Key)
  | cert (cert : Option Cert)

def step (A : Age Salt) (G : Pgp Cert) (home : Home) : Event Salt Cert → Answer Cert × Home
  | .init d => (init A G home d).map .done id
  | .openStore env terminal random salt =>
    (loadKeyInteractive A home.dbKey (nonempty env) terminal random salt).map
      (fun key => .key key.toOption) fun file => { home with dbKey := file }
  | .readCert certPass dbPass => (.cert (loadCert A G home certPass dbPass).toOption, home)
  | .passwdArgs current new salt => (passwdArgs A home current new salt).map .done id
  | .passwdPrompts old new again salt => (passwdPrompts A home old new again salt).map .done id

/-- The key, the encrypted and the plain certificate, and the fingerprint of the identity. -/
structure Custody (Cert : Type) where
  key : Option (Key × Option String)
  age : Option (Cert × String)
  asc : Option Cert
  identity : Option String

namespace Custody

/-- Whether the passphrase in the environment opens the key. -/
def opens (t : Custody Cert) (env : Option String) : Bool :=
  match t.key with
  | some (_, some lock) => nonempty env = some lock
  | _ => true

def openKey (t : Custody Cert) (env : Option String) (random : Key) :
    Option Key × Custody Cert :=
  match t.key with
  | none => (some random, { t with key := some (random, nonempty env) })
  | some (key, _) => (if t.opens env then some key else none, t)

def readCert (t : Custody Cert) (certPass dbPass : Option String) : Option Cert :=
  match t.age with
  | some (cert, lock) =>
    if (nonempty certPass).or (nonempty dbPass) = some lock then some cert else none
  | none => t.asc

/-- The certificate in place of the one there was. -/
def setCert (t : Custody Cert) (cert : Cert) (typed : String) : Custody Cert :=
  if typed = "" then { t with asc := some cert }
  else { t with age := some (cert, typed), asc := none }

def init (G : Pgp Cert) (t : Custody Cert) (d : Init Salt Cert) : Bool × Custody Cert :=
  if confirmed t.identity d.confirm then
    match (t.openKey d.env d.random).1 with
    | none => (false, t.setCert d.cert d.typed)
    | some key =>
      (true, { t.setCert d.cert d.typed with
        key := some (key, nonempty (some d.typed))
        identity := some (G.fingerprint d.cert) })
  else (true, t)

def passwdArgs (t : Custody Cert) (current : String) (new : Option String) :
    Bool × Custody Cert :=
  match nonempty new, t.age with
  | some new, some (cert, lock) =>
    if current = lock then (true, { t with age := some (cert, new) }) else (false, t)
  | _, _ => (false, t)

def passwdPrompts (t : Custody Cert) (old new again : String) : Bool × Custody Cert :=
  match t.asc, t.age with
  | some cert, _ =>
    if new = "" then (true, t) else (true, { t with age := some (cert, new), asc := none })
  | none, none => (false, t)
  | none, some (cert, lock) =>
    if old = "" ∨ old ≠ lock then (false, t)
    else if new ≠ again then (false, t)
    else if new = "" then (true, { t with asc := some cert, age := none })
    else (true, { t with age := some (cert, new), asc := none })

def step (G : Pgp Cert) (t : Custody Cert) : Event Salt Cert → Answer Cert × Custody Cert
  | .init d => (init G t d).map .done id
  | .openStore env _ random _ => (t.openKey env random).map .key id
  | .readCert certPass dbPass => (.cert (t.readCert certPass dbPass), t)
  | .passwdArgs current new _ => (t.passwdArgs current new).map .done id
  | .passwdPrompts old new again _ => (t.passwdPrompts old new again).map .done id

end Custody

/-- What is relied on of the encryption: it is undone by the same passphrase and by no other, white
space around an armored text does not matter, and the text begins with its header. -/
structure Age.Laws (A : Age Salt) : Prop where
  right : ∀ text pass salt, A.decrypt (A.encrypt text pass salt) pass = .ok text
  wrong : ∀ text pass other salt, other ≠ pass →
    (A.decrypt (A.encrypt text pass salt) other).toOption = none
  trims : ∀ text pass other salt,
    A.decrypt (String.ofList (trimmed (A.encrypt text pass salt))) other =
      A.decrypt (A.encrypt text pass salt) other
  header : ∀ text pass salt, ageHeader <+: trimmed (A.encrypt text pass salt)

theorem Age.Laws.refuses {A : Age Salt} (laws : A.Laws) (text : String) {pass other : String}
    (salt : Salt) (differ : other ≠ pass) :
    ∃ e, A.decrypt (A.encrypt text pass salt) other = .error e := by
  have refused := laws.wrong text pass other salt differ
  cases opened : A.decrypt (A.encrypt text pass salt) other with
  | error e => exact ⟨e, rfl⟩
  | ok text =>
    rw [opened] at refused
    cases refused

/-- A certificate is read back from its text, which is no binary data. -/
structure Pgp.Laws (G : Pgp Cert) : Prop where
  back : ∀ cert, G.fromBytes (G.armored cert) = .ok cert
  text : ∀ cert, corrupt (asBytes (G.armored cert)) = false

inductive KeyFile (A : Age Salt) : Option String → Option (Key × Option String) → Prop where
  | absent : KeyFile A none none
  | plain (key : Key) : KeyFile A (some (hexEncode key)) (some (key, none))
  | wrapped (key : Key) (pass : String) (salt : Salt) :
      KeyFile A (some (A.encrypt (hexEncode key) pass salt)) (some (key, some pass))

inductive CertFile (A : Age Salt) (G : Pgp Cert) :
    Option String → Option (Cert × String) → Prop where
  | absent : CertFile A G none none
  | wrapped (cert : Cert) (pass : String) (salt : Salt) :
      CertFile A G (some (A.encrypt (G.armored cert) pass salt)) (some (cert, pass))

/-- The files hold what is kept. -/
structure Holds (A : Age Salt) (G : Pgp Cert) (home : Home) (t : Custody Cert) : Prop where
  key : KeyFile A home.dbKey t.key
  age : CertFile A G home.certAge t.age
  asc : home.certAsc = t.asc.map G.armored
  identity : home.identity = t.identity

theorem isWhitespace_hex {key : Bytes} {c : Char} (member : c ∈ (hexEncode key).toList) :
    isWhitespace c = false := by
  have bounds := hexValue_bounds (hexValue_of_mem member)
  simp [isWhitespace]
  omega

theorem trimmed_hexEncode (key : Bytes) : trimmed (hexEncode key) = (hexEncode key).toList :=
  trim_of_free fun _ member => isWhitespace_hex member

theorem keyFromHex_hexEncode (key : Key) : keyFromHex (hexEncode key).toList = .ok key := by
  have bytes : hexBytes (hexEncode key).toList = some key.val := hexDecode_hexEncode key.val
  simp [keyFromHex, bytes, key.property]

/-- The text of a key is not armored. -/
theorem header_not_prefix_hex (key : Bytes) :
    ageHeader.isPrefixOf (hexEncode key).toList = false := by
  rw [Bool.eq_false_iff]
  intro armored
  have starts : ageHeader <+: (hexEncode key).toList := List.isPrefixOf_iff_prefix.mp armored
  have digit := hexValue_of_mem (starts.subset (show '-' ∈ ageHeader by decide))
  exact absurd digit (by decide)

theorem nonempty_nonempty (pass : Option String) : nonempty (nonempty pass) = nonempty pass := by
  simp [nonempty, Option.filter_filter]

section

variable {A : Age Salt} (laws : A.Laws)

theorem loadKey_plain (key : Key) (passphrase : Option String) (random : Key) (salt : Salt) :
    loadKey A (some (hexEncode key)) passphrase random salt =
      (.ok key, some (hexEncode key)) := by
  simp [loadKey, trimmed_hexEncode, header_not_prefix_hex, keyFromHex_hexEncode]

include laws

theorem loadKey_wrapped (key : Key) (pass : String) (wrap salt : Salt) (passphrase : Option String)
    (random : Key) :
    loadKey A (some (A.encrypt (hexEncode key) pass wrap)) passphrase random salt =
      (match passphrase with
        | none => .error .encrypted
        | some given =>
          match A.decrypt (A.encrypt (hexEncode key) pass wrap) given with
          | .error e => .error (.age e)
          | .ok decrypted => keyFromHex (trimmed decrypted),
        some (A.encrypt (hexEncode key) pass wrap)) := by
  have armored := List.isPrefixOf_iff_prefix.mpr (laws.header (hexEncode key) pass wrap)
  simp only [loadKey, armored, if_true, laws.trims]

/-- The passphrase of the lock gives the key, and no other gives one. -/
theorem loadKey_given (key : Key) (pass : String) (wrap salt : Salt) (passphrase : Option String)
    (random : Key) :
    (loadKey A (some (A.encrypt (hexEncode key) pass wrap)) passphrase random salt).1.toOption =
      if passphrase = some pass then some key else none := by
  rw [loadKey_wrapped laws]
  cases passphrase with
  | none => rfl
  | some given =>
    by_cases same : given = pass
    · subst same
      simp [laws.right, trimmed_hexEncode, keyFromHex_hexEncode, Except.toOption]
    · obtain ⟨e, refused⟩ := laws.refuses (hexEncode key) wrap same
      simp [same, refused, Except.toOption]

theorem loadKey_snd (key : Key) (pass : String) (wrap salt : Salt) (passphrase : Option String)
    (random : Key) :
    (loadKey A (some (A.encrypt (hexEncode key) pass wrap)) passphrase random salt).2 =
      some (A.encrypt (hexEncode key) pass wrap) := by
  rw [loadKey_wrapped laws]

omit laws in
theorem keyFile_saveKey (key : Key) (pass : Option String) (salt : Salt) :
    KeyFile A (some (saveKey A key pass salt)) (some (key, nonempty pass)) := by
  unfold saveKey
  cases nonempty pass with
  | none => exact .plain key
  | some pass => exact .wrapped key pass salt

/-- The terminal is never asked for the passphrase of a key that is locked. -/
theorem loadKeyInteractive_wrapped (key : Key) (pass : String) (wrap salt : Salt)
    (env terminal : Option String) (random : Key) :
    loadKeyInteractive A (some (A.encrypt (hexEncode key) pass wrap)) env terminal random salt =
      loadKey A (some (A.encrypt (hexEncode key) pass wrap)) env random salt := by
  cases env with
  | some given => rfl
  | none => simp [loadKeyInteractive, loadKey_wrapped laws, KeyError.notFound]

theorem loadKeyInteractive_eq {file : Option String} {t : Custody Cert}
    (holds : KeyFile A file t.key) (env terminal : Option String) (random : Key) (salt : Salt) :
    (loadKeyInteractive A file (nonempty env) terminal random salt).1.toOption =
        (t.openKey env random).1 ∧
      KeyFile A (loadKeyInteractive A file (nonempty env) terminal random salt).2
        (t.openKey env random).2.key := by
  obtain ⟨kept, age, asc, identity⟩ := t
  simp only [Custody.openKey, Custody.opens] at holds ⊢
  cases holds with
  | absent =>
    have made := keyFile_saveKey (A := A) random (nonempty env) salt
    rw [nonempty_nonempty] at made
    cases given : nonempty env with
    | none =>
      rw [given] at made
      exact ⟨rfl, made⟩
    | some pass =>
      rw [given] at made
      exact ⟨rfl, made⟩
  | plain key =>
    have read : loadKeyInteractive A (some (hexEncode key)) (nonempty env) terminal random salt =
        (.ok key, some (hexEncode key)) := by
      cases nonempty env <;> simp [loadKeyInteractive, loadKey_plain]
    rw [read]
    exact ⟨rfl, .plain key⟩
  | wrapped key pass wrap =>
    rw [loadKeyInteractive_wrapped laws]
    refine ⟨?_, ?_⟩
    · simp [loadKey_given laws]
    · rw [loadKey_snd laws]
      exact .wrapped key pass wrap

end

section

variable {A : Age Salt} {G : Pgp Cert} {home : Home} {t : Custody Cert}

theorem loadCert_eq (laws : A.Laws) (certs : G.Laws) (holds : Holds A G home t)
    (certPass dbPass : Option String) :
    (loadCert A G home certPass dbPass).toOption = t.readCert certPass dbPass := by
  obtain ⟨-, age, asc, -⟩ := holds
  unfold loadCert Custody.readCert
  generalize home.certAge = file at age
  generalize t.age = kept at age
  cases age with
  | absent =>
    rw [asc]
    cases t.asc with
    | none => rfl
    | some cert => simp [certs.text, certs.back, Except.mapError, Except.toOption]
  | wrapped cert pass salt =>
    cases given : (nonempty certPass).or (nonempty dbPass) with
    | none => rfl
    | some password =>
      by_cases same : password = pass
      · subst same
        simp [laws.right, certs.back, Except.mapError, Except.toOption]
      · obtain ⟨e, refused⟩ := laws.refuses (G.armored cert) salt same
        simp [refused, same, Except.toOption]

theorem holds_setCert (holds : Holds A G home t) (cert : Cert) (typed : String) (salt : Salt) :
    Holds A G (home.setCert A G cert typed salt) (t.setCert cert typed) := by
  unfold Home.setCert Custody.setCert
  split
  · exact ⟨holds.key, holds.age, rfl, holds.identity⟩
  · exact ⟨holds.key, .wrapped cert typed salt, rfl, holds.identity⟩

@[simp] theorem setCert_key (t : Custody Cert) (cert : Cert) (typed : String) :
    (t.setCert cert typed).key = t.key := by
  unfold Custody.setCert
  split <;> rfl

theorem setCert_plain (t : Custody Cert) (cert : Cert) {typed : String} (plain : typed = "") :
    t.setCert cert typed = { t with asc := some cert } :=
  if_pos plain

theorem setCert_locked (t : Custody Cert) (cert : Cert) {typed : String} (given : typed ≠ "") :
    t.setCert cert typed = { t with age := some (cert, typed), asc := none } :=
  if_neg given

@[simp] theorem setCert_dbKey (home : Home) (cert : Cert) (typed : String) (salt : Salt) :
    (home.setCert A G cert typed salt).dbKey = home.dbKey := by
  unfold Home.setCert
  split <;> rfl

theorem openKey_rest (t : Custody Cert) (env : Option String) (random : Key) :
    t.age = (t.openKey env random).2.age ∧ t.asc = (t.openKey env random).2.asc ∧
      t.identity = (t.openKey env random).2.identity := by
  unfold Custody.openKey
  split <;> exact ⟨rfl, rfl, rfl⟩

theorem openKey_of_none {t : Custody Cert} {env : Option String} {random : Key}
    (fails : (t.openKey env random).1 = none) : (t.openKey env random).2 = t := by
  unfold Custody.openKey at fails ⊢
  cases kept : t.key with
  | none => simp [kept] at fails
  | some pair => rfl

theorem init_eq (laws : A.Laws) (holds : Holds A G home t) (d : Init Salt Cert) :
    (init A G home d).1 = (t.init G d).1 ∧ Holds A G (init A G home d).2 (t.init G d).2 := by
  unfold init Custody.init
  rw [holds.identity]
  by_cases goes : confirmed t.identity d.confirm
  · simp only [if_pos goes, setCert_dbKey]
    have written := holds_setCert holds d.cert d.typed d.salts.1
    obtain ⟨same, file⟩ :=
      loadKeyInteractive_eq laws holds.key d.env d.terminal d.random d.salts.2.1
    rcases loaded : loadKeyInteractive A home.dbKey (nonempty d.env) d.terminal d.random
      d.salts.2.1 with ⟨result, after⟩
    rw [loaded] at same file
    cases result with
    | error e =>
      have fails : (t.openKey d.env d.random).1 = none := same.symm
      rw [openKey_of_none fails] at file
      rw [fails]
      exact ⟨rfl, by simpa using file, written.age, written.asc, written.identity⟩
    | ok key =>
      have opened : (t.openKey d.env d.random).1 = some key := same.symm
      rw [opened]
      exact ⟨rfl, keyFile_saveKey key (some d.typed) d.salts.2.2, written.age, written.asc, rfl⟩
  · rw [if_neg goes, if_neg goes]
    exact ⟨rfl, holds⟩

theorem passwdArgs_eq (laws : A.Laws) (holds : Holds A G home t) (current : String)
    (new : Option String) (salt : Salt) :
    (passwdArgs A home current new salt).1 = (t.passwdArgs current new).1 ∧
      Holds A G (passwdArgs A home current new salt).2 (t.passwdArgs current new).2 := by
  obtain ⟨dbKey, certAge, certAsc, identity⟩ := home
  obtain ⟨key, kept, asc, identity'⟩ := t
  have age := holds.age
  unfold passwdArgs Custody.passwdArgs
  simp only at age ⊢
  cases nonempty new with
  | none => exact ⟨rfl, holds⟩
  | some new =>
    cases age with
    | absent => exact ⟨rfl, holds⟩
    | wrapped cert pass wrap =>
      by_cases same : current = pass
      · subst same
        simp only [laws.right, if_true]
        exact ⟨trivial, holds.key, .wrapped cert new salt, holds.asc, holds.identity⟩
      · obtain ⟨e, refused⟩ := laws.refuses (G.armored cert) wrap same
        simp only [refused, if_neg same]
        exact ⟨trivial, holds⟩

theorem passwdPrompts_eq (laws : A.Laws) (holds : Holds A G home t) (old new again : String)
    (salt : Salt) :
    (passwdPrompts A home old new again salt).1 = (t.passwdPrompts old new again).1 ∧
      Holds A G (passwdPrompts A home old new again salt).2 (t.passwdPrompts old new again).2 := by
  obtain ⟨dbKey, certAge, certAsc, identity⟩ := home
  obtain ⟨key, kept, asc, identity'⟩ := t
  obtain rfl : certAsc = asc.map G.armored := holds.asc
  unfold passwdPrompts Custody.passwdPrompts
  cases asc with
  | some cert =>
    simp only [Option.map_some]
    split
    · exact ⟨rfl, holds⟩
    · exact ⟨rfl, holds.key, .wrapped cert new salt, rfl, holds.identity⟩
  | none =>
    have age := holds.age
    simp only [Option.map_none] at age ⊢
    cases age with
    | absent => exact ⟨rfl, holds⟩
    | wrapped cert pass wrap =>
      by_cases none_given : old = ""
      · simp only [none_given, if_true, true_or]
        exact ⟨trivial, holds⟩
      by_cases same : old = pass
      · subst same
        simp only [none_given, if_false, laws.right, ne_eq, not_true_eq_false, or_self]
        split
        · exact ⟨rfl, holds⟩
        · split
          · exact ⟨rfl, holds.key, .absent, rfl, holds.identity⟩
          · exact ⟨rfl, holds.key, .wrapped cert new salt, rfl, holds.identity⟩
      · obtain ⟨e, refused⟩ := laws.refuses (G.armored cert) wrap same
        simp only [none_given, if_false, refused, ne_eq, same, not_false_eq_true, or_true, if_true]
        exact ⟨trivial, holds⟩

/-- The files answer as what they hold. -/
theorem step_simulates (laws : A.Laws) (certs : G.Laws) :
    Simulates (step A G) (Custody.step G) (Holds A G) := by
  intro home t e holds
  cases e with
  | init d =>
    obtain ⟨same, after⟩ := init_eq laws holds d
    exact ⟨congrArg Answer.done same, after⟩
  | openStore env terminal random salt =>
    obtain ⟨same, file⟩ := loadKeyInteractive_eq laws holds.key env terminal random salt
    obtain ⟨age, asc, identity⟩ := openKey_rest t env random
    refine ⟨congrArg Answer.key same, file, ?_, ?_, ?_⟩
    · exact age ▸ holds.age
    · exact asc ▸ holds.asc
    · exact identity ▸ holds.identity
  | readCert certPass dbPass =>
    exact ⟨congrArg Answer.cert (loadCert_eq laws certs holds certPass dbPass), holds⟩
  | passwdArgs current new salt =>
    obtain ⟨same, after⟩ := passwdArgs_eq laws holds current new salt
    exact ⟨congrArg Answer.done same, after⟩
  | passwdPrompts old new again salt =>
    obtain ⟨same, after⟩ := passwdPrompts_eq laws holds old new again salt
    exact ⟨congrArg Answer.done same, after⟩

end

def newHome : Home := ⟨none, none, none, none⟩

def newCustody : Custody Cert := ⟨none, none, none, none⟩

theorem holds_new (A : Age Salt) (G : Pgp Cert) : Holds A G newHome newCustody :=
  ⟨.absent, .absent, rfl, rfl⟩

/-- Every run answers as the values and the locks tell: a passphrase in the environment opens the
key, one that is typed at the terminal never does, and `passwd` only locks the certificate anew. -/
theorem custody_answers {A : Age Salt} {G : Pgp Cert} (laws : A.Laws) (certs : G.Laws)
    (run : List (Event Salt Cert)) :
    outputs (step A G) newHome run = outputs (Custody.step G) newCustody run :=
  (step_simulates laws certs).outputs (holds_new A G) run

def Answer.given : Answer Cert → Option Key
  | .key given => given
  | _ => none

/-- The keys that the openings of a run gave. -/
def keysGiven (answers : List (Answer Cert)) : List Key := answers.filterMap Answer.given

theorem mem_keysGiven_cons {answer : Answer Cert} {answers : List (Answer Cert)} {key : Key} :
    key ∈ keysGiven (answer :: answers) ↔ answer.given = some key ∨ key ∈ keysGiven answers := by
  simp [keysGiven, List.mem_filterMap]

section

variable {G : Pgp Cert} {t : Custody Cert}

theorem openKey_key {env : Option String} {random key : Key}
    (opened : (t.openKey env random).1 = some key) :
    ∃ lock, (t.openKey env random).2.key = some (key, lock) := by
  unfold Custody.openKey at opened ⊢
  split at opened
  · cases opened
    exact ⟨nonempty env, rfl⟩
  · next kept lock here =>
    simp only [Option.ite_none_right_eq_some, Option.some.injEq] at opened
    obtain ⟨-, rfl⟩ := opened
    exact ⟨lock, here⟩

theorem openKey_kept {env : Option String} {random key : Key} {lock : Option String}
    (kept : t.key = some (key, lock)) :
    (t.openKey env random).2 = t ∧
      ∀ other, (t.openKey env random).1 = some other → other = key := by
  unfold Custody.openKey
  rw [kept]
  refine ⟨rfl, fun other opened => ?_⟩
  simp only [Option.ite_none_right_eq_some, Option.some.injEq] at opened
  exact opened.2.symm

/-- No command changes the key. -/
theorem step_key {key : Key} {lock : Option String} (kept : t.key = some (key, lock))
    (e : Event Salt Cert) : ∃ lock', (Custody.step G t e).2.key = some (key, lock') := by
  cases e with
  | init d =>
    simp only [Custody.step, Custody.init, Prod.map_snd, id]
    by_cases goes : confirmed t.identity d.confirm
    · rw [if_pos goes]
      cases opened : (t.openKey d.env d.random).1 with
      | none => exact ⟨lock, by simpa using kept⟩
      | some other =>
        obtain rfl := (openKey_kept kept).2 other opened
        exact ⟨_, rfl⟩
    · rw [if_neg goes]
      exact ⟨lock, kept⟩
  | openStore env terminal random salt =>
    refine ⟨lock, ?_⟩
    simp only [Custody.step, Prod.map_snd, id, (openKey_kept kept).1, kept]
  | readCert certPass dbPass => exact ⟨lock, kept⟩
  | passwdArgs current new salt =>
    refine ⟨lock, ?_⟩
    simp only [Custody.step, Custody.passwdArgs, Prod.map_snd, id]
    split
    · split <;> exact kept
    · exact kept
  | passwdPrompts old new again salt =>
    refine ⟨lock, ?_⟩
    simp only [Custody.step, Custody.passwdPrompts, Prod.map_snd, id]
    repeat' split
    all_goals exact kept

theorem step_given {e : Event Salt Cert} {key : Key}
    (given : (Custody.step G t e).1.given = some key) :
    ∃ lock, (Custody.step G t e).2.key = some (key, lock) := by
  cases e with
  | openStore env terminal random salt => exact openKey_key given
  | init d => cases given
  | readCert certPass dbPass => cases given
  | passwdArgs current new salt => cases given
  | passwdPrompts old new again salt => cases given

theorem keysGiven_eq {key : Key} {lock : Option String} (kept : t.key = some (key, lock))
    (run : List (Event Salt Cert)) :
    ∀ other ∈ keysGiven (outputs (Custody.step G) t run), other = key := by
  induction run generalizing t lock with
  | nil => simp [outputs, keysGiven]
  | cons e rest ih =>
    obtain ⟨later, still⟩ := step_key (G := G) kept e
    intro other member
    rcases mem_keysGiven_cons.mp member with here | there
    · obtain ⟨_, after⟩ := step_given here
      rw [still] at after
      exact (Prod.mk.inj (Option.some.inj after)).1.symm
    · exact ih still other there

theorem keysGiven_same (run : List (Event Salt Cert)) :
    ∀ key ∈ keysGiven (outputs (Custody.step G) t run),
      ∀ other ∈ keysGiven (outputs (Custody.step G) t run), other = key := by
  induction run generalizing t with
  | nil => simp [outputs, keysGiven]
  | cons e rest ih =>
    have first : ∀ key, (Custody.step G t e).1.given = some key →
        ∀ other ∈ keysGiven (outputs (Custody.step G) (Custody.step G t e).2 rest),
          other = key := by
      intro key given
      obtain ⟨lock, kept⟩ := step_given given
      exact keysGiven_eq kept rest
    intro key member other member'
    rcases mem_keysGiven_cons.mp member with here | there
    · rcases mem_keysGiven_cons.mp member' with here' | there'
      · exact Option.some.inj (here'.symm.trans here)
      · exact first key here other there'
    · rcases mem_keysGiven_cons.mp member' with here' | there'
      · exact (first other here' key there).symm
      · exact ih key there other there'

end

/-- In every run all openings of the message store that succeed give one key. -/
theorem one_key {A : Age Salt} {G : Pgp Cert} (laws : A.Laws) (certs : G.Laws)
    (run : List (Event Salt Cert)) :
    ∃ key, ∀ given ∈ keysGiven (outputs (step A G) newHome run), given = key := by
  rw [custody_answers laws certs run]
  have same := keysGiven_same (G := G) (t := newCustody) run
  cases keys : keysGiven (outputs (Custody.step G) newCustody run) with
  | nil => exact ⟨⟨List.replicate 32 0, rfl⟩, fun _ member => by cases member⟩
  | cons key rest =>
    rw [keys] at same
    exact ⟨key, same key List.mem_cons_self⟩

/-- With an identity, some passphrase in `ADD_DB_PASSPHRASE` alone opens the key and the
certificate, and this is the one of the identity. -/
def Usable (A : Age Salt) (G : Pgp Cert) (home : Home) : Prop :=
  ∀ f, home.identity = some f → ∃ env,
    (∀ terminal random salt, ∃ key,
      (loadKeyInteractive A home.dbKey (nonempty env) terminal random salt).1 = .ok key) ∧
    ∃ cert, loadCert A G home none env = .ok cert ∧ G.fingerprint cert = f

namespace Custody

/-- The certificate that is looked at. -/
def current (t : Custody Cert) : Option Cert := (t.age.map Prod.fst).or t.asc

/-- The key is not locked, or with the passphrase. -/
def Locked (t : Custody Cert) (pass : String) : Prop :=
  ∀ key lock, t.key = some (key, some lock) → lock = pass

/-- The certificate is the one of the identity, and its lock is the one of the key. -/
structure Matches (G : Pgp Cert) (t : Custody Cert) (f : String) : Prop where
  cert : ∃ cert, t.current = some cert ∧ G.fingerprint cert = f
  lock : ∀ cert lock, t.age = some (cert, lock) → t.Locked lock

def Usable (G : Pgp Cert) (t : Custody Cert) : Prop :=
  ∀ f, t.identity = some f → t.Matches G f

/-- No lock is empty, and an identity has a key. -/
structure Proper (t : Custody Cert) : Prop where
  key : ∀ key lock, t.key = some (key, some lock) → lock ≠ ""
  age : ∀ cert lock, t.age = some (cert, lock) → lock ≠ ""
  identity : t.identity.isSome = true → t.key.isSome = true

end Custody

/-- What spares the identity. An `init` that opens the key leaves no older encrypted certificate in
front of a plain one of its own. One that is refused the key has written its certificate already:
the one of the identity, under the passphrase of the key if under any, or a plain one behind an
encrypted one. A new passphrase of the certificate is the one that locks the key, if any does, and
a plain certificate that is locked is the one of the identity. -/
def Spares (G : Pgp Cert) (t : Custody Cert) : Event Salt Cert → Prop
  | .init d =>
    confirmed t.identity d.confirm = true →
      if t.opens d.env then
        d.typed = "" → ∀ cert lock, t.age = some (cert, lock) →
          G.fingerprint cert = G.fingerprint d.cert
      else ∀ f, t.identity = some f →
        if d.typed = "" then t.age.isSome = true ∨ G.fingerprint d.cert = f
        else G.fingerprint d.cert = f ∧ t.Locked d.typed
  | .openStore .. | .readCert .. => True
  | .passwdArgs current new _ =>
    t.identity.isSome = true → ∀ pass cert, nonempty new = some pass →
      t.age = some (cert, current) → t.Locked pass
  | .passwdPrompts old new again _ =>
    ∀ f, t.identity = some f → new ≠ "" →
      match t.asc with
      | some cert => G.fingerprint cert = f ∧ t.Locked new
      | none => ∀ cert, t.age = some (cert, old) → new = again → t.Locked new

section

variable {A : Age Salt} {G : Pgp Cert} {t : Custody Cert}

theorem nonempty_some {pass : String} (given : pass ≠ "") : nonempty (some pass) = some pass := by
  simp [nonempty, given]

theorem nonempty_ne {pass : Option String} {given : String} (here : nonempty pass = some given) :
    given ≠ "" := by
  rintro rfl
  simp [nonempty] at here

theorem opens_iff {env : Option String} :
    t.opens env = true ↔ ∀ key lock, t.key = some (key, some lock) → nonempty env = some lock := by
  unfold Custody.opens
  split
  · next kept lock here => simp [here]
  · next free =>
    refine iff_of_true rfl fun key lock here => ?_
    exact absurd here (free key lock)

theorem readCert_plain (plain : t.age = none) (certPass dbPass : Option String) :
    t.readCert certPass dbPass = t.current := by
  simp [Custody.readCert, Custody.current, plain]

theorem readCert_locked {cert : Cert} {lock : String} (locked : t.age = some (cert, lock))
    (env : Option String) :
    t.readCert none env = if nonempty env = some lock then t.current else none := by
  simp [Custody.readCert, Custody.current, locked, nonempty]

/-- Some passphrase opens both exactly when the locks agree. -/
theorem opens_both_iff (proper : t.Proper) (f : String) :
    (∃ env, t.opens env = true ∧ ∃ cert, t.readCert none env = some cert ∧ G.fingerprint cert = f) ↔
      t.Matches G f := by
  constructor
  · rintro ⟨env, opens, cert, read, same⟩
    cases locked : t.age with
    | none =>
      rw [readCert_plain locked] at read
      exact ⟨⟨cert, read, same⟩, fun _ _ here => by cases locked.symm.trans here⟩
    | some pair =>
      obtain ⟨kept, lock⟩ := pair
      rw [readCert_locked locked, Option.ite_none_right_eq_some] at read
      refine ⟨⟨cert, read.2, same⟩, fun other pass here => ?_⟩
      obtain ⟨rfl, rfl⟩ := Prod.mk.inj (Option.some.inj (locked.symm.trans here))
      intro key keyLock keyed
      exact Option.some.inj ((opens_iff.mp opens key keyLock keyed).symm.trans read.1)
  · rintro ⟨⟨cert, shown, same⟩, agree⟩
    cases locked : t.age with
    | none =>
      have some_env : ∃ env, t.opens env = true := by
        cases kept : t.key with
        | none => exact ⟨none, opens_iff.mpr fun _ _ here => by cases kept.symm.trans here⟩
        | some pair =>
          obtain ⟨key, lock⟩ := pair
          refine ⟨lock, opens_iff.mpr fun other pass here => ?_⟩
          obtain ⟨-, rfl⟩ := Prod.mk.inj (Option.some.inj (kept.symm.trans here))
          exact nonempty_some (proper.key key pass kept)
      obtain ⟨env, opens⟩ := some_env
      exact ⟨env, opens, cert, (readCert_plain locked none env).trans shown, same⟩
    | some pair =>
      obtain ⟨kept, lock⟩ := pair
      have given : nonempty (some lock) = some lock := nonempty_some (proper.age kept lock locked)
      refine ⟨some lock, opens_iff.mpr fun key keyLock keyed => ?_, cert, ?_, same⟩
      · rw [given, agree kept lock locked key keyLock keyed]
      · rw [readCert_locked locked, if_pos given, shown]

theorem proper_setCert (proper : t.Proper) (cert : Cert) (typed : String) :
    (t.setCert cert typed).Proper := by
  unfold Custody.setCert
  split
  · exact ⟨proper.key, proper.age, proper.identity⟩
  · next given =>
    refine ⟨proper.key, ?_, proper.identity⟩
    rintro _ _ ⟨⟩
    exact given

theorem proper_step (proper : t.Proper) (e : Event Salt Cert) : (Custody.step G t e).2.Proper := by
  cases e with
  | init d =>
    simp only [Custody.step, Custody.init, Prod.map_snd, id]
    split
    · have written := proper_setCert proper d.cert d.typed
      split
      · exact written
      · next key opened =>
        refine ⟨fun _ lock here => ?_, written.age, fun _ => rfl⟩
        exact nonempty_ne (Prod.mk.inj (Option.some.inj here)).2
    · exact proper
  | openStore env terminal random salt =>
    simp only [Custody.step, Custody.openKey, Prod.map_snd, id]
    split
    · refine ⟨fun _ lock here => ?_, proper.age, fun _ => rfl⟩
      exact nonempty_ne (Prod.mk.inj (Option.some.inj here)).2
    · exact proper
  | readCert certPass dbPass => exact proper
  | passwdArgs current new salt =>
    simp only [Custody.step, Custody.passwdArgs, Prod.map_snd, id]
    split
    · next pass cert lock given here =>
      split
      · refine ⟨proper.key, ?_, proper.identity⟩
        rintro _ _ ⟨⟩
        exact nonempty_ne given
      · exact proper
    · exact proper
  | passwdPrompts old new again salt =>
    have relocked (asc : Option Cert) (cert : Cert) (given : new ≠ "") :
        ({ t with age := some (cert, new), asc := asc } : Custody Cert).Proper := by
      refine ⟨proper.key, ?_, proper.identity⟩
      rintro _ _ ⟨⟩
      exact given
    simp only [Custody.step, Custody.passwdPrompts, Prod.map_snd, id]
    split
    · split
      · exact proper
      · next given => exact relocked none _ given
    · exact proper
    · split
      · exact proper
      · split
        · exact proper
        · split
          · exact ⟨proper.key, (fun _ _ here => by cases here), proper.identity⟩
          · next given => exact relocked none _ given

theorem matches_plain {f : String} (plain : t.age = none) :
    t.Matches G f ↔ ∃ cert, t.asc = some cert ∧ G.fingerprint cert = f := by
  have shown : t.current = t.asc := by simp [Custody.current, plain]
  rw [← shown]
  exact ⟨fun ⟨cert, _⟩ => cert, fun cert => ⟨cert, fun _ _ here => by cases plain.symm.trans here⟩⟩

theorem matches_locked {f : String} {cert : Cert} {lock : String}
    (locked : t.age = some (cert, lock)) :
    t.Matches G f ↔ G.fingerprint cert = f ∧ t.Locked lock := by
  have shown : t.current = some cert := by simp [Custody.current, locked]
  constructor
  · rintro ⟨⟨other, here, same⟩, agree⟩
    obtain rfl := Option.some.inj (shown.symm.trans here)
    exact ⟨same, agree cert lock locked⟩
  · rintro ⟨same, agree⟩
    refine ⟨⟨cert, shown, same⟩, fun _ _ here => ?_⟩
    obtain ⟨-, rfl⟩ := Prod.mk.inj (Option.some.inj (locked.symm.trans here))
    exact agree

theorem openKey_eq_none_iff {env : Option String} {random : Key} :
    (t.openKey env random).1 = none ↔ t.opens env = false := by
  unfold Custody.openKey
  cases kept : t.key with
  | none => simp [Custody.opens, kept]
  | some pair => simp

/-- An `init` whose key does not open leaves its certificate behind. -/
theorem usable_setCert_iff (usable : t.Usable G) (cert : Cert) (typed : String) :
    (t.setCert cert typed).Usable G ↔ ∀ f, t.identity = some f →
      if typed = "" then t.age.isSome = true ∨ G.fingerprint cert = f
      else G.fingerprint cert = f ∧ t.Locked typed := by
  have identity : (t.setCert cert typed).identity = t.identity := by
    unfold Custody.setCert
    split <;> rfl
  rw [Custody.Usable, identity]
  refine forall_congr' fun f => imp_congr_right fun known => ?_
  by_cases plain : typed = ""
  · rw [setCert_plain t cert plain, if_pos plain]
    cases locked : t.age with
    | none =>
      refine (matches_plain rfl).trans ?_
      simp
    | some pair =>
      refine iff_of_true ?_ (Or.inl rfl)
      have before := usable f known
      rw [matches_locked locked] at before
      exact (matches_locked rfl).mpr before
  · rw [setCert_locked t cert plain, if_neg plain]
    exact matches_locked rfl

/-- An `init` that opens the key makes an identity that its own certificate fits, unless an older
encrypted one stands in front of it. -/
theorem usable_init_iff (key : Key) (d : Init Salt Cert) :
    ({ t.setCert d.cert d.typed with
      key := some (key, nonempty (some d.typed))
      identity := some (G.fingerprint d.cert) } : Custody Cert).Usable G ↔
      (d.typed = "" → ∀ cert lock, t.age = some (cert, lock) →
        G.fingerprint cert = G.fingerprint d.cert) := by
  simp only [Custody.Usable, Option.some.injEq, forall_eq']
  by_cases plain : d.typed = ""
  · have free : nonempty (some d.typed) = none := by simp [plain, nonempty]
    rw [setCert_plain t d.cert plain, free]
    simp only [plain, true_implies]
    cases locked : t.age with
    | none =>
      refine iff_of_true ?_ (fun _ _ here => by cases here)
      exact (matches_plain rfl).mpr ⟨d.cert, rfl, rfl⟩
    | some pair =>
      refine (matches_locked rfl).trans ?_
      constructor
      · rintro ⟨same, -⟩ cert lock here
        cases here
        exact same
      · intro same
        exact ⟨same _ _ rfl, fun _ _ here => by cases (Prod.mk.inj (Option.some.inj here)).2⟩
  · rw [setCert_locked t d.cert plain]
    refine iff_of_true ?_ (fun here => absurd here plain)
    refine (matches_locked rfl).mpr ⟨rfl, fun _ lock here => ?_⟩
    have own := (Prod.mk.inj (Option.some.inj here)).2
    rw [nonempty_some plain] at own
    exact (Option.some.inj own).symm

/-- A certificate that is locked anew still fits. -/
theorem usable_relock_iff (usable : t.Usable G) {cert : Cert} {lock : String}
    (locked : t.age = some (cert, lock)) (pass : String) (asc : Option Cert) :
    ({ t with age := some (cert, pass), asc := asc } : Custody Cert).Usable G ↔
      (t.identity.isSome = true → t.Locked pass) := by
  unfold Custody.Usable
  cases known : t.identity with
  | none => simp
  | some f =>
    have fits := ((matches_locked locked).mp (usable f known)).1
    simp only [Option.some.injEq, forall_eq', Option.isSome_some, true_implies]
    refine (matches_locked rfl).trans ?_
    exact and_iff_right fits

theorem usable_step_iff (usable : t.Usable G) (e : Event Salt Cert) (proper : t.Proper) :
    (Custody.step G t e).2.Usable G ↔ Spares G t e := by
  cases e with
  | init d =>
    simp only [Custody.step, Custody.init, Prod.map_snd, id, Spares]
    by_cases goes : confirmed t.identity d.confirm = true
    · simp only [goes, if_true, true_implies]
      cases opened : (t.openKey d.env d.random).1 with
      | none =>
        have shut := openKey_eq_none_iff.mp opened
        simp only [shut, Bool.false_eq_true, if_false]
        exact usable_setCert_iff usable d.cert d.typed
      | some key =>
        have opens : t.opens d.env = true := by
          by_contra shut
          rw [openKey_eq_none_iff.mpr (Bool.eq_false_iff.mpr shut)] at opened
          cases opened
        simp only [opens, if_true]
        exact usable_init_iff key d
    · simp only [if_neg goes]
      exact iff_of_true usable fun yes => absurd yes goes
  | openStore env terminal random salt =>
    refine iff_of_true ?_ trivial
    simp only [Custody.step, Custody.openKey, Prod.map_snd, id]
    split
    · next none_kept =>
      intro f known
      have impossible := proper.identity (by rw [known]; rfl)
      rw [none_kept] at impossible
      cases impossible
    · exact usable
  | readCert certPass dbPass => exact iff_of_true usable trivial
  | passwdArgs current new salt =>
    simp only [Custody.step, Custody.passwdArgs, Prod.map_snd, id, Spares]
    cases given : nonempty new with
    | none => simpa using usable
    | some pass =>
      cases locked : t.age with
      | none => simpa using usable
      | some pair =>
        obtain ⟨cert, lock⟩ := pair
        by_cases same : current = lock
        · subst same
          simp only [if_true]
          refine (usable_relock_iff usable locked pass t.asc).trans ?_
          simp
        · simp only [if_neg same]
          refine iff_of_true usable ?_
          rintro - _ _ - here
          exact absurd (Prod.mk.inj (Option.some.inj here)).2.symm same
  | passwdPrompts old new again salt =>
    simp only [Custody.step, Custody.passwdPrompts, Prod.map_snd, id, Spares]
    cases plain : t.asc with
    | some cert =>
      by_cases empty : new = ""
      · simp [empty, usable]
      · simp only [ne_eq, empty, if_false, not_false_eq_true, true_implies]
        exact forall_congr' fun f => imp_congr_right fun _ => matches_locked rfl
    | none =>
      cases locked : t.age with
      | none => simpa using usable
      | some pair =>
        obtain ⟨cert, lock⟩ := pair
        by_cases same : old = lock
        · subst same
          have given : old ≠ "" := proper.age cert old locked
          simp only [given, ne_eq, not_true_eq_false, or_self, if_false]
          by_cases twice : new = again
          · by_cases empty : new = ""
            · simp only [twice.symm, empty, not_true_eq_false, if_false, if_true, false_implies,
                implies_true, iff_true]
              intro f known
              have fits := ((matches_locked locked).mp (usable f known)).1
              exact (matches_plain rfl).mpr ⟨cert, rfl, fits⟩
            · simp only [twice.symm, empty, not_true_eq_false, if_false, not_false_eq_true,
                true_implies]
              refine (usable_relock_iff usable locked new none).trans ?_
              cases t.identity <;> simp
          · simp [twice, usable]
        · have refused : old = "" ∨ ¬ old = lock := Or.inr same
          simp only [ne_eq, refused, if_true]
          refine iff_of_true usable ?_
          rintro f - - _ here
          exact absurd (Prod.mk.inj (Option.some.inj here)).2.symm same

/-- A passphrase opens the key for whatever stands at the terminal. -/
theorem opens_eq [Inhabited Salt] (laws : A.Laws) {home : Home} (holds : Holds A G home t)
    (env : Option String) :
    (∀ terminal random salt, ∃ key,
      (loadKeyInteractive A home.dbKey (nonempty env) terminal random salt).1 = .ok key) ↔
      t.opens env = true := by
  have one (terminal : Option String) (random : Key) (salt : Salt) :
      (∃ key, (loadKeyInteractive A home.dbKey (nonempty env) terminal random salt).1 = .ok key) ↔
        t.opens env = true := by
    have same := (loadKeyInteractive_eq laws holds.key env terminal random salt).1
    cases loaded : (loadKeyInteractive A home.dbKey (nonempty env) terminal random salt).1 with
    | error e =>
      rw [loaded] at same
      rw [openKey_eq_none_iff.mp same.symm]
      simp
    | ok key =>
      rw [loaded] at same
      refine iff_of_true ⟨key, rfl⟩ ?_
      by_contra shut
      rw [openKey_eq_none_iff.mpr (Bool.eq_false_iff.mpr shut)] at same
      cases same
  constructor
  · intro opens
    exact (one none ⟨List.replicate 32 0, rfl⟩ default).mp (opens _ _ _)
  · intro opens terminal random salt
    exact (one terminal random salt).mpr opens

theorem usable_iff_custody [Inhabited Salt] (laws : A.Laws) (certs : G.Laws) {home : Home}
    (holds : Holds A G home t) (proper : t.Proper) : Usable A G home ↔ t.Usable G := by
  unfold Usable Custody.Usable
  rw [holds.identity]
  refine forall_congr' fun f => imp_congr_right fun _ => ?_
  rw [← opens_both_iff proper f]
  refine exists_congr fun env => ?_
  refine and_congr (opens_eq laws holds env) ?_
  have same := loadCert_eq laws certs holds none env
  refine exists_congr fun cert => and_congr_left fun _ => ?_
  rw [← same]
  cases loadCert A G home none env <;> simp [Except.toOption]

end

theorem proper_new : (newCustody : Custody Cert).Proper :=
  ⟨(fun _ _ here => by cases here), (fun _ _ here => by cases here), fun here => by cases here⟩

/-- In every run one passphrase in the environment opens the key and the certificate of the
identity, exactly if every `init` and every new passphrase spares them. -/
theorem usable_iff [Inhabited Salt] {A : Age Salt} {G : Pgp Cert} (laws : A.Laws) (certs : G.Laws)
    (run : List (Event Salt Cert)) :
    (∀ front back, run = front ++ back → Usable A G (final (step A G) newHome front)) ↔
      Along (Custody.step G) (Spares G) newCustody run := by
  have holds (front : List (Event Salt Cert)) :
      Holds A G (final (step A G) newHome front) (final (Custody.step G) newCustody front) :=
    (step_simulates laws certs).final (holds_new A G) front
  have proper (front : List (Event Salt Cert)) :
      (final (Custody.step G) newCustody front).Proper :=
    final_preserved Custody.Proper (fun _ e proper => proper_step proper e) proper_new front
  have start : (newCustody : Custody Cert).Usable G := fun _ known => by cases known
  calc (∀ front back, run = front ++ back → Usable A G (final (step A G) newHome front))
      ↔ ∀ front back, run = front ++ back →
          (final (Custody.step G) newCustody front).Usable G :=
        forall₂_congr fun front _ =>
          imp_congr_right fun _ => usable_iff_custody laws certs (holds front) (proper front)
    _ ↔ Along (Custody.step G) (Spares G) newCustody run := by
        apply forall_final_iff_along_of _ _ start proper_new run
        · intro t e usable proper
          exact usable_step_iff usable e proper
        · intro t e _ proper _
          exact proper_step proper e

/-- The passphrase stands in front of the text. -/
def boxAge : Age Unit where
  encrypt text pass _ := String.ofList (ageHeader ++ (quoted pass ++ (text.toList ++ ['-'])))
  decrypt armored pass :=
    if (ageHeader ++ quoted pass).isPrefixOf armored.toList then
      .ok (String.ofList (armored.toList.drop (ageHeader ++ quoted pass).length).dropLast)
    else .error "Decryption failed"

theorem encrypt_box (text pass : String) (salt : Unit) :
    (boxAge.encrypt text pass salt).toList =
      ageHeader ++ (quoted pass ++ (text.toList ++ ['-'])) := by
  simp [boxAge]

theorem trimmed_box (text pass : String) (salt : Unit) :
    trimmed (boxAge.encrypt text pass salt) = (boxAge.encrypt text pass salt).toList := by
  have front : ∃ rest, (boxAge.encrypt text pass salt).toList = '-' :: rest := by
    rw [encrypt_box]
    exact ⟨_, rfl⟩
  have back : ∃ rest, (boxAge.encrypt text pass salt).toList = rest ++ ['-'] := by
    rw [encrypt_box]
    exact ⟨ageHeader ++ (quoted pass ++ text.toList), by simp⟩
  unfold trimmed trim
  obtain ⟨rest, first⟩ := front
  have kept : (boxAge.encrypt text pass salt).toList.dropWhile isWhitespace =
      (boxAge.encrypt text pass salt).toList := by
    rw [first]
    exact List.dropWhile_cons_of_neg (by decide)
  obtain ⟨rest, last⟩ := back
  rw [kept, last]
  exact List.rdropWhile_concat_neg _ _ _ (by decide)

theorem boxAge_laws : boxAge.Laws where
  right text pass salt := by
    have armored : (ageHeader ++ quoted pass).isPrefixOf (boxAge.encrypt text pass salt).toList :=
      List.isPrefixOf_iff_prefix.mpr ⟨text.toList ++ ['-'], by simp [encrypt_box]⟩
    have body : ((boxAge.encrypt text pass salt).toList.drop
        (ageHeader ++ quoted pass).length).dropLast = text.toList := by
      rw [encrypt_box, ← List.append_assoc, List.drop_left, List.dropLast_concat]
    simp only [boxAge] at armored body ⊢
    rw [if_pos armored, body, String.ofList_toList]
  wrong text pass other salt differ := by
    have refused : ¬ (ageHeader ++ quoted other).isPrefixOf
        (boxAge.encrypt text pass salt).toList := by
      intro armored
      obtain ⟨rest, same⟩ := List.isPrefixOf_iff_prefix.mp armored
      rw [encrypt_box, List.append_assoc] at same
      have inner := List.append_cancel_left same
      exact differ (quoted_delimits other pass _ _ trivial trivial inner).1
    simp only [boxAge] at refused ⊢
    rw [if_neg refused]
    rfl
  trims text pass other salt := by rw [trimmed_box, String.ofList_toList]
  header text pass salt := by
    rw [trimmed_box, encrypt_box]
    exact List.prefix_append _ _

def plainPgp : Pgp String where
  armored cert := "-" ++ cert
  fromBytes text :=
    match text.toList with
    | '-' :: rest => .ok (String.ofList rest)
    | _ => .error "no certificate"
  fingerprint cert := cert

theorem plainPgp_laws : plainPgp.Laws where
  back cert := by simp [plainPgp]
  text cert := by
    have first : asBytes ("-" ++ cert) = 0x2D :: asBytes cert := by
      rw [asBytes_append]
      rfl
    simp only [plainPgp, first]
    rfl

/-- An identity under a passphrase, and two openings. -/
def oneIdentity : List (Event Unit String) :=
  let random : Key := ⟨List.replicate 32 7, by decide⟩
  [.init ⟨"", "hunter2", none, none, "A", random, (), (), ()⟩,
    .openStore none (some "hunter2") random (), .openStore (some "hunter2") none random ()]

theorem custody_answers_box :
    outputs (step boxAge plainPgp) newHome oneIdentity =
      outputs (Custody.step plainPgp) newCustody oneIdentity :=
  custody_answers boxAge_laws plainPgp_laws oneIdentity

theorem one_key_box :
    ∃ key, ∀ given ∈ keysGiven (outputs (step boxAge plainPgp) newHome oneIdentity), given = key :=
  one_key boxAge_laws plainPgp_laws oneIdentity

theorem usable_iff_box :
    (∀ front back, oneIdentity = front ++ back →
        Usable boxAge plainPgp (final (step boxAge plainPgp) newHome front)) ↔
      Along (Custody.step plainPgp) (Spares plainPgp) newCustody oneIdentity :=
  usable_iff boxAge_laws plainPgp_laws oneIdentity

/-- A new passphrase for the certificate alone. -/
example : ¬ Along (Custody.step plainPgp) (Spares plainPgp) newCustody
    (oneIdentity ++ [.passwdArgs "hunter2" (some "hunter3") ()]) := by
  rintro ⟨-, -, -, spares, -⟩
  have locked := spares rfl "hunter3" "A" rfl rfl _ "hunter2" rfl
  exact absurd locked (by decide)

end KeysAtRest

import AddMessenger.NullIds
import AddMessenger.Patterns

/-!
# What the desktop client reads from the command line

`desktop-ui/electron/main.js`, `desktop-ui/electron/db-key-manager.js` and
`desktop-ui/src/services/addCLI.ts`: null ids and fingerprints are taken out of what
`client/src/main.rs` prints with regular expressions. The order in which the command lists its
contacts and aliases is an argument, and so is what it finds out about them.
-/

namespace CliOutput

open ByteStrings ClientSessions Patterns Pattern

variable {S : Signatures.Primitives}

/-- A null id that one of the two derivations makes. -/
structure NullId (S : Signatures.Primitives) where
  text : String
  derived : ∃ fp, text = nullId S fp ∨ text = Signatures.computeNullId S fp

structure Identity (S : Signatures.Primitives) where
  nullId : NullId S
  fingerprint : String
  pqFingerprint : Option String

def println (text : String) : String := text ++ "\n"

/-- `Commands::Id`. -/
def printId (identity : Identity S) : String :=
  println ("Null ID:     " ++ identity.nullId.text) ++
    println ("Fingerprint: " ++ identity.fingerprint) ++
    (match identity.pqFingerprint with
    | some pqFp => println ("PQ Fingerprint: " ++ pqFp)
    | none => "")

/-- How `init` protects the new identity. -/
inductive Vault where
  | sealed
  | passphraseMode
  | memoryOnly

def printVault : Vault → String
  | .sealed => println "Vault created at ~/.add/vault.json"
  | .passphraseMode => println "Vault created at ~/.add/vault.json (passphrase mode, no TPM)"
  | .memoryOnly =>
    println "WARNING: No --pin or --password provided. MAK stored in memory only." ++
      println ("         This identity is NOT protected at rest. " ++
        "Re-init with --pin/--password to secure it.")

def printExisting (existing : Identity S) : String :=
  println "An identity already exists!" ++
    println ("  Null ID:     " ++ existing.nullId.text) ++
    println ("  Fingerprint: " ++ existing.fingerprint) ++ println "" ++
    println "WARNING: Re-initializing will destroy your current identity." ++
    println "         You will NOT be able to read messages sent to this identity." ++
    println "         All contacts will need your new Null ID." ++ println "" ++
    println "Type 'yes' to confirm and replace your identity:"

def printCreated (identity : Identity S) (vault : Vault) : String :=
  println "Identity created successfully!" ++
    println ("  Fingerprint: " ++ identity.fingerprint) ++
    println ("  Null ID:     " ++ identity.nullId.text) ++ println "" ++ printVault vault ++
    println "Share your Null ID with contacts to receive messages."

/-- A run of `Commands::Init`: an identity that exists is kept unless the user confirms. -/
structure InitRun (S : Signatures.Primitives) where
  existing : Option (Identity S)
  confirmed : Bool
  created : Identity S
  vault : Vault

/-- What is printed, and the identity that is there then. -/
def runInit (run : InitRun S) : String × Identity S :=
  match run.existing with
  | none => (printCreated run.created run.vault, run.created)
  | some existing =>
    if run.confirmed then
      (printExisting existing ++ printCreated run.created run.vault, run.created)
    else (printExisting existing ++ println "Aborted. Your existing identity is unchanged.",
      existing)

structure Contact (S : Signatures.Primitives) where
  nullId : NullId S
  fingerprint : String

/-- `Commands::Contacts`. -/
def printContacts (contacts : List (Contact S)) : String :=
  if contacts.isEmpty then
    println "No contacts. Add one with: add add-contact <null_id> <fingerprint>"
  else println "Contacts:" ++
    String.join (contacts.map fun c => println ("  " ++ c.nullId.text ++ " -> " ++ c.fingerprint))

structure Alias (S : Signatures.Primitives) where
  name : String
  nullId : NullId S

/-- `Commands::Aliases`. -/
def printAliases (aliases : List (Alias S)) : String :=
  if aliases.isEmpty then println "No aliases. Add one with: add alias <name> <null_id>"
  else println "Aliases:" ++
    String.join (aliases.map fun a => println ("  " ++ a.name ++ " -> " ++ a.nullId.text))

/-- What `contact-status` finds out about a contact. -/
inductive Reach where
  | online (addr : String)
  | offline
  | available (addr : String)
  | unavailable

def printReach (c : Contact S) (reach : Reach) : String :=
  let shown := String.ofList (c.fingerprint.toList.take 8) ++ " (" ++ c.nullId.text ++ ") - "
  match reach with
  | .online addr => println ("  ✓ " ++ shown ++ "ONLINE at " ++ addr)
  | .offline => println ("  ✗ " ++ shown ++ "OFFLINE")
  | .available addr => println ("  ● " ++ shown ++ "AVAILABLE (public service) at " ++ addr)
  | .unavailable => println ("  ○ " ++ shown ++ "UNAVAILABLE (cert store)")

def Reach.counted : Reach → Bool
  | .online _ | .available _ => true
  | .offline | .unavailable => false

/-- `Commands::ContactStatus`. -/
def printStatus (bootstraps : Nat) (contacts : List (Contact S × Reach)) : String :=
  if contacts.isEmpty then
    println ("No contacts found. Add contacts with " ++
      "'add add-contact <null_id> <fingerprint>'")
  else
    let online := (contacts.filter fun c => c.2.counted).length
    println ("Checking online status for " ++ toString contacts.length ++ " contacts across " ++
      toString bootstraps ++ " bootstrap servers...") ++
      String.join (contacts.map fun c => printReach c.1 c.2) ++
      println ("\nSummary: " ++ toString online ++ " online, " ++
        toString (contacts.length - online) ++ " offline")

/-- `\s` -/
def isSpace (c : Char) : Bool :=
  (9 ≤ c.toNat && c.toNat ≤ 13) || (0x2000 ≤ c.toNat && c.toNat ≤ 0x200a) ||
    [0x20, 0xa0, 0x1680, 0x2028, 0x2029, 0x202f, 0x205f, 0x3000, 0xfeff].contains c.toNat

/-- `.` -/
def isDot (c : Char) : Bool := !([0xa, 0xd, 0x2028, 0x2029].contains c.toNat)

def isIdChar (c : Char) : Bool := c.isAlphanum || c = '+' || c = '/'

def isHex (c : Char) : Bool := c.isDigit || ('A' ≤ c && c ≤ 'F') || ('a' ≤ c && c ≤ 'f')

def isUpperAlnum (c : Char) : Bool := c.isDigit || c.isUpper

def spaces : Pattern := many true isSpace

/-- `NN-[A-Za-z0-9+/]{4}-[A-Za-z0-9+/]{4}` after a first part. -/
def nullIdAfter (mark : Pattern) : Pattern :=
  seq mark (seq (times 4 isIdChar) (seq (word "-") (times 4 isIdChar)))

def nullIdRe : Pattern := nullIdAfter (word "NN-")

/-- The same under the flag `i`. -/
def nullIdAnyCase : Pattern :=
  nullIdAfter (seq (times 2 fun c => c = 'N' || c = 'n') (word "-"))

def idRe : Pattern := seq (word "Null ID:") (seq spaces (group nullIdRe))

def fingerprintRe (allowed : Char → Bool) : Pattern :=
  seq (word "Fingerprint:") (seq spaces (group (atLeastOne true allowed)))

def statusRe : Pattern :=
  seq (group nullIdRe) (seq (word ")") (seq spaces (seq (word "-") (seq spaces
    (group (oneOf ["ONLINE".toList, "OFFLINE".toList]))))))

def contactRe (id : Pattern) (allowed : Char → Bool) : Pattern :=
  seq (group id) (seq spaces (seq (word "->") (seq spaces (group (atLeastOne true allowed)))))

def aliasRe : Pattern :=
  seq spaces (seq (group (atLeastOne false isDot)) (seq spaces (seq (word "->") (seq spaces
    (group nullIdRe)))))

def jsTrim (text : List Char) : List Char :=
  ((text.dropWhile isSpace).reverse.dropWhile isSpace).reverse

/-- What `runCliCommand` resolves with, in lines. -/
def trimmed (stdout : String) : List Char := jsTrim stdout.toList

def linesOf (output : List Char) : List (List Char) := output.splitOn '\n'

/-- `match?.[i] || ''` -/
def captured (found : Option Way) (i : Nat) : String :=
  ((found.bind fun w => w.groups[i]?).map String.ofList).getD ""

structure Shown where
  id : String
  fingerprint : String
  deriving DecidableEq, Repr

def showIdentity (allowed : Char → Bool) (stdout : String) : Shown where
  id := captured (search idRe (trimmed stdout)) 0
  fingerprint := captured (search (fingerprintRe allowed) (trimmed stdout)) 0

/-- The handlers `add-init` and `add-id`. -/
def addInit (stdout : String) : Shown := showIdentity isHex stdout

def addId (stdout : String) : Shown := showIdentity isHex stdout

/-- `AddCLI.init` and `AddCLI.getMyId`. -/
def addCliInit (stdout : String) : Shown := showIdentity isUpperAlnum stdout

def addCliGetMyId (stdout : String) : Shown := showIdentity isUpperAlnum stdout

/-- The identity in the answer of `loadDbKey`, if it is a success. -/
def loadDbKey (stdout : String) : Except String Shown :=
  match search idRe (trimmed stdout), search (fingerprintRe isHex) (trimmed stdout) with
  | some idMatch, some fpMatch =>
    .ok ⟨captured (some idMatch) 0, captured (some fpMatch) 0⟩
  | _, _ => .error "Failed to parse identity from CLI output"

/-- The matches of a pattern, line by line. -/
def eachLine (p : Pattern) (stdout : String) : List Way :=
  (linesOf (trimmed stdout)).filterMap (search p)

def addContacts (stdout : String) : List Shown :=
  (eachLine (contactRe nullIdRe isHex) stdout).map fun w =>
    ⟨captured (some w) 0, captured (some w) 1⟩

def addCliContacts (stdout : String) : List Shown :=
  (eachLine (contactRe nullIdAnyCase Char.isAlphanum) stdout).map fun w =>
    ⟨captured (some w) 0, captured (some w) 1⟩

/-- The names and the null ids of `add-aliases`. -/
def addAliases (stdout : String) : List (String × String) :=
  (eachLine aliasRe stdout).map fun w => (captured (some w) 0, captured (some w) 1)

/-- The null ids of `add-check-contact-status`, and who is online. -/
def addCheckContactStatus (stdout : String) : List (String × Bool) :=
  (eachLine statusRe stdout).map fun w =>
    (captured (some w) 0, captured (some w) 1 == "ONLINE")

/-- One reading of the output of one command. -/
inductive Reading (S : Signatures.Primitives) where
  | addInit (run : InitRun S)
  | addCliInit (run : InitRun S)
  | addId (identity : Identity S)
  | addCliGetMyId (identity : Identity S)
  | loadDbKey (identity : Identity S)
  | addContacts (contacts : List (Contact S))
  | addCliContacts (contacts : List (Contact S))
  | addAliases (aliases : List (Alias S))
  | addCheckContactStatus (bootstraps : Nat) (contacts : List (Contact S × Reach))

def Identity.shown (identity : Identity S) : Shown :=
  ⟨identity.nullId.text, identity.fingerprint⟩

def Contact.shown (c : Contact S) : Shown := ⟨c.nullId.text, c.fingerprint⟩

/-- The null ids and fingerprints that are read are the ones there are. -/
def Reading.Exact : Reading S → Prop
  | .addInit run => CliOutput.addInit (runInit run).1 = (runInit run).2.shown
  | .addCliInit run => CliOutput.addCliInit (runInit run).1 = (runInit run).2.shown
  | .addId identity => CliOutput.addId (printId identity) = identity.shown
  | .addCliGetMyId identity => CliOutput.addCliGetMyId (printId identity) = identity.shown
  | .loadDbKey identity => CliOutput.loadDbKey (printId identity) = .ok identity.shown
  | .addContacts contacts =>
    CliOutput.addContacts (printContacts contacts) = contacts.map Contact.shown
  | .addCliContacts contacts =>
    CliOutput.addCliContacts (printContacts contacts) = contacts.map Contact.shown
  | .addAliases aliases =>
    CliOutput.addAliases (printAliases aliases) =
      aliases.map fun a => (a.name, a.nullId.text)
  | .addCheckContactStatus bootstraps contacts =>
    CliOutput.addCheckContactStatus (printStatus bootstraps contacts) =
      contacts.map fun c => (c.1.nullId.text, c.2.counted)

/-- There is nothing to list. -/
def Reading.Empty : Reading S → Prop
  | .addContacts contacts | .addCliContacts contacts => contacts = []
  | .addAliases aliases => aliases = []
  | .addCheckContactStatus _ contacts => contacts = []
  | _ => False

theorem NullId.long (nid : NullId S) : 12 < nid.text.length := by
  obtain ⟨fp, text | text⟩ := nid.derived
  · have digits : (hexEncode (S.blake2b16 (asBytes fp)).val).toList.length = 32 := by
      rw [hexEncode_toList_length, (S.blake2b16 (asBytes fp)).property]
    simp only [text, nullId, String.length_append, String.length_ofList, List.length_take,
      List.length_drop, digits]
    decide
  · rw [text, ← String.length_toList]
    exact lt_of_lt_of_le (by decide) (Signatures.length_toList_computeNullId fp)

theorem captured_size {p : Pattern} {w : Way} (reads : Reads p w.text w.rest w.groups)
    {i n : Nat} (sized : (groupWidths p)[i]? = some (some n)) :
    (captured (some w) i).length = n := by
  obtain ⟨g, kept, size⟩ := reads.group_size sized
  have text : captured (some w) i = String.ofList g := by simp [captured, kept]
  rw [text, String.length_ofList, size]

/-- A group of fixed size gives a text of that size, or none. -/
theorem captured_short {p : Pattern} {i n : Nat}
    (sized : (groupWidths p)[i]? = some (some n)) (input : List Char) :
    (captured (search p input) i).length ≤ n := by
  cases found : search p input with
  | none => exact Nat.zero_le n
  | some w =>
    obtain ⟨before, -, reads⟩ := search_sound found
    exact (captured_size reads sized).le

theorem showIdentity_ne (allowed : Char → Bool) (stdout : String) (identity : Identity S) :
    showIdentity allowed stdout ≠ identity.shown := by
  intro same
  have short := captured_short (p := idRe) (i := 0) (n := 12) rfl (trimmed stdout)
  have id : captured (search idRe (trimmed stdout)) 0 = identity.nullId.text :=
    congrArg Shown.id same
  have long := identity.nullId.long
  rw [← id] at long
  omega

theorem loadDbKey_ne (identity : Identity S) :
    loadDbKey (printId identity) ≠ .ok identity.shown := by
  intro same
  apply showIdentity_ne isHex (printId identity) identity
  rw [loadDbKey] at same
  split at same
  · next idMatch fpMatch foundId foundFp =>
    rw [showIdentity, foundId, foundFp]
    exact Except.ok.inj same
  · cases same

/-- No line is read of a text without the word that a pattern needs. -/
theorem eachLine_eq_nil {p : Pattern} {word : List Char} (needs : p.Needs word)
    {stdout : String} (absent : ∀ line ∈ linesOf (trimmed stdout), ¬ word <:+: line) :
    eachLine p stdout = [] :=
  List.filterMap_eq_nil_iff.mpr fun line member => search_eq_none needs (absent line member)

theorem contactRe_needs (id : Pattern) (allowed : Char → Bool) :
    (contactRe id allowed).Needs "->".toList :=
  ((needs_word "->").seq_left.seq_right).seq_right

theorem aliasRe_needs : aliasRe.Needs "->".toList :=
  (((needs_word "->").seq_left.seq_right).seq_right).seq_right

theorem noContacts_lines : ∀ line ∈ linesOf (trimmed (printContacts ([] : List (Contact S)))),
    ¬ "->".toList <:+: line := by
  have text : printContacts ([] : List (Contact S)) =
    "No contacts. Add one with: add add-contact <null_id> <fingerprint>\n" := rfl
  rw [text]
  decide +kernel

theorem addContacts_none : addContacts (printContacts ([] : List (Contact S))) = [] := by
  rw [addContacts, eachLine_eq_nil (contactRe_needs nullIdRe isHex) noContacts_lines, List.map_nil]

theorem addCliContacts_none : addCliContacts (printContacts ([] : List (Contact S))) = [] := by
  rw [addCliContacts, eachLine_eq_nil (contactRe_needs nullIdAnyCase Char.isAlphanum)
    noContacts_lines, List.map_nil]

theorem addAliases_none : addAliases (printAliases ([] : List (Alias S))) = [] := by
  have text : printAliases ([] : List (Alias S)) =
    "No aliases. Add one with: add alias <name> <null_id>\n" := rfl
  have absent : ∀ line ∈ linesOf (trimmed "No aliases. Add one with: add alias <name> <null_id>\n"),
      ¬ "->".toList <:+: line := by
    decide +kernel
  rw [text, addAliases, eachLine_eq_nil aliasRe_needs absent, List.map_nil]

theorem addCheckContactStatus_none (bootstraps : Nat) :
    addCheckContactStatus (printStatus bootstraps ([] : List (Contact S × Reach))) = [] := by
  have text : printStatus bootstraps ([] : List (Contact S × Reach)) =
    "No contacts found. Add contacts with 'add add-contact <null_id> <fingerprint>'\n" := rfl
  rw [text]
  decide +kernel

theorem mem_eachLine {p : Pattern} {stdout : String} {w : Way}
    (member : w ∈ eachLine p stdout) : ∃ line, search p line = some w := by
  obtain ⟨line, -, found⟩ := List.mem_filterMap.mp member
  exact ⟨line, found⟩

/-- A list that is read back through a group of 12 characters is empty. -/
theorem nothing_read {A B : Type*} {p : Pattern} {i : Nat}
    (sized : (groupWidths p)[i]? = some (some 12)) (key : B → String) {entry : Way → B}
    (keyed : ∀ w, key (entry w) = captured (some w) i) {stdout : String} {printed : List A}
    {shown : A → B} (long : ∀ a, 12 < (key (shown a)).length)
    (same : (eachLine p stdout).map entry = printed.map shown) : printed = [] := by
  rw [List.eq_nil_iff_forall_not_mem]
  intro a member
  have listed : shown a ∈ (eachLine p stdout).map entry := same ▸ List.mem_map_of_mem member
  obtain ⟨w, read, eq⟩ := List.mem_map.mp listed
  obtain ⟨line, found⟩ := mem_eachLine read
  have short := captured_short sized line
  rw [found, ← keyed w, eq] at short
  exact absurd (long a) (Nat.not_lt.mpr short)

/-- No identity is read as it is printed, and of the lists only those that are empty. -/
theorem exact_iff_empty (reading : Reading S) : reading.Exact ↔ reading.Empty := by
  cases reading with
  | addInit run => exact iff_of_false (showIdentity_ne isHex _ _) id
  | addCliInit run => exact iff_of_false (showIdentity_ne isUpperAlnum _ _) id
  | addId identity => exact iff_of_false (showIdentity_ne isHex _ _) id
  | addCliGetMyId identity => exact iff_of_false (showIdentity_ne isUpperAlnum _ _) id
  | loadDbKey identity => exact iff_of_false (loadDbKey_ne identity) id
  | addContacts contacts =>
    constructor
    · exact nothing_read rfl Shown.id (fun w => rfl) fun c => c.nullId.long
    · rintro rfl
      exact addContacts_none
  | addCliContacts contacts =>
    constructor
    · exact nothing_read rfl Shown.id (fun w => rfl) fun c => c.nullId.long
    · rintro rfl
      exact addCliContacts_none
  | addAliases aliases =>
    constructor
    · exact nothing_read rfl Prod.snd (fun w => rfl) fun a => a.nullId.long
    · rintro rfl
      exact addAliases_none
  | addCheckContactStatus bootstraps contacts =>
    constructor
    · exact nothing_read rfl Prod.fst (fun w => rfl) fun c => c.1.nullId.long
    · rintro rfl
      exact addCheckContactStatus_none bootstraps

def exampleIdentity (nid : NullId Signatures.sumScheme) : Identity Signatures.sumScheme :=
  ⟨nid, NullIds.exampleFingerprint, none⟩

def exampleNullId : NullId Signatures.sumScheme :=
  ⟨nullId Signatures.sumScheme NullIds.exampleFingerprint,
    ⟨NullIds.exampleFingerprint, .inl rfl⟩⟩

def exampleComputed : NullId Signatures.sumScheme :=
  ⟨Signatures.computeNullId Signatures.sumScheme NullIds.exampleFingerprint,
    ⟨NullIds.exampleFingerprint, .inr rfl⟩⟩

/-- One null id is cut to a text that is none, the other is not found, and a contact is left
out. -/
theorem null_ids_misread :
    ¬ (Reading.addId (exampleIdentity exampleComputed)).Exact ∧
      addId (printId (exampleIdentity exampleComputed)) =
        ⟨"NN-5858-5858", NullIds.exampleFingerprint⟩ ∧
      NullIds.validateNullId "NN-5858-5858" ≠ .ok () ∧
      Signatures.validateNullId "NN-5858-5858" = false ∧
      addId (printId (exampleIdentity exampleNullId)) = ⟨"", NullIds.exampleFingerprint⟩ ∧
      addContacts (printContacts [⟨exampleNullId, NullIds.exampleFingerprint⟩]) = [] := by
  have cut : addId (printId (exampleIdentity exampleComputed)) =
      ⟨"NN-5858-5858", NullIds.exampleFingerprint⟩ := by decide +kernel
  refine ⟨?_, cut, by decide +kernel, by decide +kernel, by decide +kernel, by decide +kernel⟩
  intro same
  have id : "NN-5858-5858" = exampleComputed.text := congrArg Shown.id (cut.symm.trans same)
  exact absurd id (by decide +kernel)

end CliOutput

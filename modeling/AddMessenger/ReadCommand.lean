import AddMessenger.Contacts
import AddMessenger.RelayServer
import AddMessenger.Tables

/-!
# Reading the mailbox

`Commands::Read` of `client/src/main.rs`: the entries of all relays are decrypted one after
the other, a text that was seen before is passed over, then senders that are no contacts are
left out, and what remains is printed and stored. After that the last stored messages are
printed, each cut at forty bytes.

The entries the relays have sent, the aliases and the answers of the database are arguments.
-/

namespace ReadCommand

open ByteStrings ClientSessions Contacts MessageStore Protocol Ratchet Tables

variable (F : Platform)

/-- An entry of a relay; `written` is what the database answers when its session is saved. -/
structure RelayEntry where
  signedBlob : String
  senderNid : String
  senderFp : String
  written : Except String Unit

/-- An entry that was decrypted. -/
structure Opened where
  entry : RelayEntry
  text : String

def decryptEntry (me : Party F) (entry : RelayEntry) (store : Store) : Outcome String × Store :=
  relayDecryptMessage F entry.signedBlob entry.senderNid entry.senderFp me.identity.fingerprint
    me.kyber entry.written store

def textHash (text : String) : String := sha256Hex F.S (asBytes text)

def isContact (contacts : ContactList) (entry : RelayEntry) : Bool :=
  (contacts.lookup entry.senderNid).isSome

/-- The messages to show, with the entries they come from, and the sessions after it. A hash
is remembered before the sender is looked at. -/
def readLoop (me : Party F) (contacts : ContactList) :
    List RelayEntry → List String → Store → List Opened × Store
  | [], _, store => ([], store)
  | entry :: rest, seenHashes, store =>
    match decryptEntry F me entry store with
    | (⟨.error _, _⟩, store) => readLoop me contacts rest seenHashes store
    | (⟨.ok decrypted, _⟩, store) =>
      let msgHash := textHash F decrypted
      if seenHashes.contains msgHash then readLoop me contacts rest seenHashes store
      else
        let (shown, store) := readLoop me contacts rest (msgHash :: seenHashes) store
        if isContact contacts entry then (⟨entry, decrypted⟩ :: shown, store) else (shown, store)

/-- `label` is the reverse of the alias table. -/
structure Options where
  json : Bool
  noStored : Bool
  relays : Nat
  label : String → Option String

def jsonLine (sender text : String) : String :=
  F.J.display (.object [("from", .string sender), ("text", .string text)])

def messageLines (o : Options) (shown : List Opened) : List String :=
  if shown.isEmpty then []
  else if o.json then shown.map fun m => jsonLine F m.entry.senderNid m.text
  else
    ("Messages (" ++ toString shown.length ++ "):") :: shown.mapIdx fun i m =>
      "  [" ++ toString (i + 1) ++ "] [" ++
        (o.label m.entry.senderNid).getD m.entry.senderNid ++ "] [" ++ m.text ++ "]"

/-- The row of a message: delivered, its id the hash of its text. -/
def rowOf (me : Party F) (dbKey : Bytes) (m : Opened) : MessageRow :=
  ⟨m.entry.senderNid, me.identity.nullId, m.text, 2, textHash F m.text,
    blindIndex F.S dbKey (textHash F m.text)⟩

def storeShown (me : Party F) (shown : List Opened) (store : Store) : Store :=
  shown.foldl (fun store m => storeMessage F.S store m.entry.senderNid me.identity.nullId m.text 2
    (textHash F m.text)) store

/-- The text of a stored message as it is listed; `&text[..40]` panics in the middle of a
character. -/
def preview (text : String) : Option String :=
  if 40 < (asBytes text).length then
    if RelayServer.isCharBoundary text 40 then
      some ((fromUtf8 ((asBytes text).take 40)).getD "" ++ "...")
    else none
  else some text

def checkmark (status : UInt8) : String :=
  match status with
  | 0 => "🔘"
  | 1 => "☑️"
  | 2 => "✔️"
  | 3 => "✔️✔️"
  | _ => "?"

def storedLine (me : Party F) (json : Bool) (idx : Nat) (row : MessageRow) (text : String) :
    String :=
  if json then
    jsonLine F (if row.fromNid = me.identity.nullId then row.toNid else row.fromNid) text
  else
    "  [" ++ toString (idx + 1) ++ "] " ++ checkmark row.status ++ " " ++ row.fromNid ++ " -> " ++
      row.toNid ++ ": " ++ text

/-- The lines that are printed, and whether the next one panics. -/
def storedLines (line : Nat → MessageRow → String → String) :
    Nat → List MessageRow → List String × Bool
  | _, [] => ([], false)
  | idx, row :: rest =>
    match preview row.ciphertext with
    | none => ([], true)
    | some text =>
      let (lines, panicked) := storedLines line (idx + 1) rest
      (line idx row text :: lines, panicked)

def listStored (me : Party F) (o : Options) (stored : List MessageRow) : List String × Bool :=
  if o.noStored || stored.isEmpty then ([], false)
  else
    let (lines, panicked) := storedLines (storedLine F me o.json) 0 stored
    if o.json then (lines, panicked)
    else ("\nStored messages (last 20):" :: lines ++
      (if panicked then [] else ["  (use 'add delete <position>' to delete a message)"]), panicked)

/-- `shown` are the messages behind the first lines; the relays are asked to purge. -/
structure ReadOutcome where
  shown : List Opened
  lines : List String
  store : Store
  purged : Bool
  panicked : Bool

def readCommand (me : Party F) (contacts : ContactList) (o : Options) (entries : List RelayEntry)
    (store : Store) : ReadOutcome :=
  let (shown, store) := readLoop F me contacts entries [] store
  let store := if o.json then store else storeShown F me shown store
  let (stored, panicked) := listStored F me o (getMessages store 20)
  { shown := shown
    lines := ("Checking " ++ toString o.relays ++ " relay mailbox(s)...") ::
      (if entries.isEmpty then ["No new messages."] else messageLines F o shown) ++ stored
    store := store
    purged := !shown.isEmpty
    panicked := panicked }

/-- The entries that can be decrypted, in order, and the sessions after them. -/
def openAll (me : Party F) : List RelayEntry → Store → List Opened × Store
  | [], store => ([], store)
  | entry :: rest, store =>
    match decryptEntry F me entry store with
    | (⟨.error _, _⟩, store) => openAll me rest store
    | (⟨.ok decrypted, _⟩, store) =>
      let (opened, store) := openAll me rest store
      (⟨entry, decrypted⟩ :: opened, store)

/-- Of the messages with one text the first is taken, if it is a contact's. -/
def taken (contacts : ContactList) (opened : List Opened) : List Opened :=
  (firsts (fun m => textHash F m.text) [] opened).filter fun m => isContact contacts m.entry

variable {F}

theorem readLoop_eq (me : Party F) (contacts : ContactList) (entries : List RelayEntry)
    (seen : List String) (store : Store) :
    readLoop F me contacts entries seen store =
      ((firsts (fun m => textHash F m.text) seen (openAll F me entries store).1).filter
        fun m => isContact contacts m.entry, (openAll F me entries store).2) := by
  induction entries generalizing seen store with
  | nil => rfl
  | cons entry rest ih =>
    rw [readLoop, openAll]
    split
    · exact ih seen _
    · rename_i decrypted _ store _
      simp only [firsts, List.contains_iff_mem]
      split
      · exact ih seen store
      · rw [ih, List.filter_cons]
        split <;> rfl

/-- Decrypting does not touch the messages. -/
theorem decryptEntry_messages (me : Party F) (entry : RelayEntry) (store : Store) :
    (decryptEntry F me entry store).2.messages = store.messages ∧
      (decryptEntry F me entry store).2.dbKey = store.dbKey := by
  simp only [decryptEntry, relayDecryptMessage]
  split
  · exact ⟨rfl, rfl⟩
  · split
    · exact ⟨rfl, rfl⟩
    · cases entry.written with
      | error e => exact ⟨rfl, rfl⟩
      | ok u => exact ⟨rfl, rfl⟩

theorem openAll_messages (me : Party F) (entries : List RelayEntry) (store : Store) :
    (openAll F me entries store).2.messages = store.messages ∧
      (openAll F me entries store).2.dbKey = store.dbKey := by
  induction entries generalizing store with
  | nil => exact ⟨rfl, rfl⟩
  | cons entry rest ih =>
    have kept := decryptEntry_messages me entry store
    rw [openAll]
    split
    · rename_i next decrypted
      rw [decrypted] at kept
      exact ⟨(ih next).1.trans kept.1, (ih next).2.trans kept.2⟩
    · rename_i next decrypted
      rw [decrypted] at kept
      exact ⟨(ih next).1.trans kept.1, (ih next).2.trans kept.2⟩

/-- A message that comes first with its text. -/
def New (F : Platform) (opened : List Opened) (m : Opened) : Prop :=
  ∃ front back, opened = front ++ m :: back ∧
    ∀ earlier ∈ front, textHash F earlier.text ≠ textHash F m.text

theorem mem_taken {contacts : ContactList} {opened : List Opened} {m : Opened} :
    m ∈ taken F contacts opened ↔ New F opened m ∧ isContact contacts m.entry = true := by
  rw [taken, List.mem_filter, mem_firsts]
  simp [New]

theorem taken_nodup (contacts : ContactList) (opened : List Opened) :
    (taken F contacts opened).Nodup :=
  ((firsts_nodup [] opened).of_map _).filter _

theorem storeMessage_eq (me : Party F) (m : Opened) (store : Store) :
    storeMessage F.S store m.entry.senderNid me.identity.nullId m.text 2 (textHash F m.text) =
      { store with
        messages := insertNew MessageRow.messageIdIdx store.messages
          (rowOf F me store.dbKey m) } := by
  by_cases known : (store.messages.any fun row =>
      row.messageIdIdx == blindIndex F.S store.dbKey (textHash F m.text)) = true
  · have dropped : insertNew MessageRow.messageIdIdx store.messages (rowOf F me store.dbKey m) =
        store.messages := if_pos known
    rw [dropped]
    exact if_pos known
  · have kept : insertNew MessageRow.messageIdIdx store.messages (rowOf F me store.dbKey m) =
        store.messages ++ [rowOf F me store.dbKey m] := if_neg known
    rw [kept]
    exact if_neg known

theorem storeShown_messages (me : Party F) (shown : List Opened) (store : Store) :
    (storeShown F me shown store).messages =
      (shown.map (rowOf F me store.dbKey)).foldl (insertNew MessageRow.messageIdIdx)
        store.messages := by
  induction shown generalizing store with
  | nil => rfl
  | cons m rest ih =>
    rw [storeShown, List.foldl_cons, storeMessage_eq]
    exact ih _

theorem storedLines_panics_iff {line : Nat → MessageRow → String → String} {idx : Nat}
    {rows : List MessageRow} :
    (storedLines line idx rows).2 = false ↔
      ∀ row ∈ rows, 40 < (asBytes row.ciphertext).length →
        RelayServer.isCharBoundary row.ciphertext 40 = true := by
  induction rows generalizing idx with
  | nil => simp [storedLines]
  | cons row rest ih =>
    rw [List.forall_mem_cons, storedLines]
    cases cut : preview row.ciphertext with
    | none =>
      simp only [preview] at cut
      split_ifs at cut with long boundary
      simp [long, boundary]
    | some text =>
      have here : 40 < (asBytes row.ciphertext).length →
          RelayServer.isCharBoundary row.ciphertext 40 = true := by
        intro long
        simp only [preview, long, if_true] at cut
        split_ifs at cut with boundary
        exact boundary
      simp only [ih]
      exact (and_iff_right here).symm

theorem listStored_panics_iff {me : Party F} {o : Options} {rows : List MessageRow} :
    (listStored F me o rows).2 = false ↔ o.noStored = true ∨
      ∀ row ∈ rows, 40 < (asBytes row.ciphertext).length →
        RelayServer.isCharBoundary row.ciphertext 40 = true := by
  obtain ⟨json, noStored, relays, label⟩ := o
  rw [listStored]
  split
  · rename_i nothing
    refine iff_of_true rfl ?_
    rcases Bool.or_eq_true_iff.mp nothing with no | none
    · exact .inl no
    · rw [List.isEmpty_iff.mp none]
      exact .inr (by simp)
  · rename_i something
    have stored : noStored ≠ true := fun no => something (by rw [no, Bool.true_or])
    rw [or_iff_right stored, ← @storedLines_panics_iff (storedLine F me json) 0 rows]
    cases json <;> rfl

/-- Every message a contact has sent is shown once for its blob, has a row of its own, and
listing the rows does not panic. -/
structure NothingLost (me : Party F) (contacts : ContactList) (o : Options)
    (entries : List RelayEntry) (store : Store) : Prop where
  shownOnce : ∀ m ∈ (openAll F me entries store).1, isContact contacts m.entry = true →
    (readCommand F me contacts o entries store).shown.countP
      (fun other => other.entry.signedBlob == m.entry.signedBlob) = 1
  ownRows : (readCommand F me contacts o entries store).store.messages =
    store.messages ++ (readCommand F me contacts o entries store).shown.map
      (rowOf F me store.dbKey)
  lists : (readCommand F me contacts o entries store).panicked = false

/-- The messages come with texts of their own: of the copies of a blob exactly one comes
first with its text; the new ones are stored, under ids that are free; and no text that is
listed is cut inside a character. -/
structure TextsDiffer (me : Party F) (contacts : ContactList) (o : Options)
    (opened : List Opened) (store : Store) : Prop where
  oneNew : ∀ m ∈ opened, isContact contacts m.entry = true →
    ∃! other, New F opened other ∧ isContact contacts other.entry = true ∧
      other.entry.signedBlob = m.entry.signedBlob
  stores : o.json = true → ∀ m, New F opened m → isContact contacts m.entry = false
  free : ∀ m, New F opened m → isContact contacts m.entry = true →
    blindIndex F.S store.dbKey (textHash F m.text) ∉ store.messages.map MessageRow.messageIdIdx
  apart : ∀ m other, New F opened m → isContact contacts m.entry = true → New F opened other →
    isContact contacts other.entry = true → m ≠ other →
      blindIndex F.S store.dbKey (textHash F m.text) ≠
        blindIndex F.S store.dbKey (textHash F other.text)
  boundary : o.noStored = true ∨ ∀ row ∈ (store.messages ++
      (taken F contacts opened).map (rowOf F me store.dbKey)).reverse.take 20,
    40 < (asBytes row.ciphertext).length → RelayServer.isCharBoundary row.ciphertext 40 = true

section

variable {me : Party F} {contacts : ContactList} {o : Options} {entries : List RelayEntry}
  {store : Store}

theorem readCommand_shown : (readCommand F me contacts o entries store).shown =
    taken F contacts (openAll F me entries store).1 := by
  simp only [readCommand, readLoop_eq]
  rfl

theorem shown_once_iff {opened : List Opened} {blob : String} :
    (taken F contacts opened).countP (fun other => other.entry.signedBlob == blob) = 1 ↔
      ∃! other, New F opened other ∧ isContact contacts other.entry = true ∧
        other.entry.signedBlob = blob := by
  rw [countP_eq_one_iff (taken_nodup contacts opened)]
  simp only [mem_taken, beq_iff_eq, and_assoc]

/-- The store a run ends with: the messages as they were, or with those that were shown. -/
theorem readCommand_messages : (readCommand F me contacts o entries store).store.messages =
    if o.json then store.messages
    else ((taken F contacts (openAll F me entries store).1).map (rowOf F me store.dbKey)).foldl
      (insertNew MessageRow.messageIdIdx) store.messages := by
  obtain ⟨messages, dbKey⟩ := openAll_messages me entries store
  simp only [readCommand, readLoop_eq]
  cases o.json with
  | true => exact messages
  | false =>
    simp only [Bool.false_eq_true, if_false]
    rw [storeShown_messages, messages, dbKey]
    rfl

/-- The rows are all there exactly where every message was stored under an id of its own. -/
theorem own_rows_iff : (readCommand F me contacts o entries store).store.messages =
      store.messages ++ (taken F contacts (openAll F me entries store).1).map
        (rowOf F me store.dbKey) ↔
    (o.json = true → taken F contacts (openAll F me entries store).1 = []) ∧
      (∀ m ∈ taken F contacts (openAll F me entries store).1,
        blindIndex F.S store.dbKey (textHash F m.text) ∉
          store.messages.map MessageRow.messageIdIdx) ∧
      ((taken F contacts (openAll F me entries store).1).map fun m =>
        blindIndex F.S store.dbKey (textHash F m.text)).Nodup := by
  rw [readCommand_messages]
  generalize taken F contacts (openAll F me entries store).1 = shown
  cases o.json with
  | true =>
    simp only [if_true, List.self_eq_append_right, List.map_eq_nil_iff, forall_true_left]
    constructor
    · rintro rfl
      simp
    · exact fun held => held.1
  | false =>
    simp only [Bool.false_eq_true, if_false, false_implies, true_and, foldl_insertNew_eq_append_iff,
      List.forall_mem_map, List.map_map]
    rfl

theorem lists_iff (stored : (readCommand F me contacts o entries store).store.messages =
      store.messages ++ (taken F contacts (openAll F me entries store).1).map
        (rowOf F me store.dbKey)) :
    (readCommand F me contacts o entries store).panicked = false ↔
      o.noStored = true ∨ ∀ row ∈ (store.messages ++
          (taken F contacts (openAll F me entries store).1).map
            (rowOf F me store.dbKey)).reverse.take 20,
        40 < (asBytes row.ciphertext).length →
          RelayServer.isCharBoundary row.ciphertext 40 = true := by
  rw [← stored]
  exact listStored_panics_iff

end

/-- `Read` loses nothing exactly where the texts differ. -/
theorem nothing_lost_iff (me : Party F) (contacts : ContactList) (o : Options)
    (entries : List RelayEntry) (store : Store) :
    NothingLost me contacts o entries store ↔
      TextsDiffer me contacts o (openAll F me entries store).1 store := by
  constructor
  · rintro ⟨shownOnce, ownRows, lists⟩
    rw [readCommand_shown] at shownOnce ownRows
    obtain ⟨stores, free, nodup⟩ := own_rows_iff.mp ownRows
    refine ⟨?_, ?_, ?_, ?_, (lists_iff ownRows).mp lists⟩
    · intro m member contact
      exact shown_once_iff.mp (shownOnce m member contact)
    · intro json m new
      by_contra contact
      have member := mem_taken.mpr ⟨new, Bool.not_eq_false _ ▸ contact⟩
      rw [stores json] at member
      cases member
    · intro m new contact
      exact free m (mem_taken.mpr ⟨new, contact⟩)
    · intro m other new contact newOther contactOther different same
      exact different (List.inj_on_of_nodup_map nodup (mem_taken.mpr ⟨new, contact⟩)
        (mem_taken.mpr ⟨newOther, contactOther⟩) same)
  · rintro ⟨oneNew, stores, free, apart, boundary⟩
    have ownRows : (readCommand F me contacts o entries store).store.messages =
        store.messages ++ (taken F contacts (openAll F me entries store).1).map
          (rowOf F me store.dbKey) := by
      refine own_rows_iff.mpr ⟨?_, ?_, ?_⟩
      · intro json
        refine List.eq_nil_iff_forall_not_mem.mpr fun m member => ?_
        obtain ⟨new, contact⟩ := mem_taken.mp member
        rw [stores json m new] at contact
        cases contact
      · intro m member
        obtain ⟨new, contact⟩ := mem_taken.mp member
        exact free m new contact
      · refine List.Nodup.map_on ?_ (taken_nodup contacts _)
        intro m member other memberOther same
        obtain ⟨new, contact⟩ := mem_taken.mp member
        obtain ⟨newOther, contactOther⟩ := mem_taken.mp memberOther
        by_contra different
        exact apart m other new contact newOther contactOther different same
    refine ⟨?_, ?_, (lists_iff ownRows).mpr boundary⟩
    · intro m member contact
      rw [readCommand_shown]
      exact shown_once_iff.mpr (oneNew m member contact)
    · rw [readCommand_shown]
      exact ownRows

/-- The sender's chain of the small instance. -/
def chainKey : Nat → Bytes
  | 0 => [1]
  | n + 1 => nextChainKey checksumPrimitives (chainKey n)

/-- The blob of a message with the text `hi` and no padding. -/
def greeting (n : Nat) : Json :=
  .object [("ciphertext", .string (latin1Encode (checksumNonce.val ++ checksumSeal
      (messageKey checksumPrimitives (chainKey n)) checksumNonce.val (asBytes "006869")))),
    ("sender_fp", .string "A"), ("sender_nid", .string "na"),
    ("seq", .number (.posInt (UInt64.ofNat n)))]

def greetings : Platform := smallPlatform [greeting 0, greeting 1]

def carol : Party greetings := ⟨⟨"C", "nc"⟩, ⟨(7 : UInt8), (7 : UInt8)⟩⟩

/-- Carol's session with Alice. -/
def withAlice : Store where
  dbKey := [1]
  sessions idx := if idx = blindIndex Signatures.sumScheme [1] "na" then
      some { peerFp := "A", peerNid := "na", ourFp := "C", isInitiator := false, selfMode := false,
             rootKey := [], sendChainKey := [], recvChainKey := chainKey 0,
             sendMessageNumber := 0, recvMessageNumber := 0, skippedKeys := ∅ }
    else none
  messages := []

def entryOf (n : Nat) : RelayEntry := ⟨compact (greeting n), "na", "A", .ok ()⟩

def contactsOfCarol : ContactList := (∅ : ContactList).insert "na" "AAAAAAAA"

def plainly : Options := ⟨false, false, 1, fun _ => none⟩

/-- Alice has sent two messages with one text; Carol sees the first, and the second is not
stored either. -/
theorem second_greeting_lost :
    (openAll greetings carol [entryOf 0, entryOf 1] withAlice).1.map (fun m =>
        (m.entry.signedBlob, isContact contactsOfCarol m.entry, m.text)) =
      [(compact (greeting 0), true, "hi"), (compact (greeting 1), true, "hi")] ∧
    (readCommand greetings carol contactsOfCarol plainly [entryOf 0, entryOf 1]
      withAlice).shown.map (fun m => m.entry.signedBlob) = [compact (greeting 0)] ∧
    ¬ NothingLost carol contactsOfCarol plainly [entryOf 0, entryOf 1] withAlice := by
  have opened : (openAll greetings carol [entryOf 0, entryOf 1] withAlice).1.map (fun m =>
        (m.entry.signedBlob, isContact contactsOfCarol m.entry, m.text)) =
      [(compact (greeting 0), true, "hi"), (compact (greeting 1), true, "hi")] := by decide +kernel
  have shown : (readCommand greetings carol contactsOfCarol plainly [entryOf 0, entryOf 1]
      withAlice).shown.map (fun m => m.entry.signedBlob) = [compact (greeting 0)] := by
    decide +kernel
  refine ⟨opened, shown, ?_⟩
  intro nothing
  have second : (compact (greeting 1), true, "hi") ∈
      (openAll greetings carol [entryOf 0, entryOf 1] withAlice).1.map (fun m =>
        (m.entry.signedBlob, isContact contactsOfCarol m.entry, m.text)) := by
    rw [opened]
    exact List.mem_cons_of_mem _ List.mem_cons_self
  obtain ⟨m, member, same⟩ := List.mem_map.mp second
  have blob : m.entry.signedBlob = compact (greeting 1) := congrArg Prod.fst same
  have contact : isContact contactsOfCarol m.entry = true := congrArg (fun p => p.2.1) same
  have once := nothing.shownOnce m member contact
  rw [blob] at once
  have none : (readCommand greetings carol contactsOfCarol plainly [entryOf 0, entryOf 1]
      withAlice).shown.countP
        (fun other => other.entry.signedBlob == compact (greeting 1)) = 0 := by
    decide +kernel
  rw [none] at once
  cases once

end ReadCommand

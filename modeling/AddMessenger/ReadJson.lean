import AddMessenger.ReadCommand

/-!
# Reading for another program

`Commands::Read` of `client/src/main.rs` with `--json`, as the desktop client runs it. The rows
of the store come from messages that were sent, from the listener, and from reading; who has
really sent the message in a blob is an argument.
-/

namespace ReadJson

open ByteStrings ClientSessions Contacts MessageStore Protocol ReadCommand

variable {F : Platform}

/-- What a row was made of: by `send_message`, by the listener, or by an earlier `Read`. -/
inductive Origin where
  | sent (toNid ciphertext : String)
  | heard (peerFp ciphertext plaintext : String)
  | read (blob label text : String)

structure Kept where
  origin : Origin
  status : UInt8
  messageId : String

/-- The column `ciphertext`, which `Read` gives a plain text. -/
def Kept.ciphertext (k : Kept) : String :=
  match k.origin with
  | .sent _ ciphertext | .heard _ ciphertext _ => ciphertext
  | .read _ _ text => text

/-- The listener writes the fingerprint of its peer in the place of a null id. -/
def Kept.row (me : Party F) (dbKey : Bytes) (k : Kept) : MessageRow where
  fromNid :=
    match k.origin with
    | .sent _ _ => me.identity.nullId
    | .heard peerFp _ _ => peerFp
    | .read _ label _ => label
  toNid :=
    match k.origin with
    | .sent toNid _ => toNid
    | .heard _ _ _ | .read _ _ _ => me.identity.nullId
  ciphertext := k.ciphertext
  status := k.status
  messageId := k.messageId
  messageIdIdx := blindIndex F.S dbKey k.messageId

def Kept.blob (k : Kept) : Option String :=
  match k.origin with
  | .sent _ _ | .heard _ _ _ => none
  | .read blob _ _ => some blob

def withRows (me : Party F) (kept : List Kept) (store : Store) : Store :=
  { store with messages := kept.map (Kept.row me store.dbKey) }

def readJson (me : Party F) (contacts : ContactList) (o : Options) (entries : List RelayEntry)
    (kept : List Kept) (store : Store) : ReadOutcome :=
  readCommand F me contacts { o with json := true } entries (withRows me kept store)

/-- What a line was printed for. -/
inductive Printed where
  | fresh (m : Opened)
  | stored (k : Kept)

def Printed.sender (me : Party F) : Printed → String
  | .fresh m => m.entry.senderNid
  | .stored k =>
    let row := k.row me []
    if row.fromNid = me.identity.nullId then row.toNid else row.fromNid

def Printed.text : Printed → String
  | .fresh m => m.text
  | .stored k => (preview k.ciphertext).getD ""

/-- The blob that the message came in. -/
def Printed.blob : Printed → Option String
  | .fresh m => some m.entry.signedBlob
  | .stored k => k.blob

def Printed.json (me : Party F) (p : Printed) : String := jsonLine F (p.sender me) p.text

/-- A text of which the first forty bytes can be taken. -/
def cuttable (text : String) : Bool :=
  (asBytes text).length ≤ 40 || RelayServer.isCharBoundary text 40

/-- The newest rows, up to one at which the command panics. -/
def listed (kept : List Kept) : List Kept :=
  (kept.reverse.take 20).takeWhile fun k => cuttable k.ciphertext

def printed (me : Party F) (contacts : ContactList) (o : Options) (entries : List RelayEntry)
    (kept : List Kept) (store : Store) : List Printed :=
  (readJson me contacts o entries kept store).shown.map .fresh ++
    if o.noStored then [] else (listed kept).map .stored

theorem preview_isSome (text : String) : (preview text).isSome = cuttable text := by
  rw [preview, cuttable]
  split
  · next long =>
    rw [decide_eq_false (Nat.not_le.mpr long), Bool.false_or]
    split
    · next boundary => exact boundary.symm
    · next inside => exact (Bool.eq_false_iff.mpr inside).symm
  · next short => rw [decide_eq_true (Nat.not_lt.mp short), Bool.true_or, Option.isSome_some]

theorem storedLines_json (me : Party F) (dbKey : Bytes) (idx : Nat) (kept : List Kept) :
    (storedLines (storedLine F me true) idx (kept.map (Kept.row me dbKey))).1 =
      (kept.takeWhile fun k => cuttable k.ciphertext).map fun k => (Printed.stored k).json me := by
  induction kept generalizing idx with
  | nil => rfl
  | cons k rest ih =>
    have cut := preview_isSome k.ciphertext
    have front : preview (k.row me dbKey).ciphertext = preview k.ciphertext := rfl
    rw [List.map_cons, storedLines, List.takeWhile_cons, ← cut, front]
    cases shown : preview k.ciphertext with
    | none => rfl
    | some text =>
      have here : (Printed.stored k).text = text := congrArg (Option.getD · "") shown
      have line : storedLine F me true idx (k.row me dbKey) text = (Printed.stored k).json me := by
        rw [Printed.json, here]
        rfl
      simp only [Option.isSome_some, if_true, List.map_cons, line, ih]

section

variable (me : Party F) (contacts : ContactList) (o : Options) (entries : List RelayEntry)
  (kept : List Kept) (store : Store)

/-- The entries that are opened, in order. -/
def opened : List Opened := (openAll F me entries (withRows me kept store)).1

theorem readJson_shown : (readJson me contacts o entries kept store).shown =
    taken F contacts (opened me entries kept store) :=
  readCommand_shown

/-- Nothing is stored. -/
theorem readJson_messages : (readJson me contacts o entries kept store).store.messages =
    kept.map (Kept.row me store.dbKey) :=
  readCommand_messages

theorem readJson_purged : (readJson me contacts o entries kept store).purged =
    !(readJson me contacts o entries kept store).shown.isEmpty := rfl

theorem listStored_json (rows : List Kept) (dbKey : Bytes) :
    (listStored F me { o with json := true } (rows.map (Kept.row me dbKey))).1 =
      (if o.noStored then [] else
        (rows.takeWhile fun k => cuttable k.ciphertext).map Printed.stored).map
          (Printed.json me) := by
  rw [listStored]
  cases o.noStored with
  | true => rfl
  | false =>
    cases rows with
    | nil => rfl
    | cons k rest =>
      have lines := storedLines_json me dbKey 0 (k :: rest)
      simp only [Bool.false_or, List.map_cons, List.isEmpty_cons, Bool.false_eq_true, if_false,
        if_true] at lines ⊢
      rw [lines, List.map_map]
      rfl

theorem messageLines_json (shown : List Opened) : messageLines F { o with json := true } shown =
    (shown.map Printed.fresh).map (Printed.json me) := by
  cases shown with
  | nil => rfl
  | cons m rest =>
    rw [List.map_map]
    rfl

/-- The lines in JSON are those of what is printed. -/
theorem lines_of_printed : (readJson me contacts o entries kept store).lines =
    ("Checking " ++ toString o.relays ++ " relay mailbox(s)...") ::
      (if entries.isEmpty then ["No new messages."] else []) ++
        (printed me contacts o entries kept store).map (Printed.json me) := by
  have newest : getMessages (readJson me contacts o entries kept store).store 20 =
      (kept.reverse.take 20).map (Kept.row me store.dbKey) := by
    rw [getMessages, readJson_messages, ← List.map_reverse, List.map_take]
  have stored := listStored_json me o (kept.reverse.take 20) store.dbKey
  rw [← newest] at stored
  have fresh := messageLines_json me o (readJson me contacts o entries kept store).shown
  have lines : (readJson me contacts o entries kept store).lines =
      ("Checking " ++ toString o.relays ++ " relay mailbox(s)...") ::
        (if entries.isEmpty then ["No new messages."]
          else messageLines F { o with json := true }
            (readJson me contacts o entries kept store).shown) ++
          (listStored F me { o with json := true }
            (getMessages (readJson me contacts o entries kept store).store 20)).1 := rfl
  rw [lines, stored, fresh, printed, List.map_append]
  cases entries with
  | nil => rfl
  | cons e rest => rfl

end

/-- The sender and the text of the message that the user has received, if it is one; `author`
is who has sent the message of a blob. -/
def Kept.message (S : Signatures.Primitives) (author : String → Option String) (k : Kept) :
    Option (String × String) :=
  match k.origin with
  | .sent _ _ => none
  | .heard peerFp _ plaintext => some (nullId S peerFp, plaintext)
  | .read blob _ text => (author blob).map fun a => (a, text)

def Printed.message (S : Signatures.Primitives) (author : String → Option String) :
    Printed → Option (String × String)
  | .fresh m => (author m.entry.signedBlob).map fun a => (a, m.text)
  | .stored k => k.message S author

/-- Each line is a message that the party it names has sent to the user, whole, and a message
that the relays forget is printed or in the store. -/
structure ReportsReceived (author : String → Option String) (me : Party F)
    (contacts : ContactList) (o : Options) (entries : List RelayEntry) (kept : List Kept)
    (store : Store) : Prop where
  received : ∀ p ∈ printed me contacts o entries kept store,
    p.message F.S author = some (p.sender me, p.text)
  known : (readJson me contacts o entries kept store).purged = true →
    ∀ e ∈ entries, (author e.signedBlob).isSome = true →
      (∃ p ∈ printed me contacts o entries kept store, p.blob = some e.signedBlob) ∨
        ∃ k ∈ kept, k.blob = some e.signedBlob

/-- A text that its own preview shows. -/
def Whole (text : String) : Prop :=
  (asBytes text).length ≤ 40 ∨
    ∃ front, (asBytes front).length = 40 ∧ text = front ++ "..."

/-- A row that is a received text with its sender. -/
def Kept.Legible (S : Signatures.Primitives) (author : String → Option String) (k : Kept) :
    Prop :=
  match k.origin with
  | .sent _ _ => False
  | .heard peerFp ciphertext plaintext =>
    nullId S peerFp = peerFp ∧ preview ciphertext = some plaintext
  | .read blob label text => author blob = some label ∧ Whole text

/-- The relays name the senders, the rows that are listed are legible, and if there is a new
message of a contact then every message is one, or is in the store. -/
structure OnlyMail (author : String → Option String) (contacts : ContactList) (o : Options)
    (entries : List RelayEntry) (kept : List Kept) (opened : List Opened) : Prop where
  labelled : ∀ m, New F opened m → isContact contacts m.entry = true →
    author m.entry.signedBlob = some m.entry.senderNid
  legible : o.noStored = true ∨ ∀ k ∈ listed kept, k.Legible F.S author
  covered : (∃ m, New F opened m ∧ isContact contacts m.entry = true) →
    ∀ e ∈ entries, (author e.signedBlob).isSome = true →
      (∃ m, New F opened m ∧ isContact contacts m.entry = true ∧
        m.entry.signedBlob = e.signedBlob) ∨ ∃ k ∈ kept, k.blob = some e.signedBlob

theorem asBytes_append (a b : String) : asBytes (a ++ b) = asBytes a ++ asBytes b := by
  simp [asBytes]

theorem preview_eq_self_iff (text : String) : preview text = some text ↔ Whole text := by
  rw [preview, Whole]
  split
  · next long =>
    rw [or_iff_right (Nat.not_le.mpr long)]
    constructor
    · intro shown
      split at shown
      · have same := Option.some.inj shown
        cases read : fromUtf8 ((asBytes text).take 40) with
        | none =>
          rw [read] at same
          rw [← same] at long
          exact absurd long (by decide +kernel)
        | some front =>
          rw [read] at same
          refine ⟨front, ?_, same.symm⟩
          rw [← fromUtf8_eq_some read, List.length_take_of_le long.le]
      · cases shown
    · rintro ⟨front, size, rfl⟩
      have bytes := asBytes_append front "..."
      have boundary : RelayServer.isCharBoundary (front ++ "...") 40 = true := by
        have dot : (asBytes (front ++ "..."))[40]? = some 46 := by
          rw [bytes, List.getElem?_append_right size.le, size]
          decide +kernel
        simp [RelayServer.isCharBoundary, dot]
      have head : (asBytes (front ++ "...")).take 40 = asBytes front := by
        rw [bytes, ← size, List.take_left]
      rw [if_pos boundary, head, fromUtf8_asBytes]
      rfl
  · next short => exact iff_of_true rfl (.inl (Nat.not_lt.mp short))

section

variable {author : String → Option String} {me : Party F} {contacts : ContactList} {o : Options}
  {entries : List RelayEntry} {kept : List Kept} {store : Store}

theorem fresh_received_iff {m : Opened} :
    (Printed.fresh m).message F.S author =
      some ((Printed.fresh m).sender me, (Printed.fresh m).text) ↔
        author m.entry.signedBlob = some m.entry.senderNid := by
  change (author m.entry.signedBlob).map _ = some (m.entry.senderNid, m.text) ↔ _
  cases author m.entry.signedBlob with
  | none => simp
  | some a => simp

theorem stored_received_iff {k : Kept} (cut : cuttable k.ciphertext = true) :
    (Printed.stored k).message F.S author =
      some ((Printed.stored k).sender me, (Printed.stored k).text) ↔ k.Legible F.S author := by
  rw [← preview_isSome] at cut
  obtain ⟨text, shown⟩ := Option.isSome_iff_exists.mp cut
  have line : (Printed.stored k).text = text := congrArg (Option.getD · "") shown
  have incoming : ∀ label, (if label = me.identity.nullId then me.identity.nullId else label) =
      label := by
    intro label
    split
    · next own => exact own.symm
    · rfl
  rw [line]
  obtain ⟨origin, status, messageId⟩ := k
  cases origin with
  | sent toNid ciphertext => exact iff_of_false (fun none => Option.some_ne_none _ none.symm) id
  | heard peerFp ciphertext plaintext =>
    change preview ciphertext = some text at shown
    change some (nullId F.S peerFp, plaintext) =
      some ((if peerFp = me.identity.nullId then me.identity.nullId else peerFp), text) ↔
        nullId F.S peerFp = peerFp ∧ preview ciphertext = some plaintext
    rw [incoming, shown, Option.some.injEq, Prod.mk.injEq, Option.some.injEq, @eq_comm _ text]
  | read blob label whole =>
    change preview whole = some text at shown
    change (author blob).map _ =
      some ((if label = me.identity.nullId then me.identity.nullId else label), text) ↔
        author blob = some label ∧ Whole whole
    rw [incoming, ← preview_eq_self_iff, shown, Option.some.injEq, @eq_comm _ text]
    cases author blob with
    | none => simp
    | some a => simp

theorem printed_received_iff :
    (∀ p ∈ printed me contacts o entries kept store,
      p.message F.S author = some (p.sender me, p.text)) ↔
    (∀ m, New F (opened me entries kept store) m → isContact contacts m.entry = true →
      author m.entry.signedBlob = some m.entry.senderNid) ∧
    (o.noStored = true ∨ ∀ k ∈ listed kept, k.Legible F.S author) := by
  rw [printed, List.forall_mem_append, List.forall_mem_map, readJson_shown]
  refine and_congr ?_ ?_
  · simp only [fresh_received_iff, mem_taken, and_imp]
  · cases o.noStored with
    | true => simp
    | false =>
      simp only [Bool.false_eq_true, if_false, false_or, List.forall_mem_map]
      refine forall₂_congr fun k member => ?_
      exact stored_received_iff (List.all_eq_true.mp List.all_takeWhile k member)

theorem purged_iff : (readJson me contacts o entries kept store).purged = true ↔
    ∃ m, New F (opened me entries kept store) m ∧ isContact contacts m.entry = true := by
  rw [readJson_purged, Bool.not_eq_true', List.isEmpty_eq_false_iff_exists_mem, readJson_shown]
  simp only [mem_taken]

/-- Of a blob whose row is not in the store only fresh mail is printed. -/
theorem blob_printed_or_kept_iff {blob : String} :
    ((∃ p ∈ printed me contacts o entries kept store, p.blob = some blob) ∨
        ∃ k ∈ kept, k.blob = some blob) ↔
      (∃ m, New F (opened me entries kept store) m ∧ isContact contacts m.entry = true ∧
        m.entry.signedBlob = blob) ∨ ∃ k ∈ kept, k.blob = some blob := by
  constructor
  · rintro (⟨p, member, same⟩ | stored)
    · rw [printed, readJson_shown, List.mem_append, List.mem_map] at member
      obtain ⟨m, shown, rfl⟩ | listed := member
      · obtain ⟨new, contact⟩ := mem_taken.mp shown
        exact .inl ⟨m, new, contact, Option.some.inj same⟩
      · split at listed
        · cases listed
        · obtain ⟨k, row, rfl⟩ := List.mem_map.mp listed
          have newest := List.mem_of_mem_take ((List.takeWhile_prefix _).subset row)
          exact .inr ⟨k, List.mem_reverse.mp newest, same⟩
    · exact .inr stored
  · rintro (⟨m, new, contact, same⟩ | stored)
    · refine .inl ⟨.fresh m, ?_, congrArg some same⟩
      rw [printed, readJson_shown]
      exact List.mem_append_left _ (List.mem_map_of_mem (mem_taken.mpr ⟨new, contact⟩))
    · exact .inr stored

/-- What is printed is received mail, and what is purged is known, exactly under these
conditions. -/
theorem reports_received_iff : ReportsReceived author me contacts o entries kept store ↔
    OnlyMail (F := F) author contacts o entries kept (opened me entries kept store) := by
  constructor
  · rintro ⟨received, known⟩
    obtain ⟨labelled, legible⟩ := printed_received_iff.mp received
    refine ⟨labelled, legible, fun new e member sent => ?_⟩
    exact blob_printed_or_kept_iff.mp (known (purged_iff.mpr new) e member sent)
  · rintro ⟨labelled, legible, covered⟩
    refine ⟨printed_received_iff.mpr ⟨labelled, legible⟩, fun purged e member sent => ?_⟩
    exact blob_printed_or_kept_iff.mpr (covered (purged_iff.mp purged) e member sent)

end

/-- Everything is from Alice. -/
def fromAlice : String → Option String := fun _ => some "na"

def sentRow : Kept := ⟨.sent "na" "c0ffee", 0, "1"⟩

def longText : String := String.ofList (List.replicate 50 'x')

def longRow : Kept := ⟨.read "blob" "na" longText, 2, "2"⟩

theorem not_reports_printed {entries : List RelayEntry} {kept : List Kept} {p : Printed}
    (member : p ∈ printed carol contactsOfCarol plainly entries kept withAlice)
    (wrong : p.message greetings.S fromAlice ≠ some (p.sender carol, p.text)) :
    ¬ ReportsReceived fromAlice carol contactsOfCarol plainly entries kept withAlice :=
  fun reports => wrong (reports.received p member)

/-- What Carol has sent is printed as Alice's, a long text is cut, and the second greeting is
purged and neither printed nor stored. -/
theorem read_json_misreports :
    ¬ ReportsReceived fromAlice carol contactsOfCarol plainly [] [sentRow] withAlice ∧
    ¬ ReportsReceived fromAlice carol contactsOfCarol plainly [] [longRow] withAlice ∧
    ¬ ReportsReceived fromAlice carol contactsOfCarol plainly [entryOf 0, entryOf 1] []
      withAlice := by
  refine ⟨?_, ?_, ?_⟩
  · have whole : cuttable sentRow.ciphertext = true := by decide +kernel
    have listed : listed [sentRow] = [sentRow] := List.takeWhile_cons_of_pos whole
    refine not_reports_printed (p := .stored sentRow) ?_ (Option.some_ne_none _).symm
    rw [printed, listed]
    exact List.mem_append_right _ List.mem_cons_self
  · refine not_reports_printed (p := .stored longRow) ?_ (by decide +kernel)
    exact List.mem_append_right _ List.mem_cons_self
  · intro reports
    have purged : (readJson carol contactsOfCarol plainly [entryOf 0, entryOf 1] []
        withAlice).purged = true := by decide +kernel
    have blobs : (printed carol contactsOfCarol plainly [entryOf 0, entryOf 1] []
        withAlice).map Printed.blob = [some (compact (greeting 0))] := by decide +kernel
    obtain ⟨p, member, blob⟩ | ⟨k, row, -⟩ :=
      reports.known purged (entryOf 1) (List.mem_cons_of_mem _ List.mem_cons_self) rfl
    · have shown := List.mem_map_of_mem (f := Printed.blob) member
      rw [blobs, blob, List.mem_singleton] at shown
      exact absurd shown (by decide +kernel)
    · cases row

end ReadJson

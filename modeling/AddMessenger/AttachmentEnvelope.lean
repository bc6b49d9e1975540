import AddMessenger.Base64
import AddMessenger.ByteStrings
import AddMessenger.ChatStore
import AddMessenger.Trimming

/-!
# The envelope around a file

`desktop-ui/src/lib/attachment.ts`: a file in the text of a message, on lines of its own. A name
becomes one line before it is sent; the size is what the sender says it is.
-/

namespace AttachmentEnvelope

open ByteStrings ChatStore Trimming

/-- The bidi and zero-width characters that are taken out of a name. -/
def isHidden (c : Char) : Bool :=
  (0x202A ≤ c.toNat && c.toNat ≤ 0x202E) || (0x2066 ≤ c.toNat && c.toNat ≤ 0x2069) ||
    c.toNat = 0x200E || c.toNat = 0x200F || c.toNat = 0xFEFF ||
    (0x200B ≤ c.toNat && c.toNat ≤ 0x200D)

def isBreak (c : Char) : Bool := c = '\r' || c = '\n'

/-- What `trim` of a JavaScript string takes off: white space and ends of lines. -/
def isSpace (c : Char) : Bool :=
  (9 ≤ c.toNat && c.toNat ≤ 13) || c.toNat ∈ [0x20, 0xA0, 0x1680, 0x2028, 0x2029, 0x202F, 0x205F,
    0x3000, 0xFEFF] || (0x2000 ≤ c.toNat && c.toNat ≤ 0x200A)

def visible (name : List Char) : List Char := name.filter fun c => !isHidden c

/-- The three replacements of `encodeAttachment`. -/
def cleaned (name : List Char) : List Char :=
  trim isSpace (collapse isBreak ' ' false (visible name))

def sanitiseName (name : String) : String :=
  if cleaned name.toList = [] then "file" else String.ofList (cleaned name.toList)

def encodeAttachment (a : AttachmentMeta) : String :=
  String.ofList [mark] ++ "ADDATT v2\n" ++ sanitiseName a.name ++ "\n" ++ a.mime ++ "\n" ++
    toString a.size ++ "\n" ++ a.data ++ "\n" ++ String.ofList [mark] ++ "ENDADDATT"

/-- A line without what is taken out of names. -/
def Clean (name : List Char) : Prop := ∀ c ∈ name, isBreak c = false ∧ isHidden c = false

theorem cleaned_clean (name : List Char) : Clean (cleaned name) := by
  intro c member
  rcases mem_collapse (trim_subset isSpace _ member) with rfl | ⟨inside, noBreak⟩
  · decide
  · refine ⟨noBreak, ?_⟩
    have kept := (List.mem_filter.mp inside).2
    simpa using kept

theorem visible_of_clean {name : List Char} (clean : Clean name) : visible name = name := by
  refine List.filter_eq_self.mpr fun c member => ?_
  rw [(clean c member).2]
  rfl

theorem cleaned_of_clean {name : List Char} (clean : Clean name) :
    cleaned name = trim isSpace name := by
  rw [cleaned, visible_of_clean clean, collapse_of_free fun c member => (clean c member).1]

theorem cleaned_idempotent (name : List Char) : cleaned (cleaned name) = cleaned name := by
  rw [cleaned_of_clean (cleaned_clean name)]
  exact trim_idempotent isSpace _

theorem cleaned_file : cleaned "file".toList = "file".toList := by
  decide +kernel

theorem sanitiseName_cases (name : String) :
    (cleaned name.toList = [] ∧ sanitiseName name = "file") ∨
      (cleaned name.toList ≠ [] ∧ (sanitiseName name).toList = cleaned name.toList) := by
  unfold sanitiseName
  by_cases empty : cleaned name.toList = []
  · exact .inl ⟨empty, if_pos empty⟩
  · exact .inr ⟨empty, by rw [if_neg empty, String.toList_ofList]⟩

theorem sanitiseName_idempotent (name : String) :
    sanitiseName (sanitiseName name) = sanitiseName name := by
  rcases sanitiseName_cases name with ⟨-, isFile⟩ | ⟨nonempty, text⟩
  · rw [isFile, sanitiseName, cleaned_file]
    decide +kernel
  · rw [sanitiseName, text, cleaned_idempotent, if_neg nonempty, ← text, String.ofList_toList]

theorem sanitiseName_nonempty (name : String) : (sanitiseName name).toList ≠ [] := by
  rcases sanitiseName_cases name with ⟨-, isFile⟩ | ⟨nonempty, text⟩
  · rw [isFile]
    decide
  · rwa [text]

theorem sanitiseName_clean (name : String) : Clean (sanitiseName name).toList := by
  rcases sanitiseName_cases name with ⟨-, isFile⟩ | ⟨-, text⟩
  · rw [isFile, ← cleaned_file]
    exact cleaned_clean _
  · rw [text]
    exact cleaned_clean _

theorem sanitiseName_line (name : String) : '\n' ∉ (sanitiseName name).toList :=
  fun member => absurd (sanitiseName_clean name '\n' member).1 (by decide)

/-- A file whose mime is one line and whose payload is in base64. -/
structure Carried (a : AttachmentMeta) : Prop where
  mime_line : '\n' ∉ a.mime.toList
  data_base64 : a.data.toList.all isBase64 = true

theorem line_of_base64 {data : List Char} (base64 : data.all isBase64 = true) : '\n' ∉ data :=
  fun member => absurd (List.all_eq_true.mp base64 '\n' member) (by decide)

def envelopeLines (a : AttachmentMeta) : List (List Char) := [
  mark :: "ADDATT v2".toList, (sanitiseName a.name).toList, a.mime.toList,
  (toString a.size).toList, a.data.toList, mark :: "ENDADDATT".toList]

/-- The lines of an envelope are the six that were written. -/
theorem encodeAttachment_lines {a : AttachmentMeta} (carried : Carried a) :
    (encodeAttachment a).toList.splitOn '\n' = envelopeLines a := by
  have text : (encodeAttachment a).toList = List.intercalate ['\n'] (envelopeLines a) := by
    simp [encodeAttachment, envelopeLines, List.intercalate]
  rw [text]
  refine List.splitOn_intercalate '\n' ?_ (by simp [envelopeLines])
  have size : '\n' ∉ (toString a.size).toList :=
    fun member => absurd (isDigit_of_mem_toString member) (by decide)
  simp only [envelopeLines, List.forall_mem_cons]
  refine ⟨by decide, sanitiseName_line a.name, carried.mime_line, size,
    line_of_base64 carried.data_base64, by decide, List.forall_mem_nil _⟩

theorem parseInt_toString (n : Nat) : parseInt (toString n).toList = n := by
  have fold : parseInt (Nat.toDigits 10 n) = Nat.ofDigitChars 10 (Nat.toDigits 10 n) 0 := by
    rw [Nat.ofDigitChars_eq_foldl, parseInt]
    simp only [Nat.mul_comm]
  rw [toList_toString, fold]
  exact Nat.ofDigitChars_ten_toDigits

theorem matchAttachment_encode {a : AttachmentMeta} (carried : Carried a) :
    matchAttachment (encodeAttachment a) = some ((sanitiseName a.name).toList, a.mime.toList,
      (toString a.size).toList, a.data.toList) := by
  have digits : (toString a.size).toList.all Char.isDigit = true :=
    List.all_eq_true.mpr fun _ member => isDigit_of_mem_toString member
  have head : (mark :: "ADDATT v2".toList).dropLast = mark :: "ADDATT v".toList ∧
      ((mark :: "ADDATT v2".toList).getLast?.any Char.isDigit) = true := by
    decide +kernel
  rw [matchAttachment, encodeAttachment_lines carried]
  exact if_pos ⟨head.1, head.2, sanitiseName_nonempty a.name, toList_toString_ne_nil _, digits,
    carried.data_base64, rfl⟩

/-- A reference to a sticker of the bundled pack. -/
def IsSticker (name : String) (a : AttachmentMeta) : Prop :=
  a.size = 0 ∧ a.data = "" ∧ name ∈ knownStickers

theorem parseAttachment_encode {a : AttachmentMeta} (carried : Carried a)
    (small : a.size ≤ maxAttachmentBytes) (noSticker : ¬ IsSticker (sanitiseName a.name) a) :
    parseAttachment (encodeAttachment a) =
      some ⟨{ a with name := sanitiseName a.name }, ""⟩ := by
  have other : ¬ (a.size = 0 ∧ a.data.toList = [] ∧
      knownStickers.contains (sanitiseName a.name) = true) := by
    rintro ⟨zero, empty, known⟩
    exact noSticker ⟨zero, String.toList_eq_nil_iff.mp empty, List.contains_iff_mem.mp known⟩
  rw [parseAttachment, matchAttachment_encode carried]
  simp only [parseInt_toString, String.ofList_toList]
  rw [if_neg other, if_neg (by omega)]

/-- What an envelope says. -/
theorem encodeAttachment_injective {a b : AttachmentMeta} (carriedA : Carried a)
    (carriedB : Carried b) (same : encodeAttachment a = encodeAttachment b) :
    sanitiseName a.name = sanitiseName b.name ∧ a.mime = b.mime ∧ a.size = b.size ∧
      a.data = b.data := by
  have groups := matchAttachment_encode carriedA
  rw [same, matchAttachment_encode carriedB] at groups
  simp only [Option.some.injEq, Prod.mk.injEq, String.toList_inj] at groups
  obtain ⟨name, mime, size, data⟩ := groups
  exact ⟨name.symm, mime.symm, (Nat.repr_injective size).symm, data.symm⟩

/-- A file that is not a sticker by the name it is sent under comes back with that name and all
else as it was; that name is one clean line, and the envelope says no more and no less. -/
theorem attachment_round_trip :
    (∀ a, Carried a → a.size ≤ maxAttachmentBytes → ¬ IsSticker (sanitiseName a.name) a →
      parseAttachment (encodeAttachment a) = some ⟨{ a with name := sanitiseName a.name }, ""⟩) ∧
    (∀ name, sanitiseName (sanitiseName name) = sanitiseName name ∧ sanitiseName name ≠ "" ∧
      Clean (sanitiseName name).toList) ∧
    ∀ a b, Carried a → Carried b → encodeAttachment a = encodeAttachment b →
      sanitiseName a.name = sanitiseName b.name ∧ a.mime = b.mime ∧ a.size = b.size ∧
        a.data = b.data := by
  refine ⟨fun a carried small noSticker => parseAttachment_encode carried small noSticker,
    fun name => ⟨sanitiseName_idempotent name, fun empty => ?_, sanitiseName_clean name⟩,
    fun a b carriedA carriedB same => encodeAttachment_injective carriedA carriedB same⟩
  exact sanitiseName_nonempty name (String.toList_eq_nil_iff.mpr empty)

def oneByte : AttachmentMeta := ⟨" a\r\nb.txt", "text/plain", 1, "QQ=="⟩

theorem oneByte_carried : Carried oneByte := ⟨by decide, by decide⟩

theorem attachment_round_trip_file :
    parseAttachment (encodeAttachment oneByte) =
      some ⟨⟨"a b.txt", "text/plain", 1, "QQ=="⟩, ""⟩ := by
  have name : sanitiseName " a\r\nb.txt" = "a b.txt" := by decide +kernel
  have back := attachment_round_trip.1 oneByte oneByte_carried (by decide)
    fun sticker => absurd sticker.1 (by decide)
  rw [back]
  simp only [oneByte, name]

/-- An empty file that has the name of a sticker between spaces. -/
def spacedSticker : AttachmentMeta := ⟨" AgAD0wEAArMeMEc.webp ", "text/plain", 0, ""⟩

/-- Such a file comes back as a picture. -/
theorem spaced_sticker_changes_mime :
    ¬ ∀ a, Carried a → a.size ≤ maxAttachmentBytes → ¬ IsSticker a.name a →
      parseAttachment (encodeAttachment a) =
        some ⟨{ a with name := sanitiseName a.name }, ""⟩ := by
  intro every
  have carried : Carried spacedSticker := ⟨by decide, by decide⟩
  have name : sanitiseName spacedSticker.name = "AgAD0wEAArMeMEc.webp" := by decide +kernel
  have noSticker : ¬ IsSticker spacedSticker.name spacedSticker :=
    fun sticker => absurd sticker.2.2 (by decide)
  have back := every spacedSticker carried (by decide) noSticker
  have sticker : (spacedSticker.size = 0 ∧ spacedSticker.data.toList = [] ∧
      knownStickers.contains (sanitiseName spacedSticker.name) = true) :=
    ⟨rfl, by decide, by rw [name]; decide⟩
  rw [parseAttachment, matchAttachment_encode carried] at back
  simp only [parseInt_toString, String.ofList_toList] at back
  rw [if_pos sticker] at back
  have mimes : "image/webp" = "text/plain" :=
    congrArg (fun p => p.file.mime) (Option.some.inj back)
  exact absurd mimes (by decide)

/-- The bytes that are shown or saved are the size of the file, and no more than the cap. -/
def DecodesToSize (a : AttachmentMeta) : Prop :=
  ∃ bytes, Base64.atob a.data.toList = some bytes ∧ bytes.length ≤ maxAttachmentBytes ∧
    bytes.length = a.size

def DecodesWithinCap (a : AttachmentMeta) : Prop :=
  ∃ bytes, Base64.atob a.data.toList = some bytes ∧ bytes.length ≤ maxAttachmentBytes

/-- If the body is an envelope with a size up to the cap, its payload is of a length that is
allowed. -/
def PayloadOf (allowed : Nat → Nat → Prop) (body : String) : Prop :=
  ∀ name mime digits data, matchAttachment body = some (name, mime, digits, data) →
    parseInt digits ≤ maxAttachmentBytes →
      Base64.readable data = true ∧ allowed (Base64.byteCount data) (parseInt digits)

/-- The size that the sender states is that of the payload. -/
def Honest : String → Prop := PayloadOf fun count size => count = size

/-- The payload is within the cap, whatever is stated. -/
def Fits : String → Prop := PayloadOf fun count _ => count ≤ maxAttachmentBytes

/-- An arrival: a message of its own, or an item of a poll that began with the conversations
`known`. -/
inductive Arrival where
  | pushed (item : Item) (draw : Draw)
  | polled (known : List Conversation) (item : Item) (draw : Draw)

def Arrival.item : Arrival → Item
  | .pushed item _ => item
  | .polled _ item _ => item

/-- The store has no payload above the cap. -/
def Capped (s : State) : Prop :=
  ∀ id, ∀ m ∈ s.messages.of id, ∀ a ∈ m.attachment, DecodesWithinCap a

section

variable (avatar : String → Option String)

/-- The message passes the checks on its way into the store, and nothing throws. -/
def Enters (s : State) : Arrival → Prop
  | .pushed item _ => incomingKey item.sender (dedupeContent item.text) ∉ s.seenIncoming ∧
      s.messages.inherits item.sender = false
  | .polled known item _ =>
    truthy s.myId ≠ some item.sender ∧ (admitItem s.seenIncoming item).1 = true ∧
      receivable avatar known s.messages item.sender = true

def arrive (s : State) : Arrival → Unit × State
  | .pushed item draw => ((), storeAfter (addIncomingMessage s draw item.sender item.text))
  | .polled known item draw => ((), storeAfter (receive avatar known s draw item))

variable {avatar}

/-- The envelope of a body, as it is parsed: a sticker has neither size nor payload. -/
theorem parseAttachment_fields {body : String} {name mime digits data : List Char}
    (groups : matchAttachment body = some (name, mime, digits, data)) :
    (parseInt digits ≤ maxAttachmentBytes → ∃ p, parseAttachment body = some p ∧
      p.file.size = parseInt digits ∧ p.file.data.toList = data) ∧
    (maxAttachmentBytes < parseInt digits → parseAttachment body = none) := by
  rw [parseAttachment, groups]
  dsimp only
  by_cases sticker : parseInt digits = 0 ∧ data = [] ∧
      knownStickers.contains (String.ofList name) = true
  · rw [if_pos sticker]
    refine ⟨fun _ => ⟨_, rfl, sticker.1.symm, ?_⟩, fun large => ?_⟩
    · rw [sticker.2.1]
      exact String.toList_eq_nil_iff.mpr rfl
    · rw [sticker.1] at large
      exact absurd large (by decide)
  · rw [if_neg sticker]
    refine ⟨fun small => ⟨_, if_neg (by omega), rfl, String.toList_ofList⟩, fun large => ?_⟩
    exact if_pos large

/-- What holds of every attachment that a body is parsed to, by the fields of its envelope. -/
theorem forall_parsed_iff {P : AttachmentMeta → Prop} {allowed : Nat → Nat → Prop}
    (byLength : ∀ a, a.size ≤ maxAttachmentBytes → (P a ↔
      Base64.readable a.data.toList = true ∧ allowed (Base64.byteCount a.data.toList) a.size))
    (body : String) :
    (∀ p, parseAttachment body = some p → P p.file) ↔ PayloadOf allowed body := by
  constructor
  · intro parsed name mime digits data groups small
    obtain ⟨p, found, size, payload⟩ := (parseAttachment_fields groups).1 small
    have holds := (byLength p.file (size ▸ small)).mp (parsed p found)
    rwa [size, payload] at holds
  · intro fields p found
    cases groups : matchAttachment body with
    | none =>
      rw [parseAttachment, groups] at found
      cases found
    | some parts =>
      obtain ⟨name, mime, digits, data⟩ := parts
      obtain ⟨within, above⟩ := parseAttachment_fields groups
      by_cases small : parseInt digits ≤ maxAttachmentBytes
      · obtain ⟨q, foundQ, size, payload⟩ := within small
        obtain rfl : q = p := Option.some.inj (foundQ.symm.trans found)
        refine (byLength q.file (size ▸ small)).mpr ?_
        rw [size, payload]
        exact fields name mime digits data groups small
      · rw [above (by omega)] at found
        cases found

/-- The length of what is read, by the characters. -/
theorem exists_atob_iff (data : List Char) (Q : Nat → Prop) :
    (∃ bytes, Base64.atob data = some bytes ∧ Q bytes.length) ↔
      Base64.readable data = true ∧ Q (Base64.byteCount data) := by
  have lengths := Base64.length_atob data
  constructor
  · rintro ⟨bytes, read, holds⟩
    rw [read] at lengths
    split at lengths
    · next readable =>
      have same : bytes.length = Base64.byteCount data := Option.some.inj lengths
      exact ⟨readable, same ▸ holds⟩
    · cases lengths
  · rintro ⟨readable, holds⟩
    rw [if_pos readable] at lengths
    obtain ⟨bytes, read, same⟩ := Option.map_eq_some_iff.mp lengths
    exact ⟨bytes, read, same ▸ holds⟩

theorem parsed_honest_iff (body : String) :
    (∀ p, parseAttachment body = some p → DecodesToSize p.file) ↔ Honest body := by
  refine forall_parsed_iff (fun a small => ?_) body
  refine (exists_atob_iff a.data.toList fun n => n ≤ maxAttachmentBytes ∧ n = a.size).trans ?_
  refine and_congr_right fun _ => ⟨And.right, fun same => ⟨?_, same⟩⟩
  omega

theorem parsed_fits_iff (body : String) :
    (∀ p, parseAttachment body = some p → DecodesWithinCap p.file) ↔ Fits body :=
  forall_parsed_iff (fun a _ =>
    exists_atob_iff a.data.toList fun n => n ≤ maxAttachmentBytes) body

theorem Honest.fits {body : String} (honest : Honest body) : Fits body := by
  intro name mime digits data groups small
  obtain ⟨readable, same⟩ := honest name mime digits data groups small
  exact ⟨readable, same ▸ small⟩

theorem capped_iff_display (s : State) :
    Capped s ↔ ∀ id, ∀ shows ∈ (s.messages.of id).map display, ∀ a ∈ shows.2,
      DecodesWithinCap a := by
  simp only [List.forall_mem_map]
  rfl

theorem shown_fits_iff (item : Item) :
    (∀ a ∈ (shown item).2, DecodesWithinCap a) ↔ Fits item.text := by
  rw [← parsed_fits_iff, shown, attachmentOf]
  cases parseAttachment item.text with
  | none => simp
  | some p => simp

/-- A message that enters brings its attachment along, and nothing else changes. -/
theorem capped_append_iff {s t : State} {item : Item} {added : Bool} (capped : Capped s)
    (appends : Appends s.messages t.messages item added) :
    Capped t ↔ (added = true → Fits item.text) := by
  rw [capped_iff_display] at capped ⊢
  simp only [appends.lists, List.forall_mem_append]
  constructor
  · intro after entered
    have new := (after item.sender).2
    rw [if_pos ⟨entered, rfl⟩] at new
    exact (shown_fits_iff item).mp (new _ List.mem_cons_self)
  · intro fits sender
    refine ⟨capped sender, fun shows member => ?_⟩
    split at member
    · next entered =>
      rw [List.mem_singleton.mp member]
      exact (shown_fits_iff item).mpr (fits entered.1)
    · cases member

theorem capped_step {s : State} {e : Arrival} (capped : Capped s) :
    Capped (arrive avatar s e).2 ↔ (Enters avatar s e → Fits e.item.text) := by
  cases e with
  | pushed item draw =>
    refine (capped_append_iff capped (addIncomingMessage_spec s draw item).2.2.2).trans ?_
    rw [Bool.and_eq_true, decide_eq_true_iff, Bool.not_eq_true']
    rfl
  | polled known item draw =>
    by_cases own : truthy s.myId = some item.sender
    · have same : receive avatar known s draw item = .ok s := if_pos own
      change Capped (storeAfter (receive avatar known s draw item)) ↔ _
      rw [same]
      exact iff_of_true capped fun enters => absurd own enters.1
    · refine (capped_append_iff capped (receive_spec own).2.1).trans ?_
      rw [Bool.and_eq_true]
      exact ⟨fun fits enters => fits enters.2, fun fits enters => fits ⟨own, enters⟩⟩

end

/-- A body is parsed to a file of its stated size within the cap exactly if its envelope states
the size of its payload; and the store stays within the cap in a run exactly if the payload of
each message that enters does. -/
theorem attachment_cap_iff (avatar : String → Option String) (body : String) (s : State)
    (capped : Capped s) (run : List Arrival) :
    ((∀ p, parseAttachment body = some p → DecodesToSize p.file) ↔ Honest body) ∧
    ((∀ front back, run = front ++ back → Capped (Mealy.final (arrive avatar) s front)) ↔
      Mealy.Along (arrive avatar) (fun s e => Enters avatar s e → Fits e.item.text) s run) :=
  ⟨parsed_honest_iff body,
    Mealy.forall_final_iff_along (fun _ _ capped => capped_step capped) capped run⟩

theorem emptyStore_capped (myId : Option String) : Capped (emptyStore myId) := by
  intro id m member
  cases member

/-- With a file of one byte. -/
theorem attachment_cap_iff_file :
    let run : List Arrival := [.pushed ⟨"NN-bob", oneByteFile "QQ=="⟩ ⟨"1-a", 1, 1⟩]
    ((∀ p, parseAttachment (oneByteFile "QQ==") = some p → DecodesToSize p.file) ↔
      Honest (oneByteFile "QQ==")) ∧
    ((∀ front back, run = front ++ back →
      Capped (Mealy.final (arrive some) (emptyStore none) front)) ↔
        Mealy.Along (arrive some) (fun s e => Enters some s e → Fits e.item.text)
          (emptyStore none) run) :=
  attachment_cap_iff some _ _ (emptyStore_capped none) _

/-- A file of `4 * n` characters that is said to have one byte. -/
def overfull (n : Nat) : AttachmentMeta where
  name := "a.txt"
  mime := "text/plain"
  size := 1
  data := String.ofList (List.replicate (4 * n) 'A')

theorem overfull_carried (n : Nat) : Carried (overfull n) := by
  have mime : '\n' ∉ "text/plain".toList := by decide
  refine ⟨mime, ?_⟩
  simp [overfull, isBase64]

theorem unpadded_overfull (n : Nat) :
    Base64.unpadded (overfull n).data.toList = List.replicate (4 * n) 'A' := by
  rw [overfull, String.toList_ofList, Base64.unpadded]
  split
  · rw [List.reverse_replicate]
    cases 4 * n <;> rfl
  · rfl

theorem byteCount_overfull (n : Nat) : Base64.byteCount (overfull n).data.toList = 3 * n := by
  rw [Base64.byteCount, unpadded_overfull, List.length_replicate]
  omega

theorem overfull_parsed (n : Nat) :
    parseAttachment (encodeAttachment (overfull n)) = some ⟨overfull n, ""⟩ := by
  have name : sanitiseName "a.txt" = "a.txt" := by decide +kernel
  have small : 1 ≤ maxAttachmentBytes := by decide
  have parsed := parseAttachment_encode (overfull_carried n) small
    fun sticker => Nat.one_ne_zero sticker.1
  rw [parsed]
  simp only [overfull, name]

def overfullItem (n : Nat) : Item := ⟨"NN-bob", encodeAttachment (overfull n)⟩

theorem overfull_above {n : Nat} (large : maxAttachmentBytes < 3 * n) :
    ¬ DecodesWithinCap (overfull n) := by
  intro within
  have bound := ((exists_atob_iff _ fun count => count ≤ maxAttachmentBytes).mp within).2
  rw [byteCount_overfull] at bound
  omega

/-- What is parsed enters a store that has not seen it. -/
theorem not_capped_of_parsed {s : State} (capped : Capped s) {item : Item} {p : ParsedAttachment}
    (draw : Draw) (enters : Enters some s (.pushed item draw))
    (parsed : parseAttachment item.text = some p) (above : ¬ DecodesWithinCap p.file) :
    ¬ Capped (storeAfter (addIncomingMessage s draw item.sender item.text)) := by
  intro after
  have fits : Fits item.text := (@capped_step some s (.pushed item draw) capped).mp after enters
  exact above ((parsed_fits_iff _).mpr fits p parsed)

/-- More than the cap is parsed and stored when one byte is stated. -/
theorem overfull_file_stored :
    parseAttachment (overfullItem 1750000).text = some ⟨overfull 1750000, ""⟩ ∧
    ¬ DecodesToSize (overfull 1750000) ∧
    ¬ Capped (storeAfter (addIncomingMessage (emptyStore none) ⟨"1-a", 1, 1⟩
      (overfullItem 1750000).sender (overfullItem 1750000).text)) := by
  have large : maxAttachmentBytes < 3 * 1750000 := by decide
  refine ⟨overfull_parsed _, ?_, not_capped_of_parsed (emptyStore_capped none) _
    ⟨List.not_mem_nil, by decide⟩ (overfull_parsed _) (overfull_above large)⟩
  rintro ⟨bytes, read, small, -⟩
  exact overfull_above large ⟨bytes, read, small⟩

end AttachmentEnvelope

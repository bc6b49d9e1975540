import AddMessenger.Mealy
import AddMessenger.Protocol

/-!
# Address pins on disk

`dht-core/src/pin_cache.rs`: the file `pin_cache.json`, which every `pin_update` reads as a
whole, changes in memory, truncates and writes again. Calls of several processes run side by
side, and each access to the file is a step of its own. A process may stop between any two
steps, and a write after any number of bytes.
-/

namespace PinCache

open ByteStrings Protocol

/-- Null ids and their pins. -/
abbrev PinMap := AList fun _ : String => Json

/-- `serde_json` at the type of the cache. -/
structure PinJson where
  toStringPretty : PinMap → String
  fromStr : String → Option PinMap

def addressOf (obj : Json) : Option String := (obj.get "address").bind Json.asStr

def fpOf (obj : Json) : Option String := (obj.get "fp").bind Json.asStr

/-- The address and the fingerprint a map has for a null id. -/
def pinned (cache : PinMap) (nullId : String) : Option (Option String × Option String) :=
  (cache.lookup nullId).map fun obj => (addressOf obj, fpOf obj)

/-- The map is read back from its text with the same pins. The times are floats and may
come back rounded. -/
def PinJson.ReadsBack (J : PinJson) (cache : PinMap) : Prop :=
  ∃ back, J.fromStr (J.toStringPretty cache) = some back ∧ pinned back = pinned cache

/-- `Map::insert`. -/
def insertField (key : String) (value : Json) : List (String × Json) → List (String × Json)
  | [] => [(key, value)]
  | (name, old) :: rest =>
    if name = key then (name, value) :: rest else (name, old) :: insertField key value rest

def timestamp (now : UInt64) : Json := .number (.float now)

def newPin (address fingerprint : String) (now : UInt64) : Json :=
  .object [("address", .string address), ("fp", .string fingerprint),
    ("first_seen", timestamp now), ("last_verified", timestamp now)]

/-- The refreshed pin. -/
def verifiedAt (now : UInt64) : Json → Json
  | .object fields => .object (insertField "last_verified" (timestamp now) fields)
  | obj => obj

/-- What `pin_update` saves; nothing if the address is not the pinned one. -/
def updatedMap (cache : PinMap) (nullId address fingerprint : String) (now : UInt64) :
    Option PinMap :=
  match cache.lookup nullId with
  | none => some (cache.insert nullId (newPin address fingerprint now))
  | some obj =>
    if addressOf obj = some address then some (cache.insert nullId (verifiedAt now obj)) else none

theorem lookup_insertField_ne {key name : String} (value : Json) (other : name ≠ key)
    (fields : List (String × Json)) :
    (insertField key value fields).lookup name = fields.lookup name := by
  induction fields with
  | nil => simp [insertField, List.lookup, beq_false_of_ne other]
  | cons field rest ih =>
    obtain ⟨first, old⟩ := field
    by_cases here : first = key
    · subst here
      simp [insertField, List.lookup, beq_false_of_ne other]
    · simp [insertField, here, List.lookup, ih]

theorem get_verifiedAt {name : String} (other : name ≠ "last_verified") (now : UInt64)
    (obj : Json) : (verifiedAt now obj).get name = obj.get name := by
  cases obj with
  | object fields => exact lookup_insertField_ne _ other fields
  | _ => rfl

/-- An update leaves every pin as it is. -/
theorem pinned_updatedMap {cache saved : PinMap} {nullId address fingerprint n : String}
    {now : UInt64} {pin : Option String × Option String}
    (updated : updatedMap cache nullId address fingerprint now = some saved)
    (held : pinned cache n = some pin) : pinned saved n = some pin := by
  by_cases same : n = nullId
  · subst same
    obtain ⟨obj, found, texts⟩ := Option.map_eq_some_iff.mp held
    simp only [updatedMap, found] at updated
    split at updated
    · cases updated
      rw [pinned, AList.lookup_insert, Option.map_some, ← texts, addressOf, fpOf,
        get_verifiedAt (by decide), get_verifiedAt (by decide)]
      rfl
    · cases updated
  · have frame : ∀ obj, pinned (cache.insert nullId obj) n = pinned cache n := by
      intro obj
      rw [pinned, AList.lookup_insert_ne same, pinned]
    rw [updatedMap] at updated
    split at updated
    · cases updated
      rw [frame, held]
    · split at updated
      · cases updated
        rw [frame, held]
      · cases updated

variable {J : PinJson}

/-- A missing file, bytes that are not UTF-8 and text that does not parse are the empty
cache. -/
def pinCacheLoad (J : PinJson) : Option Bytes → PinMap
  | none => ∅
  | some content =>
    match fromUtf8 content with
    | some text => (J.fromStr text).getD ∅
    | none => ∅

def pinGet (J : PinJson) (file : Option Bytes) (nullId : String) : Option Json :=
  (pinCacheLoad J file).lookup nullId

def pinVerifyAddress (J : PinJson) (file : Option Bytes) (nullId address : String) : Bool :=
  match pinGet J file nullId with
  | none => true
  | some obj => addressOf obj == some address

/-- A write at the offset of the descriptor; a gap reads as zeros. -/
def writeAt (content : Bytes) (offset : Nat) (chunk : Bytes) : Bytes :=
  content.takeD offset 0 ++ chunk ++ content.drop (offset + chunk.length)

/-- The bytes of `pin_cache_save`. -/
def PinJson.bytes (J : PinJson) (cache : PinMap) : Bytes := asBytes (J.toStringPretty cache)

/-- Where a call of `pin_update` is: it has read the file, it has the map to save, or it
writes. What was read stays with the call. -/
inductive Call where
  | loaded (seen : Option Bytes) (nullId address fingerprint : String)
  | saving (seen : Option Bytes) (cache : PinMap)
  | writing (cache : PinMap) (written : Nat)

structure Disk where
  file : Option Bytes
  calls : Nat → Option Call

def start (file : Option Bytes) : Disk := ⟨file, fun _ => none⟩

/-- A step of a call of `pin_update`, or a call of `pin_get` or `pin_verify_address`. A call
that stops is a process that ends or an error of the file system, which is ignored. -/
inductive Event where
  | load (pid : Nat) (nullId address fingerprint : String)
  | modify (pid : Nat) (now : UInt64)
  | truncate (pid : Nat)
  | write (pid len : Nat)
  | stop (pid : Nat)
  | pinGet (nullId : String)
  | pinVerifyAddress (nullId address : String)

inductive Answer where
  | done
  | pin (found : Option Json)
  | verdict (ok : Bool)

def Disk.set (s : Disk) (pid : Nat) (call : Option Call) : Disk :=
  { s with calls := Function.update s.calls pid call }

@[simp] theorem Disk.set_file (s : Disk) (pid : Nat) (call : Option Call) :
    (s.set pid call).file = s.file := rfl

@[simp] theorem Disk.set_self (s : Disk) (pid : Nat) (call : Option Call) :
    (s.set pid call).calls pid = call :=
  Function.update_self ..

theorem Disk.set_of_ne (s : Disk) {pid p : Nat} (call : Option Call) (other : p ≠ pid) :
    (s.set pid call).calls p = s.calls p :=
  Function.update_of_ne other ..

def step (J : PinJson) (s : Disk) : Event → Answer × Disk
  | .load pid nullId address fingerprint =>
    match s.calls pid with
    | none => (.done, s.set pid (some (.loaded s.file nullId address fingerprint)))
    | some _ => (.done, s)
  | .modify pid now =>
    match s.calls pid with
    | some (.loaded seen nullId address fingerprint) =>
      (.done, s.set pid
        ((updatedMap (pinCacheLoad J seen) nullId address fingerprint now).map (.saving seen)))
    | _ => (.done, s)
  | .truncate pid =>
    match s.calls pid with
    | some (.saving _ cache) =>
      (.done, { s.set pid (some (.writing cache 0)) with file := some [] })
    | _ => (.done, s)
  | .write pid len =>
    match s.calls pid with
    | some (.writing cache written) =>
      let chunk := ((J.bytes cache).drop written).take len
      let rest := if (J.bytes cache).length ≤ written + len then none
        else some (.writing cache (written + len))
      (.done, { s.set pid rest with file := some (writeAt (s.file.getD []) written chunk) })
    | _ => (.done, s)
  | .stop pid => (.done, s.set pid none)
  | .pinGet nullId => (.pin (pinGet J s.file nullId), s)
  | .pinVerifyAddress nullId address => (.verdict (pinVerifyAddress J s.file nullId address), s)

/-- The step is the last write of a save, and the map has this pin. -/
def Completes (J : PinJson) (s : Disk) (pid len : Nat) (n address fingerprint : String) : Prop :=
  ∃ cache written, s.calls pid = some (.writing cache written) ∧
    (J.bytes cache).length ≤ written + len ∧ pinned cache n = some (some address, some fingerprint)

/-- What the two lookups answer for a pinned null id. -/
def Respects (n address fingerprint : String) : Event → Answer → Prop
  | .pinGet nullId, answer =>
    nullId = n → ∃ obj, answer = .pin (some obj) ∧ addressOf obj = some address ∧
      fpOf obj = some fingerprint
  | .pinVerifyAddress nullId other, answer =>
    nullId = n → answer = .verdict (decide (other = address))
  | _, _ => True

/-- Once a pin is written completely, every later lookup answers with it. -/
def PinsSurvive (J : PinJson) (file : Option Bytes) (run : List Event) : Prop :=
  ∀ front pid len back n address fingerprint, run = front ++ .write pid len :: back →
    Completes J (Mealy.final (step J) (start file) front) pid len n address fingerprint →
      Mealy.Along (step J) (fun s e => Respects n address fingerprint e (step J s e).1)
        (Mealy.final (step J) (start file) (front ++ [.write pid len])) back

/-- No save is under way. -/
def Quiet (s : Disk) : Prop := ∀ pid cache written, s.calls pid ≠ some (.writing cache written)

/-- Saves exclude each other and the lookups: a save begins when none is under way and the
file is still what its call has read, it is not abandoned, and no lookup is made meanwhile. -/
def Orderly (s : Disk) : Event → Prop
  | .truncate pid =>
    ∀ seen cache, s.calls pid = some (.saving seen cache) → Quiet s ∧ s.file = seen
  | .stop pid => ∀ cache written, s.calls pid ≠ some (.writing cache written)
  | .pinGet _ | .pinVerifyAddress _ _ => Quiet s
  | .load _ _ _ _ | .modify _ _ | .write _ _ => True

/-- Every map of the run that is written is one that `serde_json` reads back. -/
def Readable (J : PinJson) (s : Disk) : Event → Prop
  | .truncate pid => ∀ seen cache, s.calls pid = some (.saving seen cache) → J.ReadsBack cache
  | _ => True

/-- What an orderly run keeps: a map to save was made from what its call has read, one call
writes at a time, and the file is as far as that call has come. -/
structure Serial (J : PinJson) (s : Disk) : Prop where
  computed : ∀ pid seen cache, s.calls pid = some (.saving seen cache) →
    ∃ nullId address fingerprint now,
      updatedMap (pinCacheLoad J seen) nullId address fingerprint now = some cache
  alone : ∀ p q c d i j, s.calls p = some (.writing c i) → s.calls q = some (.writing d j) →
    p = q
  prefixed : ∀ pid cache written, s.calls pid = some (.writing cache written) →
    J.ReadsBack cache ∧ s.file = some ((J.bytes cache).take written) ∧
      written ≤ (J.bytes cache).length

/-- The pin is in the file, or in the map that is being written. -/
structure Kept (J : PinJson) (n : String) (pin : Option String × Option String) (s : Disk) :
    Prop where
  settled : Quiet s → pinned (pinCacheLoad J s.file) n = some pin
  coming : ∀ pid cache written, s.calls pid = some (.writing cache written) →
    pinned cache n = some pin

section

variable {s : Disk} {pid : Nat} {n : String} {pin : Option String × Option String}

theorem pinned_load_bytes {cache : PinMap} (reads : J.ReadsBack cache) :
    pinned (pinCacheLoad J (some (J.bytes cache))) = pinned cache := by
  obtain ⟨back, parsed, same⟩ := reads
  rw [← same, pinCacheLoad, PinJson.bytes, fromUtf8_asBytes]
  simp only [parsed, Option.getD_some]

/-- The next bytes of a text go behind those that are there. -/
theorem writeAt_take (bytes : Bytes) {written : Nat} (len : Nat)
    (room : written ≤ bytes.length) :
    writeAt (bytes.take written) written ((bytes.drop written).take len) =
      bytes.take (written + len) := by
  have whole : (bytes.take written).length = written := List.length_take_of_le room
  have front : (bytes.take written).takeD written 0 = bytes.take written := by
    rw [List.takeD_eq_take _ whole.ge, List.take_of_length_le whole.le]
  have back : (bytes.take written).drop
      (written + ((bytes.drop written).take len).length) = [] :=
    List.drop_of_length_le (whole.le.trans (Nat.le_add_right _ _))
  rw [writeAt, front, back, List.append_nil, List.take_add]

/-- A call that writes neither before nor after leaves the rest alone. -/
theorem writing_set {call : Option Call} (after : ∀ c i, call ≠ some (.writing c i)) {p : Nat}
    {c : PinMap} {i : Nat} (writing : (s.set pid call).calls p = some (.writing c i)) :
    s.calls p = some (.writing c i) := by
  by_cases here : p = pid
  · subst here
    rw [Disk.set_self] at writing
    exact absurd writing (after c i)
  · rwa [Disk.set_of_ne s call here] at writing

theorem quiet_of_set {call : Option Call} (before : ∀ c i, s.calls pid ≠ some (.writing c i))
    (quiet : Quiet (s.set pid call)) : Quiet s := by
  intro p c i writing
  have other : p ≠ pid := by
    rintro rfl
    exact before c i writing
  refine quiet p c i ?_
  rwa [Disk.set_of_ne s call other]

/-- The call holds no map, or one that was made from what it has read, and does not write. -/
def Prepared (J : PinJson) (call : Option Call) : Prop :=
  (∀ cache written, call ≠ some (.writing cache written)) ∧
    ∀ seen cache, call = some (.saving seen cache) → ∃ nullId address fingerprint now,
      updatedMap (pinCacheLoad J seen) nullId address fingerprint now = some cache

theorem prepared_none : Prepared J none := by
  constructor
  · intro cache written none
    cases none
  · intro seen cache none
    cases none

theorem Serial.set {call : Option Call} (serial : Serial J s) (prepared : Prepared J call) :
    Serial J (s.set pid call) where
  computed := by
    intro p seen cache saving
    by_cases here : p = pid
    · subst here
      rw [Disk.set_self] at saving
      exact prepared.2 seen cache saving
    · rw [Disk.set_of_ne s call here] at saving
      exact serial.computed p seen cache saving
  alone := by
    intro p q c d i j first second
    exact serial.alone p q c d i j (writing_set prepared.1 first)
      (writing_set prepared.1 second)
  prefixed := by
    intro p cache written writing
    exact serial.prefixed p cache written (writing_set prepared.1 writing)

theorem Kept.set {call : Option Call} (kept : Kept J n pin s)
    (before : ∀ c i, s.calls pid ≠ some (.writing c i))
    (after : ∀ c i, call ≠ some (.writing c i)) : Kept J n pin (s.set pid call) where
  settled quiet := kept.settled (quiet_of_set before quiet)
  coming p c i writing := kept.coming p c i (writing_set after writing)

/-- A call that begins to write is the only one. -/
theorem eq_of_writing {cache c : PinMap} {k i p : Nat} {file : Option Bytes}
    (others : ∀ p ≠ pid, ∀ c i, s.calls p ≠ some (.writing c i))
    (writing : { s.set pid (some (.writing cache k)) with file := file }.calls p =
      some (.writing c i)) : p = pid ∧ c = cache ∧ i = k := by
  by_cases here : p = pid
  · subst here
    change (s.set p _).calls p = _ at writing
    rw [Disk.set_self] at writing
    cases writing
    exact ⟨rfl, rfl, rfl⟩
  · change (s.set pid _).calls p = _ at writing
    rw [Disk.set_of_ne s _ here] at writing
    exact absurd writing (others p here c i)

/-- The state in which one call has written the first bytes of its map. -/
theorem Serial.writing {cache : PinMap} {k : Nat} (serial : Serial J s)
    (others : ∀ p ≠ pid, ∀ c i, s.calls p ≠ some (.writing c i)) (reads : J.ReadsBack cache)
    (room : k ≤ (J.bytes cache).length) :
    Serial J { s.set pid (some (.writing cache k)) with
      file := some ((J.bytes cache).take k) } where
  computed := by
    intro p seen saved saving
    change (s.set pid _).calls p = _ at saving
    by_cases here : p = pid
    · subst here
      rw [Disk.set_self] at saving
      cases saving
    · rw [Disk.set_of_ne s _ here] at saving
      exact serial.computed p seen saved saving
  alone := by
    intro p q c d i j first second
    rw [(eq_of_writing others first).1, (eq_of_writing others second).1]
  prefixed := by
    intro p c i writing
    obtain ⟨-, rfl, rfl⟩ := eq_of_writing others writing
    exact ⟨reads, rfl, room⟩

theorem Kept.writing {cache : PinMap} {k : Nat} {file : Option Bytes}
    (others : ∀ p ≠ pid, ∀ c i, s.calls p ≠ some (.writing c i))
    (has : pinned cache n = some pin) :
    Kept J n pin { s.set pid (some (.writing cache k)) with file := file } where
  settled quiet := absurd (s.set_self pid (some (.writing cache k))) (quiet pid cache k)
  coming p c i writing := by
    obtain ⟨-, rfl, -⟩ := eq_of_writing others writing
    exact has

/-- The state in which the only writer is done. -/
theorem quiet_done {file : Option Bytes}
    (others : ∀ p ≠ pid, ∀ c i, s.calls p ≠ some (.writing c i)) :
    Quiet { s.set pid none with file := file } := by
  intro p c i writing
  change (s.set pid none).calls p = some (.writing c i) at writing
  have before : s.calls p = some (.writing c i) :=
    writing_set (fun _ _ none => by cases none) writing
  by_cases here : p = pid
  · subst here
    rw [Disk.set_self] at writing
    cases writing
  · exact others p here c i before

theorem Serial.done {file : Option Bytes} (serial : Serial J s)
    (others : ∀ p ≠ pid, ∀ c i, s.calls p ≠ some (.writing c i)) :
    Serial J { s.set pid none with file := file } where
  computed p seen saved saving := by
    have stopped : Serial J (s.set pid none) := serial.set prepared_none
    exact stopped.computed p seen saved saving
  alone p _ c _ i _ first _ := absurd first (quiet_done others p c i)
  prefixed p c i writing := absurd writing (quiet_done others p c i)

theorem Serial.others {cache : PinMap} {k : Nat} (serial : Serial J s)
    (writing : s.calls pid = some (.writing cache k)) :
    ∀ p ≠ pid, ∀ c i, s.calls p ≠ some (.writing c i) :=
  fun p other c i second => other (serial.alone p pid c cache i k second writing)

/-- What a write leaves: the first bytes of the map, of which the call may be done. -/
theorem step_write {cache : PinMap} {written : Nat} (serial : Serial J s) (len : Nat)
    (writing : s.calls pid = some (.writing cache written)) :
    (step J s (.write pid len)).2 =
      if (J.bytes cache).length ≤ written + len then
        { s.set pid none with file := some (J.bytes cache) }
      else { s.set pid (some (.writing cache (written + len))) with
        file := some ((J.bytes cache).take (written + len)) } := by
  obtain ⟨-, file, room⟩ := serial.prefixed pid cache written writing
  simp only [step, writing, file, Option.getD_some, writeAt_take _ len room]
  split
  · next all => rw [List.take_of_length_le all]
  · rfl

end

theorem serial_start (file : Option Bytes) : Serial J (start file) where
  computed _ _ _ saving := by cases saving
  alone _ _ _ _ _ _ writing := by cases writing
  prefixed _ _ _ writing := by cases writing

/-- What a step can do: nothing, bring a call that does not write one step on, stop a call,
begin to write, or write. -/
theorem step_cases (J : PinJson) (s : Disk) (e : Event) :
    (step J s e).2 = s ∨
    (∃ pid call, (∀ cache written, s.calls pid ≠ some (.writing cache written)) ∧
      Prepared J call ∧ (step J s e).2 = s.set pid call) ∨
    (∃ pid, e = .stop pid ∧ (step J s e).2 = s.set pid none) ∨
    (∃ pid seen cache, e = .truncate pid ∧ s.calls pid = some (.saving seen cache) ∧
      (step J s e).2 = { s.set pid (some (.writing cache 0)) with file := some [] }) ∨
    ∃ pid len cache written, e = .write pid len ∧
      s.calls pid = some (.writing cache written) := by
  cases e with
  | load pid nullId address fingerprint =>
    cases idle : s.calls pid with
    | some call =>
      left
      simp only [step, idle]
    | none =>
      refine .inr (.inl ⟨pid, some (.loaded s.file nullId address fingerprint), ?_, ?_, ?_⟩)
      · intro cache written writing
        rw [idle] at writing
        cases writing
      · exact ⟨fun _ _ => by simp, fun _ _ => by simp⟩
      · simp only [step, idle]
  | modify pid now =>
    simp only [step]
    split
    · next seen nullId address fingerprint here =>
      refine .inr (.inl ⟨pid, _, ?_, ?_, rfl⟩)
      · intro cache written writing
        rw [here] at writing
        cases writing
      · constructor
        · intro cache written same
          obtain ⟨map, -, other⟩ := Option.map_eq_some_iff.mp same
          cases other
        · intro seen' cache same
          obtain ⟨map, updated, shape⟩ := Option.map_eq_some_iff.mp same
          cases shape
          exact ⟨nullId, address, fingerprint, now, updated⟩
    · exact .inl rfl
  | truncate pid =>
    simp only [step]
    split
    · next seen cache here =>
      exact .inr (.inr (.inr (.inl ⟨pid, seen, cache, rfl, here, rfl⟩)))
    · exact .inl rfl
  | write pid len =>
    by_cases writing : ∃ cache written, s.calls pid = some (.writing cache written)
    · obtain ⟨cache, written, here⟩ := writing
      exact .inr (.inr (.inr (.inr ⟨pid, len, cache, written, rfl, here⟩)))
    · left
      simp only [step]
      split
      · next cache written here => exact absurd ⟨cache, written, here⟩ writing
      · rfl
  | stop pid => exact .inr (.inr (.inl ⟨pid, rfl, rfl⟩))
  | pinGet nullId => exact .inl rfl
  | pinVerifyAddress nullId address => exact .inl rfl

theorem serial_step {s : Disk} {e : Event} (serial : Serial J s) (orderly : Orderly s e)
    (readable : Readable J s e) : Serial J (step J s e).2 := by
  obtain same | ⟨pid, call, -, prepared, moved⟩ | ⟨pid, rfl, moved⟩ |
    ⟨pid, seen, cache, rfl, here, moved⟩ | ⟨pid, len, cache, written, rfl, here⟩ :=
      step_cases J s e
  · rw [same]
    exact serial
  · rw [moved]
    exact serial.set prepared
  · rw [moved]
    exact serial.set prepared_none
  · rw [moved]
    have quiet := (orderly seen cache here).1
    exact serial.writing (fun p _ => quiet p) (readable seen cache here) (Nat.zero_le _)
  · rw [step_write serial len here]
    split
    · exact serial.done (serial.others here)
    · next more =>
      have reads := (serial.prefixed pid cache written here).1
      exact serial.writing (serial.others here) reads (Nat.le_of_not_le more)

/-- A save that is completed has its pins in the file, and every other save keeps them. -/
theorem kept_write {s : Disk} {pid written len : Nat} {cache : PinMap} {n : String}
    {pin : Option String × Option String} (serial : Serial J s)
    (writing : s.calls pid = some (.writing cache written)) (has : pinned cache n = some pin) :
    Kept J n pin (step J s (.write pid len)).2 := by
  rw [step_write serial len writing]
  have others := serial.others writing
  split
  · refine ⟨fun _ => ?_, fun p c i again => absurd again (quiet_done others p c i)⟩
    rw [pinned_load_bytes (serial.prefixed pid cache written writing).1, has]
  · exact Kept.writing others has

theorem kept_step {s : Disk} {e : Event} {n : String} {pin : Option String × Option String}
    (serial : Serial J s) (orderly : Orderly s e) (kept : Kept J n pin s) :
    Kept J n pin (step J s e).2 := by
  obtain same | ⟨pid, call, before, prepared, moved⟩ | ⟨pid, rfl, moved⟩ |
    ⟨pid, seen, cache, rfl, here, moved⟩ | ⟨pid, len, cache, written, rfl, here⟩ :=
      step_cases J s e
  · rw [same]
    exact kept
  · rw [moved]
    exact kept.set before prepared.1
  · rw [moved]
    exact kept.set orderly (prepared_none (J := J)).1
  · rw [moved]
    obtain ⟨quiet, same⟩ := orderly seen cache here
    obtain ⟨nullId, address, fingerprint, now, updated⟩ := serial.computed pid seen cache here
    have pins : pinned (pinCacheLoad J seen) n = some pin := same ▸ kept.settled quiet
    exact Kept.writing (fun p _ => quiet p) (pinned_updatedMap updated pins)
  · exact kept_write serial here (kept.coming pid cache written here)

theorem respects_of_kept {s : Disk} {e : Event} {n address fingerprint : String}
    (orderly : Orderly s e) (kept : Kept J n (some address, some fingerprint) s) :
    Respects n address fingerprint e (step J s e).1 := by
  have found : Quiet s → ∃ obj, pinGet J s.file n = some obj ∧ addressOf obj = some address ∧
      fpOf obj = some fingerprint := by
    intro quiet
    obtain ⟨obj, here, texts⟩ := Option.map_eq_some_iff.mp (kept.settled quiet)
    exact ⟨obj, here, congrArg Prod.fst texts, congrArg Prod.snd texts⟩
  cases e with
  | pinGet nullId =>
    rintro rfl
    obtain ⟨obj, here, texts⟩ := found orderly
    exact ⟨obj, congrArg Answer.pin here, texts⟩
  | pinVerifyAddress nullId other =>
    rintro rfl
    obtain ⟨obj, here, same, -⟩ := found orderly
    simp only [step, pinVerifyAddress, here, same, Answer.verdict.injEq]
    simp only [eq_comm]
    rfl
  | _ => trivial

theorem isSome_of_respects {s : Disk} {n address fingerprint : String}
    (respects : Respects n address fingerprint (.pinGet n) (step J s (.pinGet n)).1) :
    (pinGet J s.file n).isSome := by
  obtain ⟨obj, found, -⟩ := respects rfl
  rw [Answer.pin.inj found]
  rfl

theorem verdict_of_respects {s : Disk} {n address fingerprint other : String}
    (respects : Respects n address fingerprint (.pinVerifyAddress n other)
      (step J s (.pinVerifyAddress n other)).1) :
    pinVerifyAddress J s.file n other = decide (other = address) :=
  Answer.verdict.inj (respects rfl)

/-- In an orderly run every pin that was once written completely is what the later lookups
answer with. -/
theorem pins_survive_orderly (J : PinJson) (file : Option Bytes) (run : List Event)
    (readable : Mealy.Along (step J) (Readable J) (start file) run)
    (orderly : Mealy.Along (step J) Orderly (start file) run) : PinsSurvive J file run := by
  rintro front pid len back n address fingerprint rfl ⟨cache, written, writing, -, has⟩
  have both := Mealy.along_and orderly readable
  rw [Mealy.along_append] at both
  obtain ⟨before, -, after⟩ := both
  have serial : Serial J (Mealy.final (step J) (start file) front) := by
    refine Mealy.final_invariant (Serial J) ?_ ?_ before
    · exact fun s e serial ok => serial_step serial ok.1 ok.2
    · exact serial_start file
  rw [Mealy.final_append]
  refine Mealy.along_of_invariant
    (fun s => Serial J s ∧ Kept J n (some address, some fingerprint) s) ?_ ?_ ?_ after
  · exact fun s e inv ok => ⟨serial_step inv.1 ok.1 ok.2, kept_step inv.1 ok.1 inv.2⟩
  · exact fun s e inv ok => respects_of_kept ok.1 inv.2
  · exact ⟨serial_step serial trivial trivial, kept_write serial writing has⟩

/-- A whole call of `pin_update` with nothing in between. -/
def pinUpdate (pid : Nat) (nullId address fingerprint : String) (now : UInt64) (len : Nat) :
    List Event :=
  [.load pid nullId address fingerprint, .modify pid now, .truncate pid, .write pid len]

section

variable {file : Option Bytes} {pid len : Nat} {nullId address fingerprint : String} {now : UInt64}
  {cache : PinMap}

theorem calls_start_set (file : Option Bytes) (pid : Nat) (call : Option Call) {p : Nat}
    {other : Call} (here : ((start file).set pid call).calls p = some other) :
    call = some other := by
  by_cases same : p = pid
  · subst same
    rwa [Disk.set_self] at here
  · rw [Disk.set_of_ne _ _ same] at here
    cases here

/-- On a disk without other calls the file then holds the updated map. -/
theorem final_pinUpdate
    (updated : updatedMap (pinCacheLoad J file) nullId address fingerprint now = some cache)
    (all : (J.bytes cache).length ≤ len) :
    Mealy.final (step J) (start file) (pinUpdate pid nullId address fingerprint now len) =
      start (some (J.bytes cache)) := by
  have whole : writeAt [] 0 ((J.bytes cache).take len) = J.bytes cache := by
    simp [writeAt, List.take_of_length_le all]
  simp [pinUpdate, step, start, Disk.set, updated, all, whole]

theorem along_pinUpdate
    (updated : updatedMap (pinCacheLoad J file) nullId address fingerprint now = some cache)
    (reads : J.ReadsBack cache) :
    Mealy.Along (step J) (fun s e => Readable J s e ∧ Orderly s e) (start file)
      (pinUpdate pid nullId address fingerprint now len) := by
  have ready : Mealy.final (step J) (start file)
      [.load pid nullId address fingerprint, .modify pid now] =
        (start file).set pid (some (.saving file cache)) := by
    simp [step, start, Disk.set, updated]
  refine ⟨⟨trivial, trivial⟩, ⟨trivial, trivial⟩, ?_, ⟨trivial, trivial⟩, trivial⟩
  change Readable J (Mealy.final (step J) (start file)
      [.load pid nullId address fingerprint, .modify pid now]) _ ∧
    Orderly (Mealy.final (step J) (start file)
      [.load pid nullId address fingerprint, .modify pid now]) _
  rw [ready]
  constructor
  · intro seen saved saving
    cases calls_start_set file pid _ saving
    exact reads
  · intro seen saved saving
    cases calls_start_set file pid _ saving
    refine ⟨?_, rfl⟩
    intro p c i writing
    cases calls_start_set file pid _ writing

end

/-- The time 1.0 prints as such; strings need no escapes in them. -/
def prettyValue : Json → String
  | .number (.float bits) => if bits = 0x3ff0000000000000 then "1.0" else toString bits ++ "e0"
  | value => compact value

def prettyObject : Json → String
  | .object fields =>
    "\x7b\n" ++ ",\n".intercalate
      (fields.map fun field => "    \"" ++ field.1 ++ "\": " ++ prettyValue field.2) ++ "\n  \x7d"
  | value => prettyValue value

def prettyPins (cache : PinMap) : String :=
  if cache.entries.isEmpty then "\x7b\x7d"
  else
    "\x7b\n" ++ ",\n".intercalate
      (cache.entries.map fun e => "  \"" ++ e.1 ++ "\": " ++ prettyObject e.2) ++ "\n\x7d"

/-- The texts of the given maps are read back. -/
def knownPins (known : List PinMap) : PinJson where
  toStringPretty := prettyPins
  fromStr text := known.find? fun cache => prettyPins cache = text

def atOne : UInt64 := 0x3ff0000000000000

def alicePin : PinMap := (∅ : PinMap).insert "alice" (newPin "wss://a" "AA" atOne)

def bobPin : PinMap := (∅ : PinMap).insert "bob" (newPin "wss://b" "BB" atOne)

def bothPins : PinMap := alicePin.insert "bob" (newPin "wss://b" "BB" atOne)

/-- Two processes read the missing file, and each writes its own pin. -/
def lostUpdate : List Event :=
  [.load 0 "alice" "wss://a" "AA", .load 1 "bob" "wss://b" "BB", .modify 0 atOne,
    .modify 1 atOne, .truncate 0, .write 0 1000, .truncate 1, .write 1 1000, .pinGet "alice"]

/-- The second save stops before its first byte. -/
def cutShort : List Event :=
  [.load 0 "alice" "wss://a" "AA", .modify 0 atOne, .truncate 0, .write 0 1000,
    .load 1 "bob" "wss://b" "BB", .modify 1 atOne, .truncate 1, .stop 1,
    .pinVerifyAddress "alice" "wss://evil"]

def smallJson : PinJson := knownPins [alicePin, bobPin, bothPins]

/-- A pin is lost to a save that did not see it, and to one that did not get far. -/
theorem pins_lost :
    ¬ PinsSurvive smallJson none lostUpdate ∧ ¬ PinsSurvive smallJson none cutShort := by
  constructor
  · intro survive
    have later := survive (lostUpdate.take 5) 0 1000 (lostUpdate.drop 6) "alice" "wss://a" "AA"
      rfl ⟨alicePin, 0, rfl, by decide +kernel, by decide +kernel⟩
    have asked := (Mealy.along_iff_split _ _).mp later [.truncate 1, .write 1 1000]
      (.pinGet "alice") [] rfl
    exact absurd (isSome_of_respects asked) (by decide +kernel)
  · intro survive
    have later := survive (cutShort.take 3) 0 1000 (cutShort.drop 4) "alice" "wss://a" "AA"
      rfl ⟨alicePin, 0, rfl, by decide +kernel, by decide +kernel⟩
    have asked := (Mealy.along_iff_split _ _).mp later
      [.load 1 "bob" "wss://b" "BB", .modify 1 atOne, .truncate 1, .stop 1]
      (.pinVerifyAddress "alice" "wss://evil") [] rfl
    exact absurd (verdict_of_respects asked) (by decide +kernel)

/-- One call after the other. -/
def inTurn : List Event :=
  pinUpdate 0 "alice" "wss://a" "AA" atOne 1000 ++ (pinUpdate 1 "bob" "wss://b" "BB" atOne 1000 ++
    [.pinVerifyAddress "alice" "wss://evil"])

/-- Alice's pin is complete after the fourth step, and bob's call keeps it. -/
theorem pins_survive_inTurn :
    Completes smallJson (Mealy.final (step smallJson) (start none) (inTurn.take 3)) 0 1000
        "alice" "wss://a" "AA" ∧
      PinsSurvive smallJson none inTurn := by
  refine ⟨⟨alicePin, 0, rfl, by decide +kernel, by decide +kernel⟩, ?_⟩
  have alice : smallJson.ReadsBack alicePin := ⟨alicePin, by simp [smallJson, knownPins], rfl⟩
  have different : prettyPins alicePin ≠ prettyPins bothPins := by decide +kernel
  have other : prettyPins bobPin ≠ prettyPins bothPins := by decide +kernel
  have both : smallJson.ReadsBack bothPins :=
    ⟨bothPins, by simp [smallJson, knownPins, different, other], rfl⟩
  have first : updatedMap (pinCacheLoad smallJson none) "alice" "wss://a" "AA" atOne =
      some alicePin := rfl
  have second : updatedMap (pinCacheLoad smallJson (some (smallJson.bytes alicePin))) "bob"
      "wss://b" "BB" atOne = some bothPins := by
    have seen : pinCacheLoad smallJson (some (smallJson.bytes alicePin)) = alicePin := by
      simp [pinCacheLoad, PinJson.bytes, smallJson, knownPins]
    rw [seen]
    rfl
  have run : Mealy.Along (step smallJson) (fun s e => Readable smallJson s e ∧ Orderly s e)
      (start none) inTurn := by
    refine (Mealy.along_append _ _ _).mpr ⟨along_pinUpdate first alice, ?_⟩
    rw [final_pinUpdate first (by decide +kernel)]
    refine (Mealy.along_append _ _ _).mpr ⟨along_pinUpdate second both, ?_⟩
    rw [final_pinUpdate second (by decide +kernel)]
    exact ⟨⟨trivial, fun p c i writing => by cases writing⟩, trivial⟩
  refine pins_survive_orderly smallJson none inTurn ?_ ?_
  · exact Mealy.along_mono (fun _ _ both => both.1) run
  · exact Mealy.along_mono (fun _ _ both => both.2) run

end PinCache

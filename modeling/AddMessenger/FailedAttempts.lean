import AddMessenger.PinCache

/-!
# The counter of wrong unlock attempts

`crypto/src/tpm_vault.rs`: `failed_attempts.json` holds the number of wrong attempts to unlock
the vault. An attempt reads the file, adds one and writes it again; a successful unlock removes
it. Attempts of several processes run side by side, each access to the file is a step of its
own, and a process may stop after any number of bytes.
-/

namespace FailedAttempts

open ByteStrings Protocol
open PinCache (writeAt writeAt_take)

/-- `max_wrong_attempts`, from the text of `settings.json` if there is one. -/
def maxWrongAttempts (fromStr : String → Option Json) (settings : Option String) : UInt8 :=
  match (settings.bind fromStr).bind fun s => (s.get "selfDestructThreshold").bind Json.asU64 with
  -- `clamp`
  | some threshold =>
    if threshold < 3 then 3 else if 20 < threshold then 20 else threshold.toUInt8
  | none => 10

inductive CryptoError where
  | io (message : String)
  deriving DecidableEq

def isBlank (b : UInt8) : Bool := b = 32 || b = 9 || b = 10 || b = 13

/-- `serde_json::from_str` at `u8`: digits without a leading zero, between blanks. -/
def fromStrU8 (content : Bytes) : Option UInt8 :=
  let digits := ((content.dropWhile isBlank).reverse.dropWhile isBlank).reverse
  let value := digits.foldl (fun n d => n * 10 + (d.toNat - 48)) 0
  if digits ≠ [] ∧ (∀ d ∈ digits, 48 ≤ d ∧ d ≤ 57) ∧
      (digits.head? = some 48 → digits.length = 1) ∧ value ≤ 255 then
    some (UInt8.ofNat value)
  else none

/-- `serde_json::to_string` at `u8`. -/
def countText (count : UInt8) : Bytes := asBytes (toString count.toNat)

/-- What an attempt does after reading: it is done, or it has a count to persist. -/
inductive Checked where
  | done (destroy : Bool)
  | persist (count : UInt8)
  deriving DecidableEq

/-- A file that is absent or does not parse counts as zero. -/
def failedCount : Option Bytes → Except CryptoError UInt8
  | none => .ok 0
  | some content =>
    match fromUtf8 content with
    | none => .error (.io "failed-read: stream did not contain valid UTF-8")
    | some _ => .ok ((fromStrU8 content).getD 0)

/-- `saturating_add(1)`. -/
def incremented (count : UInt8) : UInt8 := if count = 255 then 255 else count + 1

/-- `check_failed_attempts` up to its write. -/
def checkFailedAttempts (threshold : UInt8) (file : Option Bytes) (increment : Bool) :
    Except CryptoError Checked := do
  let count ← failedCount file
  if increment then
    if threshold ≤ incremented count then return .done true
    return .persist (incremented count)
  return .done false

/-- An attempt between its read and the end of its write. -/
inductive Attempt where
  | counted (count : UInt8)
  | writing (count : UInt8) (written : Nat)
  -- the file it writes to has been removed
  | detached (count : UInt8) (written : Nat)

def Attempt.unlink : Attempt → Attempt
  | .writing count written => .detached count written
  | attempt => attempt

/-- The file and the attempts under way, with what happened since the last reset: how many
attempts were made and how many have ended without `Ok(true)`. -/
structure Home where
  file : Option Bytes
  running : Nat → Option Attempt
  made : Nat
  missed : Nat

def start : Home := ⟨none, fun _ => none, 0, 0⟩

inductive Event where
  | read (pid : Nat)
  | truncate (pid : Nat)
  | write (pid len : Nat)
  | stop (pid : Nat)
  | reset

def Home.set (s : Home) (pid : Nat) (attempt : Option Attempt) : Home :=
  { s with running := Function.update s.running pid attempt }

def Home.begin (s : Home) : Home := { s with made := s.made + 1 }

def Home.miss (s : Home) : Home := { s with missed := s.missed + 1 }

@[simp] theorem Home.set_file (s : Home) (pid : Nat) (attempt : Option Attempt) :
    (s.set pid attempt).file = s.file := rfl

@[simp] theorem Home.set_made (s : Home) (pid : Nat) (attempt : Option Attempt) :
    (s.set pid attempt).made = s.made := rfl

@[simp] theorem Home.set_missed (s : Home) (pid : Nat) (attempt : Option Attempt) :
    (s.set pid attempt).missed = s.missed := rfl

@[simp] theorem Home.set_self (s : Home) (pid : Nat) (attempt : Option Attempt) :
    (s.set pid attempt).running pid = attempt :=
  Function.update_self ..

theorem Home.set_of_ne (s : Home) {pid p : Nat} (attempt : Option Attempt) (other : p ≠ pid) :
    (s.set pid attempt).running p = s.running p :=
  Function.update_of_ne other ..

/-- A step of an attempt or a reset; an attempt that ends answers. -/
def step (threshold : UInt8) (s : Home) : Event → Option (Except CryptoError Bool) × Home
  | .read pid =>
    match s.running pid with
    | some _ => (none, s)
    | none =>
      match checkFailedAttempts threshold s.file true with
      | .error e => (some (.error e), s.begin.miss)
      | .ok (.done true) => (some (.ok true), s.begin)
      | .ok (.done false) => (some (.ok false), s.begin.miss)
      | .ok (.persist count) => (none, s.begin.set pid (some (.counted count)))
  | .truncate pid =>
    match s.running pid with
    | some (.counted count) =>
      (none, { s.set pid (some (.writing count 0)) with file := some [] })
    | _ => (none, s)
  | .write pid len =>
    match s.running pid with
    | some (.writing count written) =>
      let chunk := ((countText count).drop written).take len
      let file := some (writeAt (s.file.getD []) written chunk)
      if (countText count).length ≤ written + len then
        (some (.ok false), { s.miss.set pid none with file })
      else (none, { s.set pid (some (.writing count (written + len))) with file })
    | some (.detached count written) =>
      if (countText count).length ≤ written + len then
        (some (.ok false), s.miss.set pid none)
      else (none, s.set pid (some (.detached count (written + len))))
    | _ => (none, s)
  | .stop pid =>
    match s.running pid with
    | some _ => (none, s.miss.set pid none)
    | none => (none, s)
  | .reset =>
    (none, { file := none, running := fun p => (s.running p).map .unlink, made := 0, missed := 0 })

/-- Since the last reset fewer attempts than the threshold end without `Ok(true)`, and it is
returned to an attempt only if at least as many were made. -/
def Counts (threshold : UInt8) (run : List Event) : Prop :=
  (∀ front back, run = front ++ back →
    (Mealy.final (step threshold) start front).missed < threshold.toNat) ∧
  Mealy.Along (step threshold) (fun s e => (step threshold s e).1 = some (.ok true) →
    threshold.toNat ≤ (step threshold s e).2.made) start run

def Quiet (s : Home) : Prop := ∀ pid, s.running pid = none

/-- Attempts and resets exclude each other, and no attempt stops half way. -/
def Exclusive (s : Home) : Event → Prop
  | .read _ | .reset => Quiet s
  | .stop pid => s.running pid = none
  | .truncate _ | .write _ _ => True

/-- The file after so many attempts. -/
def persisted (count : Nat) : Option Bytes :=
  if count = 0 then none else some (countText (UInt8.ofNat count))

/-- What exclusive attempts keep: the file has the attempts that missed, and one that is
under way brings the next count. -/
inductive Exact (threshold : UInt8) (s : Home) : Prop where
  | quiet (idle : Quiet s) (file : s.file = persisted s.missed)
      (below : s.missed < threshold.toNat) (most : s.missed ≤ s.made)
  | counted (pid : Nat) (count : UInt8) (alone : ∀ p ≠ pid, s.running p = none)
      (here : s.running pid = some (.counted count)) (next : count.toNat = s.missed + 1)
      (below : count.toNat < threshold.toNat) (most : count.toNat ≤ s.made)
  | writing (pid : Nat) (count : UInt8) (written : Nat) (alone : ∀ p ≠ pid, s.running p = none)
      (here : s.running pid = some (.writing count written))
      (file : s.file = some ((countText count).take written))
      (room : written ≤ (countText count).length) (next : count.toNat = s.missed + 1)
      (below : count.toNat < threshold.toNat) (most : count.toNat ≤ s.made)

theorem maxWrongAttempts_bounds (fromStr : String → Option Json) (settings : Option String) :
    3 ≤ (maxWrongAttempts fromStr settings).toNat ∧
      (maxWrongAttempts fromStr settings).toNat ≤ 20 := by
  unfold maxWrongAttempts
  split
  · split
    · decide
    · split
      · decide
      · next threshold _ low high =>
        rw [UInt64.lt_iff_toNat_lt] at low high
        have small : threshold.toUInt8.toNat = threshold.toNat := by
          rw [UInt64.toNat_toUInt8]
          exact Nat.mod_eq_of_lt (by simp at high; omega)
        rw [small]
        exact ⟨Nat.not_lt.mp low, Nat.not_lt.mp high⟩
  · decide

theorem toNat_range {c : Char} (digit : c.isDigit = true) : 48 ≤ c.toNat ∧ c.toNat ≤ 57 := by
  simpa [Char.isDigit, UInt32.le_iff_toNat_le] using digit

/-- A digit is its own byte. -/
theorem asBytes_digits {l : List Char} (digits : ∀ c ∈ l, c.isDigit = true) :
    asBytes (String.ofList l) = l.map fun c => UInt8.ofNat c.toNat :=
  asBytes_ascii fun c member => (toNat_range (digits c member)).2.trans (by decide)

theorem countText_digits (count : UInt8) :
    countText count = (Nat.toDigits 10 count.toNat).map fun c => UInt8.ofNat c.toNat := by
  rw [countText, ← asBytes_digits fun c => Nat.isDigit_of_mem_toDigits (by decide) (by decide)]
  exact congrArg asBytes Nat.toString_eq_ofList_toDigits

theorem byte_toNat {c : Char} (digit : c.isDigit = true) :
    (UInt8.ofNat c.toNat).toNat = c.toNat := by
  have range := toNat_range digit
  rw [UInt8.toNat_ofNat', Nat.mod_eq_of_lt (by omega)]

theorem byte_range {c : Char} (digit : c.isDigit = true) :
    48 ≤ UInt8.ofNat c.toNat ∧ UInt8.ofNat c.toNat ≤ 57 := by
  rw [UInt8.le_iff_toNat_le, UInt8.le_iff_toNat_le, byte_toNat digit]
  exact toNat_range digit

theorem isBlank_digit {b : UInt8} (digit : 48 ≤ b) : isBlank b = false := by
  grind [isBlank]

theorem dropWhile_isBlank {digits : Bytes} (range : ∀ b ∈ digits, 48 ≤ b ∧ b ≤ 57) :
    digits.dropWhile isBlank = digits := by
  cases digits with
  | nil => rfl
  | cons b rest =>
    have plain := isBlank_digit (range b List.mem_cons_self).1
    exact List.dropWhile_cons_of_neg (by simp [plain])

/-- Only zero is written with a leading zero. -/
theorem head?_toDigits {n : Nat} (zero : (Nat.toDigits 10 n).head? = some '0') : n = 0 := by
  induction n using Nat.strongRecOn with
  | ind n ih =>
    rcases Nat.lt_or_ge n 10 with one | more
    · have digit : ∀ k < 10, k.digitChar = '0' → k = 0 := by decide
      rw [Nat.toDigits_of_lt_base one] at zero
      exact digit n one (Option.some.inj zero)
    · rw [Nat.toDigits_of_base_le (by decide) more,
        List.head?_append_of_ne_nil _ Nat.toDigits_ne_nil] at zero
      have none_before := ih (n / 10) (by omega) zero
      omega

theorem fromStrU8_countText (count : UInt8) : fromStrU8 (countText count) = some count := by
  rw [countText_digits]
  have digit : ∀ c ∈ Nat.toDigits 10 count.toNat, c.isDigit = true := fun c =>
    Nat.isDigit_of_mem_toDigits (by decide) (by decide)
  generalize text : ((Nat.toDigits 10 count.toNat).map fun c => UInt8.ofNat c.toNat) = digits
  have some_digits : digits ≠ [] := by
    rw [← text]
    exact List.map_eq_nil_iff.not.mpr Nat.toDigits_ne_nil
  have range : ∀ b ∈ digits, 48 ≤ b ∧ b ≤ 57 := by
    rw [← text, List.forall_mem_map]
    exact fun c member => byte_range (digit c member)
  have leading : digits.head? = some 48 → digits.length = 1 := by
    intro first
    rw [← text, List.head?_map, Option.map_eq_some_iff] at first
    obtain ⟨c, first, byte⟩ := first
    obtain rfl : c = '0' := by
      have same := byte_toNat (digit c (List.mem_of_mem_head? first))
      rw [byte] at same
      exact Char.toNat_inj.mp same.symm
    rw [← text, head?_toDigits first]
    rfl
  have value : digits.foldl (fun n d => n * 10 + (d.toNat - 48)) 0 = count.toNat := by
    rw [← text, List.foldl_map]
    refine Eq.trans ?_ (@Nat.ofDigitChars_ten_toDigits count.toNat)
    refine List.foldl_ext _ _ _ fun n c member => ?_
    rw [byte_toNat (digit c member), Nat.mul_comm n]
    rfl
  have few : count.toNat ≤ 255 := Nat.le_of_lt_succ count.toNat_lt
  have whole : ((digits.dropWhile isBlank).reverse.dropWhile isBlank).reverse = digits := by
    rw [dropWhile_isBlank range, dropWhile_isBlank (by simpa using range), List.reverse_reverse]
  unfold fromStrU8
  simp only [whole, value]
  rw [if_pos ⟨some_digits, range, leading, few⟩, UInt8.ofNat_toNat]

theorem failedCount_persisted (n : Nat) :
    failedCount (persisted n) = .ok (UInt8.ofNat n) := by
  by_cases zero : n = 0
  · subst zero
    rfl
  · rw [persisted, if_neg zero, failedCount, countText, fromUtf8_asBytes, ← countText,
      fromStrU8_countText]
    rfl

theorem incremented_ofNat {n : Nat} (small : n < 255) :
    incremented (UInt8.ofNat n) = UInt8.ofNat (n + 1) := by
  have room : UInt8.ofNat n ≠ 255 := by
    intro full
    have value := congrArg UInt8.toNat full
    rw [UInt8.toNat_ofNat', Nat.mod_eq_of_lt (by omega)] at value
    exact absurd value (by simpa using small.ne)
  rw [incremented, if_neg room]
  exact (UInt8.ofNat_add n 1).symm

/-- What an attempt that runs alone finds. -/
theorem check_persisted {threshold : UInt8} {n : Nat} (below : n < threshold.toNat) :
    checkFailedAttempts threshold (persisted n) true =
      .ok (if threshold.toNat ≤ n + 1 then .done true else .persist (UInt8.ofNat (n + 1))) := by
  have high : threshold.toNat < 256 := threshold.toNat_lt
  have reach : threshold ≤ UInt8.ofNat (n + 1) ↔ threshold.toNat ≤ n + 1 := by
    rw [UInt8.le_iff_toNat_le, UInt8.toNat_ofNat', Nat.mod_eq_of_lt (by omega)]
  rw [checkFailedAttempts, failedCount_persisted]
  change (if threshold ≤ incremented (UInt8.ofNat n) then Except.ok (Checked.done true)
    else .ok (.persist (incremented (UInt8.ofNat n)))) = _
  rw [incremented_ofNat (by omega)]
  simp only [reach]
  split <;> rfl

section

variable {threshold : UInt8} {s : Home}

/-- The only attempt under way is over. -/
theorem quiet_set {pid : Nat} (alone : ∀ p ≠ pid, s.running p = none) :
    Quiet (s.set pid none) := by
  intro p
  by_cases here : p = pid
  · subst here
    exact s.set_self p none
  · rw [Home.set_of_ne s none here, alone p here]

theorem alone_set {pid : Nat} (alone : ∀ p ≠ pid, s.running p = none)
    (attempt : Option Attempt) : ∀ p ≠ pid, (s.set pid attempt).running p = none := by
  intro p other
  rw [Home.set_of_ne s attempt other, alone p other]

theorem eq_of_running {p pid : Nat} {attempt : Attempt}
    (alone : ∀ q ≠ p, s.running q = none) (running : s.running pid = some attempt) : pid = p := by
  by_contra other
  cases running.symm.trans (alone pid other)

theorem exact_start (positive : 0 < threshold.toNat) : Exact threshold start :=
  .quiet (fun _ => rfl) rfl positive le_rfl

theorem Exact.missed_lt (sound : Exact threshold s) : s.missed < threshold.toNat := by
  cases sound with
  | quiet _ _ below _ => exact below
  | counted _ _ _ _ next below _ => omega
  | writing _ _ _ _ _ _ _ next below _ => omega

/-- A read that no other attempt is in the way of. -/
theorem step_read {pid : Nat} (idle : Quiet s) (file : s.file = persisted s.missed)
    (below : s.missed < threshold.toNat) :
    step threshold s (.read pid) =
      if threshold.toNat ≤ s.missed + 1 then (some (.ok true), s.begin)
      else (none, s.begin.set pid (some (.counted (UInt8.ofNat (s.missed + 1))))) := by
  rw [step, idle pid]
  dsimp only
  rw [file, check_persisted below]
  by_cases reach : threshold.toNat ≤ s.missed + 1
  · simp only [if_pos reach]
  · simp only [if_neg reach]

theorem step_truncate_of_none {pid : Nat} (idle : s.running pid = none) :
    (step threshold s (.truncate pid)).2 = s := by rw [step, idle]

theorem step_write_of_none {pid : Nat} (idle : s.running pid = none) (len : Nat) :
    (step threshold s (.write pid len)).2 = s := by rw [step, idle]

theorem exact_read {pid : Nat} (sound : Exact threshold s) (idle : Quiet s) :
    Exact threshold (step threshold s (.read pid)).2 := by
  cases sound with
  | quiet _ file below most =>
    rw [step_read idle file below]
    split
    · exact .quiet idle file below (Nat.le_succ_of_le most)
    · next room =>
      have small : (UInt8.ofNat (s.missed + 1)).toNat = s.missed + 1 := by
        have high : threshold.toNat < 256 := threshold.toNat_lt
        rw [UInt8.toNat_ofNat', Nat.mod_eq_of_lt (by omega)]
      refine .counted pid _ (alone_set (fun p _ => idle p) _) (Home.set_self _ pid _) small
        (by omega) ?_
      rw [small]
      exact Nat.succ_le_succ most
  | counted p _ _ here _ _ _ => cases here.symm.trans (idle p)
  | writing p _ _ _ here _ _ _ _ _ => cases here.symm.trans (idle p)

theorem exact_truncate (pid : Nat) (sound : Exact threshold s) :
    Exact threshold (step threshold s (.truncate pid)).2 := by
  cases running : s.running pid with
  | none => rwa [step_truncate_of_none running]
  | some attempt =>
    cases sound with
    | quiet idle _ _ _ => cases running.symm.trans (idle pid)
    | counted p count alone here next below most =>
      obtain rfl := eq_of_running alone running
      simp only [step, here]
      exact .writing pid count 0 (alone_set alone _) (s.set_self pid _) rfl (Nat.zero_le _)
        next below most
    | writing p count written alone here file room next below most =>
      obtain rfl := eq_of_running alone running
      simp only [step, here]
      exact .writing pid count written alone here file room next below most

theorem exact_write (pid len : Nat) (sound : Exact threshold s) :
    Exact threshold (step threshold s (.write pid len)).2 := by
  cases running : s.running pid with
  | none => rwa [step_write_of_none running]
  | some attempt =>
    cases sound with
    | quiet idle _ _ _ => cases running.symm.trans (idle pid)
    | counted p count alone here next below most =>
      obtain rfl := eq_of_running alone running
      simp only [step, here]
      exact .counted pid count alone here next below most
    | writing p count written alone here file room next below most =>
      obtain rfl := eq_of_running alone running
      have chunk : writeAt (s.file.getD []) written (((countText count).drop written).take len) =
          (countText count).take (written + len) := by
        rw [file, Option.getD_some, writeAt_take _ len room]
      simp only [step, here, chunk]
      split
      · next all =>
        have saved : some ((countText count).take (written + len)) = persisted (s.missed + 1) := by
          rw [persisted, if_neg (Nat.succ_ne_zero _), ← next, UInt8.ofNat_toNat,
            List.take_of_length_le all]
        exact .quiet (quiet_set (s := s.miss) alone) saved (next.symm.trans_lt below)
          (next.symm.trans_le most)
      · exact .writing pid count (written + len) (alone_set alone _) (s.set_self pid _) rfl
          (by omega) next below most

/-- A step of a run in which attempts exclude each other. -/
theorem exact_step (e : Event) (sound : Exact threshold s) (exclusive : Exclusive s e) :
    Exact threshold (step threshold s e).2 := by
  cases e with
  | read pid => exact exact_read sound exclusive
  | truncate pid => exact exact_truncate pid sound
  | write pid len => exact exact_write pid len sound
  | stop pid =>
    have same : (step threshold s (.stop pid)).2 = s := by rw [step, exclusive]
    rwa [same]
  | reset =>
    refine .quiet (fun p => ?_) rfl (Nat.zero_lt_of_lt sound.missed_lt) le_rfl
    change (s.running p).map _ = none
    rw [exclusive p]
    rfl

/-- The wipe is announced only to an attempt that has enough before it. -/
theorem exact_answer (e : Event) (sound : Exact threshold s) (exclusive : Exclusive s e)
    (wipes : (step threshold s e).1 = some (.ok true)) :
    threshold.toNat ≤ (step threshold s e).2.made := by
  cases e with
  | read pid =>
    cases sound with
    | quiet idle file below most =>
      rw [step_read idle file below] at wipes ⊢
      split at wipes
      · next reach =>
        rw [if_pos reach]
        exact reach.trans (Nat.succ_le_succ most)
      · cases wipes
    | counted p _ _ here _ _ _ => cases here.symm.trans (exclusive p)
    | writing p _ _ _ here _ _ _ _ _ => cases here.symm.trans (exclusive p)
  | truncate pid =>
    rw [step] at wipes
    split at wipes <;> cases wipes
  | write pid len =>
    rw [step] at wipes
    split at wipes
    · split at wipes <;> cases wipes
    · split at wipes <;> cases wipes
    · cases wipes
  | stop pid =>
    rw [step] at wipes
    split at wipes <;> cases wipes
  | reset => cases wipes

end

/-- Attempts that exclude each other cannot outrun the wipe. -/
theorem attempts_counted_when_exclusive (fromStr : String → Option Json)
    (settings : Option String) (run : List Event)
    (exclusive : Mealy.Along (step (maxWrongAttempts fromStr settings)) Exclusive start run) :
    Counts (maxWrongAttempts fromStr settings) run := by
  have positive : 0 < (maxWrongAttempts fromStr settings).toNat :=
    lt_of_lt_of_le (by decide) (maxWrongAttempts_bounds fromStr settings).1
  have step_exact : ∀ s e, Exact (maxWrongAttempts fromStr settings) s → Exclusive s e →
      Exact (maxWrongAttempts fromStr settings)
        (step (maxWrongAttempts fromStr settings) s e).2 := fun s e => exact_step e
  constructor
  · rintro front back rfl
    have kept := Mealy.final_invariant _ step_exact (exact_start positive)
      ((Mealy.along_append start front back).mp exclusive).1
    exact kept.missed_lt
  · exact Mealy.along_of_invariant _ step_exact (fun s e => exact_answer e)
      (exact_start positive) exclusive

/-- One attempt that is counted, and then a successful unlock. -/
theorem attempts_counted_then_reset : Counts (maxWrongAttempts (fun _ => none) none)
    [.read 0, .truncate 0, .write 0 1, .reset] := by
  refine attempts_counted_when_exclusive _ none _ ⟨fun _ => rfl, trivial, trivial, ?_, trivial⟩
  intro p
  by_cases own : p = 0
  · subst own
    rfl
  · exact Function.update_of_ne own .. |>.trans (Function.update_of_ne own ..)
      |>.trans (Function.update_of_ne own ..)

/-- An attempt that stops when it has emptied the file. -/
def tornAttempt (pid : Nat) : List Event := [.read pid, .truncate pid, .stop pid]

/-- The states between torn attempts. -/
structure Emptied (s : Home) : Prop where
  idle : Quiet s
  zero : failedCount s.file = .ok 0

theorem emptied_torn {threshold : UInt8} (above : 1 < threshold.toNat) {s : Home}
    (emptied : Emptied s) (pid : Nat) :
    Emptied (Mealy.final (step threshold) s (tornAttempt pid)) ∧
      (Mealy.final (step threshold) s (tornAttempt pid)).missed = s.missed + 1 := by
  have checked : checkFailedAttempts threshold s.file true = .ok (.persist 1) := by
    have more : ¬ threshold ≤ 1 := by
      rw [UInt8.le_iff_toNat_le]
      exact Nat.not_le.mpr above
    rw [checkFailedAttempts, emptied.zero]
    exact if_neg more
  have began : (step threshold s (.read pid)).2 = s.begin.set pid (some (.counted 1)) := by
    rw [step, emptied.idle pid]
    dsimp only
    rw [checked]
  simp only [tornAttempt, Mealy.final_cons, Mealy.final_nil, began]
  simp only [step, Home.set_self]
  refine ⟨⟨fun p => ?_, rfl⟩, rfl⟩
  by_cases own : p = pid
  · subst own
    exact Function.update_self ..
  · exact (Home.set_of_ne _ none own).trans ((Home.set_of_ne _ _ own).trans
      ((Home.set_of_ne _ _ own).trans (emptied.idle p)))

/-- Any number of torn attempts ends without a wipe. -/
theorem torn_attempts_uncounted {threshold : UInt8} (above : 1 < threshold.toNat) (n : Nat) :
    Emptied (Mealy.final (step threshold) start ((List.range n).flatMap tornAttempt)) ∧
      (Mealy.final (step threshold) start ((List.range n).flatMap tornAttempt)).missed = n := by
  induction n with
  | zero => exact ⟨⟨fun _ => rfl, rfl⟩, rfl⟩
  | succ n ih =>
    rw [List.range_succ, List.flatMap_append, List.flatMap_singleton, Mealy.final_append]
    obtain ⟨emptied, count⟩ := emptied_torn above ih.1 n
    exact ⟨emptied, count.trans (congrArg (· + 1) ih.2)⟩

/-- Ten attempts that read before any of them writes. -/
def crossedAttempts : List Event :=
  (List.range 10).map .read ++ (List.range 10).flatMap fun pid => [.truncate pid, .write pid 1]

/-- The ninth attempt writes its count after a reset, and the first one behind it wipes. -/
def staleCount : List Event :=
  (List.range 8).flatMap (fun pid => [.read pid, .truncate pid, .write pid 1]) ++
    [.read 8, .reset, .truncate 8, .write 8 1, .read 9]

/-- With the default threshold, attempts of several processes, torn writes, and a reset
between a read and its write each break the count. -/
theorem attempts_outrun : ¬ Counts (maxWrongAttempts (fun _ => none) none) crossedAttempts ∧
    ¬ Counts (maxWrongAttempts (fun _ => none) none) ((List.range 10).flatMap tornAttempt) ∧
    ¬ Counts (maxWrongAttempts (fun _ => none) none) staleCount := by
  refine ⟨?_, ?_, ?_⟩
  · intro counts
    have below := counts.1 crossedAttempts [] (List.append_nil _).symm
    exact absurd below (by decide +kernel)
  · intro counts
    have below := counts.1 _ [] (List.append_nil _).symm
    rw [(torn_attempts_uncounted (by decide) 10).2] at below
    exact absurd below (by decide)
  · intro counts
    have enough := (Mealy.along_iff_split start staleCount).mp counts.2 staleCount.dropLast
      (.read 9) [] rfl (by decide +kernel)
    exact absurd enough (by decide +kernel)

end FailedAttempts

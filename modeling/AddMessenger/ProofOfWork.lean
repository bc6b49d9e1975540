import AddMessenger.Protocol
import Mathlib.Tactic.Ring

/-!
# Searching for a proof of work

`pow_solve` of `protocol/src/pow.rs` beside `pow_check`, and the bits counted by
`leading_zero_bits` with its counter of 32 bits. The counter of `Protocol.leadingZeroBits`
has no end: the two agree on every hash, and on every text of bytes whose zeros fit.
-/

namespace ProofOfWork

open ByteStrings Protocol

/-- The inner loop of `leading_zero_bits`. -/
def countShifts : Nat → UInt32 → UInt8 → UInt32
  | 0, bits, _ => bits
  | fuel + 1, bits, b =>
    if 0 < b ∧ b &&& 0x80 = 0 then countShifts fuel (bits + 1) (b <<< 1) else bits

/-- The outer loop. The release build wraps the counter. -/
def countZeros : UInt32 → Bytes → UInt32
  | bits, [] => bits
  | bits, byte :: rest =>
    if byte = 0 then countZeros (bits + 8) rest else countShifts 8 bits byte

def leadingZeroBitsU32 (hash : Bytes) : UInt32 := countZeros 0 hash

def leadingZeroBytes (hash : Bytes) : Nat := (hash.takeWhile (· = 0)).length

theorem countShifts_eq (fuel : Nat) (bits : UInt32) (b : UInt8) :
    countShifts fuel bits b = bits + UInt32.ofNat (shiftsToTop fuel b) := by
  induction fuel generalizing bits b with
  | zero => exact (UInt32.add_zero bits).symm
  | succ fuel ih =>
    rw [countShifts, shiftsToTop]
    split
    · rw [ih, UInt32.ofNat_add, ← UInt32.add_assoc]
      rfl
    · exact (UInt32.add_zero bits).symm

theorem countZeros_eq (bits : UInt32) (hash : Bytes) :
    countZeros bits hash = bits + UInt32.ofNat (leadingZeroBits hash) := by
  induction hash generalizing bits with
  | nil => exact (UInt32.add_zero bits).symm
  | cons byte rest ih =>
    rw [countZeros, leadingZeroBits]
    split
    · rw [ih, UInt32.ofNat_add, ← UInt32.add_assoc]
      rfl
    · exact countShifts_eq 8 bits byte

/-- What the counter shows, whatever was counted. -/
theorem toNat_leadingZeroBitsU32 (hash : Bytes) :
    (leadingZeroBitsU32 hash).toNat = leadingZeroBits hash % 2 ^ 32 := by
  rw [leadingZeroBitsU32, countZeros_eq, UInt32.zero_add]
  exact UInt32.toNat_ofNat'

theorem shiftsToTop_lt : ∀ b : UInt8, shiftsToTop 8 b < 8 := by decide +kernel

theorem leadingZeroBits_lt (hash : Bytes) :
    leadingZeroBits hash < 8 * (leadingZeroBytes hash + 1) := by
  induction hash with
  | nil => exact Nat.succ_pos 7
  | cons byte rest ih =>
    rw [leadingZeroBits, leadingZeroBytes, List.takeWhile_cons]
    split
    · next zero =>
      rw [decide_eq_true zero, if_pos rfl, List.length_cons]
      rw [leadingZeroBytes] at ih
      omega
    · have := shiftsToTop_lt byte
      omega

/-- The counter is exact on what starts with fewer than `2 ^ 29` zero bytes. -/
theorem toNat_leadingZeroBitsU32_of_few {hash : Bytes} (few : leadingZeroBytes hash < 2 ^ 29) :
    (leadingZeroBitsU32 hash).toNat = leadingZeroBits hash := by
  have below := leadingZeroBits_lt hash
  rw [toNat_leadingZeroBitsU32]
  exact Nat.mod_eq_of_lt (by omega)

/-- On a hash of Argon2id the two counters agree. -/
theorem toNat_leadingZeroBitsU32_hash (raw : {b : Bytes // b.length = 32}) :
    (leadingZeroBitsU32 raw.val).toNat = leadingZeroBits raw.val := by
  apply toNat_leadingZeroBitsU32_of_few
  have short : leadingZeroBytes raw.val ≤ raw.val.length := (List.takeWhile_prefix _).length_le
  have := raw.property
  omega

theorem leadingZeroBits_replicate (n : Nat) : leadingZeroBits (List.replicate n 0) = 8 * n := by
  induction n with
  | zero => rfl
  | succ n ih =>
    rw [List.replicate_succ, leadingZeroBits, if_pos rfl, ih]
    omega

theorem fromBeBytes_cons (byte : UInt8) (rest : Bytes) :
    fromBeBytes (byte :: rest) = byte.toNat * 256 ^ rest.length + fromBeBytes rest := by
  induction rest using List.reverseRecOn with
  | nil => simp [fromBeBytes]
  | append_singleton front x ih =>
    rw [← List.cons_append, fromBeBytes_concat, fromBeBytes_concat, ih, List.length_append,
      List.length_singleton, pow_succ]
    ring

theorem le_shiftsToTop_iff :
    ∀ b : UInt8, b ≠ 0 → ∀ d : Fin 9, d.val ≤ shiftsToTop 8 b ↔ b.toNat < 2 ^ (8 - d.val) := by
  decide +kernel

/-- What stands below one unit of a number does not decide whether it is below a power. -/
theorem mul_add_lt_two_pow_iff {a rest k m : Nat} (low : rest < 2 ^ m) :
    a * 2 ^ m + rest < 2 ^ (k + m) ↔ a < 2 ^ k := by
  rw [pow_add, ← Nat.div_lt_iff_lt_mul (by positivity), Nat.add_comm,
    Nat.add_mul_div_right _ _ (by positivity), Nat.div_eq_of_lt low, Nat.zero_add]

theorem le_leadingZeroBits_iff {hash : Bytes} {d : Nat} (fits : d ≤ 8 * hash.length) :
    d ≤ leadingZeroBits hash ↔ fromBeBytes hash < 2 ^ (8 * hash.length - d) := by
  induction hash generalizing d with
  | nil =>
    obtain rfl : d = 0 := Nat.le_zero.mp fits
    exact ⟨fun _ => Nat.one_pos, fun _ => Nat.zero_le _⟩
  | cons byte rest ih =>
    have width : (256 : Nat) ^ rest.length = 2 ^ (8 * rest.length) :=
      (pow_mul 2 8 rest.length).symm
    have low : fromBeBytes rest < 2 ^ (8 * rest.length) := by
      rw [← width]
      exact fromBeBytes_lt rest
    rw [List.length_cons] at fits
    rw [leadingZeroBits, fromBeBytes_cons, width, List.length_cons]
    by_cases zero : byte = 0
    · rw [if_pos zero, zero]
      simp only [UInt8.toNat_zero, Nat.zero_mul, Nat.zero_add]
      by_cases within : d ≤ 8
      · have wide : 2 ^ (8 * rest.length) ≤ 2 ^ (8 * (rest.length + 1) - d) :=
          Nat.pow_le_pow_right (by omega) (by omega)
        exact ⟨fun _ => by omega, fun _ => by omega⟩
      · have deeper := ih (d := d - 8) (by omega)
        rw [show 8 * rest.length - (d - 8) = 8 * (rest.length + 1) - d by omega] at deeper
        rw [← deeper]
        omega
    · rw [if_neg zero]
      by_cases within : d ≤ 8
      · have top := le_shiftsToTop_iff byte zero ⟨d, by omega⟩
        have splits : 8 * (rest.length + 1) - d = 8 - d + 8 * rest.length := by omega
        rw [splits, mul_add_lt_two_pow_iff low]
        exact top
      · have count := shiftsToTop_lt byte
        have positive : 0 < byte.toNat := by
          apply Nat.pos_of_ne_zero
          exact fun none => zero (UInt8.toNat_inj.mp none)
        have narrow : 2 ^ (8 * (rest.length + 1) - d) ≤ 2 ^ (8 * rest.length) :=
          Nat.pow_le_pow_right (by omega) (by omega)
        have large : 2 ^ (8 * rest.length) ≤ byte.toNat * 2 ^ (8 * rest.length) :=
          Nat.le_mul_of_pos_left _ positive
        constructor <;> intro h <;> omega

/-- The wall-clock budget of 30 seconds, in nanoseconds. -/
def budget : Nat := 30 * 10 ^ 9

/-- The loop of `pow_solve`; `elapsed` is what the clock shows behind each attempt. -/
def powSolveLoop (argon2id : Argon2id) (elapsed : UInt64 → Nat) (data : String)
    (difficulty : Nat) (salt : Bytes) : Nat → UInt64 → Except PowError (Option UInt64)
  | 0, _ => .ok none
  | left + 1, nonce =>
    match argon2id (asBytes s!"{data}:{nonce}") salt with
    | .error text => .error (.argon2Hash text)
    | .ok raw =>
      if difficulty ≤ leadingZeroBits raw.val then .ok (some nonce)
      else if nonce % 1024 = 0 ∧ budget < elapsed nonce then .error .timeout
      else powSolveLoop argon2id elapsed data difficulty salt left (nonce + 1)

def powSolve (argon2id : Argon2id) (elapsed : UInt64 → Nat) (data : String) (difficulty : Nat)
    (maxAttempts : UInt64) (nodeSecret : Bytes) : Except PowError (Option UInt64) :=
  if difficulty < minPowDifficulty then .error (.difficultyTooLow difficulty minPowDifficulty)
  else
    powSolveLoop argon2id elapsed data difficulty (nodePowSalt nodeSecret) maxAttempts.toNat 0

/-- Argon2id that always returns its 32 bytes. -/
def answering (hash : Bytes → Bytes → {b : Bytes // b.length = 32}) : Argon2id :=
  fun secret salt => .ok (hash secret salt)

/-- No look at the clock behind one of the attempts finds the budget used up. -/
def InTime (elapsed : UInt64 → Nat) (maxAttempts : UInt64) : Prop :=
  ∀ nonce, nonce < maxAttempts → nonce % 1024 = 0 → elapsed nonce ≤ budget

section Search

variable {hash : Bytes → Bytes → {b : Bytes // b.length = 32}} {elapsed : UInt64 → Nat}
  {data : String} {difficulty : Nat} {maxAttempts : UInt64} {secret : Bytes}

theorem powCheck_of_low (low : difficulty < minPowDifficulty) (argon2id : Argon2id)
    (nonce : UInt64) :
    powCheck argon2id data nonce difficulty secret =
      .error (.difficultyTooLow difficulty minPowDifficulty) := if_pos low

theorem powCheck_answering (enough : ¬ difficulty < minPowDifficulty) (nonce : UInt64) :
    powCheck (answering hash) data nonce difficulty secret = .ok (decide (difficulty ≤
      leadingZeroBits (hash (asBytes s!"{data}:{nonce}") (nodePowSalt secret)).val)) :=
  if_neg enough

/-- In time, an attempt that misses is followed by the next. -/
theorem powSolveLoop_succ (inTime : InTime elapsed maxAttempts) (left : Nat) {nonce : UInt64}
    (within : nonce < maxAttempts) :
    powSolveLoop (answering hash) elapsed data difficulty (nodePowSalt secret) (left + 1) nonce =
      if difficulty ≤
          leadingZeroBits (hash (asBytes s!"{data}:{nonce}") (nodePowSalt secret)).val then
        .ok (some nonce)
      else
        powSolveLoop (answering hash) elapsed data difficulty (nodePowSalt secret) left
          (nonce + 1) := by
  have clock : ¬ (nonce % 1024 = 0 ∧ budget < elapsed nonce) := by
    rintro ⟨stride, late⟩
    exact Nat.not_lt.mpr (inTime nonce within stride) late
  rw [powSolveLoop]
  simp only [answering, if_neg clock]

/-- A later nonce is this one or lies behind it. -/
theorem eq_or_succ_le {nonce other : UInt64} (next : (nonce + 1).toNat = nonce.toNat + 1)
    (from_ : nonce ≤ other) : other = nonce ∨ nonce + 1 ≤ other := by
  rw [UInt64.le_iff_toNat_le] at from_ ⊢
  rw [next, ← UInt64.toNat_inj]
  omega

/-- The search from a nonce on returns the least later one that checks. -/
theorem powSolveLoop_spec (enough : ¬ difficulty < minPowDifficulty)
    (inTime : InTime elapsed maxAttempts) (left : Nat) (nonce : UInt64)
    (reaches : nonce.toNat + left = maxAttempts.toNat) :
    (∃ found, powSolveLoop (answering hash) elapsed data difficulty (nodePowSalt secret) left
          nonce = .ok (some found) ∧ nonce ≤ found ∧ found < maxAttempts ∧
        powCheck (answering hash) data found difficulty secret = .ok true ∧
        ∀ earlier, nonce ≤ earlier → earlier < found →
          powCheck (answering hash) data earlier difficulty secret = .ok false) ∨
      (powSolveLoop (answering hash) elapsed data difficulty (nodePowSalt secret) left nonce =
          .ok none ∧
        ∀ other, nonce ≤ other → other < maxAttempts →
          powCheck (answering hash) data other difficulty secret = .ok false) := by
  induction left generalizing nonce with
  | zero =>
    right
    refine ⟨rfl, fun other from_ below => ?_⟩
    simp only [UInt64.le_iff_toNat_le, UInt64.lt_iff_toNat_lt] at from_ below
    omega
  | succ left ih =>
    have room := maxAttempts.toNat_lt
    have within : nonce < maxAttempts := by
      rw [UInt64.lt_iff_toNat_lt]
      omega
    have next : (nonce + 1).toNat = nonce.toNat + 1 := by
      rw [UInt64.toNat_add, UInt64.toNat_one]
      exact Nat.mod_eq_of_lt (by omega)
    have checked := @powCheck_answering hash data difficulty secret enough nonce
    rw [powSolveLoop_succ inTime left within]
    by_cases hit : difficulty ≤
        leadingZeroBits (hash (asBytes s!"{data}:{nonce}") (nodePowSalt secret)).val
    · left
      rw [decide_eq_true hit] at checked
      refine ⟨nonce, if_pos hit, UInt64.le_refl nonce, within, checked, ?_⟩
      intro earlier from_ before
      exact absurd before (UInt64.not_lt.mpr from_)
    · rw [decide_eq_false hit] at checked
      rw [if_neg hit]
      rcases ih (nonce + 1) (by omega) with ⟨found, solved, from_, below, holds, least⟩ |
        ⟨unsolved, fails⟩
      · left
        refine ⟨found, solved, ?_, below, holds, ?_⟩
        · rw [UInt64.le_iff_toNat_le] at from_ ⊢
          omega
        · intro earlier start before
          rcases eq_or_succ_le next start with rfl | behind
          · exact checked
          · exact least earlier behind before
      · right
        refine ⟨unsolved, ?_⟩
        intro other start below
        rcases eq_or_succ_le next start with rfl | behind
        · exact checked
        · exact fails other behind below

theorem powSolve_of_low (low : difficulty < minPowDifficulty) (argon2id : Argon2id) :
    powSolve argon2id elapsed data difficulty maxAttempts secret =
      .error (.difficultyTooLow difficulty minPowDifficulty) := if_pos low

/-- The least nonce that checks is found, or none does. -/
theorem powSolve_cases (enough : ¬ difficulty < minPowDifficulty)
    (inTime : InTime elapsed maxAttempts) :
    (∃ found, powSolve (answering hash) elapsed data difficulty maxAttempts secret =
          .ok (some found) ∧ found < maxAttempts ∧
        powCheck (answering hash) data found difficulty secret = .ok true ∧
        ∀ earlier, earlier < found →
          powCheck (answering hash) data earlier difficulty secret = .ok false) ∨
      (powSolve (answering hash) elapsed data difficulty maxAttempts secret = .ok none ∧
        ∀ other, other < maxAttempts →
          powCheck (answering hash) data other difficulty secret = .ok false) := by
  have all : ∀ n : UInt64, 0 ≤ n := fun _ => UInt64.zero_le
  rw [powSolve, if_neg enough]
  rcases powSolveLoop_spec enough inTime maxAttempts.toNat 0 (Nat.zero_add _) with
    ⟨found, solved, -, below, holds, least⟩ | ⟨unsolved, fails⟩
  · exact .inl ⟨found, solved, below, holds, fun earlier => least earlier (all earlier)⟩
  · exact .inr ⟨unsolved, fun other => fails other (all other)⟩

theorem powSolve_eq_some_iff (inTime : InTime elapsed maxAttempts) (nonce : UInt64) :
    powSolve (answering hash) elapsed data difficulty maxAttempts secret = .ok (some nonce) ↔
      nonce < maxAttempts ∧ powCheck (answering hash) data nonce difficulty secret = .ok true ∧
        ∀ earlier, earlier < nonce →
          powCheck (answering hash) data earlier difficulty secret ≠ .ok true := by
  by_cases low : difficulty < minPowDifficulty
  · rw [powSolve_of_low low, powCheck_of_low low]
    exact iff_of_false nofun fun both => nomatch both.2.1
  · rcases powSolve_cases low inTime with ⟨found, solved, below, holds, least⟩ | ⟨unsolved, fails⟩
    · rw [solved]
      constructor
      · rintro ⟨⟩
        refine ⟨below, holds, fun earlier before checks => ?_⟩
        rw [least earlier before] at checks
        cases checks
      · rintro ⟨_, checks, first⟩
        -- neither of the two nonces lies before the other
        rcases Nat.lt_trichotomy found.toNat nonce.toNat with before | same | before
        · exact absurd holds (first found (UInt64.lt_iff_toNat_lt.mpr before))
        · rw [UInt64.toNat_inj.mp same]
        · rw [least nonce (UInt64.lt_iff_toNat_lt.mpr before)] at checks
          cases checks
    · rw [unsolved]
      refine iff_of_false nofun ?_
      rintro ⟨below, checks, _⟩
      rw [fails nonce below] at checks
      cases checks

theorem powSolve_eq_none_iff (inTime : InTime elapsed maxAttempts) :
    powSolve (answering hash) elapsed data difficulty maxAttempts secret = .ok none ↔
      minPowDifficulty ≤ difficulty ∧ ∀ nonce, nonce < maxAttempts →
        powCheck (answering hash) data nonce difficulty secret ≠ .ok true := by
  by_cases low : difficulty < minPowDifficulty
  · rw [powSolve_of_low low]
    exact iff_of_false nofun fun both => Nat.not_lt.mpr both.1 low
  · rcases powSolve_cases low inTime with ⟨found, solved, below, holds, _⟩ | ⟨unsolved, fails⟩
    · rw [solved]
      refine iff_of_false nofun ?_
      rintro ⟨_, fails⟩
      exact fails found below holds
    · refine ⟨fun _ => ⟨Nat.not_lt.mp low, fun nonce below checks => ?_⟩, fun _ => unsolved⟩
      rw [fails nonce below] at checks
      cases checks

theorem powSolve_tooLow_iff (inTime : InTime elapsed maxAttempts) (nonce : UInt64)
    (got least : Nat) :
    powSolve (answering hash) elapsed data difficulty maxAttempts secret =
        .error (.difficultyTooLow got least) ↔
      powCheck (answering hash) data nonce difficulty secret =
        .error (.difficultyTooLow got least) := by
  by_cases low : difficulty < minPowDifficulty
  · rw [powSolve_of_low low, powCheck_of_low low]
    constructor <;> rintro ⟨⟩ <;> rfl
  · rw [powCheck_answering low]
    rcases powSolve_cases low inTime with ⟨found, solved, _⟩ | ⟨unsolved, _⟩
    · rw [solved]
      exact iff_of_false nofun nofun
    · rw [unsolved]
      exact iff_of_false nofun nofun

end Search

/-- Data may hold colons and digits: the nonce is what stands behind the last colon. -/
theorem hashed_injective {data data2 : String} {nonce nonce2 : UInt64}
    (same : asBytes s!"{data}:{nonce}" = asBytes s!"{data2}:{nonce2}") :
    data = data2 ∧ nonce = nonce2 := by
  have plain : ∀ n : UInt64, ':' ∉ (toString n).toList := by
    intro n colon
    exact absurd (isDigit_of_mem_toString (n := n.toNat) colon) (by decide)
  have texts := congrArg String.toList (asBytes_injective same)
  have splits : data.toList ++ ':' :: (toString nonce).toList =
      data2.toList ++ ':' :: (toString nonce2).toList := by
    simpa [toString] using texts
  obtain ⟨fronts, backs⟩ := append_separator_inj (plain nonce) (plain nonce2) splits
  exact ⟨String.toList_inj.mp fronts, toString_injective (String.toList_inj.mp backs)⟩

theorem leadingZeroBitsU32_iff {bytes : Bytes} {d : UInt32}
    (few : leadingZeroBytes bytes < 2 ^ 29) (fits : d.toNat ≤ 8 * bytes.length) :
    d ≤ leadingZeroBitsU32 bytes ↔ fromBeBytes bytes < 2 ^ (8 * bytes.length - d.toNat) := by
  rw [UInt32.le_iff_toNat_le, toNat_leadingZeroBitsU32_of_few few]
  exact le_leadingZeroBits_iff fits

/-- The search finds the least nonce that checks, or that there is none; it refuses the
difficulties that the check refuses. -/
theorem search_agrees_with_check (hash : Bytes → Bytes → {b : Bytes // b.length = 32})
    (elapsed : UInt64 → Nat) (data : String) (difficulty : Nat) (maxAttempts : UInt64)
    (secret : Bytes) (inTime : InTime elapsed maxAttempts) :
    ((∀ nonce, powSolve (answering hash) elapsed data difficulty maxAttempts secret =
          .ok (some nonce) ↔
        nonce < maxAttempts ∧
          powCheck (answering hash) data nonce difficulty secret = .ok true ∧
          ∀ earlier, earlier < nonce →
            powCheck (answering hash) data earlier difficulty secret ≠ .ok true) ∧
      (powSolve (answering hash) elapsed data difficulty maxAttempts secret = .ok none ↔
        minPowDifficulty ≤ difficulty ∧ ∀ nonce, nonce < maxAttempts →
          powCheck (answering hash) data nonce difficulty secret ≠ .ok true) ∧
      ∀ nonce got least,
        powSolve (answering hash) elapsed data difficulty maxAttempts secret =
            .error (.difficultyTooLow got least) ↔
          powCheck (answering hash) data nonce difficulty secret =
            .error (.difficultyTooLow got least)) ∧
    (∀ (bytes : Bytes) (d : UInt32), leadingZeroBytes bytes < 2 ^ 29 →
      d.toNat ≤ 8 * bytes.length →
        (d ≤ leadingZeroBitsU32 bytes ↔
          fromBeBytes bytes < 2 ^ (8 * bytes.length - d.toNat))) ∧
    ∀ (one other : String) (nonce nonce2 : UInt64),
      asBytes s!"{one}:{nonce}" = asBytes s!"{other}:{nonce2}" →
        one = other ∧ nonce = nonce2 := by
  refine ⟨⟨?_, ?_, ?_⟩, ?_, ?_⟩
  · exact powSolve_eq_some_iff inTime
  · exact powSolve_eq_none_iff inTime
  · exact powSolve_tooLow_iff inTime
  · intro bytes d few fits
    exact leadingZeroBitsU32_iff few fits
  · intro one other nonce nonce2 same
    exact hashed_injective same

theorem length_zeros : (List.replicate 32 (0 : UInt8)).length = 32 := List.length_replicate

theorem length_ones : (List.replicate 32 (255 : UInt8)).length = 32 := List.length_replicate

/-- Zeros for the secrets that end in the digit one, ones for the others. -/
def zerosForOne (secret _salt : Bytes) : {b : Bytes // b.length = 32} :=
  if secret.getLast? = some 49 then ⟨List.replicate 32 0, length_zeros⟩
  else ⟨List.replicate 32 255, length_ones⟩

theorem search_agrees_with_check_second :
    powSolve (answering zerosForOne) (fun _ => 0) "ab:" 12 5 [7] = .ok (some 1) := by
  have agrees := search_agrees_with_check zerosForOne (fun _ => 0) "ab:" 12 5 [7]
    (fun _ _ _ => Nat.zero_le _)
  apply (agrees.1.1 1).mpr
  refine ⟨by decide, by decide +kernel, fun earlier before => ?_⟩
  obtain rfl : earlier = 0 := by
    rw [UInt64.lt_iff_toNat_lt] at before
    exact UInt64.toNat_inj.mp (Nat.lt_one_iff.mp before)
  decide +kernel

theorem fromBeBytes_replicate (n : Nat) : fromBeBytes (List.replicate n 0) = 0 := by
  induction n with
  | zero => rfl
  | succ n ih => rw [List.replicate_succ, fromBeBytes_cons, ih, UInt8.toNat_zero, Nat.zero_mul]

/-- Zeros that fill the counter are counted as none. -/
theorem counter_wraps {n : Nat} (full : 8 * n % 2 ^ 32 = 0) :
    ¬ (1 ≤ leadingZeroBitsU32 (List.replicate n 0) ↔
      fromBeBytes (List.replicate n 0) < 2 ^ (8 * n - 1)) := by
  intro agrees
  have positive : fromBeBytes (List.replicate n 0) < 2 ^ (8 * n - 1) := by
    rw [fromBeBytes_replicate]
    exact Nat.two_pow_pos _
  have counted := UInt32.le_iff_toNat_le.mp (agrees.mpr positive)
  rw [toNat_leadingZeroBitsU32, leadingZeroBits_replicate, full] at counted
  exact absurd counted (by decide)

/-- Below the least difficulty no nonce checks and the search does not return `None`; 512 MiB
of zeros have no leading zero bit. -/
theorem low_difficulty_and_full_counter :
    ((∀ nonce, powCheck (answering zerosForOne) "test" nonce 5 [] ≠ .ok true) ∧
      powSolve (answering zerosForOne) (fun _ => 0) "test" 5 1 [] ≠ .ok none) ∧
    ¬ (1 ≤ leadingZeroBitsU32 (List.replicate (2 ^ 29) 0) ↔
      fromBeBytes (List.replicate (2 ^ 29) 0) < 2 ^ (8 * 2 ^ 29 - 1)) := by
  refine ⟨⟨?_, ?_⟩, counter_wraps (by norm_num)⟩
  · intro nonce checks
    rw [powCheck_of_low (by decide)] at checks
    cases checks
  · intro unsolved
    rw [powSolve_of_low (by decide)] at unsolved
    cases unsolved

end ProofOfWork

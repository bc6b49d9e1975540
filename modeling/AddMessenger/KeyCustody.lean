import AddMessenger.KeySharing
import AddMessenger.Mealy

/-!
# Shards on disk

`SecKit::recover_or_bootstrap` of `crypto/src/snapshot_defense.rs` over the three provider
directories of a state directory. The key and the coefficients drawn by a call, the answer of
the mount check and what becomes of each file write are inputs of the call.

A run is a list of calls and of losses of single files.
-/

namespace KeyCustody

open ByteStrings Outcomes KeySharing

/-- The file `shard.bin` under each provider directory. -/
abbrev Disk := Fin 3 → Option Bytes

structure SecKit where
  key : VolatileKey
  shards : Fin 3 → Shard

/-- One `fs::write`: it ends before it opens the file, or leaves a proper prefix. -/
inductive Write where
  | whole
  | unopened (text : String)
  | torn (kept : Fin shardLen) (text : String)

structure Call where
  requireTmpfs : Bool
  mount : Except SnapError Unit
  generated : VolatileKey
  coefficients : VolatileKey
  writes : Fin 3 → Write
  /-- The process lives until the call returns. -/
  survives : Bool

def defaultProviderDirs : List (Fin 3) := [0, 1, 2]

def persist (shards : Fin 3 → Shard) (writes : Fin 3 → Write) :
    List (Fin 3) → Disk → Except SnapError Unit × Disk
  | [], disk => (.ok (), disk)
  | i :: dirs, disk =>
    match writes i with
    | .whole => persist shards writes dirs (Function.update disk i (some (shards i).asBytes))
    | .unopened text => (.error (.persist text), disk)
    | .torn kept text =>
      (.error (.persist text), Function.update disk i (some ((shards i).asBytes.take kept)))

/-- Both ways of `recover_or_bootstrap` end with these lines. -/
def splitAndPersist (key : VolatileKey) (call : Call) (disk : Disk) :
    Outcome SnapError SecKit × Disk :=
  let shards := splitKey key call.coefficients
  match persist shards call.writes defaultProviderDirs disk with
  | (.error e, disk) => (.error e, disk)
  | (.ok (), disk) => (.ok ⟨key, shards⟩, disk)

def bootstrap (call : Call) (disk : Disk) : Outcome SnapError SecKit × Disk :=
  match if call.requireTmpfs then call.mount else .ok () with
  | .error e => (.error e, disk)
  | .ok () => splitAndPersist call.generated call disk

/-- A file that can be read as a shard. -/
def shardAt (disk : Disk) (i : Fin 3) : Option Shard :=
  match disk i with
  | none => none
  | some bytes => (Shard.fromBytes bytes).toOption

def findShards (disk : Disk) : List (Fin 3) → List Shard → List Shard
  | [], found => found
  | i :: dirs, found =>
    let found := match shardAt disk i with
      | some s => found ++ [s]
      | none => found
    if 2 ≤ found.length then found else findShards disk dirs found

def foundShards (disk : Disk) : List Shard := findShards disk defaultProviderDirs []

def reconstructOrPanic (shards : List Shard) : Outcome SnapError VolatileKey :=
  match reconstruct shards with
  | .ok key => .ok key
  | .error _ => .panicked

def recoverOrBootstrap (call : Call) (disk : Disk) : Outcome SnapError SecKit × Disk :=
  let found := foundShards disk
  if found.length < 2 then bootstrap call disk
  else match reconstructOrPanic found with
    | .ok key => splitAndPersist key call disk
    | .error e => (.error e, disk)
    | .panicked => (.panicked, disk)

inductive Event where
  | call (c : Call)
  | lose (i : Fin 3)

/-- A call that is cut off with the process gives no answer. -/
def step (disk : Disk) : Event → Option (Outcome SnapError SecKit) × Disk
  | .call c =>
    let (answer, disk) := recoverOrBootstrap c disk
    (if c.survives then some answer else none, disk)
  | .lose i => (none, Function.update disk i none)

theorem step_call (disk : Disk) (c : Call) : (step disk (.call c)).1 =
    if c.survives then some (recoverOrBootstrap c disk).1 else none := rfl

/-- Directories that hold three shards of a key. -/
def holding (key a : VolatileKey) : Disk := fun i => some (splitKey key a i).asBytes

/-- A call that returns `Ok` returns this key, and has not minted it. -/
def KeepsKey (key : VolatileKey) (disk : Disk) (c : Call) : Prop :=
  ∀ kit, (step disk (.call c)).1 = some (.ok kit) → kit.key = key ∧ 2 ≤ (foundShards disk).length

/-- The three files hold the shards of one split. -/
def Whole (key : VolatileKey) (disk : Disk) : Prop :=
  ∃ a, ∀ i, shardAt disk i = some (splitKey key a i)

/-- Where a call may be cut off, and which file may be lost. -/
def Spares (key : VolatileKey) (disk : Disk) : Event → Prop
  | .call c =>
    match c.writes 0, c.writes 1 with
    | .unopened _, _ => True
    | .torn _ _, _ => ∃ a, shardAt disk 1 = some (splitKey key a 1) ∧
        shardAt disk 2 = some (splitKey key a 2)
    | .whole, .unopened _ => shardAt disk 1 = some (splitKey key c.coefficients 1) ∨
        shardAt disk 1 = none ∧ shardAt disk 2 = some (splitKey key c.coefficients 2)
    | .whole, .torn _ _ => shardAt disk 2 = some (splitKey key c.coefficients 2)
    | .whole, .whole => True
  | .lose i => Whole key disk ∨ shardAt disk i = none ∨
      i = 2 ∧ (shardAt disk 0).isSome ∧ (shardAt disk 1).isSome

variable {key : VolatileKey} {disk : Disk}

theorem shardAt_congr {other : Disk} {i : Fin 3} (same : other i = disk i) :
    shardAt other i = shardAt disk i := by
  rw [shardAt, shardAt, same]

theorem shardAt_other (bytes : Option Bytes) {i j : Fin 3} (other : j ≠ i) :
    shardAt (Function.update disk i bytes) j = shardAt disk j :=
  shardAt_congr (Function.update_of_ne other bytes disk)

@[simp] theorem shardAt_written (i : Fin 3) (s : Shard) :
    shardAt (Function.update disk i (some s.asBytes)) i = some s := by
  rw [shardAt, Function.update_self]
  show (Shard.fromBytes s.asBytes).toOption = some s
  rw [fromBytes_asBytes]
  rfl

@[simp] theorem shardAt_torn (i : Fin 3) (s : Shard) (kept : Fin shardLen) :
    shardAt (Function.update disk i (some (s.asBytes.take kept))) i = none := by
  have short : (s.asBytes.take kept).length ≠ shardLen := by
    have sized : s.asBytes.length = shardLen := s.property
    rw [List.length_take, sized]
    omega
  rw [shardAt, Function.update_self]
  show (Shard.fromBytes (s.asBytes.take kept)).toOption = none
  rw [Shard.fromBytes, dif_neg short]
  rfl

@[simp] theorem shardAt_lost (i : Fin 3) : shardAt (Function.update disk i none) i = none := by
  rw [shardAt, Function.update_self]

@[simp] theorem shardAt_holding (key a : VolatileKey) (i : Fin 3) :
    shardAt (holding key a) i = some (splitKey key a i) := by
  show (Shard.fromBytes (splitKey key a i).asBytes).toOption = some (splitKey key a i)
  rw [fromBytes_asBytes]
  rfl

theorem foundShards_eq (disk : Disk) :
    foundShards disk = (defaultProviderDirs.filterMap (shardAt disk)).take 2 := by
  rcases zero : shardAt disk 0 <;> rcases one : shardAt disk 1 <;> rcases two : shardAt disk 2 <;>
    simp [foundShards, findShards, defaultProviderDirs, zero, one, two]

/-- Every readable file is in the directory of its index. -/
def Placed (disk : Disk) : Prop := ∀ i s, shardAt disk i = some s → s.x = indexOf i

theorem placed_update {i : Fin 3} {bytes : Option Bytes} (placed : Placed disk)
    (here : ∀ s, shardAt (Function.update disk i bytes) i = some s → s.x = indexOf i) :
    Placed (Function.update disk i bytes) := by
  intro j s read
  by_cases same : j = i
  · subst same
    exact here s read
  · rw [shardAt_congr (Function.update_of_ne same bytes disk)] at read
    exact placed j s read

theorem placed_persist {shards : Fin 3 → Shard} (sx : ∀ i, (shards i).x = indexOf i)
    (writes : Fin 3 → Write) (dirs : List (Fin 3)) (placed : Placed disk) :
    Placed (persist shards writes dirs disk).2 := by
  induction dirs generalizing disk with
  | nil => exact placed
  | cons i dirs ih =>
    rw [persist]
    split
    · refine ih (placed_update placed fun s read => ?_)
      rw [shardAt_written, Option.some.injEq] at read
      rw [← read, sx]
    · exact placed
    · refine placed_update placed fun s read => ?_
      rw [shardAt_torn] at read
      cases read

theorem splitAndPersist_disk (key : VolatileKey) (call : Call) (disk : Disk) :
    (splitAndPersist key call disk).2 =
      (persist (splitKey key call.coefficients) call.writes defaultProviderDirs disk).2 := by
  rw [splitAndPersist]
  split <;> rename_i persisted <;> rw [persisted]

theorem placed_splitAndPersist (key : VolatileKey) (call : Call) (placed : Placed disk) :
    Placed (splitAndPersist key call disk).2 := by
  rw [splitAndPersist_disk]
  exact placed_persist (splitKey_x key call.coefficients) call.writes _ placed

theorem placed_step (event : Event) (placed : Placed disk) : Placed (step disk event).2 := by
  cases event with
  | call c =>
    show Placed (recoverOrBootstrap c disk).2
    rw [recoverOrBootstrap]
    split
    · rw [bootstrap]
      split
      · exact placed
      · exact placed_splitAndPersist _ c placed
    · split
      · exact placed_splitAndPersist _ c placed
      · exact placed
      · exact placed
  | lose i =>
    refine placed_update placed fun s read => ?_
    rw [shardAt_lost] at read
    cases read

theorem persist_whole {shards : Fin 3 → Shard} {writes : Fin 3 → Write} {i : Fin 3}
    (written : writes i = .whole) (dirs : List (Fin 3)) (disk : Disk) :
    persist shards writes (i :: dirs) disk =
      persist shards writes dirs (Function.update disk i (some (shards i).asBytes)) := by
  rw [persist, written]

/-- The loop touches only the directories it visits. -/
theorem shardAt_persist (shards : Fin 3 → Shard) (writes : Fin 3 → Write) {dirs : List (Fin 3)}
    {j : Fin 3} (absent : j ∉ dirs) :
    shardAt (persist shards writes dirs disk).2 j = shardAt disk j := by
  induction dirs generalizing disk with
  | nil => rfl
  | cons i dirs ih =>
    have other := List.ne_of_not_mem_cons absent
    rw [persist]
    split
    · rw [ih (List.not_mem_of_not_mem_cons absent), shardAt_other _ other]
    · rfl
    · exact shardAt_other _ other

theorem placed_holding (key a : VolatileKey) : Placed (holding key a) := by
  intro i s read
  rw [shardAt_holding, Option.some.injEq] at read
  rw [← read, splitKey_x]

/-- A shard and its key determine the split. -/
theorem splitKey_injective {a b : VolatileKey} {i : Fin 3}
    (same : splitKey key a i = splitKey key b i) : a = b := by
  have first := (splitKey_eq_iff (splitKey_x key b i)).mp same
  have second := (splitKey_eq_iff (splitKey_x key b i)).mp rfl
  exact Subtype.ext (first.trans second.symm)

/-- The first two readable files are shards of one split. -/
def Intact (key : VolatileKey) (disk : Disk) : Prop :=
  (∃ a, shardAt disk 0 = some (splitKey key a 0) ∧
    (shardAt disk 1 = some (splitKey key a 1) ∨
      shardAt disk 1 = none ∧ shardAt disk 2 = some (splitKey key a 2))) ∨
  shardAt disk 0 = none ∧ ∃ a, shardAt disk 1 = some (splitKey key a 1) ∧
    shardAt disk 2 = some (splitKey key a 2)

theorem recovers_iff_intact (placed : Placed disk) :
    reconstruct (foundShards disk) = .ok key ↔ Intact key disk := by
  rw [foundShards_eq, Intact]
  rcases zero : shardAt disk 0 with _ | s <;> rcases one : shardAt disk 1 with _ | t <;>
    rcases two : shardAt disk 2 with _ | u
  all_goals simp only [defaultProviderDirs, List.filterMap_cons, zero, one, two,
    List.filterMap_nil, List.take_succ_cons, List.take_zero, List.take_nil, Option.some.injEq,
    reduceCtorEq, false_and, and_false, or_false, false_or, true_and, exists_false]
  · simp [reconstruct]
  · simp [reconstruct]
  · simp [reconstruct]
  · rw [reconstruct_eq_iff (by decide : (1 : Fin 3) ≠ 2) (placed 1 t one) (placed 2 u two)]
    simp only [eq_comm]
  · simp [reconstruct]
  · rw [reconstruct_eq_iff (by decide : (0 : Fin 3) ≠ 2) (placed 0 s zero) (placed 2 u two)]
    simp only [eq_comm]
  · rw [reconstruct_eq_iff (by decide : (0 : Fin 3) ≠ 1) (placed 0 s zero) (placed 1 t one)]
    simp only [eq_comm]
  · rw [reconstruct_eq_iff (by decide : (0 : Fin 3) ≠ 1) (placed 0 s zero) (placed 1 t one)]
    simp only [eq_comm]

theorem key_of_splitAndPersist {drawn : VolatileKey} {call : Call} {kit : SecKit}
    (answered : (splitAndPersist drawn call disk).1 = .ok kit) : kit.key = drawn := by
  rw [splitAndPersist] at answered
  split at answered
  · cases answered
  · cases answered
    rfl

/-- Two readable files are always put together. -/
theorem recoverOrBootstrap_found (call : Call) (two : 2 ≤ (foundShards disk).length) :
    ∃ found, reconstruct (foundShards disk) = .ok found ∧
      recoverOrBootstrap call disk = splitAndPersist found call disk := by
  obtain ⟨found, whole⟩ : ∃ found, reconstruct (foundShards disk) = .ok found := by
    match foundShards disk, two with
    | s :: t :: _, _ => exact ⟨_, rfl⟩
  refine ⟨found, whole, ?_⟩
  rw [recoverOrBootstrap, if_neg (Nat.not_lt.mpr two), reconstructOrPanic, whole]

theorem two_found {found : VolatileKey} (whole : reconstruct (foundShards disk) = .ok found) :
    2 ≤ (foundShards disk).length := by
  match foundShards disk, whole with
  | _ :: _ :: _, _ => exact Nat.le_add_left 2 _

/-- A call whose writes all succeed. -/
def wholeCall : Call where
  requireTmpfs := false
  mount := .ok ()
  generated := sampleKey
  coefficients := sampleCoefficients
  writes _ := .whole
  survives := true

theorem wholeCall_answers (drawn : VolatileKey) (disk : Disk) :
    ∃ kit, (splitAndPersist drawn wholeCall disk).1 = .ok kit := ⟨_, rfl⟩

theorem keepsKey_iff_intact (placed : Placed disk) :
    (∀ c, KeepsKey key disk c) ↔ Intact key disk := by
  rw [← recovers_iff_intact placed]
  constructor
  · intro keeps
    have answered : ∃ kit, (recoverOrBootstrap wholeCall disk).1 = .ok kit := by
      by_cases two : 2 ≤ (foundShards disk).length
      · obtain ⟨found, -, same⟩ := recoverOrBootstrap_found wholeCall two
        rw [same]
        exact wholeCall_answers found disk
      · rw [recoverOrBootstrap, if_pos (Nat.not_le.mp two)]
        exact wholeCall_answers sampleKey disk
    obtain ⟨kit, answered⟩ := answered
    obtain ⟨right, two⟩ := keeps wholeCall kit (congrArg some answered)
    obtain ⟨found, whole, same⟩ := recoverOrBootstrap_found wholeCall two
    rw [same] at answered
    rw [whole, ← right, key_of_splitAndPersist answered]
  · intro whole c kit answered
    have two := two_found whole
    obtain ⟨found, again, same⟩ := recoverOrBootstrap_found c two
    obtain rfl := Except.ok.inj (whole.symm.trans again)
    refine ⟨?_, two⟩
    rw [step_call, same] at answered
    split at answered
    · exact key_of_splitAndPersist (Option.some.inj answered)
    · cases answered

theorem intact_none_iff (zero : shardAt disk 0 = none) :
    Intact key disk ↔ ∃ a, shardAt disk 1 = some (splitKey key a 1) ∧
      shardAt disk 2 = some (splitKey key a 2) := by
  rw [Intact, zero]
  simp

theorem intact_some_iff {a : VolatileKey} (zero : shardAt disk 0 = some (splitKey key a 0)) :
    Intact key disk ↔ shardAt disk 1 = some (splitKey key a 1) ∨
      shardAt disk 1 = none ∧ shardAt disk 2 = some (splitKey key a 2) := by
  constructor
  · rintro (⟨b, other, rest⟩ | ⟨none, -⟩)
    · obtain rfl := splitKey_injective (Option.some.inj (zero.symm.trans other))
      exact rest
    · rw [zero] at none
      cases none
  · exact fun rest => Or.inl ⟨a, zero, rest⟩

theorem whole_iff : Whole key disk ↔ ∃ a, shardAt disk 0 = some (splitKey key a 0) ∧
    shardAt disk 1 = some (splitKey key a 1) ∧ shardAt disk 2 = some (splitKey key a 2) := by
  simp only [Whole, Fin.forall_fin_succ, Fin.forall_fin_zero, and_true]
  rfl

theorem intact_lose_iff (intact : Intact key disk) (i : Fin 3) :
    Intact key (Function.update disk i none) ↔ Spares key disk (.lose i) := by
  have others : ∀ j, j ≠ i → shardAt (Function.update disk i none) j = shardAt disk j :=
    fun _ => shardAt_other none
  rw [Spares, whole_iff]
  match i with
  | 0 =>
    rw [intact_none_iff (shardAt_lost 0), others 1 (by decide), others 2 (by decide)]
    constructor
    · rintro ⟨a, one, two⟩
      rcases intact with ⟨b, zero, one' | ⟨none, -⟩⟩ | ⟨none, -⟩
      · obtain rfl := splitKey_injective (Option.some.inj (one.symm.trans one'))
        exact Or.inl ⟨a, zero, one, two⟩
      · rw [one] at none
        cases none
      · exact Or.inr (Or.inl none)
    · rintro (⟨a, -, rest⟩ | none | ⟨two, -⟩)
      · exact ⟨a, rest⟩
      · exact (intact_none_iff none).mp intact
      · cases two
  | 1 =>
    rcases intact with ⟨b, zero, rest⟩ | ⟨none, a, one, two⟩
    · rw [intact_some_iff ((others 0 (by decide)).trans zero), shardAt_lost, others 2 (by decide),
        zero]
      rcases rest with one | ⟨none, two⟩
      · simp only [one]
        constructor
        · rintro (wrong | ⟨-, two⟩)
          · cases wrong
          · exact Or.inl ⟨b, rfl, rfl, two⟩
        · rintro (⟨a, same, -, two⟩ | none | ⟨two, -⟩)
          · obtain rfl := splitKey_injective (Option.some.inj same)
            exact Or.inr ⟨trivial, two⟩
          · cases none
          · cases two
      · exact iff_of_true (Or.inr ⟨rfl, two⟩) (Or.inr (Or.inl none))
    · rw [intact_none_iff ((others 0 (by decide)).trans none), shardAt_lost]
      simp [none, one]
  | 2 =>
    rcases intact with ⟨b, zero, rest⟩ | ⟨none, a, one, two⟩
    · rw [intact_some_iff ((others 0 (by decide)).trans zero), shardAt_lost, others 1 (by decide)]
      rcases rest with one | ⟨none, two⟩
      · exact iff_of_true (Or.inl one) (Or.inr (Or.inr ⟨rfl, by rw [zero]; rfl, by rw [one]; rfl⟩))
      · simp [none, two]
    · rw [intact_none_iff ((others 0 (by decide)).trans none), shardAt_lost]
      simp [none, two]

theorem intact_of_whole (whole : Whole key disk) : Intact key disk := by
  obtain ⟨a, files⟩ := whole
  exact (intact_some_iff (files 0)).mpr (Or.inl (files 1))

/-- What a call does to the files while the first two readable ones belong together. -/
theorem step_of_intact (placed : Placed disk) (intact : Intact key disk) (c : Call) :
    (step disk (.call c)).2 =
      (persist (splitKey key c.coefficients) c.writes defaultProviderDirs disk).2 := by
  have whole := (recovers_iff_intact placed).mpr intact
  obtain ⟨found, again, same⟩ := recoverOrBootstrap_found c (two_found whole)
  obtain rfl := Except.ok.inj (whole.symm.trans again)
  show (recoverOrBootstrap c disk).2 = _
  rw [same, splitAndPersist_disk]

theorem intact_call_iff (placed : Placed disk) (intact : Intact key disk) (c : Call) :
    Intact key (step disk (.call c)).2 ↔ Spares key disk (.call c) := by
  rw [step_of_intact placed intact, defaultProviderDirs, Spares]
  cases first : c.writes 0 with
  | unopened text =>
    simp only [persist, first]
    exact iff_of_true intact trivial
  | torn kept text =>
    simp only [persist, first]
    rw [intact_none_iff (shardAt_torn 0 _ kept), shardAt_other _ (by decide : (1 : Fin 3) ≠ 0),
      shardAt_other _ (by decide : (2 : Fin 3) ≠ 0)]
  | whole =>
    cases second : c.writes 1 with
    | unopened text =>
      simp only [persist, first, second]
      rw [intact_some_iff (shardAt_written 0 _), shardAt_other _ (by decide : (1 : Fin 3) ≠ 0),
        shardAt_other _ (by decide : (2 : Fin 3) ≠ 0)]
    | torn kept text =>
      have zero := (shardAt_other (some ((splitKey key c.coefficients 1).asBytes.take kept))
        (by decide : (0 : Fin 3) ≠ 1)).trans
          (@shardAt_written disk 0 (splitKey key c.coefficients 0))
      simp only [persist, first, second]
      rw [intact_some_iff zero, shardAt_torn, shardAt_other _ (by decide : (2 : Fin 3) ≠ 1),
        shardAt_other _ (by decide : (2 : Fin 3) ≠ 0)]
      simp
    | whole =>
      -- the third write is not read while the first two are there
      refine iff_of_true ?_ trivial
      rw [persist_whole first, persist_whole second]
      refine Or.inl ⟨c.coefficients, ?_, Or.inl ?_⟩
      · rw [shardAt_persist _ _ (by decide : (0 : Fin 3) ∉ [2]),
          shardAt_other _ (by decide : (0 : Fin 3) ≠ 1), shardAt_written]
      · rw [shardAt_persist _ _ (by decide : (1 : Fin 3) ∉ [2]), shardAt_written]

theorem whole_call (placed : Placed disk) (intact : Intact key disk) {c : Call}
    (uncut : ∀ i, c.writes i = .whole) : Whole key (step disk (.call c)).2 := by
  rw [step_of_intact placed intact, defaultProviderDirs, persist_whole (uncut 0),
    persist_whole (uncut 1), persist_whole (uncut 2), persist]
  refine whole_iff.mpr ⟨c.coefficients, ?_, ?_, ?_⟩
  · rw [shardAt_other _ (by decide : (0 : Fin 3) ≠ 2),
      shardAt_other _ (by decide : (0 : Fin 3) ≠ 1), shardAt_written]
  · rw [shardAt_other _ (by decide : (1 : Fin 3) ≠ 2), shardAt_written]
  · rw [shardAt_written]

/-- One call, with the file that is lost before it. -/
def round (lost : Option (Fin 3)) (c : Call) : List Event := (lost.map .lose).toList ++ [.call c]

/-- Calls that are not cut off spare the key, with one file lost before each. -/
theorem spares_uncut (placed : Placed disk) (whole : Whole key disk)
    (rounds : List (Option (Fin 3) × Call)) (uncut : ∀ r ∈ rounds, ∀ i, r.2.writes i = .whole) :
    Mealy.Along step (Spares key) disk (rounds.flatMap fun r => round r.1 r.2) := by
  have spared : ∀ {c : Call} {files : Disk}, (∀ i, c.writes i = .whole) →
      Spares key files (.call c) := by
    intro c files written
    rw [Spares, written 0, written 1]
    trivial
  induction rounds generalizing disk with
  | nil => trivial
  | cons r rounds ih =>
    obtain ⟨lost, c⟩ := r
    have written := uncut (lost, c) List.mem_cons_self
    have later := fun r member => uncut r (List.mem_cons_of_mem _ member)
    cases lost with
    | none =>
      have next := whole_call placed (intact_of_whole whole) written
      exact ⟨spared written, ih (placed_step _ placed) next later⟩
    | some i =>
      have lose : Spares key disk (.lose i) := Or.inl whole
      have intact := (intact_lose_iff (intact_of_whole whole) i).mpr lose
      have next := whole_call (placed_step (.lose i) placed) intact written
      exact ⟨lose, spared written, ih (placed_step _ (placed_step _ placed)) next later⟩

/-- Cut off after its first write, a call leaves a new shard beside two old ones. -/
def cutCall : Call where
  requireTmpfs := false
  mount := .ok ()
  generated := sampleKey
  coefficients := sampleKey
  writes i := if i = 0 then .whole else .unopened "No space left on device (os error 28)"
  survives := false

/-- Whatever the run of calls and losses, at every point of it every call that returns `Ok`
returns the key, if and only if every step of the run spares it. -/
theorem custody_iff_spares (key a : VolatileKey) (events : List Event) :
    (∀ front back, events = front ++ back →
      ∀ c, KeepsKey key (Mealy.final step (holding key a) front) c) ↔
      Mealy.Along step (Spares key) (holding key a) events := by
  have held : Placed (holding key a) ∧ Intact key (holding key a) :=
    ⟨placed_holding key a, intact_of_whole ⟨a, shardAt_holding key a⟩⟩
  have one : ∀ disk event, Placed disk ∧ Intact key disk →
      ((Placed (step disk event).2 ∧ Intact key (step disk event).2) ↔ Spares key disk event) := by
    rintro disk event ⟨placed, intact⟩
    rw [and_iff_right (placed_step event placed)]
    cases event with
    | call c => exact intact_call_iff placed intact c
    | lose i => exact intact_lose_iff intact i
  rw [← Mealy.forall_final_iff_along one held]
  refine forall₃_congr fun front back split => ?_
  have placed := Mealy.final_preserved Placed (fun _ event => placed_step event) held.1 front
  rw [keepsKey_iff_intact placed, and_iff_right placed]

/-- The next call puts the new shard and an old one together. -/
theorem not_custody_cut :
    ∃ kit, Mealy.outputs step (holding sampleKey sampleCoefficients)
        [.call cutCall, .call wholeCall] = [none, some (.ok kit)] ∧ kit.key ≠ sampleKey := by
  have start : Intact sampleKey (holding sampleKey sampleCoefficients) :=
    intact_of_whole ⟨sampleCoefficients, shardAt_holding sampleKey sampleCoefficients⟩
  have placed := placed_holding sampleKey sampleCoefficients
  generalize after : (step (holding sampleKey sampleCoefficients) (.call cutCall)).2 = disk
  have two : 2 ≤ (foundShards disk).length := by
    rw [← after]
    decide +kernel
  obtain ⟨found, whole, same⟩ := recoverOrBootstrap_found wholeCall two
  obtain ⟨kit, answered⟩ := wholeCall_answers found disk
  refine ⟨kit, ?_, fun right => ?_⟩
  · show [none, (step _ _).1] = _
    rw [after, step_call, same, answered]
    rfl
  · have intact : Intact sampleKey disk := by
      rw [← recovers_iff_intact (after ▸ placed_step _ placed), whole, ← right,
        key_of_splitAndPersist answered]
    rw [← after, intact_call_iff placed start] at intact
    rcases intact with one | ⟨none, -⟩
    · rw [shardAt_holding, Option.some.injEq] at one
      exact absurd (splitKey_injective one) (by decide)
    · rw [shardAt_holding] at none
      cases none

end KeyCustody

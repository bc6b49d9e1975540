import AddMessenger.Mealy
import AddMessenger.Signatures

/-!
# Pins in the verifying-key cache

`pin_verifying_key`, `cache_verifying_key` and `get_cached_verifying_key` of
`dht-core/src/crypto_helpers.rs` as calls on one process-wide map. A pin is the binding of
a fingerprint to the first key it was pinned with.
-/

namespace KeyPinning

open Signatures

variable {P : Primitives}

/-- A call of the cache, with the time of the clock. -/
inductive Call (P : Primitives) where
  | pin (fingerprint : String) (vk : P.VerifyingKey) (now : Nat)
  | cache (fingerprint : String) (vk : P.VerifyingKey) (now : Nat)
  | get (fingerprint : String) (now : Nat)

inductive Answer (P : Primitives) where
  | pinned (result : Except String Bool)
  | cached
  | found (vk : Option P.VerifyingKey)

def step (cache : KeyCache P) : Call P → Answer P × KeyCache P
  | .pin fp vk now => ((pinVerifyingKey cache fp vk now).map .pinned id)
  | .cache fp vk now => (.cached, cacheVerifyingKey cache fp vk now)
  | .get fp now => ((getCachedVerifyingKey cache fp now).map .found id)

/-- What a pinned fingerprint has to answer. -/
def Respects (fp : String) (vk : P.VerifyingKey) : Call P → Answer P → Prop
  | .get asked _, answer => asked = fp → answer = .found (some vk)
  | .pin asked key _, answer => asked = fp → key ≠ vk → ∃ error, answer = .pinned (.error error)
  | .cache _ _ _, _ => True

/-- The fingerprint that has to go for a new entry, if the cache is full. -/
def pushedOut (cache : KeyCache P) (key : String) (entry : P.VerifyingKey × Nat) :
    Option String :=
  if certCacheMaxEntries < (cache.insert key entry).entries.length then
    P.firstKey (leastRecent (cache.insert key entry))
  else none

/-- The call neither stores another key for the fingerprint nor makes room by dropping it. -/
def Spares (fp : String) (vk : P.VerifyingKey) (cache : KeyCache P) : Call P → Prop
  | .pin other key now =>
    cachedKey cache other = none →
      pushedOut cache (P.toUppercase other) (key, now) ≠ some (P.toUppercase fp)
  | .cache other key now =>
    (P.toUppercase other = P.toUppercase fp → key = vk) ∧
      pushedOut cache (P.toUppercase other) (key, now) ≠ some (P.toUppercase fp)
  | .get _ _ => True

section

variable {cache : KeyCache P} {fp other : String} {vk key : P.VerifyingKey} {now : Nat}

/-- An entry stays when room is made for a new one, unless it is the one to go. -/
theorem lookup_evict {name : String} {entry : P.VerifyingKey × Nat} :
    (evictOverCapacity (cache.insert name entry)).lookup (P.toUppercase fp) =
      if pushedOut cache name entry = some (P.toUppercase fp) then none
      else (cache.insert name entry).lookup (P.toUppercase fp) := by
  simp only [evictOverCapacity, pushedOut]
  split
  · cases victim : P.firstKey (leastRecent (cache.insert name entry)) with
    | none => simp
    | some lruKey =>
      by_cases same : lruKey = P.toUppercase fp
      · subst same
        simp
      · rw [if_neg fun found => same (Option.some.inj found)]
        exact AList.lookup_erase_ne (Ne.symm same)
  · simp

theorem cachedKey_replace {entry : P.VerifyingKey × Nat}
    (found : cache.lookup (P.toUppercase other) = some entry) :
    cachedKey (cache.replace (P.toUppercase other) (entry.1, now)) fp = cachedKey cache fp := by
  by_cases same : P.toUppercase fp = P.toUppercase other
  · rw [cachedKey, cachedKey, same, lookup_replace found, found, Option.map_some, Option.map_some]
  · simp only [cachedKey, lookup_replace_ne same]

/-- A key is found after another was put in exactly if it was not overwritten by a
different one and did not have to go. -/
theorem cachedKey_insert_iff :
    cachedKey (evictOverCapacity (cache.insert (P.toUppercase other) (key, now))) fp = some vk ↔
      (if P.toUppercase other = P.toUppercase fp then key = vk else cachedKey cache fp = some vk) ∧
        pushedOut cache (P.toUppercase other) (key, now) ≠ some (P.toUppercase fp) := by
  rw [cachedKey, lookup_evict]
  by_cases gone : pushedOut cache (P.toUppercase other) (key, now) = some (P.toUppercase fp)
  · simp [gone]
  · rw [if_neg gone]
    by_cases same : P.toUppercase other = P.toUppercase fp
    · rw [if_pos same, same, AList.lookup_insert]
      simp [same ▸ gone]
    · rw [if_neg same, AList.lookup_insert_ne (Ne.symm same)]
      simp [gone, cachedKey]

/-- A pinned fingerprint stays bound to its key exactly over the calls that spare it. -/
theorem cachedKey_step_iff (call : Call P) (held : cachedKey cache fp = some vk) :
    cachedKey (step cache call).2 fp = some vk ↔ Spares fp vk cache call := by
  cases call with
  | pin other key now =>
    simp only [step, pinVerifyingKey, Spares]
    cases found : cache.lookup (P.toUppercase other) with
    | none =>
      have missing : cachedKey cache other = none := by rw [cachedKey, found, Option.map_none]
      have apart : P.toUppercase other ≠ P.toUppercase fp := by
        intro same
        rw [cachedKey, ← same, found] at held
        cases held
      have inserted := @cachedKey_insert_iff P cache fp other vk key now
      rw [if_neg apart] at inserted
      simpa [missing, held] using inserted
    | some entry =>
      have present : cachedKey cache other ≠ none := by simp [cachedKey, found]
      refine iff_of_true ?_ fun missing => absurd missing present
      by_cases same : entry.1 = key
      · simp only [same, if_true]
        exact same ▸ (cachedKey_replace found).trans held
      · simp only [same, if_false]
        exact held
  | cache other key now =>
    have inserted := @cachedKey_insert_iff P cache fp other vk key now
    simp only [step, cacheVerifyingKey, Spares]
    rw [inserted]
    by_cases same : P.toUppercase other = P.toUppercase fp
    · simp [same]
    · simp [same, held]
  | get other now =>
    refine iff_of_true ?_ trivial
    simp only [step, getCachedVerifyingKey]
    cases found : cache.lookup (P.toUppercase other) with
    | none => exact held
    | some entry => exact (cachedKey_replace found).trans held

/-- A pin that is accepted binds the fingerprint, unless it is the one that has to go. -/
theorem cachedKey_pin_iff (pinned : (pinVerifyingKey cache fp vk now).1 = .ok true) :
    cachedKey (step cache (.pin fp vk now)).2 fp = some vk ↔
      Spares fp vk cache (.pin fp vk now) := by
  cases found : cache.lookup (P.toUppercase fp) with
  | none =>
    have missing : cachedKey cache fp = none := by rw [cachedKey, found, Option.map_none]
    have inserted := @cachedKey_insert_iff P cache fp fp vk vk now
    rw [if_pos rfl] at inserted
    simpa [step, pinVerifyingKey, found, Spares, missing] using inserted
  | some entry =>
    have held : cachedKey cache fp = some vk := by
      by_cases same : entry.1 = vk
      · rw [cachedKey, found, Option.map_some, same]
      · simp [pinVerifyingKey, found, same] at pinned
    exact cachedKey_step_iff _ held

/-- The answers are right for every call at a moment exactly if the key is bound. -/
theorem respects_iff :
    (∀ call, Respects fp vk call (step cache call).1) ↔ cachedKey cache fp = some vk := by
  constructor
  · intro respects
    have asked := respects (.get fp 0) rfl
    have looked : (getCachedVerifyingKey cache fp 0).1 = some vk := Answer.found.inj asked
    rwa [getCachedVerifyingKey_fst] at looked
  · intro held call
    cases call with
    | pin asked key now =>
      rintro rfl different
      obtain ⟨entry, found, first⟩ := Option.map_eq_some_iff.mp held
      have refused : entry.1 ≠ key := fun same => different (same.symm.trans first)
      exact ⟨_, by simp only [step, pinVerifyingKey, found, refused, if_false]; rfl⟩
    | cache asked key now => trivial
    | get asked now =>
      rintro rfl
      exact congrArg Answer.found (getCachedVerifyingKey_fst.trans held)

end

/-- After an accepted pin every later lookup and pin of the fingerprint answers right
exactly if neither the pin nor any later call overwrites the binding with another key or
drops it for want of room. -/
theorem pin_stays_iff (history later : List (Call P)) (fp : String) (vk : P.VerifyingKey)
    (now : Nat)
    (pinned : (pinVerifyingKey (Mealy.final step ∅ history) fp vk now).1 = .ok true) :
    (∀ front back call, later = front ++ back →
        Respects fp vk call
          (step (Mealy.final step ∅ (history ++ .pin fp vk now :: front)) call).1) ↔
      Mealy.Along step (Spares fp vk) (Mealy.final step ∅ history) (.pin fp vk now :: later) := by
  have bound := cachedKey_pin_iff pinned
  have kept : ∀ {cache : KeyCache P}, cachedKey cache fp = some vk → ∀ calls, _ :=
    Mealy.forall_final_iff_along fun cache call => @cachedKey_step_iff P cache fp vk call
  have always : (∀ front back call, later = front ++ back →
      Respects fp vk call
        (step (Mealy.final step ∅ (history ++ .pin fp vk now :: front)) call).1) ↔
      ∀ front back, later = front ++ back →
        cachedKey (Mealy.final step (step (Mealy.final step ∅ history) (.pin fp vk now)).2 front)
          fp = some vk := by
    constructor
    · intro respects front back split
      rw [← respects_iff]
      intro call
      have here := respects front back call split
      rwa [Mealy.final_append] at here
    · intro held front back call split
      rw [Mealy.final_append]
      exact respects_iff.mpr (held front back split) call
  rw [always]
  constructor
  · intro held
    have here := held [] later rfl
    refine ⟨bound.mp here, ?_⟩
    exact (kept here later).mp held
  · rintro ⟨here, spared⟩
    exact (kept (bound.mpr here) later).mpr spared

/-- A fingerprint that is pinned twice with its key is then found with it. -/
theorem pin_stays_twice :
    (pinVerifyingKey (P := sumScheme) ∅ "AB" (1 : UInt8) 0).1 = .ok true ∧
      Respects "AB" (1 : UInt8) (.get "AB" 3) (step (P := sumScheme)
        (Mealy.final step ∅ [.pin "AB" (1 : UInt8) 0, .pin "ab" (1 : UInt8) 1, .get "AB" 2])
        (.get "AB" 3)).1 := by
  refine ⟨rfl, ?_⟩
  have spared : Mealy.Along step (Spares (P := sumScheme) "AB" (1 : UInt8)) (Mealy.final step ∅ [])
      [.pin "AB" (1 : UInt8) 0, .pin "ab" (1 : UInt8) 1, .get "AB" 2] := by
    refine ⟨fun _ => ?_, fun missing => ?_, trivial, trivial⟩
    · decide
    · exact absurd missing (by decide)
  exact (pin_stays_iff (P := sumScheme) [] [.pin "ab" (1 : UInt8) 1, .get "AB" 2] "AB"
    (1 : UInt8) 0 rfl).mpr spared _ [] (.get "AB" 3) rfl

/-- A key that is cached over a pin is what the next lookup finds. -/
theorem cached_over_pin :
    (pinVerifyingKey (P := sumScheme) ∅ "AB" (1 : UInt8) 0).1 = .ok true ∧
      ¬ ∀ front back call, [.cache "ab" (2 : UInt8) 1] = front ++ back →
        Respects "AB" (1 : UInt8) call (step (P := sumScheme)
          (Mealy.final step ∅ ([] ++ .pin "AB" (1 : UInt8) 0 :: front)) call).1 := by
  refine ⟨rfl, ?_⟩
  intro respects
  have asked := respects [.cache "ab" (2 : UInt8) 1] [] (.get "AB" 2) rfl rfl
  have other : some (2 : UInt8) = some 1 := Answer.found.inj asked
  revert other
  decide

end KeyPinning

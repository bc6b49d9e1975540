import AddMessenger.KeySharing

/-!
# Keys from any shards

`reconstruct` in `crypto/src/snapshot_defense.rs` on shards that did not come from one
`split_key`: files and providers answer with 33 bytes of any content, the index included.
-/

namespace KeyReconstruction

open ByteStrings KeySharing Outcomes

/-- `gf_inv` with its `debug_assert!`. -/
def gfInvChecked (a : UInt8) : Outcome SnapError UInt8 :=
  if a = 0 then .panicked else .ok (gfInv a)

def gfDivChecked (a b : UInt8) : Outcome SnapError UInt8 := do
  let inverse ← gfInvChecked b
  return gfMul a inverse

def reconstructChecked (shards : List Shard) : Outcome SnapError VolatileKey :=
  match shards with
  | a :: b :: _ => do
    let denom := a.x ^^^ b.x
    let lambdaA ← gfDivChecked b.x denom
    let lambdaB ← gfDivChecked a.x denom
    return ⟨List.zipWith (fun ya yb => gfMul ya lambdaA ^^^ gfMul yb lambdaB) a.y b.y, by
      rw [List.length_zipWith, length_y, length_y, Nat.min_self]⟩
  | _ => .error (.insufficientShards shards.length)

/-- The shards are on the lines with these values at zero and these slopes. -/
def OnLines (key slopes : VolatileKey) (s t : Shard) : Prop :=
  s.y = List.zipWith (shardByte s.x) key.val slopes.val ∧
    t.y = List.zipWith (shardByte t.x) key.val slopes.val

/-- The key is the value at zero of the one line through two points, byte by byte. -/
def AtZero (s t : Shard) (key : VolatileKey) : Prop :=
  ∃ slopes, OnLines key slopes s t ∧
    ∀ key' slopes', OnLines key' slopes' s t → key' = key ∧ slopes' = slopes

/-- Other values under the same indices give another result. -/
def DependsOnValues (shards : List Shard) : Prop :=
  ∃ others, others.map Shard.x = shards.map Shard.x ∧ reconstruct others ≠ reconstruct shards

/-- An error, or the value at zero of the line through two of the shards, which depends on their
values and is found without a division by zero. -/
def NeverInvents (shards : List Shard) : Prop :=
  (∃ e, reconstruct shards = .error e) ∨
    ∃ key, reconstruct shards = .ok key ∧
      (∃ s ∈ shards, ∃ t ∈ shards, s.x ≠ t.x ∧ AtZero s t key) ∧
      DependsOnValues shards ∧ reconstructChecked shards = .ok key

def slopeByte (xa xb ya yb : UInt8) : UInt8 := gfDiv (ya ^^^ yb) (xa ^^^ xb)

theorem shardBytes_iff {xa xb ya yb secret a : UInt8} (distinct : xa ≠ xb) :
    shardByte xa secret a = ya ∧ shardByte xb secret a = yb ↔
      secret = secretByte xa xb ya yb ∧ a = slopeByte xa xb ya yb := by
  have apart : (⟨xa⟩ : Gf) ≠ ⟨xb⟩ := fun same => distinct (congrArg Gf.byte same)
  have line := @LineSharing.through_iff Gf _ ⟨secret⟩ ⟨a⟩ ⟨xa⟩ ⟨xb⟩ ⟨ya⟩ ⟨yb⟩ apart
  rw [Gf.ext_iff, Gf.ext_iff, Gf.ext_iff, Gf.ext_iff, ← secretByte_eq_atZero, Gf.div_byte,
    Gf.sub_byte, Gf.sub_byte] at line
  exact line

/-- Two sequences made from two others, which are made back from them. -/
theorem zipWith_pair_iff {make make' back back' : UInt8 → UInt8 → UInt8}
    (one : ∀ y z s a, make s a = y ∧ make' s a = z ↔ s = back y z ∧ a = back' y z)
    {ys zs secret coeffs : Bytes} (sameZs : zs.length = ys.length)
    (sameSecret : secret.length = ys.length) (sameCoeffs : coeffs.length = ys.length) :
    ys = List.zipWith make secret coeffs ∧ zs = List.zipWith make' secret coeffs ↔
      secret = List.zipWith back ys zs ∧ coeffs = List.zipWith back' ys zs := by
  induction ys generalizing zs secret coeffs with
  | nil =>
    obtain rfl := List.length_eq_zero_iff.mp sameZs
    obtain rfl := List.length_eq_zero_iff.mp sameSecret
    obtain rfl := List.length_eq_zero_iff.mp sameCoeffs
    simp
  | cons y ys ih =>
    obtain ⟨z, zs, rfl⟩ := List.exists_cons_of_length_eq_add_one sameZs
    obtain ⟨s, secret, rfl⟩ := List.exists_cons_of_length_eq_add_one sameSecret
    obtain ⟨a, coeffs, rfl⟩ := List.exists_cons_of_length_eq_add_one sameCoeffs
    have rest := ih (Nat.succ.inj sameZs) (Nat.succ.inj sameSecret) (Nat.succ.inj sameCoeffs)
    have here := one y z s a
    simp only [List.zipWith_cons_cons, List.cons.injEq]
    constructor
    · rintro ⟨⟨first, firsts⟩, second, seconds⟩
      have heads := here.mp ⟨first.symm, second.symm⟩
      have tails := rest.mp ⟨firsts, seconds⟩
      exact ⟨⟨heads.1, tails.1⟩, heads.2, tails.2⟩
    · rintro ⟨⟨first, firsts⟩, second, seconds⟩
      have heads := here.mpr ⟨first, second⟩
      have tails := rest.mpr ⟨firsts, seconds⟩
      exact ⟨⟨heads.1.symm, tails.1⟩, heads.2.symm, tails.2⟩

section

variable {s t : Shard} {key slopes : VolatileKey}

theorem onLines_iff (distinct : s.x ≠ t.x) :
    OnLines key slopes s t ↔ key.val = List.zipWith (secretByte s.x t.x) s.y t.y ∧
      slopes.val = List.zipWith (slopeByte s.x t.x) s.y t.y :=
  zipWith_pair_iff (fun _ _ _ _ => shardBytes_iff distinct) (by rw [length_y, length_y])
    (by rw [key.property, length_y]) (by rw [slopes.property, length_y])

theorem reconstruct_eq_ok_iff (rest : List Shard) :
    reconstruct (s :: t :: rest) = .ok key ↔
      key.val = List.zipWith (secretByte s.x t.x) s.y t.y := by
  rw [reconstruct, Except.ok.injEq, Subtype.ext_iff]
  exact eq_comm

/-- The first two shards give the value at zero of their line. -/
theorem reconstruct_atZero (distinct : s.x ≠ t.x) (rest : List Shard) :
    ∃ key, reconstruct (s :: t :: rest) = .ok key ∧ AtZero s t key := by
  have sized : ∀ f : UInt8 → UInt8 → UInt8, (List.zipWith f s.y t.y).length = keyLen := by
    intro f
    rw [List.length_zipWith, length_y, length_y, Nat.min_self]
  refine ⟨⟨_, sized (secretByte s.x t.x)⟩, (reconstruct_eq_ok_iff rest).mpr rfl,
    ⟨_, sized (slopeByte s.x t.x)⟩, (onLines_iff distinct).mpr ⟨rfl, rfl⟩, ?_⟩
  intro key' slopes' lines
  obtain ⟨keys, slopes⟩ := (onLines_iff distinct).mp lines
  exact ⟨Subtype.ext keys, Subtype.ext slopes⟩

theorem reconstruct_of_onLines (distinct : s.x ≠ t.x) (lines : OnLines key slopes s t)
    (rest : List Shard) : reconstruct (s :: t :: rest) = .ok key :=
  (reconstruct_eq_ok_iff rest).mpr ((onLines_iff distinct).mp lines).1

/-- Shards with given indices on given lines. -/
theorem exists_onLines (xs xt : UInt8) (key slopes : VolatileKey) :
    ∃ s t : Shard, s.x = xs ∧ t.x = xt ∧ OnLines key slopes s t := by
  have sized : ∀ x, (List.zipWith (shardByte x) key.val slopes.val).length = keyLen := by
    intro x
    rw [List.length_zipWith, key.property, slopes.property, Nat.min_self]
  exact ⟨Shard.new xs ⟨_, sized xs⟩, Shard.new xt ⟨_, sized xt⟩, rfl, rfl, rfl, rfl⟩

theorem exists_other_key (key : VolatileKey) : ∃ other : VolatileKey, other ≠ key := by
  obtain ⟨_ | ⟨first, rest⟩, sized⟩ := key
  · cases sized
  · refine ⟨⟨(first ^^^ 1) :: rest, sized⟩, fun same => ?_⟩
    have heads : first ^^^ 1 = first := (List.cons.inj (congrArg Subtype.val same)).1
    have zero : first ^^^ 1 ^^^ first = 1 := by
      rw [UInt8.xor_comm first, UInt8.xor_assoc, UInt8.xor_self, UInt8.xor_zero]
    rw [heads, UInt8.xor_self] at zero
    cases zero

theorem dependsOnValues (distinct : s.x ≠ t.x) (rest : List Shard) :
    DependsOnValues (s :: t :: rest) := by
  obtain ⟨key, found, slopes, -⟩ := reconstruct_atZero distinct rest
  obtain ⟨other, differs⟩ := exists_other_key key
  obtain ⟨s', t', sx, tx, lines⟩ := exists_onLines s.x t.x other slopes
  have apart : s'.x ≠ t'.x := by rwa [sx, tx]
  refine ⟨s' :: t' :: rest, by simp only [List.map_cons, sx, tx], ?_⟩
  rw [reconstruct_of_onLines apart lines, found]
  exact fun same => differs (Except.ok.inj same)

theorem xor_ne_zero {a b : UInt8} (distinct : a ≠ b) : a ^^^ b ≠ 0 := by
  rwa [Ne, UInt8.xor_eq_zero_iff]

theorem reconstructChecked_distinct (distinct : s.x ≠ t.x) (rest : List Shard)
    (found : reconstruct (s :: t :: rest) = .ok key) :
    reconstructChecked (s :: t :: rest) = .ok key := by
  rw [← Except.ok.inj found]
  simp only [reconstructChecked, gfDivChecked, gfInvChecked, if_neg (xor_ne_zero distinct),
    Outcome.ok_bind, Outcome.pure_eq]
  rfl

end

theorem length_zeros : (List.replicate keyLen (0 : UInt8)).length = keyLen := List.length_replicate

def zeroKey : VolatileKey := ⟨List.replicate keyLen 0, length_zeros⟩

theorem secretByte_same (x ya yb : UInt8) : secretByte x x ya yb = 0 := by
  have none : gfDiv x 0 = 0 := by rw [gfDiv, gfInv_zero, gfMul_zero]
  rw [secretByte, UInt8.xor_self, none, gfMul_zero, gfMul_zero, UInt8.xor_self]

/-- The key is zero, whatever the values are. -/
theorem reconstruct_same {s t : Shard} (same : s.x = t.x) (rest : List Shard) :
    reconstruct (s :: t :: rest) = .ok zeroKey := by
  refine (reconstruct_eq_ok_iff rest).mpr ?_
  rw [same]
  refine (List.eq_replicate_iff.mpr ⟨?_, fun b member => ?_⟩).symm
  · rw [List.length_zipWith, length_y, length_y, Nat.min_self]
  · rw [List.zipWith_eq_zipWith_take_min, List.mem_iff_getElem] at member
    obtain ⟨i, bound, rfl⟩ := member
    rw [List.getElem_zipWith, secretByte_same]

theorem not_dependsOnValues {s t : Shard} (same : s.x = t.x) (rest : List Shard) :
    ¬ DependsOnValues (s :: t :: rest) := by
  rintro ⟨others, indices, differs⟩
  obtain _ | ⟨s', _ | ⟨t', rest'⟩⟩ := others
  · cases indices
  · simp at indices
  · simp only [List.map_cons, List.cons.injEq] at indices
    have same' : s'.x = t'.x := by rw [indices.1, indices.2.1, same]
    rw [reconstruct_same same', reconstruct_same same] at differs
    exact differs rfl

/-- The build with assertions panics, and the one without returns a key that depends on
nothing. -/
theorem not_neverInvents {s t : Shard} (same : s.x = t.x) (rest : List Shard) :
    ¬ NeverInvents (s :: t :: rest) := by
  rintro (⟨e, failed⟩ | ⟨key, -, -, depends, -⟩)
  · rw [reconstruct_same same] at failed
    cases failed
  · exact not_dependsOnValues same rest depends

/-- No key is invented exactly if the first two shards, where there are two, have different
indices. -/
theorem neverInvents_iff (shards : List Shard) :
    NeverInvents shards ↔ ∀ s t rest, shards = s :: t :: rest → s.x ≠ t.x := by
  constructor
  · rintro sound s t rest rfl same
    exact not_neverInvents same rest sound
  · intro distinct
    match shards, distinct with
    | [], _ => exact .inl ⟨_, rfl⟩
    | [_], _ => exact .inl ⟨_, rfl⟩
    | s :: t :: rest, distinct =>
      have apart := distinct s t rest rfl
      obtain ⟨key, found, onLine⟩ := reconstruct_atZero apart rest
      exact .inr ⟨key, found, ⟨s, List.mem_cons_self, t,
        List.mem_cons_of_mem s List.mem_cons_self, apart, onLine⟩, dependsOnValues apart rest,
        reconstructChecked_distinct apart rest found⟩

/-- Two answers under the index 1, and a third one that would do with either of them. -/
theorem same_index_invents_key :
    reconstruct [Shard.new 1 sampleKey, Shard.new 1 sampleCoefficients, Shard.new 2 sampleKey] =
        .ok zeroKey ∧
      ¬ NeverInvents
        [Shard.new 1 sampleKey, Shard.new 1 sampleCoefficients, Shard.new 2 sampleKey] :=
  ⟨@reconstruct_same (Shard.new 1 sampleKey) (Shard.new 1 sampleCoefficients) rfl _,
    @not_neverInvents (Shard.new 1 sampleKey) (Shard.new 1 sampleCoefficients) rfl _⟩

end KeyReconstruction

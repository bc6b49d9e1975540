import AddMessenger.ByteXor
import AddMessenger.RelayServer

/-!
# The comparison of tags

`verify_hmac` of `relay/src/main.rs` collects the differences of all bytes, the shorter text
continued with zeros, and then the lengths, each cut to one byte. A tag has no zero byte, so
what it takes besides the tag itself is the tag with 256 zero bytes behind it, or 512, and so
on.
-/

namespace RelayServer

open ByteStrings ByteXor
open RelayMailbox (computeHmac)

variable (cfg : ServerConfig)

/-- So many NUL characters. -/
def nuls (n : Nat) : String := String.ofList (List.replicate n '\x00')

theorem asBytes_nuls (n : Nat) : asBytes (nuls n) = List.replicate n 0 := by
  have ascii : ∀ c ∈ List.replicate n '\x00', c.toNat ≤ 127 := by
    intro c member
    rw [List.eq_of_mem_replicate member]
    decide
  rw [nuls, asBytes_ascii ascii, List.map_replicate]
  rfl

theorem append_nuls_inj {text : String} {n m : Nat} :
    text ++ nuls n = text ++ nuls m ↔ n = m := by
  constructor
  · intro same
    have lengths := congrArg (fun t => (asBytes t).length) same
    simpa only [asBytes_append, List.length_append, asBytes_nuls, List.length_replicate,
      Nat.add_left_cancel_iff] using lengths
  · rintro rfl
    rfl

/-- The digits of a tag are no NUL. -/
theorem zero_notMem_tag (data secret : String) :
    0 ∉ asBytes (computeHmac cfg.mail data secret) := by
  have digits : ∀ c ∈ (computeHmac cfg.mail data secret).toList,
      48 ≤ c.toNat ∧ c.toNat ≤ 102 :=
    fun c member => hexValue_bounds (hexValue_of_mem member)
  rw [← String.ofList_toList (s := computeHmac cfg.mail data secret),
    asBytes_ascii fun c member => (digits c member).2.trans (by decide)]
  intro zero
  obtain ⟨c, member, same⟩ := List.mem_map.mp zero
  have range := digits c member
  have value := congrArg UInt8.toNat same
  rw [UInt8.toNat_ofNat', Nat.mod_eq_of_lt (by omega), UInt8.toNat_zero] at value
  omega

/-- The truncated lengths are equal where the lengths differ by a multiple of 256. -/
theorem truncated_eq_iff (n m : Nat) :
    UInt8.ofNat n = UInt8.ofNat (n + m) ↔ ∃ k, m = 256 * k := by
  rw [← UInt8.toNat_inj, UInt8.toNat_ofNat', UInt8.toNat_ofNat']
  constructor
  · intro same
    exact ⟨m / 256, by omega⟩
  · rintro ⟨k, rfl⟩
    omega

/-- What is accepted is the tag with a multiple of 256 NUL characters behind it. -/
theorem verifyHmac_iff (data p secret : String) :
    verifyHmac cfg data p secret = true ↔
      ∃ k, p = computeHmac cfg.mail data secret ++ nuls (256 * k) := by
  have places : verifyHmac cfg data p secret = true ↔
      (∀ i < max (asBytes (computeHmac cfg.mail data secret)).length (asBytes p).length,
        (asBytes (computeHmac cfg.mail data secret)).getD i 0 = (asBytes p).getD i 0) ∧
      UInt8.ofNat (asBytes (computeHmac cfg.mail data secret)).length =
        UInt8.ofNat (asBytes p).length := by
    rw [verifyHmac, beq_iff_eq, UInt8.or_eq_zero_iff, foldl_or_eq_zero_iff]
    simp only [true_and, List.mem_range, UInt8.xor_eq_zero_iff]
  rw [places, getD_agree_iff (zero_notMem_tag cfg data secret)]
  constructor
  · rintro ⟨⟨n, longer⟩, lengths⟩
    rw [longer, List.length_append, List.length_replicate] at lengths
    obtain ⟨k, rfl⟩ := (truncated_eq_iff _ n).mp lengths
    refine ⟨k, asBytes_injective ?_⟩
    rw [longer, asBytes_append, asBytes_nuls]
  · rintro ⟨k, rfl⟩
    refine ⟨⟨256 * k, by rw [asBytes_append, asBytes_nuls]⟩, ?_⟩
    rw [asBytes_append, asBytes_nuls, List.length_append, List.length_replicate]
    exact (truncated_eq_iff _ _).mpr ⟨k, rfl⟩

/-- The comparison decides equality except for a tag that NUL characters continue to a length
the truncation does not see. -/
theorem verifyHmac_decides_iff (data p secret : String) :
    (verifyHmac cfg data p secret = true ↔ p = computeHmac cfg.mail data secret) ↔
      ∀ k, 0 < k → p ≠ computeHmac cfg.mail data secret ++ nuls (256 * k) := by
  have plain : ∀ text : String, text ++ nuls 0 = text := fun text => String.append_empty
  constructor
  · rintro decides k pos rfl
    have same := decides.mp ((verifyHmac_iff cfg data _ secret).mpr ⟨k, rfl⟩)
    have zero := append_nuls_inj.mp (same.trans (plain _).symm)
    omega
  · intro apart
    rw [verifyHmac_iff]
    constructor
    · rintro ⟨k, same⟩
      cases k with
      | zero => rw [same, Nat.mul_zero, plain]
      | succ k => exact absurd same (apart (k + 1) (by omega))
    · rintro rfl
      exact ⟨0, (plain _).symm⟩

/-- 256 NUL characters behind the right tag are not noticed. -/
theorem not_verifyHmac_decides_small :
    ¬ ∀ data secret p, verifyHmac (smallConfig (some "secret")) data p secret = true ↔
      p = computeHmac (smallConfig (some "secret")).mail data secret := by
  intro decides
  have accepted := (verifyHmac_iff (smallConfig (some "secret")) "data" _ "secret").mpr ⟨1, rfl⟩
  have same := (decides _ _ _).mp accepted
  have zero := append_nuls_inj.mp (same.trans String.append_empty.symm : _ = _ ++ nuls 0)
  omega

end RelayServer

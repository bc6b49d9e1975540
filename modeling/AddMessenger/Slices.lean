import Mathlib.Data.List.Basic
import Mathlib.Data.List.Perm.Basic
import Mathlib.Data.Nat.Init
import Mathlib.Tactic.Ring

/-!
# Slices of a sequence

The slice operations of a byte-oriented program on lists: cutting a sequence
into blocks of one size and writing a slice in place. The blocks of a sequence
written back at their own offsets restore it in whatever order they come.
-/

namespace Slices

universe u

variable {α : Type u}

/-- The number of blocks of a sequence of length `n`, the last one possibly short. -/
def blockCount (size n : Nat) : Nat := (n + size - 1) / size

/-- The `i`-th block of `size` elements. -/
def block (size : Nat) (l : List α) (i : Nat) : List α := (l.drop (size * i)).take size

/-- Consecutive blocks of `size` elements, the last one possibly shorter. -/
def chunks (size : Nat) (l : List α) : List (List α) :=
  (List.range (blockCount size l.length)).map (block size l)

/-- Write `src` over the elements that start at `start`. -/
def overwrite (l : List α) (start : Nat) (src : List α) : List α :=
  l.take start ++ src ++ l.drop (start + src.length)

theorem block_length (size : Nat) (l : List α) (i : Nat) :
    (block size l i).length = min size (l.length - size * i) := by
  simp only [block, List.length_take, List.length_drop]

theorem block_getElem? (size : Nat) (l : List α) (i j : Nat) (inside : j < size) :
    (block size l i)[j]? = l[size * i + j]? := by
  simp only [block, List.getElem?_take, if_pos inside, List.getElem?_drop]

theorem lt_blockCount {size n j : Nat} (pos : 0 < size) (below : j < n) :
    j / size < blockCount size n := by
  rw [blockCount, Nat.div_lt_iff_lt_mul pos]
  have round := Nat.lt_div_mul_add (a := n + size - 1) pos
  omega

theorem mul_lt_of_lt_blockCount {size n i : Nat} (pos : 0 < size)
    (below : i < blockCount size n) : size * i < n := by
  rw [blockCount, Nat.lt_iff_add_one_le, Nat.le_div_iff_mul_le pos] at below
  have expand : (i + 1) * size = size * i + size := by ring
  omega

theorem overwrite_length (l : List α) (start : Nat) (src : List α)
    (fits : start + src.length ≤ l.length) : (overwrite l start src).length = l.length := by
  simp only [overwrite, List.length_append, List.length_take, List.length_drop]
  omega

theorem overwrite_getElem? (l : List α) (start : Nat) (src : List α)
    (fits : start + src.length ≤ l.length) (j : Nat) :
    (overwrite l start src)[j]? =
      if start ≤ j ∧ j < start + src.length then src[j - start]? else l[j]? := by
  have front : (l.take start).length = start := by simp; omega
  rw [overwrite, List.append_assoc]
  by_cases before : j < start
  · rw [List.getElem?_append_left (by omega), List.getElem?_take, if_pos before,
      if_neg (by omega)]
  · rw [List.getElem?_append_right (by omega), front]
    by_cases within : j < start + src.length
    · rw [List.getElem?_append_left (by omega), if_pos ⟨by omega, within⟩]
    · rw [List.getElem?_append_right (by omega), if_neg (by omega), List.getElem?_drop]
      congr 1
      omega

/-- Write the blocks of `l` with the given numbers at their own offsets. -/
def placeBlocks (size : Nat) (l : List α) (acc : List α) (ids : List Nat) : List α :=
  ids.foldl (fun acc i => overwrite acc (size * i) (block size l i)) acc

/-- After the blocks in `ids` are written, exactly their positions agree with `l`. -/
theorem placeBlocks_getElem? {size : Nat} (pos : 0 < size) (l acc : List α)
    (same : acc.length = l.length) (ids : List Nat)
    (bounded : ∀ i ∈ ids, i < blockCount size l.length) (j : Nat) :
    (placeBlocks size l acc ids)[j]? = if j / size ∈ ids then l[j]? else acc[j]? := by
  induction ids generalizing acc with
  | nil => simp [placeBlocks]
  | cons i rest ih =>
    have start := mul_lt_of_lt_blockCount pos (bounded i List.mem_cons_self)
    have len := block_length size l i
    have fits : size * i + (block size l i).length ≤ acc.length := by omega
    have tail := ih (overwrite acc (size * i) (block size l i))
      ((overwrite_length acc _ _ fits).trans same)
      (fun k hk => bounded k (List.mem_cons_of_mem i hk))
    change (placeBlocks size l (overwrite acc (size * i) (block size l i)) rest)[j]? = _
    rw [tail, overwrite_getElem? acc _ _ fits]
    by_cases later : j / size ∈ rest
    · simp [later]
    · by_cases here : j / size = i
      · -- The written window is the part of block `i` that lies inside `l`.
        have split := Nat.div_add_mod j size
        have small := Nat.mod_lt j pos
        rw [here] at split
        by_cases inside : j < l.length
        · rw [if_neg later, if_pos (by omega), if_pos (by simp [here]),
            block_getElem? size l i _ (by omega)]
          congr 1
          omega
        · rw [if_neg later, if_neg (by omega), if_pos (by simp [here]),
            List.getElem?_eq_none (by omega), List.getElem?_eq_none (by omega)]
      · have outside : ¬ (size * i ≤ j ∧ j < size * i + (block size l i).length) := by
          rintro ⟨low, high⟩
          apply here
          rw [Nat.div_eq_iff pos]
          have comm := Nat.mul_comm size i
          omega
        rw [if_neg later, if_neg outside, if_neg (by simp [here, later])]

/-- Blocks restore the sequence in any order of arrival. -/
theorem placeBlocks_perm {size : Nat} (pos : 0 < size) (l acc : List α)
    (same : acc.length = l.length) {ids : List Nat}
    (order : ids.Perm (List.range (blockCount size l.length))) :
    placeBlocks size l acc ids = l := by
  have bounded : ∀ i ∈ ids, i < blockCount size l.length :=
    fun i hi => List.mem_range.mp (order.mem_iff.mp hi)
  apply List.ext_getElem?
  intro j
  rw [placeBlocks_getElem? pos l acc same ids bounded j]
  by_cases inside : j < l.length
  · have covered : j / size ∈ ids :=
      order.mem_iff.mpr (List.mem_range.mpr (lt_blockCount pos inside))
    rw [if_pos covered]
  · rw [List.getElem?_eq_none (l := l) (by omega), List.getElem?_eq_none (by omega), ite_self]

end Slices

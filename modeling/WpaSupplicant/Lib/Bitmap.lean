import Mathlib.Data.BitVec
import Mathlib.Data.List.Basic
import Mathlib.Logic.Function.Basic

namespace WpaSupplicant.Lib.Bitmap

-- A set of numbers as the bits of words of 32 bits
abbrev Words := ℕ → BitVec 32

def bit (w : Words) (n : ℕ) : Bool := (w (n / 32)).getLsbD (n % 32)

def setBit (w : Words) (n : ℕ) : Words :=
  Function.update w (n / 32) (w (n / 32) ||| (1#32 <<< (n % 32)))

def clearBit (w : Words) (n : ℕ) : Words :=
  Function.update w (n / 32) (w (n / 32) &&& ~~~(1#32 <<< (n % 32)))

def firstClear (words : ℕ) (w : Words) : Option ℕ :=
  (List.range words).findSome? fun i =>
    if w i = BitVec.allOnes 32 then none
    else ((List.range 32).find? fun j => !(w i).getLsbD j).map fun j => 32 * i + j

theorem getLsbD_one_shiftLeft (i j : ℕ) (hi : i < 32) :
    (1#32 <<< j).getLsbD i = decide (i = j) := by
  simp only [BitVec.getLsbD_shiftLeft, BitVec.getLsbD_one]
  by_cases hij : i = j
  · subst hij
    simp [hi]
  simp only [hij, decide_false, hi, decide_true, Bool.true_and]
  by_cases hlt : i < j
  · simp [hlt]
  · have hne : i - j ≠ 0 := by omega
    simp [hne]

theorem bit_setBit (w : Words) (m n : ℕ) : bit (setBit w m) n = (decide (n = m) || bit w n) := by
  simp only [bit, setBit]
  have hmod : n % 32 < 32 := Nat.mod_lt _ (by decide)
  by_cases hword : n / 32 = m / 32
  · rw [hword, Function.update_self, BitVec.getLsbD_or, getLsbD_one_shiftLeft _ _ hmod,
      Bool.or_comm]
    have hiff : n % 32 = m % 32 ↔ n = m := by omega
    simp only [hiff]
  · rw [Function.update_of_ne hword]
    have hne : n ≠ m := fun h => hword (h ▸ rfl)
    simp [hne]

theorem bit_clearBit (w : Words) (m n : ℕ) :
    bit (clearBit w m) n = (!decide (n = m) && bit w n) := by
  simp only [bit, clearBit]
  have hmod : n % 32 < 32 := Nat.mod_lt _ (by decide)
  by_cases hword : n / 32 = m / 32
  · rw [hword, Function.update_self, BitVec.getLsbD_and, BitVec.getLsbD_not,
      getLsbD_one_shiftLeft _ _ hmod, Bool.and_comm]
    have hiff : n % 32 = m % 32 ↔ n = m := by omega
    simp only [hiff, hmod, decide_true, Bool.true_and]
  · rw [Function.update_of_ne hword]
    have hne : n ≠ m := fun h => hword (h ▸ rfl)
    simp [hne]

theorem firstClear_spec {words n : ℕ} {w : Words} (h : firstClear words w = some n) :
    n < 32 * words ∧ bit w n = false := by
  obtain ⟨i, hi, hsome⟩ := List.exists_of_findSome?_eq_some h
  split at hsome
  · cases hsome
  obtain ⟨j, hj, rfl⟩ := Option.map_eq_some_iff.mp hsome
  have hj' : j < 32 := List.mem_range.mp (List.mem_of_find?_eq_some hj)
  have hclear : (w i).getLsbD j = false := by simpa using List.find?_some hj
  have hi' : i < words := List.mem_range.mp hi
  refine ⟨by omega, ?_⟩
  have hdiv : (32 * i + j) / 32 = i := by omega
  have hrem : (32 * i + j) % 32 = j := by omega
  rw [bit, hdiv, hrem]
  exact hclear

end WpaSupplicant.Lib.Bitmap

import Mathlib.Data.List.Nodup
import Mathlib.Data.List.Pairwise
import Mathlib.Data.List.TakeWhile
import Mathlib.Order.Lattice
import Mathlib.Tactic.Common

namespace WpaSupplicant.Lib.SortedList

variable {α κ : Type*} [LinearOrder κ] (key : α → κ)

def SortedBy (l : List α) : Prop := l.Pairwise fun a b => key a ≤ key b

-- Insertion in front of the first entry with a larger key: behind the entries with the same key
def insertBy (a : α) : List α → List α
  | [] => [a]
  | b :: l => if key a < key b then a :: b :: l else b :: insertBy a l

theorem insertBy_split (a : α) (l : List α) :
    ∃ l₁ l₂, l = l₁ ++ l₂ ∧ insertBy key a l = l₁ ++ a :: l₂ ∧ (∀ b ∈ l₁, key b ≤ key a) ∧
      ∀ b ∈ l₂.head?, key a < key b := by
  induction l with
  | nil => exact ⟨[], [], rfl, rfl, by simp, by simp⟩
  | cons b l ih =>
    rw [insertBy]
    by_cases hab : key a < key b
    · rw [if_pos hab]
      exact ⟨[], b :: l, rfl, rfl, by simp, by simpa using hab⟩
    obtain ⟨l₁, l₂, hl, hins, hle, hlt⟩ := ih
    rw [if_neg hab, hins, hl]
    refine ⟨b :: l₁, l₂, rfl, rfl, ?_, hlt⟩
    intro x hx
    rcases List.mem_cons.mp hx with rfl | hx
    · exact not_lt.mp hab
    · exact hle x hx

theorem insertBy_perm (a : α) (l : List α) : (insertBy key a l).Perm (a :: l) := by
  obtain ⟨l₁, l₂, hl, hins, -⟩ := insertBy_split key a l
  rw [hins, hl]
  exact List.perm_middle

variable {key}

variable {l : List α}

theorem SortedBy.of_sublist {l' : List α} (h : SortedBy key l) (hsub : l'.Sublist l) : SortedBy key l' :=
  List.Pairwise.sublist hsub h

theorem SortedBy.insertBy_split (h : SortedBy key l) (a : α) :
    ∃ l₁ l₂, l = l₁ ++ l₂ ∧ insertBy key a l = l₁ ++ a :: l₂ ∧ (∀ b ∈ l₁, key b ≤ key a) ∧
      ∀ b ∈ l₂, key a < key b := by
  obtain ⟨l₁, l₂, rfl, hins, hle, hlt⟩ := SortedList.insertBy_split key a l
  refine ⟨l₁, l₂, rfl, hins, hle, ?_⟩
  cases l₂ with
  | nil => simp
  | cons c l₂ =>
    have hac : key a < key c := hlt c (by simp)
    have hrest : ∀ b ∈ l₂, key c ≤ key b :=
      (List.pairwise_cons.mp (List.pairwise_append.mp h).2.1).1
    intro b hb
    rcases List.mem_cons.mp hb with rfl | hb
    · exact hac
    · exact lt_of_lt_of_le hac (hrest b hb)

-- An entry may stand wherever nothing in front is larger and nothing behind is smaller.
theorem SortedBy.middle {l₁ l₂ : List α} {a : α} (h : SortedBy key (l₁ ++ l₂))
    (hle : ∀ b ∈ l₁, key b ≤ key a) (hge : ∀ b ∈ l₂, key a ≤ key b) :
    SortedBy key (l₁ ++ a :: l₂) := by
  obtain ⟨h₁, h₂, h₁₂⟩ := List.pairwise_append.mp h
  refine List.pairwise_append.mpr ⟨h₁, List.pairwise_cons.mpr ⟨hge, h₂⟩, ?_⟩
  intro b hb c hc
  rcases List.mem_cons.mp hc with rfl | hc
  · exact hle b hb
  · exact h₁₂ b hb c hc

theorem SortedBy.insertBy (h : SortedBy key l) (a : α) : SortedBy key (insertBy key a l) := by
  obtain ⟨l₁, l₂, rfl, hins, hle, hlt⟩ := h.insertBy_split a
  rw [hins]
  exact h.middle hle fun b hb => (hlt b hb).le

-- Looking at the head of a sorted list only is enough to drop everything up to a bound.
theorem SortedBy.lt_of_mem_dropWhile (h : SortedBy key l) (t : κ) :
    ∀ b ∈ l.dropWhile (fun b => key b ≤ t), t < key b := by
  induction l with
  | nil => simp
  | cons a l ih =>
    obtain ⟨ha, hl⟩ := List.pairwise_cons.mp h
    by_cases hat : key a ≤ t
    · simpa [List.dropWhile_cons, hat] using ih hl
    intro b hb
    simp only [List.dropWhile_cons, hat, decide_false, Bool.false_eq_true, if_false] at hb
    rcases List.mem_cons.mp hb with rfl | hb
    · exact not_le.mp hat
    · exact lt_of_lt_of_le (not_le.mp hat) (ha b hb)

-- A search that stops at the first item that does not pass finds all that are wanted, when none is behind that item.
theorem takeWhile_finds {pass : α → Bool} (wanted : α → Bool) {l : List α} (hnodup : l.Nodup)
    (hwanted : ∀ a ∈ l, wanted a = true → pass a = true) :
    (∀ a ∈ l, wanted a = true → a ∈ l.takeWhile pass) ↔
      l.Pairwise fun a b => pass a = false → wanted b = false := by
  induction l with
  | nil => simp
  | cons a l ih =>
    obtain ⟨ha, hl⟩ := List.nodup_cons.mp hnodup
    have hih := ih hl fun b hb => hwanted b (List.mem_cons_of_mem a hb)
    rw [List.pairwise_cons, ← hih]
    by_cases hpass : pass a = true
    · rw [List.takeWhile_cons_of_pos hpass]
      constructor
      · intro h
        refine ⟨fun b _ hstop => absurd hpass (Bool.eq_false_iff.mp hstop), fun b hb hwant => ?_⟩
        rcases List.mem_cons.mp (h b (List.mem_cons_of_mem a hb) hwant) with rfl | hmem
        · exact absurd hb ha
        · exact hmem
      · rintro ⟨-, h⟩ b hb hwant
        rcases List.mem_cons.mp hb with rfl | hb
        · exact List.mem_cons_self
        · exact List.mem_cons_of_mem a (h b hb hwant)
    · rw [List.takeWhile_cons_of_neg hpass]
      constructor
      · intro h
        have hnone : ∀ b ∈ l, wanted b = false := by
          intro b hb
          refine Bool.eq_false_iff.mpr fun hwant => ?_
          exact absurd (h b (List.mem_cons_of_mem a hb) hwant) List.not_mem_nil
        refine ⟨fun b hb _ => hnone b hb, fun b hb hwant => ?_⟩
        rw [hnone b hb] at hwant
        cases hwant
      · rintro ⟨hnone, -⟩ b hb hwant
        rcases List.mem_cons.mp hb with rfl | hb
        · exact absurd (hwanted b List.mem_cons_self hwant) hpass
        · rw [hnone b hb (Bool.eq_false_iff.mpr hpass)] at hwant
          cases hwant

end WpaSupplicant.Lib.SortedList

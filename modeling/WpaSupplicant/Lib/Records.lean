import Mathlib.Data.List.Basic
import Mathlib.Tactic.Common

namespace WpaSupplicant.Lib.Records

-- A walk over records that stand behind each other in a buffer. Each has the size that is found at
-- its position.

variable {size : ℕ → ℕ} {pos fin r s : ℕ}

-- The positions of the complete records between two positions
def records (size : ℕ → ℕ) (pos fin : ℕ) : List ℕ :=
  if 0 < size pos ∧ pos + size pos ≤ fin then pos :: records size (pos + size pos) fin else []
termination_by fin - pos

theorem records_cons (hsize : 0 < size pos) (hfin : pos + size pos ≤ fin) :
    records size pos fin = pos :: records size (pos + size pos) fin := by
  rw [records, if_pos ⟨hsize, hfin⟩]

theorem records_nil (hfin : fin < pos + size pos) : records size pos fin = [] := by
  rw [records, if_neg (by omega)]

theorem mem_records (h : r ∈ records size pos fin) : pos ≤ r ∧ 0 < size r ∧ r + size r ≤ fin := by
  fun_induction records size pos fin with
  | case1 pos hpos ih =>
    rcases List.mem_cons.1 h with rfl | htail
    · exact ⟨Nat.le_refl _, hpos⟩
    · obtain ⟨hle, hrest⟩ := ih htail
      exact ⟨by omega, hrest⟩
  | case2 pos hpos => cases h

-- From a record of the walk on, the walk goes on in the same way; what is before ends before it.
theorem records_split {before after : List ℕ} (h : records size pos fin = before ++ r :: after) :
    (∀ b ∈ before, b + size b ≤ r) ∧ records size r fin = r :: after := by
  induction before generalizing pos with
  | nil =>
    have hmem : r ∈ records size pos fin := by
      rw [h]
      exact List.mem_append_right _ List.mem_cons_self
    obtain ⟨-, hsize, hfin⟩ := mem_records hmem
    have hpos : pos = r := by
      by_cases hwalk : 0 < size pos ∧ pos + size pos ≤ fin
      · rw [records_cons hwalk.1 hwalk.2] at h
        exact (List.cons.inj h).1
      · rw [records, if_neg hwalk] at h
        cases h
    rw [hpos] at h
    exact ⟨fun b hb => absurd hb List.not_mem_nil, h⟩
  | cons b before ih =>
    by_cases hwalk : 0 < size pos ∧ pos + size pos ≤ fin
    · rw [records_cons hwalk.1 hwalk.2, List.cons_append] at h
      obtain ⟨hb, hrest⟩ := List.cons.inj h
      obtain ⟨hbefore, hafter⟩ := ih hrest
      refine ⟨?_, hafter⟩
      have hr : r ∈ records size (pos + size pos) fin := by
        rw [hrest]
        exact List.mem_append_right _ List.mem_cons_self
      rintro c hc
      rcases List.mem_cons.1 hc with rfl | hc
      · rw [← hb]
        exact (mem_records hr).1
      · exact hbefore c hc
    · rw [records, if_neg hwalk] at h
      cases h

section Latest

variable {β : Type} (f : ℕ → Option β)

def latest : List ℕ → Option β
  | [] => none
  | r :: l => (latest l).or (f r)

variable {f} {l : List ℕ} {b : β}

theorem latest_eq_none : latest f l = none ↔ ∀ r ∈ l, f r = none := by
  induction l with
  | nil => simp [latest]
  | cons r l ih => rw [latest, Option.or_eq_none_iff, ih, List.forall_mem_cons, and_comm]

theorem latest_eq_some (h : latest f l = some b) :
    ∃ before r after, l = before ++ r :: after ∧ f r = some b ∧ ∀ a ∈ after, f a = none := by
  induction l with
  | nil => cases h
  | cons r l ih =>
    cases hl : latest f l with
    | some c =>
      rw [latest, hl, Option.some_or] at h
      obtain ⟨before, r', after, rfl, hr, hafter⟩ := ih (hl.trans h)
      exact ⟨r :: before, r', after, rfl, hr, hafter⟩
    | none =>
      rw [latest, hl, Option.none_or] at h
      exact ⟨[], r, l, rfl, h, latest_eq_none.1 hl⟩

theorem latest_of_mem (h : r ∈ l) (hr : (f r).isSome) : (latest f l).isSome := by
  induction l with
  | nil => cases h
  | cons s l ih =>
    rw [latest, Option.isSome_or, Bool.or_eq_true]
    rcases List.mem_cons.1 h with rfl | hl
    · exact .inr hr
    · exact .inl (ih hl)

theorem latest_append (l l' : List ℕ) : latest f (l ++ l') = (latest f l').or (latest f l) := by
  induction l with
  | nil => exact (Option.or_none).symm
  | cons r l ih => rw [List.cons_append, latest, ih, latest, Option.or_assoc]

theorem latest_filter (p : ℕ → Bool) (g : ℕ → β) (l : List ℕ) :
    latest (fun r => if p r then some (g r) else none) l = (l.filter p).getLast?.map g := by
  induction l with
  | nil => rfl
  | cons r l ih =>
    rw [latest, ih]
    by_cases hr : p r = true
    · rw [List.filter_cons_of_pos hr, List.getLast?_cons, if_pos hr]
      cases (l.filter p).getLast? <;> rfl
    · rw [List.filter_cons_of_neg hr, if_neg hr, Option.or_none]

end Latest

end WpaSupplicant.Lib.Records

import Mathlib.Algebra.Order.Ring.Int
import Mathlib.Data.List.Count
import Mathlib.Tactic.Common

namespace WpaSupplicant.Lib.Tally

section

variable {α : Type}

theorem countP_change [DecidableEq α] {l : List α} (hnodup : l.Nodup) {a : α} (ha : a ∈ l)
    {p q : α → Bool} (hother : ∀ b, b ≠ a → q b = p b) :
    (l.countP q : ℤ) - (q a).toNat = l.countP p - (p a).toNat := by
  induction l with
  | nil => simp at ha
  | cons b l ih =>
    obtain ⟨hb, hnodup⟩ := List.nodup_cons.mp hnodup
    by_cases hba : b = a
    · subst hba
      have hrest : l.countP q = l.countP p :=
        List.countP_congr fun c hc => by rw [hother c fun hcb => hb (hcb ▸ hc)]
      cases hq : q b <;> cases hp : p b <;> simp [hq, hp, hrest]
    have ha : a ∈ l := (List.mem_cons.mp ha).resolve_left fun h => hba h.symm
    have ih := ih hnodup ha
    have hb : q b = p b := hother b hba
    simp only [List.countP_cons, hb]
    push_cast
    omega

theorem countP_filter_ne [DecidableEq α] {l : List α} {a : α} {p : α → Bool} (ha : p a = false) :
    (l.filter (· ≠ a)).countP p = l.countP p := by
  rw [List.countP_filter]
  refine List.countP_congr fun b _ => ?_
  by_cases hba : b = a
  · simp [hba, ha]
  · simp [hba]

theorem countP_insert {l : List α} {a : α} {p : α → Bool} (n : ℕ) (ha : p a = false) :
    (l.take n ++ a :: l.drop n).countP p = l.countP p := by
  have hsplit := congrArg (List.countP p) (List.take_append_drop n l)
  rw [List.countP_append] at hsplit
  simp [List.countP_append, ha, hsplit]

theorem countP_erase_mem [DecidableEq α] {l : List α} {a : α} (ha : a ∈ l) (p : α → Bool) :
    ((l.erase a).countP p : ℤ) = l.countP p - (p a).toNat := by
  rw [(List.perm_cons_erase ha).countP_eq, List.countP_cons]
  cases p a <;> simp

-- Of two properties, one of which implies the other, as many members have one as the other only if
-- the same ones do.
theorem countP_eq_imp {l : List α} {p q : α → Bool} (hle : ∀ a ∈ l, q a → p a)
    (heq : l.countP p = l.countP q) {a : α} (ha : a ∈ l) : p a = q a := by
  induction l with
  | nil => simp at ha
  | cons b l ih =>
    have hrest : l.countP q ≤ l.countP p :=
      List.countP_mono_left fun c hc => hle c (List.mem_cons_of_mem b hc)
    have hb : q b → p b := hle b List.mem_cons_self
    have hcons : l.countP p = l.countP q ∧ p b = q b := by
      simp only [List.countP_cons] at heq
      cases hp : p b <;> cases hq : q b <;> simp [hp, hq] at heq hb ⊢ <;> omega
    rcases List.mem_cons.mp ha with hab | ha
    · exact hab ▸ hcons.2
    · exact ih (fun c hc => hle c (List.mem_cons_of_mem b hc)) hcons.1 ha

end

end WpaSupplicant.Lib.Tally

import Mathlib.Data.List.Perm.Basic
import Mathlib.Logic.Function.Basic
import Mathlib.Tactic.Common

namespace WpaSupplicant.Lib.HashChain

variable {α η : Type} [DecidableEq η] (hash : α → η)

def Chained (l : List α) (chain : η → List α) : Prop :=
  ∀ h, (chain h).Perm (l.filter fun a => hash a = h)

def insertChain (chain : η → List α) (a : α) : η → List α :=
  Function.update chain (hash a) (a :: chain (hash a))

-- The first member of a chain that meets a condition is taken out.
def eraseChain (chain : η → List α) (h : η) (p : α → Bool) : η → List α :=
  Function.update chain h ((chain h).eraseP p)

variable {hash} {l l' : List α} {chain : η → List α} {a : α}

theorem Chained.mem_iff (hc : Chained hash l chain) {h : η} :
    a ∈ chain h ↔ a ∈ l ∧ hash a = h := by
  rw [(hc h).mem_iff]
  simp

theorem Chained.insert (hc : Chained hash l chain) (hl : l'.Perm (a :: l)) :
    Chained hash l' (insertChain hash chain a) := by
  intro h
  have hfilter := hl.filter fun b => decide (hash b = h)
  by_cases hh : h = hash a
  · subst hh
    rw [insertChain, Function.update_self]
    refine List.Perm.trans ?_ hfilter.symm
    simpa using (hc (hash a)).cons a
  · rw [insertChain, Function.update_of_ne hh]
    refine (hc h).trans (List.Perm.trans ?_ hfilter.symm)
    rw [List.filter_cons_of_neg (by simpa using Ne.symm hh)]

theorem eraseP_eq_filter {p : α → Bool} {l : List α} (hl : l.Nodup)
    (hone : ∀ b ∈ l, p b = true → b = a) : l.eraseP p = l.filter fun b => !p b := by
  induction l with
  | nil => rfl
  | cons b l ih =>
    obtain ⟨hb, hl⟩ := List.nodup_cons.mp hl
    have hrest := fun c hc => hone c (List.mem_cons_of_mem b hc)
    by_cases hp : p b = true
    · rw [List.eraseP_cons_of_pos hp, List.filter_cons_of_neg (by simpa using hp)]
      have hnone : ∀ c ∈ l, (!p c) = true := by
        intro c hc
        by_contra hpc
        have hpc : p c = true := by simpa using hpc
        have hca := hrest c hc hpc
        have hba := hone b List.mem_cons_self hp
        exact hb (hba.trans hca.symm ▸ hc)
      rw [List.filter_eq_self.mpr hnone]
    · rw [List.eraseP_cons_of_neg hp, List.filter_cons_of_pos (by simpa using hp)]
      rw [ih hl hrest]

theorem Chained.erase {p : α → Bool} (hc : Chained hash l chain) (hl : l.Nodup)
    (hone : ∀ b ∈ l, p b = true → b = a) :
    Chained hash (l.filter fun b => !p b) (eraseChain chain (hash a) p) := by
  intro h
  rw [List.filter_filter]
  by_cases hh : h = hash a
  · subst hh
    rw [eraseChain, Function.update_self]
    have hnodup : (chain (hash a)).Nodup := (hc _).nodup_iff.mpr (hl.filter _)
    have hones : ∀ b ∈ chain (hash a), p b = true → b = a :=
      fun b hb => hone b (hc.mem_iff.1 hb).1
    rw [eraseP_eq_filter hnodup hones]
    refine ((hc (hash a)).filter _).trans (List.Perm.of_eq ?_)
    rw [List.filter_filter]
    congr 1
    funext b
    exact Bool.and_comm _ _
  · rw [eraseChain, Function.update_of_ne hh]
    refine (hc h).trans (List.Perm.of_eq (List.filter_congr fun b hb => ?_))
    by_cases hp : p b = true
    · have hba := hone b hb hp
      subst hba
      simp [Ne.symm hh]
    · simp [hp]

end WpaSupplicant.Lib.HashChain

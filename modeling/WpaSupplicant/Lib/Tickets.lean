import Mathlib.Data.List.Nodup
import Mathlib.Logic.Function.Basic

namespace WpaSupplicant.Lib.Tickets

section

variable {ι T : Type} {held : ι → Option T} {used : List T} {issued issued' : T → Prop}

-- Tickets that are issued, held by one party each, and used up at most once: no ticket that is
-- held has been used, and no two parties hold the same one.
structure Accounted (held : ι → Option T) (used : List T) (issued : T → Prop) : Prop where
  held_issued : ∀ i t, held i = some t → issued t
  held_unused : ∀ i t, held i = some t → t ∉ used
  held_inj : ∀ i j t, held i = some t → held j = some t → i = j
  used_issued : ∀ t ∈ used, issued t
  nodup : used.Nodup

namespace Accounted

theorem mono (h : Accounted held used issued) (hle : ∀ t, issued t → issued' t) :
    Accounted held used issued' :=
  ⟨fun i t ht => hle t (h.held_issued i t ht), h.held_unused, h.held_inj,
    fun t ht => hle t (h.used_issued t ht), h.nodup⟩

variable [DecidableEq ι]

-- A party gives its ticket back.
theorem give_up (h : Accounted held used issued) (i : ι) :
    Accounted (Function.update held i none) used issued := by
  have hsub (j : ι) (t : T) (ht : Function.update held i none j = some t) : held j = some t := by
    by_cases hj : j = i
    · subst hj
      simp at ht
    · simpa [hj] using ht
  exact ⟨fun j t ht => h.held_issued j t (hsub j t ht), fun j t ht => h.held_unused j t (hsub j t ht),
    fun j k t hj hk => h.held_inj j k t (hsub j t hj) (hsub k t hk), h.used_issued, h.nodup⟩

-- A party takes a ticket that has not been issued before.
theorem draw (h : Accounted held used issued) (i : ι) (t : T) (hnew : ¬ issued t)
    (hle : ∀ t, issued t → issued' t) (ht : issued' t) :
    Accounted (Function.update held i (some t)) used issued' := by
  have hcases (j : ι) (u : T) (hu : Function.update held i (some t) j = some u) :
      (j = i ∧ u = t) ∨ (j ≠ i ∧ held j = some u) := by
    by_cases hj : j = i
    · subst hj
      simp only [Function.update_self, Option.some.injEq] at hu
      exact .inl ⟨rfl, hu.symm⟩
    · exact .inr ⟨hj, by simpa [hj] using hu⟩
  refine ⟨fun j u hu => ?_, fun j u hu => ?_, fun j k u hj hk => ?_,
    fun u hu => hle u (h.used_issued u hu), h.nodup⟩
  · rcases hcases j u hu with ⟨-, rfl⟩ | ⟨-, hu⟩
    · exact ht
    · exact hle u (h.held_issued j u hu)
  · rcases hcases j u hu with ⟨-, rfl⟩ | ⟨-, hu⟩
    · exact fun hmem => hnew (h.used_issued u hmem)
    · exact h.held_unused j u hu
  · rcases hcases j u hj with ⟨hji, rfl⟩ | ⟨-, hj⟩
    · rcases hcases k u hk with ⟨hki, -⟩ | ⟨-, hk⟩
      · rw [hji, hki]
      · exact absurd (h.held_issued k u hk) hnew
    · rcases hcases k u hk with ⟨-, hkt⟩ | ⟨-, hk⟩
      · exact absurd (h.held_issued j u hj) (hkt ▸ hnew)
      · exact h.held_inj j k u hj hk

-- A party uses the ticket it holds.
theorem spend (h : Accounted held used issued) (i : ι) (t : T) (ht : held i = some t) :
    Accounted (Function.update held i none) (used ++ [t]) issued := by
  have hsub (j : ι) (u : T) (hu : Function.update held i none j = some u) :
      j ≠ i ∧ held j = some u := by
    by_cases hj : j = i
    · subst hj
      simp at hu
    · exact ⟨hj, by simpa [hj] using hu⟩
  have hrest := h.give_up i
  refine ⟨hrest.held_issued, fun j u hu => ?_, hrest.held_inj, ?_, ?_⟩
  · obtain ⟨hj, hu⟩ := hsub j u hu
    intro hmem
    rcases List.mem_append.mp hmem with hmem | hmem
    · exact h.held_unused j u hu hmem
    · obtain rfl := List.mem_singleton.mp hmem
      exact hj (h.held_inj j i u hu ht)
  · intro u hu
    rcases List.mem_append.mp hu with hu | hu
    · exact h.used_issued u hu
    · obtain rfl := List.mem_singleton.mp hu
      exact h.held_issued i u ht
  · rw [List.nodup_append]
    refine ⟨h.nodup, List.nodup_singleton t, ?_⟩
    intro u hu v hv
    obtain rfl := List.mem_singleton.mp hv
    exact fun heq => h.held_unused i v ht (heq ▸ hu)

end Accounted

end

end WpaSupplicant.Lib.Tickets

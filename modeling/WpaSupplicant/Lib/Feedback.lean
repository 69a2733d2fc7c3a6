import Mathlib.Data.List.Basic
import Mathlib.Tactic.Common

namespace WpaSupplicant.Lib.Feedback

-- Chains of blocks, where the mask of a block comes from the block of the output before it

variable {α : Type} (mask : α → α) (combine : α → α → α)

def forward : α → List α → List α
  | _, [] => []
  | m, p :: l => combine m p :: forward (mask (combine m p)) l

-- The masks come from the input.
def backward : α → List α → List α
  | _, [] => []
  | m, c :: l => combine m c :: backward (mask c) l

variable {mask combine} {m : α} {l : List α}

@[simp] theorem length_forward : (forward mask combine m l).length = l.length := by
  induction l generalizing m with
  | nil => rfl
  | cons p l ih => rw [forward, List.length_cons, ih, List.length_cons]

theorem backward_forward {M : α → Prop} (hm : M m) (hmask : ∀ c, M (mask c))
    (hcancel : ∀ m, M m → ∀ p ∈ l, combine m (combine m p) = p) :
    backward mask combine m (forward mask combine m l) = l := by
  induction l generalizing m with
  | nil => rfl
  | cons p l ih =>
    rw [forward, backward, hcancel m hm p List.mem_cons_self,
      ih (hmask _) fun m hm q hq => hcancel m hm q (List.mem_cons_of_mem p hq)]

theorem forall_forward {M P : α → Prop} (hm : M m) (hmask : ∀ c, M (mask c))
    (hcombine : ∀ m, M m → ∀ p ∈ l, P (combine m p)) : ∀ c ∈ forward mask combine m l, P c := by
  induction l generalizing m with
  | nil => exact fun c hc => absurd hc List.not_mem_nil
  | cons p l ih =>
    rw [forward, List.forall_mem_cons]
    exact ⟨hcombine m hm p List.mem_cons_self,
      ih (hmask _) fun m hm q hq => hcombine m hm q (List.mem_cons_of_mem p hq)⟩

end WpaSupplicant.Lib.Feedback

import Mathlib.Tactic.Common

namespace WpaSupplicant.Lib.Effect

-- A function of a machine that keeps a list of its outputs: how it relates the states before
-- and after it, and which outputs it may add.
structure Emits {σ ω : Type} (out : σ → List ω) (R : σ → σ → Prop) (A : ω → Prop) (c c' : σ) :
    Prop where
  rel : R c c'
  emitted : ∃ l, out c' = out c ++ l ∧ ∀ o ∈ l, A o

section

variable {σ ω : Type} {out : σ → List ω} {R S : σ → σ → Prop} {A B : ω → Prop} {a b c : σ}

theorem Emits.same (hrel : R a b) (hout : out b = out a) : Emits out R A a b :=
  ⟨hrel, [], by simp [hout], by simp⟩

theorem Emits.one (o : ω) (hrel : R a b) (hout : out b = out a ++ [o]) (ho : A o) :
    Emits out R A a b :=
  ⟨hrel, [o], hout, by simpa using ho⟩

theorem Emits.trans (htrans : ∀ {x y z}, R x y → R y z → R x z) (h : Emits out R A a b)
    (h' : Emits out R A b c) : Emits out R A a c := by
  obtain ⟨hrel, l, hl, hA⟩ := h
  obtain ⟨hrel', l', hl', hA'⟩ := h'
  refine ⟨htrans hrel hrel', l ++ l', by rw [hl', hl, List.append_assoc], ?_⟩
  intro o ho
  rcases List.mem_append.mp ho with ho | ho
  · exact hA o ho
  · exact hA' o ho

theorem Emits.mono (hR : R a b → S a b) (hA : ∀ o, A o → B o) (h : Emits out R A a b) :
    Emits out S B a b := by
  obtain ⟨hrel, l, hl, hall⟩ := h
  exact ⟨hR hrel, l, hl, fun o ho => hA o (hall o ho)⟩

end

-- A step that may fail, followed by the next one
def andThen {σ : Type} (r : σ × Bool) (f : σ → σ × Bool) : σ × Bool :=
  if r.2 then f r.1 else r

end WpaSupplicant.Lib.Effect

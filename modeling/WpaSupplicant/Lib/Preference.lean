import Mathlib.Data.Nat.Basic
import Mathlib.Tactic.Common

namespace WpaSupplicant.Lib.Preference

variable {α : Type}

structure Rule (α : Type) where
  byRank : α → α → Prop
  rank : α → ℕ
  strong : α → α → Prop
  symm : ∀ {x y}, byRank x y → byRank y x
  differ : ∀ {x y}, byRank x y → rank x ≠ rank y
  total : ∀ x y, strong x y ∨ strong y x

variable (p : Rule α)

-- `x` is not worse than `y`.
def NotWorse (x y : α) : Prop :=
  (p.byRank x y ∧ p.rank y < p.rank x) ∨ (¬ p.byRank x y ∧ p.strong x y)

structure Overtakes (x y z : α) : Prop where
  decided : p.byRank x y
  rank : p.rank y < p.rank x
  left : ¬ p.byRank x z
  right : ¬ p.byRank y z
  strongLeft : p.strong y z
  strongRight : p.strong z x

structure Chain (x y z : α) : Prop where
  first : p.byRank x y
  second : p.byRank y z
  rankFirst : p.rank y < p.rank x
  rankSecond : p.rank z < p.rank y
  ends : ¬ p.byRank x z
  strong : p.strong z x

variable {p} {x y z : α}

theorem NotWorse.rank (h : NotWorse p x y) (hby : p.byRank x y) : p.rank y < p.rank x :=
  h.elim And.right fun hs => absurd hby hs.1

theorem NotWorse.strong (h : NotWorse p x y) (hby : ¬ p.byRank x y) : p.strong x y :=
  h.elim (fun hr => absurd hr.1 hby) And.right

theorem notWorse_of_strong (hby : ¬ p.byRank x y) (hs : p.strong x y) : NotWorse p x y := .inr ⟨hby, hs⟩

theorem notWorse_of_rank (hby : p.byRank x y) (hr : p.rank y < p.rank x) : NotWorse p x y := .inl ⟨hby, hr⟩

theorem not_byRank_symm (h : ¬ p.byRank x y) : ¬ p.byRank y x := fun hby => h (p.symm hby)

-- The rank decides against whoever has the lower one.
theorem not_notWorse_of_rank (hby : p.byRank x y) (hr : p.rank y < p.rank x) : ¬ NotWorse p y x := by
  intro h
  have hlt := h.rank (p.symm hby)
  omega

theorem Overtakes.circular (h : Overtakes p x y z) :
    NotWorse p y z ∧ NotWorse p z x ∧ ¬ NotWorse p y x :=
  ⟨notWorse_of_strong h.right h.strongLeft, notWorse_of_strong (not_byRank_symm h.left) h.strongRight,
    not_notWorse_of_rank h.decided h.rank⟩

theorem Chain.circular (h : Chain p x y z) : NotWorse p z x ∧ NotWorse p x y ∧ ¬ NotWorse p z y :=
  ⟨notWorse_of_strong (not_byRank_symm h.ends) h.strong, notWorse_of_rank h.first h.rankFirst,
    not_notWorse_of_rank h.second h.rankSecond⟩

-- Three elements in order, with a last pair that is decided by rank
theorem trans_byRank (hxy : NotWorse p x y) (hyz : NotWorse p y z) (hxz : p.byRank x z)
    (htakes : ¬ Overtakes p z x y) (hchain₁ : ¬ Chain p z x y) (hchain₂ : ¬ Chain p y z x) :
    NotWorse p x z := by
  refine notWorse_of_rank hxz ?_
  by_contra hge
  have hne := p.differ hxz
  have hlt : p.rank x < p.rank z := by omega
  by_cases hbyxy : p.byRank x y
  · have hrxy := hxy.rank hbyxy
    by_cases hbyyz : p.byRank y z
    · have hryz := hyz.rank hbyyz
      omega
    · exact hchain₁ ⟨p.symm hxz, hbyxy, hlt, hrxy, not_byRank_symm hbyyz, hyz.strong hbyyz⟩
  · by_cases hbyyz : p.byRank y z
    · exact hchain₂ ⟨hbyyz, p.symm hxz, hyz.rank hbyyz, hlt, not_byRank_symm hbyxy, hxy.strong hbyxy⟩
    · exact htakes ⟨p.symm hxz, hlt, not_byRank_symm hbyyz, hbyxy, hxy.strong hbyxy, hyz.strong hbyyz⟩

-- Three elements in order, with a last pair that is decided by strength
theorem trans_strong (hxy : NotWorse p x y) (hyz : NotWorse p y z) (hxz : ¬ p.byRank x z)
    (htrans : p.strong x y → p.strong y z → p.strong x z) (htakes₁ : ¬ Overtakes p x y z)
    (htakes₂ : ¬ Overtakes p y z x) (hchain : ¬ Chain p x y z) : NotWorse p x z := by
  refine notWorse_of_strong hxz ?_
  by_contra hns
  have hzx : p.strong z x := (p.total x z).resolve_left hns
  by_cases hbyxy : p.byRank x y
  · by_cases hbyyz : p.byRank y z
    · exact hchain ⟨hbyxy, hbyyz, hxy.rank hbyxy, hyz.rank hbyyz, hxz, hzx⟩
    · exact htakes₁ ⟨hbyxy, hxy.rank hbyxy, hxz, hbyyz, hyz.strong hbyyz, hzx⟩
  by_cases hbyyz : p.byRank y z
  · exact htakes₂ ⟨hbyyz, hyz.rank hbyyz, not_byRank_symm hbyxy, not_byRank_symm hxz, hzx,
      hxy.strong hbyxy⟩
  · exact hns (htrans (hxy.strong hbyxy) (hyz.strong hbyyz))

-- On a list whose strengths are in order, the two circles are all that can go wrong.
theorem transitive_iff {l : List α}
    (hstrong : ∀ x ∈ l, ∀ y ∈ l, ∀ z ∈ l, p.strong x y → p.strong y z → p.strong x z) :
    (∀ x ∈ l, ∀ y ∈ l, ∀ z ∈ l, NotWorse p x y → NotWorse p y z → NotWorse p x z) ↔
      ∀ x ∈ l, ∀ y ∈ l, ∀ z ∈ l, ¬ Overtakes p x y z ∧ ¬ Chain p x y z := by
  constructor
  · intro h x hx y hy z hz
    refine ⟨fun ho => ?_, fun hc => ?_⟩
    · obtain ⟨hyz, hzx, hyx⟩ := ho.circular
      exact hyx (h y hy z hz x hx hyz hzx)
    · obtain ⟨hzx, hxy, hzy⟩ := hc.circular
      exact hzy (h z hz x hx y hy hzx hxy)
  · intro h x hx y hy z hz hxy hyz
    by_cases hxz : p.byRank x z
    · exact trans_byRank hxy hyz hxz (h z hz x hx y hy).1 (h z hz x hx y hy).2 (h y hy z hz x hx).2
    · exact trans_strong hxy hyz hxz (hstrong x hx y hy z hz) (h x hx y hy z hz).1 (h y hy z hz x hx).1
        (h x hx y hy z hz).2

end WpaSupplicant.Lib.Preference

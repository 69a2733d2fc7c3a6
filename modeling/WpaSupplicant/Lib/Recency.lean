import WpaSupplicant.Lib.Machine
import Mathlib.Data.List.Nodup
import Mathlib.Data.List.Pairwise
import Mathlib.Data.List.Perm.Subperm
import Mathlib.Data.List.TakeWhile
import Mathlib.Order.Lattice
import Mathlib.Tactic.Common

namespace WpaSupplicant.Lib.Recency

section Filter

variable {α : Type} {p : α → Bool} {l : List α}

-- Where what passes is in front of what does not, the first that does not pass may end the search.
theorem takeWhile_eq_filter (h : l.Pairwise fun a b => p b = true → p a = true) :
    l.takeWhile p = l.filter p := by
  induction l with
  | nil => rfl
  | cons a l ih =>
    obtain ⟨ha, hl⟩ := List.pairwise_cons.mp h
    by_cases hpa : p a = true
    · rw [List.takeWhile_cons_of_pos hpa, List.filter_cons_of_pos hpa, ih hl]
    have hnone : l.filter p = [] := by
      apply List.filter_eq_nil_iff.mpr
      intro b hb hpb
      exact hpa (ha b hb hpb)
    rw [List.takeWhile_cons_of_neg hpa, List.filter_cons_of_neg hpa, hnone]

end Filter

section Touched

variable {α κ τ : Type} [LinearOrder τ] (key : α → κ) (time : α → τ)

-- The newest entry is in front, and no two entries have the same key.
structure Recent (l : List α) : Prop where
  newest : l.Pairwise fun a b => time b ≤ time a
  keys : (l.map key).Nodup

variable {key time} {l : List α} {x y : α}

theorem Recent.nil : Recent key time [] := ⟨List.Pairwise.nil, List.nodup_nil⟩

theorem Recent.sublist {l' : List α} (h : Recent key time l) (hsub : l'.Sublist l) : Recent key time l' :=
  ⟨h.newest.sublist hsub, h.keys.sublist (hsub.map key)⟩

variable [DecidableEq κ] {stale : α → Bool}

variable (key) in
-- An entry that is seen goes to the front, in the place of the one with its key. What is behind the
-- first stale entry is given up.
def touch (stale : α → Bool) (x : α) (l : List α) : List α :=
  x :: (l.eraseP fun a => key a = key x).takeWhile fun a => !stale a

theorem Recent.mem_eraseP (h : Recent key time l) (k : κ) :
    y ∈ l.eraseP (fun a => key a = k) ↔ y ∈ l ∧ key y ≠ k := by
  induction l with
  | nil => simp
  | cons a l ih =>
    have hl := h.sublist (List.sublist_cons_self a l)
    have ha : key a ∉ l.map key := (List.nodup_cons.mp h.keys).1
    by_cases hak : key a = k
    · rw [List.eraseP_cons_of_pos (by simpa using hak), List.mem_cons]
      constructor
      · intro hy
        refine ⟨Or.inr hy, ?_⟩
        rintro rfl
        exact ha (hak ▸ List.mem_map_of_mem hy)
      · rintro ⟨rfl | hy, hyk⟩
        · exact absurd hak hyk
        · exact hy
    · rw [List.eraseP_cons_of_neg (by simpa using hak), List.mem_cons, ih hl, List.mem_cons]
      constructor
      · rintro (rfl | ⟨hy, hyk⟩)
        · exact ⟨Or.inl rfl, hak⟩
        · exact ⟨Or.inr hy, hyk⟩
      · rintro ⟨rfl | hy, hyk⟩
        · exact Or.inl rfl
        · exact Or.inr ⟨hy, hyk⟩

theorem Recent.touch (h : Recent key time l) (hx : ∀ a ∈ l, time a ≤ time x) :
    Recent key time (touch key stale x l) := by
  have hsub : ((l.eraseP fun a => key a = key x).takeWhile fun a => !stale a).Sublist
      (l.eraseP fun a => key a = key x) := List.takeWhile_sublist _
  have hrest := h.sublist (hsub.trans List.eraseP_sublist)
  refine ⟨List.pairwise_cons.mpr ⟨?_, hrest.newest⟩, List.nodup_cons.mpr ⟨?_, hrest.keys⟩⟩
  · intro a ha
    exact hx a (List.mem_of_mem_eraseP (hsub.subset ha))
  · intro hmem
    obtain ⟨a, ha, hkey⟩ := List.mem_map.mp hmem
    exact ((h.mem_eraseP (key x)).mp (hsub.subset ha)).2 hkey

theorem Recent.mem_touch (h : Recent key time l)
    (hstale : ∀ a b, time b ≤ time a → stale a = true → stale b = true) :
    y ∈ Recency.touch key stale x l ↔ y = x ∨ (y ∈ l ∧ key y ≠ key x ∧ stale y = false) := by
  have hsorted : (l.eraseP fun a => key a = key x).Pairwise fun a b => (!stale b) = true → (!stale a) = true := by
    refine (h.newest.sublist List.eraseP_sublist).imp ?_
    intro a b hab hb
    rw [Bool.not_eq_true'] at hb ⊢
    refine Bool.eq_false_iff.mpr fun ha => ?_
    rw [hstale a b hab ha] at hb
    cases hb
  rw [Recency.touch, takeWhile_eq_filter hsorted, List.mem_cons, List.mem_filter, h.mem_eraseP,
    Bool.not_eq_true', and_assoc]

end Touched

section Bounded

variable {α : Type} [DecidableEq α] {cap : ℕ} {x y : α}

-- What is done to a list of bounded length
inductive Edit (α : Type) where
  | add (x : α)
  | remove (x : α)
  deriving DecidableEq, Repr

-- What is new goes to the front, and pushes the last entry out of a full list.
def Edit.apply (cap : ℕ) (l : List α) : Edit α → List α
  | .add x => if x ∈ l then l else (x :: l).take cap
  | .remove x => l.erase x

def hold (cap : ℕ) : List (Edit α) → List α
  | [] => []
  | e :: h => e.apply cap (hold cap h)

-- Among the last edits of a history `y` was new, and was not removed afterwards.
def AddedIn (cap : ℕ) (y : α) (s h : List (Edit α)) : Prop :=
  ∃ s₁ s₂, s = s₁ ++ .add y :: s₂ ∧ y ∉ hold cap (s₂ ++ h) ∧ .remove y ∉ s₁

-- Since `x` was new it was not removed, and never as many as the list has room for were new after it.
def Held (cap : ℕ) (x : α) (h : List (Edit α)) : Prop :=
  ∃ s h', h = s ++ .add x :: h' ∧ x ∉ hold cap h' ∧ .remove x ∉ s ∧
    ∀ s₁ s₂, s = s₁ ++ s₂ → ∀ ys : List α, ys.Nodup → (∀ y ∈ ys, AddedIn cap y s₂ (.add x :: h')) →
      ys.length < cap

theorem nodup_apply {l : List α} (hl : l.Nodup) (e : Edit α) : (e.apply cap l).Nodup := by
  cases e with
  | add x =>
    rw [Edit.apply]
    split
    · exact hl
    · rename_i hx
      exact (List.nodup_cons.mpr ⟨hx, hl⟩).sublist (List.take_sublist _ _)
  | remove x => exact hl.sublist List.erase_sublist

theorem nodup_hold (h : List (Edit α)) : (hold cap h).Nodup := by
  induction h with
  | nil => exact List.nodup_nil
  | cons e h ih => exact nodup_apply ih e

theorem length_hold (h : List (Edit α)) : (hold cap h).length ≤ cap := by
  induction h with
  | nil => exact Nat.zero_le cap
  | cons e h ih =>
    cases e with
    | add x =>
      rw [hold, Edit.apply]
      split
      · exact ih
      · exact List.length_take_le _ _
    | remove x => exact (List.erase_sublist.length_le).trans ih

variable {h s : List (Edit α)}

-- What is held came in at some point and is there since then.
theorem mem_hold_iff_entered :
    x ∈ hold cap h ↔ ∃ s h', h = s ++ .add x :: h' ∧ x ∉ hold cap h' ∧
      ∀ s₁ s₂, s = s₁ ++ s₂ → x ∈ hold cap (s₂ ++ .add x :: h') := by
  constructor
  · induction h with
    | nil => intro hx; cases hx
    | cons e h ih =>
      intro hx
      by_cases hmem : x ∈ hold cap h
      · obtain ⟨s, h', rfl, hnew, hin⟩ := ih hmem
        refine ⟨e :: s, h', rfl, hnew, ?_⟩
        intro s₁ s₂ hs
        cases s₁ with
        | nil =>
          obtain rfl : e :: s = s₂ := hs
          exact hx
        | cons e' s₁ => exact hin s₁ s₂ (List.cons.inj hs).2
      · have he : e = .add x := by
          cases e with
          | add z =>
            rw [hold, Edit.apply] at hx
            split at hx
            · exact absurd hx hmem
            rcases List.mem_cons.mp (List.mem_of_mem_take hx) with rfl | hx
            · rfl
            · exact absurd hx hmem
          | remove z => exact absurd (List.mem_of_mem_erase hx) hmem
        subst he
        refine ⟨[], h, rfl, hmem, ?_⟩
        intro s₁ s₂ hs
        obtain ⟨rfl, rfl⟩ := List.append_eq_nil_iff.mp hs.symm
        exact hx
  · rintro ⟨s, h', rfl, -, hin⟩
    exact hin [] s rfl

theorem addedIn_cons {e : Edit α} :
    AddedIn cap y (e :: s) h ↔
      (e = .add y ∧ y ∉ hold cap (s ++ h)) ∨ (AddedIn cap y s h ∧ e ≠ .remove y) := by
  constructor
  · rintro ⟨s₁, s₂, hs, hnew, hkept⟩
    cases s₁ with
    | nil =>
      obtain ⟨rfl, rfl⟩ := List.cons.inj hs
      exact Or.inl ⟨rfl, hnew⟩
    | cons e' s₁ =>
      obtain ⟨rfl, rfl⟩ := List.cons.inj hs
      obtain ⟨hne, hkept⟩ := not_or.mp (mt List.mem_cons.mpr hkept)
      exact Or.inr ⟨⟨s₁, s₂, rfl, hnew, hkept⟩, Ne.symm hne⟩
  · rintro (⟨rfl, hnew⟩ | ⟨⟨s₁, s₂, rfl, hnew, hkept⟩, hne⟩)
    · exact ⟨[], s, rfl, hnew, List.not_mem_nil⟩
    · refine ⟨e :: s₁, s₂, rfl, hnew, ?_⟩
      intro hmem
      rcases List.mem_cons.mp hmem with he | hmem
      · exact hne he.symm
      · exact hkept hmem

omit [DecidableEq α] in
-- An entry stays in a full list only while it is not the last one.
theorem take_of_mem {f r : List α} (hf : x ∉ f) (hx : x ∈ (f ++ x :: r).take cap) :
    f.length < cap ∧ ∃ r', (f ++ x :: r).take cap = f ++ x :: r' := by
  have hlt : f.length < cap := by
    by_contra hge
    rw [List.take_append_of_le_length (by omega)] at hx
    exact hf (List.mem_of_mem_take hx)
  obtain ⟨n, rfl⟩ : ∃ n, cap = f.length + (n + 1) := ⟨cap - f.length - 1, by omega⟩
  refine ⟨hlt, r.take n, ?_⟩
  rw [List.take_length_add_append, List.take_succ_cons]

-- While `x` is there, what stands in front of it is what was new after it.
theorem front_hold {h' : List (Edit α)} (hnew : x ∉ hold cap h')
    (hin : ∀ s₁ s₂, s = s₁ ++ s₂ → x ∈ hold cap (s₂ ++ .add x :: h')) :
    ∃ f r, hold cap (s ++ .add x :: h') = f ++ x :: r ∧ ∀ y, AddedIn cap y s (.add x :: h') ↔ y ∈ f := by
  induction s with
  | nil =>
    have hx := hin [] [] rfl
    simp only [List.nil_append, hold, Edit.apply, if_neg hnew] at hx ⊢
    obtain ⟨-, r, hr⟩ := take_of_mem (f := []) List.not_mem_nil hx
    refine ⟨[], r, hr, ?_⟩
    intro y
    constructor
    · rintro ⟨s₁, s₂, hs, -⟩
      cases s₁ <;> cases hs
    · intro hy
      cases hy
  | cons e s ih =>
    obtain ⟨f, r, hold_eq, hfront⟩ := ih fun s₁ s₂ hs => hin (e :: s₁) s₂ (by rw [hs, List.cons_append])
    have hx : x ∈ e.apply cap (hold cap (s ++ .add x :: h')) := hin [] (e :: s) rfl
    have hnodup : (f ++ x :: r).Nodup := hold_eq ▸ nodup_hold (s ++ .add x :: h')
    have hxf : x ∉ f := (List.nodup_cons.mp (List.nodup_middle.mp hnodup)).1 ∘ List.mem_append_left r
    rw [List.cons_append, hold, hold_eq]
    rw [hold_eq] at hx
    simp only [addedIn_cons, hfront, hold_eq]
    cases e with
    | add z =>
      by_cases hz : z ∈ f ++ x :: r
      · refine ⟨f, r, if_pos hz, ?_⟩
        intro y
        constructor
        · rintro (⟨hzy, hy⟩ | ⟨hy, -⟩)
          · cases hzy
            exact absurd hz hy
          · exact hy
        · intro hy
          exact Or.inr ⟨hy, by simp⟩
      · rw [Edit.apply, if_neg hz] at hx ⊢
        have hxz : x ∉ z :: f := by
          intro hmem
          rcases List.mem_cons.mp hmem with rfl | hmem
          · exact hz (by simp)
          · exact hxf hmem
        obtain ⟨-, r', hr'⟩ := take_of_mem (f := z :: f) hxz hx
        refine ⟨z :: f, r', hr', ?_⟩
        intro y
        rw [List.mem_cons]
        constructor
        · rintro (⟨hzy, -⟩ | ⟨hy, -⟩)
          · cases hzy
            exact Or.inl rfl
          · exact Or.inr hy
        · rintro (rfl | hy)
          · exact Or.inl ⟨rfl, hz⟩
          · exact Or.inr ⟨hy, by simp⟩
    | remove z =>
      have hzx : z ≠ x := by
        rintro rfl
        exact (List.Nodup.mem_erase_iff hnodup).mp hx |>.1 rfl
      have hnf : f.Nodup := (List.nodup_append.mp hnodup).1
      have hmem : ∀ y, (Edit.remove z = .add y ∧ y ∉ f ++ x :: r) ∨ (y ∈ f ∧ Edit.remove z ≠ .remove y) ↔
          y ∈ f.erase z := by
        intro y
        rw [hnf.mem_erase_iff]
        simp only [reduceCtorEq, false_and, false_or, ne_eq, Edit.remove.injEq]
        exact ⟨fun h => ⟨fun heq => h.2 heq.symm, h.1⟩, fun h => ⟨h.2, fun heq => h.1 heq.symm⟩⟩
      by_cases hz : z ∈ f
      · exact ⟨f.erase z, r, List.erase_append_left _ hz, hmem⟩
      refine ⟨f.erase z, r.erase z, ?_, hmem⟩
      rw [Edit.apply, List.erase_append_right _ hz, List.erase_cons_tail (by simpa using hzx.symm),
        List.erase_of_not_mem hz]

-- One more edit leaves `x` there unless it removes `x`, or brings the newer entries to the capacity.
theorem mem_hold_cons {e : Edit α} {h' : List (Edit α)} (hnew : x ∉ hold cap h')
    (hin : ∀ s₁ s₂, s = s₁ ++ s₂ → x ∈ hold cap (s₂ ++ .add x :: h')) (hrem : e ≠ .remove x)
    (hroom : ∀ ys : List α, ys.Nodup → (∀ y ∈ ys, AddedIn cap y (e :: s) (.add x :: h')) → ys.length < cap) :
    x ∈ hold cap (e :: s ++ .add x :: h') := by
  obtain ⟨f, r, hold_eq, hfront⟩ := front_hold hnew hin
  have hnodup : (f ++ x :: r).Nodup := hold_eq ▸ nodup_hold (s ++ .add x :: h')
  rw [List.cons_append, hold, hold_eq]
  cases e with
  | add z =>
    by_cases hz : z ∈ f ++ x :: r
    · rw [Edit.apply, if_pos hz]
      simp
    have hlt : (z :: f).length < cap := by
      apply hroom (z :: f)
      · exact (List.nodup_cons.mpr ⟨hz, hnodup⟩).sublist
          (List.Sublist.cons_cons z (List.sublist_append_left f (x :: r)))
      · intro y hy
        rw [addedIn_cons, hold_eq, hfront]
        rcases List.mem_cons.mp hy with rfl | hy
        · exact Or.inl ⟨rfl, hz⟩
        · exact Or.inr ⟨hy, by simp⟩
    obtain ⟨n, hn⟩ : ∃ n, cap - (z :: f).length = n + 1 := ⟨cap - (z :: f).length - 1, by omega⟩
    rw [Edit.apply, if_neg hz, ← List.cons_append, List.take_append, hn, List.take_succ_cons]
    simp
  | remove z =>
    have hne : x ≠ z := by
      rintro rfl
      exact hrem rfl
    exact hnodup.mem_erase_iff.mpr ⟨hne, by simp⟩

-- What is held was added and not removed since, and not pushed out by newer entries.
theorem mem_hold_iff : x ∈ hold cap h ↔ Held cap x h := by
  rw [mem_hold_iff_entered]
  constructor
  · rintro ⟨s, h', rfl, hnew, hin⟩
    refine ⟨s, h', rfl, hnew, ?_, ?_⟩
    · intro hrem
      obtain ⟨s₁, s₂, rfl⟩ := List.append_of_mem hrem
      have hx := hin s₁ (.remove x :: s₂) rfl
      rw [List.cons_append, hold, Edit.apply, (nodup_hold _).mem_erase_iff] at hx
      exact hx.1 rfl
    · intro s₁ s₂ hs ys hys hadded
      have hin' : ∀ t₁ t₂, s₂ = t₁ ++ t₂ → x ∈ hold cap (t₂ ++ .add x :: h') := by
        intro t₁ t₂ ht
        exact hin (s₁ ++ t₁) t₂ (by rw [hs, ht, List.append_assoc])
      obtain ⟨f, r, hold_eq, hfront⟩ := front_hold hnew hin'
      have hle : ys.length ≤ f.length := by
        apply List.Subperm.length_le
        exact hys.subperm fun y hy => (hfront y).mp (hadded y hy)
      have hcap : (hold cap (s₂ ++ .add x :: h')).length ≤ cap := length_hold _
      rw [hold_eq, List.length_append, List.length_cons] at hcap
      omega
  · rintro ⟨s, h', rfl, hnew, hkept, hroom⟩
    refine ⟨s, h', rfl, hnew, ?_⟩
    -- over the edits since `x` was new
    have hstay : ∀ s₂, (∃ s₁, s = s₁ ++ s₂) → ∀ t₁ t₂, s₂ = t₁ ++ t₂ →
        x ∈ hold cap (t₂ ++ .add x :: h') := by
      intro s₂
      induction s₂ with
      | nil =>
        rintro - t₁ t₂ ht
        obtain ⟨rfl, rfl⟩ := List.append_eq_nil_iff.mp ht.symm
        have hcap : 0 < cap := hroom s [] (List.append_nil s).symm [] List.nodup_nil (by simp)
        obtain ⟨n, rfl⟩ : ∃ n, cap = n + 1 := ⟨cap - 1, by omega⟩
        simp [hold, Edit.apply, hnew]
      | cons e s₂ ih =>
        rintro ⟨s₁, hs⟩ t₁ t₂ ht
        have hin := ih ⟨s₁ ++ [e], by simp [hs]⟩
        cases t₁ with
        | cons e' t₁ => exact hin t₁ t₂ (List.cons.inj ht).2
        | nil =>
          obtain rfl : e :: s₂ = t₂ := ht
          refine mem_hold_cons hnew hin ?_ (hroom s₁ (e :: s₂) hs)
          rintro rfl
          exact hkept (hs ▸ List.mem_append_right s₁ List.mem_cons_self)
    exact fun s₁ s₂ hs => hstay s ⟨[], rfl⟩ s₁ s₂ hs

end Bounded

end WpaSupplicant.Lib.Recency

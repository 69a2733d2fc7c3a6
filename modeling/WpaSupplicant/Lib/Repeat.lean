import Mathlib.Data.List.Basic
import Mathlib.Tactic.Common

namespace WpaSupplicant.Lib.Loop

section

variable {σ : Type} {round : σ → σ} {again : σ → Bool}

-- A loop that repeats its body while it reports a change: the state before the first round and
-- the state after the last one
inductive Rounds (round : σ → σ) (again : σ → Bool) : σ → σ → Prop where
  | last {s : σ} (h : again (round s) = false) : Rounds round again s (round s)
  | more {s t : σ} (h : again (round s) = true) (hrest : Rounds round again (round s) t) :
      Rounds round again s t

theorem Rounds.settled {s t : σ} (h : Rounds round again s t) : again t = false := by
  induction h with
  | last h => exact h
  | more h hrest ih => exact ih

theorem Rounds.rule {I T : σ → Prop} (hround : ∀ s, I s → I (round s) ∧ T (round s)) {s t : σ}
    (h : Rounds round again s t) (hI : I s) : I t ∧ T t := by
  induction h with
  | last h => exact hround _ hI
  | more h hrest ih => exact ih (hround _ hI).1

end

theorem foldlM_rule {σ α : Type} {f : σ → α → Option σ} {I : σ → Prop}
    (hf : ∀ s a t, I s → f s a = some t → I t) (l : List α) {s t : σ} (hI : I s)
    (h : l.foldlM f s = some t) : I t := by
  induction l generalizing s with
  | nil =>
    obtain rfl : s = t := by simpa using h
    exact hI
  | cons a l ih =>
    rw [List.foldlM_cons] at h
    obtain ⟨u, hu, ht⟩ := Option.bind_eq_some_iff.mp h
    exact ih (hf s a u hI hu) ht

end WpaSupplicant.Lib.Loop

namespace WpaSupplicant.Lib.Repeat

variable {α β γ : Type}

abbrev Parser (α β : Type) := List α → Option (β × List α)

def times (p : Parser α β) : ℕ → Parser α (List β)
  | 0, l => some ([], l)
  | n + 1, l => (p l).bind fun item => (times p n item.2).map fun items => (item.1 :: items.1, items.2)

inductive Concat (format : β → List α → Prop) : List β → List α → Prop where
  | nil : Concat format [] []
  | cons {b : β} {bs : List β} {x y : List α} (hb : format b x) (hbs : Concat format bs y) :
      Concat format (b :: bs) (x ++ y)

def Exact (p : Parser α β) (format : β → List α → Prop) : Prop :=
  ∀ l b r, p l = some (b, r) ↔ ∃ x, format b x ∧ l = x ++ r

def mapAll (f : β → Option γ) : List β → Option (List γ)
  | [] => some []
  | b :: bs => (f b).bind fun c => (mapAll f bs).map (c :: ·)

section

variable {p : Parser α β} {format : β → List α → Prop} {f g : β → Option γ} {n : ℕ} {l r : List α} {b : β}
  {bs : List β} {cs : List γ}

theorem times_succ : times p (n + 1) l = some (b :: bs, r) ↔
    ∃ r', p l = some (b, r') ∧ times p n r' = some (bs, r) := by
  simp only [times, Option.bind_eq_some_iff, Option.map_eq_some_iff, Prod.mk.injEq, List.cons.injEq, Prod.exists]
  constructor
  · rintro ⟨b', r', hp, bs', r'', htimes, ⟨rfl, rfl⟩, rfl⟩
    exact ⟨r', hp, htimes⟩
  · rintro ⟨r', hp, htimes⟩
    exact ⟨b, r', hp, bs, r, htimes, ⟨rfl, rfl⟩, rfl⟩

theorem times_length (h : times p n l = some (bs, r)) : bs.length = n := by
  induction n generalizing l bs with
  | zero =>
    simp only [times, Option.some.injEq, Prod.mk.injEq] at h
    simp [← h.1]
  | succ n ih =>
    cases bs with
    | nil => simp [times, Option.bind_eq_some_iff] at h
    | cons b bs =>
      obtain ⟨r', -, htimes⟩ := times_succ.1 h
      simp [ih htimes]

theorem Exact.times (h : Exact p format) (n : ℕ) :
    Exact (times p n) (fun bs x => bs.length = n ∧ Concat format bs x) := by
  induction n with
  | zero =>
    intro l bs r
    simp only [Repeat.times, Option.some.injEq, Prod.mk.injEq, List.length_eq_zero_iff]
    constructor
    · rintro ⟨rfl, rfl⟩
      exact ⟨[], ⟨rfl, .nil⟩, rfl⟩
    · rintro ⟨x, ⟨rfl, hx⟩, rfl⟩
      cases hx
      exact ⟨rfl, rfl⟩
  | succ n ih =>
    intro l bs r
    cases bs with
    | nil =>
      simp only [List.length_nil, Nat.right_eq_add, Nat.add_eq_zero_iff, Nat.one_ne_zero, and_false, false_and,
        exists_false, iff_false]
      intro hnil
      simpa using times_length hnil
    | cons b bs =>
      rw [times_succ]
      constructor
      · rintro ⟨r', hp, htimes⟩
        obtain ⟨x, hx, rfl⟩ := (h _ _ _).mp hp
        obtain ⟨y, ⟨hlen, hy⟩, rfl⟩ := (ih _ _ _).mp htimes
        exact ⟨x ++ y, ⟨by simp [hlen], .cons hx hy⟩, by rw [List.append_assoc]⟩
      · rintro ⟨z, ⟨hlen, hz⟩, rfl⟩
        cases hz with
        | cons hx hy =>
          rename_i x y
          exact ⟨y ++ r, (h _ _ _).mpr ⟨x, hx, List.append_assoc x y r⟩,
            (ih _ _ _).mpr ⟨y, ⟨by simpa using hlen, hy⟩, rfl⟩⟩

-- What is done to every item afterwards can be done while parsing.
theorem times_bind (n : ℕ) (l : List α) :
    times (fun l => (p l).bind fun item => (f item.1).map fun c => (c, item.2)) n l =
      (times p n l).bind fun items => (mapAll f items.1).map fun cs => (cs, items.2) := by
  induction n generalizing l with
  | zero => rfl
  | succ n ih =>
    simp only [times]
    cases p l with
    | none => rfl
    | some item =>
      simp only [Option.bind_some]
      cases hf : f item.1 with
      | none => cases times p n item.2 <;> simp [mapAll, hf]
      | some c =>
        simp only [Option.map_some, Option.bind_some, ih]
        cases times p n item.2 with
        | none => rfl
        | some items => cases h : mapAll f items.1 <;> simp [mapAll, hf, h]

theorem mapAll_isSome : (mapAll f bs).isSome = true ↔ ∀ b ∈ bs, (f b).isSome = true := by
  induction bs with
  | nil => simp [mapAll]
  | cons b bs ih =>
    simp only [mapAll, List.forall_mem_cons]
    cases f b with
    | none => simp
    | some c => simp [ih]

-- What fails less often, and gives the same otherwise, gives the same for every list.
theorem mapAll_mono (h : ∀ b ∈ bs, ∀ c, f b = some c → g b = some c) (hf : mapAll f bs = some cs) :
    mapAll g bs = some cs := by
  induction bs generalizing cs with
  | nil => exact hf
  | cons b bs ih =>
    simp only [mapAll, Option.bind_eq_some_iff, Option.map_eq_some_iff] at hf ⊢
    obtain ⟨c, hc, cs', hcs, rfl⟩ := hf
    exact ⟨c, h b (by simp) c hc, cs', ih (fun b' hb' => h b' (by simp [hb'])) hcs, rfl⟩

end

end WpaSupplicant.Lib.Repeat

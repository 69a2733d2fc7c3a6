import Mathlib.Data.List.Nodup

namespace WpaSupplicant.Lib.FirstMatch

variable {α β : Type}

def modifyFirst (P : α → Bool) (f : α → α) : List α → List α
  | [] => []
  | a :: l => if P a then f a :: l else a :: modifyFirst P f l

variable {P : α → Bool} {f : α → α} {l : List α} {a b : α}

theorem mem_modifyFirst (h : b ∈ modifyFirst P f l) :
    b ∈ l ∨ ∃ a, l.find? P = some a ∧ b = f a := by
  induction l with
  | nil => cases h
  | cons x l ih =>
    unfold modifyFirst at h
    by_cases hx : P x = true
    · rw [if_pos hx, List.mem_cons] at h
      rcases h with rfl | h
      · exact .inr ⟨x, List.find?_cons_of_pos hx, rfl⟩
      · exact .inl (List.mem_cons_of_mem _ h)
    rw [if_neg hx, List.mem_cons] at h
    rw [List.find?_cons_of_neg hx]
    rcases h with rfl | h
    · exact .inl List.mem_cons_self
    · exact (ih h).imp (List.mem_cons_of_mem _) id

theorem modifyFirst_mem (h : l.find? P = some a) : f a ∈ modifyFirst P f l := by
  induction l with
  | nil => cases h
  | cons x l ih =>
    unfold modifyFirst
    by_cases hx : P x = true
    · rw [List.find?_cons_of_pos hx] at h
      cases h
      rw [if_pos hx]
      exact List.mem_cons_self
    · rw [List.find?_cons_of_neg hx] at h
      rw [if_neg hx]
      exact List.mem_cons_of_mem _ (ih h)

theorem map_modifyFirst {g : α → β} (hg : ∀ a, g (f a) = g a) :
    (modifyFirst P f l).map g = l.map g := by
  induction l with
  | nil => rfl
  | cons x l ih =>
    unfold modifyFirst
    split
    · simp [hg]
    · simp [ih]

theorem modifyFirst_of_key {g : α → β} (hg : ∀ a, g (f a) = g a) (hnodup : (l.map g).Nodup)
    (hfind : l.find? P = some a) (hb : b ∈ modifyFirst P f l) (hkey : g b = g a) : b = f a := by
  have hnodup' : ((modifyFirst P f l).map g).Nodup := by
    rw [map_modifyFirst hg]
    exact hnodup
  exact List.inj_on_of_nodup_map hnodup' hb (modifyFirst_mem hfind) (hkey.trans (hg a).symm)

theorem eraseP_modifyFirst (hf : ∀ a, P (f a) = P a) : (modifyFirst P f l).eraseP P = l.eraseP P := by
  induction l with
  | nil => rfl
  | cons x l ih =>
    unfold modifyFirst
    by_cases hx : P x = true
    · rw [if_pos hx, List.eraseP_cons_of_pos hx, List.eraseP_cons_of_pos (by rw [hf, hx])]
    · rw [if_neg hx, List.eraseP_cons_of_neg hx, List.eraseP_cons_of_neg hx, ih]

-- The first match is removed: no element with its key is left.
theorem key_not_mem_eraseP {g : α → β} (hnodup : (l.map g).Nodup) (hfind : l.find? P = some a)
    (hb : b ∈ l.eraseP P) : g b ≠ g a := by
  obtain ⟨hPa, l₁, l₂, rfl, hl₁⟩ := List.find?_eq_some_iff_append.mp hfind
  have hfirst : ∀ x ∈ l₁, ¬P x = true := by simpa using hl₁
  rw [List.eraseP_append_right _ hfirst, List.eraseP_cons_of_pos hPa] at hb
  rw [List.map_append, List.map_cons, List.nodup_middle, List.nodup_cons] at hnodup
  intro hkey
  apply hnodup.1
  rw [← hkey, ← List.map_append]
  exact List.mem_map_of_mem hb

section Switch

-- The cases of a `switch`, each with a key and what it stores to

variable {κ φ : Type} [DecidableEq κ] [DecidableEq φ] {key : α → κ} {field : α → φ} {c d : α} {t : κ} {x : φ}

-- Cases with different keys store to different fields.
def Distinct (key : α → κ) (field : α → φ) (l : List α) : Prop :=
  ∀ c ∈ l, ∀ d ∈ l, key c = key d ↔ field c = field d

theorem find_key (h : l.find? (fun c => key c = t) = some c) : c ∈ l ∧ key c = t :=
  ⟨List.mem_of_find?_eq_some h, of_decide_eq_true (List.find?_some (p := fun c => decide (key c = t)) h)⟩

theorem Distinct.key_iff (hl : Distinct key field l) (hc : l.find? (fun c => key c = t) = some c)
    (hd : l.find? (fun d => field d = x) = some d) : t = key d ↔ x = field c := by
  obtain ⟨hcmem, rfl⟩ := find_key hc
  obtain ⟨hdmem, rfl⟩ := find_key hd
  rw [hl c hcmem d hdmem]
  exact eq_comm

theorem ne_of_find_none (hc : c ∈ l) (h : l.find? (fun c => key c = t) = none) : t ≠ key c := by
  intro heq
  exact List.find?_eq_none.1 h c hc (decide_eq_true heq.symm)

end Switch

end WpaSupplicant.Lib.FirstMatch

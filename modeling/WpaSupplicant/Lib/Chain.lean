import Mathlib.Data.List.Basic
import Mathlib.Tactic.Common

namespace WpaSupplicant.Lib.Chain

variable {α β : Type}

def pass (f : ℕ → α → β → α × β) : ℕ → α → List β → α × List β
  | _, a, [] => (a, [])
  | t, a, r :: rs =>
    let p := f t a r
    let q := pass f (t + 1) p.1 rs
    (q.1, p.2 :: q.2)

def passBack (g : ℕ → α → β → α × β) : ℕ → α → List β → α × List β
  | _, a, [] => (a, [])
  | t, a, r :: rs =>
    let q := passBack g (t + 1) a rs
    let p := g t q.1 r
    (p.1, p.2 :: q.2)

variable {f f' g : ℕ → α → β → α × β} {t : ℕ} {a : α} {l : List β}

theorem length_pass : (pass f t a l).2.length = l.length := by
  induction l generalizing t a with
  | nil => rfl
  | cons r rs ih => simp [pass, ih]

theorem length_passBack : (passBack g t a l).2.length = l.length := by
  induction l generalizing t with
  | nil => rfl
  | cons r rs ih => simp [passBack, ih]

theorem passBack_pass (h : ∀ t a r, g t (f t a r).1 (f t a r).2 = (a, r)) :
    passBack g t (pass f t a l).1 (pass f t a l).2 = (a, l) := by
  induction l generalizing t a with
  | nil => rfl
  | cons r rs ih =>
    rw [pass]
    dsimp only
    rw [passBack, ih]
    dsimp only
    rw [h]

theorem pass_passBack (h : ∀ t a r, f t (g t a r).1 (g t a r).2 = (a, r)) :
    pass f t (passBack g t a l).1 (passBack g t a l).2 = (a, l) := by
  induction l generalizing t with
  | nil => rfl
  | cons r rs ih =>
    rw [passBack]
    dsimp only
    rw [pass, h]
    dsimp only
    rw [ih]

theorem pass_congr (h : ∀ s, t ≤ s → s < t + l.length → f s = f' s) : pass f t a l = pass f' t a l := by
  induction l generalizing t a with
  | nil => rfl
  | cons r rs ih =>
    have hstep : f t = f' t := h t (by omega) (by simp)
    have hrest := ih (t := t + 1) (a := (f' t a r).1) fun s hs hlt => h s (by omega) (by
      rw [List.length_cons]
      omega)
    rw [pass, pass, hstep, hrest]

theorem passBack_congr (h : ∀ s, t ≤ s → s < t + l.length → f s = f' s) :
    passBack f t a l = passBack f' t a l := by
  induction l generalizing t with
  | nil => rfl
  | cons r rs ih =>
    have hstep : f t = f' t := h t (by omega) (by simp)
    have hrest := ih (t := t + 1) fun s hs hlt => h s (by omega) (by
      rw [List.length_cons]
      omega)
    rw [passBack, passBack, hstep, hrest]

-- Passes one after the other over an array of `n` cells: the pass `j` has the steps from `n * j + 1` on.
def rounds (f : ℕ → α → β → α × β) (n : ℕ) : List ℕ → α × List β → α × List β
  | [], s => s
  | j :: js, s => rounds f n js (pass f (n * j + 1) s.1 s.2)

def roundsBack (g : ℕ → α → β → α × β) (n : ℕ) : List ℕ → α × List β → α × List β
  | [], s => s
  | j :: js, s =>
    let s' := roundsBack g n js s
    passBack g (n * j + 1) s'.1 s'.2

variable {n : ℕ} {s : α × List β} {js : List ℕ}

theorem length_rounds : (rounds f n js s).2.length = s.2.length := by
  induction js generalizing s with
  | nil => rfl
  | cons j js ih => rw [rounds, ih, length_pass]

theorem length_roundsBack : (roundsBack g n js s).2.length = s.2.length := by
  induction js with
  | nil => rfl
  | cons j js ih => rw [roundsBack, length_passBack, ih]

theorem roundsBack_rounds (h : ∀ t a r, g t (f t a r).1 (f t a r).2 = (a, r)) :
    roundsBack g n js (rounds f n js s) = s := by
  induction js generalizing s with
  | nil => rfl
  | cons j js ih => rw [rounds, roundsBack, ih, passBack_pass h]

theorem rounds_roundsBack (h : ∀ t a r, f t (g t a r).1 (g t a r).2 = (a, r)) :
    rounds f n js (roundsBack g n js s) = s := by
  induction js generalizing s with
  | nil => rfl
  | cons j js ih => rw [roundsBack, rounds, pass_passBack h, ih]

theorem step_bound {j k t : ℕ} (hj : j < k) (ht : n * j + 1 ≤ t) (hlt : t < n * j + 1 + n) :
    1 ≤ t ∧ t ≤ n * k := by
  have hbound : n * (j + 1) ≤ n * k := Nat.mul_le_mul_left n hj
  rw [Nat.mul_succ] at hbound
  omega

theorem rounds_congr {k : ℕ} (h : ∀ t, 1 ≤ t → t ≤ n * k → f t = f' t) (hjs : ∀ j ∈ js, j < k)
    (hs : s.2.length = n) : rounds f n js s = rounds f' n js s := by
  induction js generalizing s with
  | nil => rfl
  | cons j js ih =>
    have hpass : pass f (n * j + 1) s.1 s.2 = pass f' (n * j + 1) s.1 s.2 := by
      refine pass_congr fun t ht hlt => ?_
      rw [hs] at hlt
      obtain ⟨hone, htop⟩ := step_bound (hjs j List.mem_cons_self) ht hlt
      exact h t hone htop
    rw [rounds, rounds, hpass]
    exact ih (fun j' hj' => hjs j' (List.mem_cons_of_mem _ hj')) (by rw [length_pass, hs])

theorem roundsBack_congr {k : ℕ} (h : ∀ t, 1 ≤ t → t ≤ n * k → f t = f' t) (hjs : ∀ j ∈ js, j < k)
    (hs : s.2.length = n) : roundsBack f n js s = roundsBack f' n js s := by
  induction js with
  | nil => rfl
  | cons j js ih =>
    rw [roundsBack, roundsBack, ih fun j' hj' => hjs j' (List.mem_cons_of_mem _ hj')]
    refine passBack_congr fun t ht hlt => ?_
    rw [length_roundsBack, hs] at hlt
    obtain ⟨hone, htop⟩ := step_bound (hjs j List.mem_cons_self) ht hlt
    exact h t hone htop

end WpaSupplicant.Lib.Chain

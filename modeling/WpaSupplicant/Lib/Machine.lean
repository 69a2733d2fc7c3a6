import Mathlib.Tactic.Common

namespace WpaSupplicant.Lib.Machine

variable {σ ο : Type}

-- The states that a machine reaches from one by steps that are allowed where they are taken
inductive Runs (exec : σ → ο → σ) (ok : σ → ο → Prop) (start : σ) : σ → Prop where
  | init : Runs exec ok start start
  | step {s : σ} (op : ο) (hs : Runs exec ok start s) (hok : ok s op) : Runs exec ok start (exec s op)

def Allowed (exec : σ → ο → σ) (ok : σ → ο → Prop) : σ → List ο → Prop
  | _, [] => True
  | s, op :: ops => ok s op ∧ Allowed exec ok (exec s op) ops

instance Allowed.decidable (exec : σ → ο → σ) (ok : σ → ο → Prop)
    [∀ s op, Decidable (ok s op)] : ∀ s ops, Decidable (Allowed exec ok s ops)
  | _, [] => isTrue trivial
  | s, op :: ops =>
    haveI := Allowed.decidable exec ok (exec s op) ops
    inferInstanceAs (Decidable (ok s op ∧ Allowed exec ok (exec s op) ops))

section

variable {exec : σ → ο → σ} {ok : σ → ο → Prop} {start s t : σ}

-- What every allowed step preserves holds in every state that is reached.
theorem Runs.rule {I : σ → Prop} (h : Runs exec ok start s) (hinit : I start)
    (hstep : ∀ s op, I s → ok s op → I (exec s op)) : I s := by
  induction h with
  | init => exact hinit
  | step op _ hok ih => exact hstep _ op ih hok

theorem Runs.trans (h : Runs exec ok start s) (h' : Runs exec ok s t) : Runs exec ok start t := by
  induction h' with
  | init => exact h
  | step op _ hok ih => exact .step op ih hok

theorem Runs.of_list (ops : List ο) (hallowed : Allowed exec ok s ops) :
    Runs exec ok s (ops.foldl exec s) := by
  induction ops generalizing s with
  | nil => exact .init
  | cons op ops ih =>
    obtain ⟨hok, hrest⟩ := hallowed
    exact (Runs.step op .init hok).trans (ih hrest)

theorem Runs.of_free (ops : List ο) (hfree : ∀ s op, ok s op) : Runs exec ok s (ops.foldl exec s) := by
  induction ops generalizing s with
  | nil => exact .init
  | cons op ops ih => exact (Runs.step op .init (hfree s op)).trans ih

end

end WpaSupplicant.Lib.Machine

namespace WpaSupplicant.Lib.History

variable {α : Type}

-- In a history, the last entry first: an entry `Q`, over the history before it, and since then `P`
inductive Since (P : α → Prop) (Q : α → List α → Prop) : List α → Prop where
  | now {x : α} {l : List α} (h : Q x l) : Since P Q (x :: l)
  | later {x : α} {l : List α} (h : P x) (hl : Since P Q l) : Since P Q (x :: l)

variable {P P' : α → Prop} {Q Q' : α → List α → Prop} {l : List α}

theorem Since.mono (h : Since P Q l) (hP : ∀ x, P x → P' x) (hQ : ∀ x l, Q x l → Q' x l) :
    Since P' Q' l := by
  induction h with
  | now h => exact .now (hQ _ _ h)
  | later h _ ih => exact .later (hP _ h) ih

end WpaSupplicant.Lib.History

namespace WpaSupplicant.Lib.StateMachine

variable {σ τ : Type} [DecidableEq τ]

inductive Move (τ : Type) where
  | stay
  | enter (state : τ)
  | enterGlobal (state : τ)
  deriving DecidableEq, Repr

def Move.run (cur : σ → τ) (entry : τ → σ → σ) : Move τ → σ → σ × Bool
  | .stay, s => (s, false)
  | .enter state, s => (entry state s, true)
  | .enterGlobal state, s => (entry state s, decide (cur s ≠ state))

section

variable {cur : σ → τ} {entry : τ → σ → σ} {s : σ} {m : Move τ}

theorem Move.run_rule {I : σ → Prop} (hstay : m = .stay → I s)
    (hentry : ∀ t, m = .enter t ∨ m = .enterGlobal t → I (entry t s)) : I (m.run cur entry s).1 := by
  cases m with
  | stay => exact hstay rfl
  | enter t => exact hentry t (Or.inl rfl)
  | enterGlobal t => exact hentry t (Or.inr rfl)

end

end WpaSupplicant.Lib.StateMachine

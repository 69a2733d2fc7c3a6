import Mathlib.Data.List.Basic
import Mathlib.Data.List.TakeWhile
import Mathlib.Tactic.Common

namespace WpaSupplicant.Lib.Window

-- A window over a stream of numbered requests: slot 0 holds the newest number, older numbers
-- are shifted towards the end, and a number counts only while every slot up to its own is
-- valid. Answering a request clears the valid flag of slot 0 and of no other slot.
structure Slot (α : Type) where
  counter : α
  valid : Bool
  deriving DecidableEq, Repr

variable {α : Type}

def push (next : α → α) : List (Slot α) → List (Slot α)
  | [] => []
  | s :: rest => ⟨next s.counter, true⟩ :: (s :: rest).dropLast

def retire : List (Slot α) → List (Slot α)
  | [] => []
  | s :: rest => { s with valid := false } :: rest

def accepts [DecidableEq α] (c : α) : List (Slot α) → Bool
  | [] => false
  | s :: rest => s.valid && (decide (c = s.counter) || accepts c rest)

def outstanding (w : List (Slot α)) : List α := (w.takeWhile Slot.valid).map Slot.counter

theorem accepts_iff_mem_outstanding [DecidableEq α] (c : α) (w : List (Slot α)) :
    accepts c w = true ↔ c ∈ outstanding w := by
  induction w with
  | nil => simp [accepts, outstanding]
  | cons s rest ih =>
    rw [outstanding] at ih ⊢
    cases hs : s.valid with
    | false => simp [accepts, hs]
    | true => simp [accepts, hs, ih]

@[simp] theorem length_push (next : α → α) (w : List (Slot α)) : (push next w).length = w.length := by
  cases w <;> simp [push]

@[simp] theorem length_retire (w : List (Slot α)) : (retire w).length = w.length := by
  cases w <;> simp [retire]

private theorem takeWhile_take (p : Slot α → Bool) (n : ℕ) (w : List (Slot α)) :
    (w.take n).takeWhile p = (w.takeWhile p).take n := by
  induction w generalizing n with
  | nil => simp
  | cons s rest ih =>
    cases n with
    | zero => simp
    | succ n =>
      cases hs : p s with
      | false => simp [List.take_succ_cons, hs]
      | true => simp [List.take_succ_cons, hs, ih]

-- Sending puts the next number in front and drops what the window can not hold any more.
theorem outstanding_push (next : α → α) (s : Slot α) (rest : List (Slot α)) :
    outstanding (push next (s :: rest)) =
      (next s.counter :: outstanding (s :: rest)).take (s :: rest).length := by
  rw [push, List.dropLast_eq_take, outstanding, outstanding, List.takeWhile_cons_of_pos rfl,
    takeWhile_take]
  simp [List.map_take]

theorem outstanding_retire (w : List (Slot α)) : outstanding (retire w) = [] := by
  cases w <;> simp [retire, outstanding]

end WpaSupplicant.Lib.Window

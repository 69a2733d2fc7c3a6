import Mathlib.Data.List.Nodup
import Mathlib.Tactic.Common

namespace WpaSupplicant.Lib.DlList

-- Intrusive doubly linked lists, as the lists of their items in order. A position in a list is
-- the item in front of it, or `none` for the list head.

variable {α : Type*} [DecidableEq α]

-- The `prev` link of an item
def prevOf (p : α) (l : List α) : Option α := (l.takeWhile fun a => a ≠ p).getLast?

def addBehind (q item : α) : List α → List α
  | [] => []
  | a :: l => if a = q then a :: item :: l else a :: addBehind q item l

def dlListAdd : Option α → α → List α → List α
  | none, item, l => item :: l
  | some q, item, l => addBehind q item l

-- `dl_list_del` and `dl_list_add_tail`
def dlListDel (p : α) (l : List α) : List α := l.erase p

def dlListAddTail (l : List α) (item : α) : List α := l ++ [item]

theorem addBehind_append (q item : α) (l₁ l₂ : List α) (hq : q ∉ l₁) :
    addBehind q item (l₁ ++ q :: l₂) = l₁ ++ q :: item :: l₂ := by
  induction l₁ with
  | nil => simp [addBehind]
  | cons a l₁ ih =>
    have ha : a ≠ q := fun h => hq (by simp [h])
    have hl : q ∉ l₁ := fun h => hq (List.mem_cons_of_mem a h)
    rw [List.cons_append, addBehind, if_neg ha, ih hl, List.cons_append]

theorem prevOf_append (p : α) (l₁ l₂ : List α) (hp : p ∉ l₁) :
    prevOf p (l₁ ++ p :: l₂) = l₁.getLast? := by
  have htake : (l₁ ++ p :: l₂).takeWhile (fun a => a ≠ p) = l₁ := by
    rw [List.takeWhile_append_of_pos]
    · simp
    · intro a ha
      have hne : a ≠ p := fun h => hp (h ▸ ha)
      simpa using hne
  rw [prevOf, htake]

theorem erase_middle (p : α) (l₁ l₂ : List α) (hp : p ∉ l₁) :
    dlListDel p (l₁ ++ p :: l₂) = l₁ ++ l₂ := by
  rw [dlListDel, List.erase_append_right _ hp, List.erase_cons_head]

-- An item that is taken out and put back behind the same neighbour, under another address,
-- keeps its place.
theorem relink (p p' : α) (l₁ l₂ : List α) (hnodup : (l₁ ++ p :: l₂).Nodup) :
    dlListAdd (prevOf p (l₁ ++ p :: l₂)) p' (dlListDel p (l₁ ++ p :: l₂)) =
      l₁ ++ p' :: l₂ := by
  have hp : p ∉ l₁ := by
    intro h
    exact (List.nodup_append.mp hnodup).2.2 p h p (by simp) rfl
  rw [prevOf_append p l₁ l₂ hp, erase_middle p l₁ l₂ hp]
  rcases List.eq_nil_or_concat' l₁ with rfl | ⟨front, q, rfl⟩
  · rfl
  have hq : q ∉ front := by
    have hfront : (front ++ [q]).Nodup := (List.nodup_append.mp hnodup).1
    intro h
    exact (List.nodup_append.mp hfront).2.2 q h q (by simp) rfl
  rw [List.getLast?_concat, dlListAdd, List.append_assoc, List.singleton_append,
    addBehind_append q p' front l₂ hq, List.append_assoc, List.singleton_append]

end WpaSupplicant.Lib.DlList

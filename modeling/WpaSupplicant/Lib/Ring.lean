import Mathlib.Data.List.Nodup
import Mathlib.Logic.Function.Basic
import Mathlib.Tactic.Common

namespace WpaSupplicant.Lib.Ring

-- Circular doubly linked lists, as their nodes' links. A list has a head, which is a node without an item.

variable {N : Type*}

@[ext] structure Links (N : Type*) where
  next : N → Option N
  prev : N → Option N

namespace Links

variable [DecidableEq N]

def setNext (m : Links N) (a : N) (b : Option N) : Links N := { m with next := Function.update m.next a b }

def setPrev (m : Links N) (a : N) (b : Option N) : Links N := { m with prev := Function.update m.prev a b }

-- `dl_list_init`
def init (m : Links N) (head : N) : Links N := (m.setNext head (some head)).setPrev head (some head)

-- `dl_list_add`
def add (m : Links N) (list item : N) : Links N :=
  let m := m.setNext item (m.next list)
  let m := m.setPrev item (some list)
  let m := match m.next list with
    | some n => m.setPrev n (some item)
    | none => m
  m.setNext list (some item)

-- `dl_list_add_tail`
def addTail (m : Links N) (head item : N) : Links N :=
  match m.prev head with
  | some last => m.add last item
  | none => m

-- `dl_list_del`
def del (m : Links N) (item : N) : Links N :=
  let m := match m.next item with
    | some n => m.setPrev n (m.prev item)
    | none => m
  let m := match m.prev item with
    | some p => m.setNext p (m.next item)
    | none => m
  (m.setNext item none).setPrev item none

-- `dl_list_empty`
def empty (m : Links N) (head : N) : Bool := m.next head = some head

-- `dl_list_first`
def first (m : Links N) (head : N) : Option N := if m.empty head then none else m.next head

-- The nodes that `dl_list_for_each` visits from a node on while nothing changes
def walk (m : Links N) (head : N) : ℕ → Option N → List N
  | fuel + 1, some item => if item = head then [] else item :: walk m head fuel (m.next item)
  | _, _ => []

-- `dl_list_len`
def len (m : Links N) (head : N) (fuel : ℕ) : ℕ := (m.walk head fuel (m.next head)).length

def drop (m : Links N) : Option N → Links N
  | some p => m.del p
  | none => m

-- A loop of `dl_list_for_each` that deletes a node that is not kept when it is at the next one, and the last one
-- behind the loop
def sweep (keep : N → Bool) (head : N) : ℕ → Option N → Option N → Links N → Links N
  | fuel + 1, some item, pending, m =>
    if item = head then m.drop pending
    else sweep keep head fuel ((m.drop pending).next item) (if keep item then none else some item) (m.drop pending)
  | _, _, pending, m => m.drop pending

-- A loop that deletes the first node while there is one, and remembers the one at a position
def drain (k : ℕ) (head : N) : ℕ → ℕ → Option N → Links N → Option N × Links N
  | fuel + 1, i, found, m =>
    match m.first head with
    | none => (found, m)
    | some p => drain k head fuel (i + 1) (if i = k then some p else found) (m.del p)
  | 0, _, found, m => (found, m)

end Links

-- The nodes between two, linked both ways
def Segment (m : Links N) : N → List N → N → Prop
  | a, [], c => m.next a = some c ∧ m.prev c = some a
  | a, x :: l, c => m.next a = some x ∧ m.prev x = some a ∧ Segment m x l c

-- The nodes of a list, in order
structure IsRing (m : Links N) (head : N) (l : List N) : Prop where
  nodup : (head :: l).Nodup
  linked : Segment m head l head

section Writes

variable [DecidableEq N] {m : Links N} {p q n : N}

theorem del_next (hnext : m.next p = some n) (hprev : m.prev p = some q) (hne : n ≠ p) (x : N) :
    (m.del p).next x = if x = p then none else if x = q then some n else m.next x := by
  have hprev' : (m.setPrev n (some q)).prev p = some q := by
    simp [Links.setPrev, hprev, hne.symm]
  simp only [Links.del, hnext, hprev, hprev']
  by_cases hx : x = p
  · simp [Links.setNext, Links.setPrev, hx]
  · simp [Links.setNext, Links.setPrev, Function.update_apply, hx, hnext]

theorem del_prev (hnext : m.next p = some n) (hprev : m.prev p = some q) (hne : n ≠ p) (x : N) :
    (m.del p).prev x = if x = p then none else if x = n then some q else m.prev x := by
  have hprev' : (m.setPrev n (some q)).prev p = some q := by
    simp [Links.setPrev, hprev, hne.symm]
  simp only [Links.del, hnext, hprev, hprev']
  by_cases hx : x = p
  · simp [Links.setNext, Links.setPrev, hx]
  · simp [Links.setNext, Links.setPrev, Function.update_apply, hx]

theorem add_next (hnext : m.next q = some n) (hne : p ≠ q) (x : N) :
    (m.add q p).next x = if x = q then some p else if x = p then some n else m.next x := by
  have hnext' : ((m.setNext p (some n)).setPrev p (some q)).next q = some n := by
    simp [Links.setNext, Links.setPrev, hne.symm, hnext]
  simp only [Links.add, hnext, hnext']
  by_cases hx : x = q
  · simp [Links.setNext, Links.setPrev, hx]
  · simp [Links.setNext, Links.setPrev, Function.update_apply, hx]

theorem add_prev (hnext : m.next q = some n) (hne : p ≠ q) (x : N) :
    (m.add q p).prev x = if x = n then some p else if x = p then some q else m.prev x := by
  have hnext' : ((m.setNext p (some n)).setPrev p (some q)).next q = some n := by
    simp [Links.setNext, Links.setPrev, hne.symm, hnext]
  simp only [Links.add, hnext, hnext']
  by_cases hx : x = n
  · simp [Links.setNext, Links.setPrev, hx]
  · simp [Links.setNext, Links.setPrev, Function.update_apply, hx]

end Writes

namespace Segment

variable {m m' : Links N} {a c p : N} {l l₁ l₂ : List N}

theorem congr (h : Segment m a l c) (hnext : ∀ x ∈ a :: l, m'.next x = m.next x)
    (hprev : ∀ x ∈ l ++ [c], m'.prev x = m.prev x) : Segment m' a l c := by
  induction l generalizing a with
  | nil =>
    obtain ⟨h₁, h₂⟩ := h
    exact ⟨(hnext a (by simp)).trans h₁, (hprev c (by simp)).trans h₂⟩
  | cons x l ih =>
    obtain ⟨h₁, h₂, h⟩ := h
    refine ⟨(hnext a (by simp)).trans h₁, (hprev x (by simp)).trans h₂, ih h ?_ ?_⟩
    · exact fun y hy => hnext y (List.mem_cons_of_mem a hy)
    · exact fun y hy => hprev y (List.mem_cons_of_mem x hy)

theorem next_start (h : Segment m a l c) : m.next a = (l ++ [c]).head? := by
  cases l with
  | nil => exact h.1
  | cons x l => exact h.1

theorem prev_end (h : Segment m a l c) : ∃ q ∈ a :: l, m.prev c = some q ∧ m.next q = some c := by
  induction l generalizing a with
  | nil => exact ⟨a, by simp, h.2, h.1⟩
  | cons x l ih =>
    obtain ⟨q, hq, hprev⟩ := ih h.2.2
    exact ⟨q, List.mem_cons_of_mem a hq, hprev⟩

theorem append : Segment m a (l₁ ++ p :: l₂) c ↔ Segment m a l₁ p ∧ Segment m p l₂ c := by
  induction l₁ generalizing a with
  | nil => exact (and_assoc).symm
  | cons x l₁ ih =>
    simp only [List.cons_append, Segment, ih]
    tauto

theorem neighbours (h : Segment m a (l₁ ++ p :: l₂) c) :
    (∃ q ∈ a :: l₁, m.prev p = some q) ∧ ∃ n ∈ l₂ ++ [c], m.next p = some n := by
  obtain ⟨h₁, h₂⟩ := append.1 h
  obtain ⟨q, hq, hprev, -⟩ := h₁.prev_end
  refine ⟨⟨q, hq, hprev⟩, ?_⟩
  cases l₂ with
  | nil => exact ⟨c, by simp, h₂.1⟩
  | cons y l => exact ⟨y, by simp, h₂.1⟩

variable [DecidableEq N]

theorem del (hfrom : (a :: (l₁ ++ p :: l₂)).Nodup) (hto : (l₁ ++ p :: l₂ ++ [c]).Nodup)
    (h : Segment m a (l₁ ++ p :: l₂) c) : Segment (m.del p) a (l₁ ++ l₂) c := by
  induction l₁ generalizing a with
  | nil =>
    obtain ⟨-, hprev, h⟩ := h
    simp only [List.nil_append, List.nodup_cons, List.mem_cons, not_or, List.cons_append] at hfrom hto
    cases l₂ with
    | nil =>
      have hne : c ≠ p := by
        rintro rfl
        simp at hto
      exact ⟨by simp [del_next h.1 hprev hne, hfrom.1.1], by simp [del_prev h.1 hprev hne, hne]⟩
    | cons y l =>
      obtain ⟨hnext, -, h⟩ := h
      simp only [List.mem_cons, List.cons_append, List.nodup_cons, not_or] at hfrom hto
      have hne : y ≠ p := fun heq => hfrom.2.1.1 heq.symm
      refine ⟨by simp [del_next hnext hprev hne, hfrom.1.1], by simp [del_prev hnext hprev hne, hne], ?_⟩
      refine h.congr ?_ ?_
      · intro x hx
        have hxp : x ≠ p := by
          rintro rfl
          simp_all
        have hxa : x ≠ a := by
          rintro rfl
          simp_all
        rw [del_next hnext hprev hne, if_neg hxp, if_neg hxa]
      · intro x hx
        have hxp : x ≠ p := by
          rintro rfl
          exact hto.1.2 hx
        have hxy : x ≠ y := by
          rintro rfl
          exact hto.2.1 hx
        rw [del_prev hnext hprev hne, if_neg hxp, if_neg hxy]
  | cons x l₁ ih =>
    obtain ⟨hnext, hprev, h⟩ := h
    obtain ⟨⟨q, hq, hpq⟩, n, hn, hpn⟩ := h.neighbours
    rw [List.cons_append, List.nodup_cons] at hfrom
    rw [List.cons_append, List.cons_append, List.nodup_cons] at hto
    have hne : n ≠ p := by
      rintro rfl
      have hmid := (List.nodup_append.mp (List.append_assoc l₁ _ _ ▸ hto.2)).2.1
      exact (List.nodup_cons.mp hmid).1 hn
    have hap : a ≠ p := by
      rintro rfl
      simp at hfrom
    have haq : a ≠ q := by
      rintro rfl
      refine hfrom.1 ?_
      simp only [List.mem_cons, List.mem_append] at hq ⊢
      tauto
    have hxp : x ≠ p := by
      rintro rfl
      simp at hto
    have hxn : x ≠ n := by
      rintro rfl
      refine hto.1 ?_
      simp only [List.mem_cons, List.mem_append] at hn ⊢
      tauto
    refine ⟨?_, ?_, ih hfrom.2 hto.2 h⟩
    · rw [del_next hpn hpq hne, if_neg hap, if_neg haq, hnext]
    · rw [del_prev hpn hpq hne, if_neg hxp, if_neg hxn, hprev]

theorem addTail (hfrom : (a :: l).Nodup) (hto : (l ++ [c]).Nodup) (hnew : p ∉ a :: (l ++ [c]))
    (h : Segment m a l c) : Segment (m.addTail c p) a (l ++ [p]) c := by
  obtain ⟨q, hq, hlast, hback⟩ := h.prev_end
  have hpq : p ≠ q := by
    rintro rfl
    simp only [List.mem_cons, List.mem_append, not_or] at hnew hq
    tauto
  have hadd : m.addTail c p = m.add q p := by simp [Links.addTail, hlast]
  rw [hadd]
  clear hadd
  induction l generalizing a with
  | nil =>
    have hqa : q = a := by simpa using hq
    subst hqa
    simp only [List.nil_append, List.mem_cons, List.not_mem_nil, or_false, not_or] at hnew
    refine ⟨?_, ?_, ?_, ?_⟩
    · simp [add_next hback hpq]
    · simp [add_prev hback hpq, hnew.2]
    · simp [add_next hback hpq, hpq]
    · simp [add_prev hback hpq]
  | cons x l ih =>
    obtain ⟨hnext, hprev, h⟩ := h
    rw [List.nodup_cons] at hfrom
    rw [List.cons_append, List.nodup_cons] at hto
    rw [List.cons_append, List.mem_cons, not_or] at hnew
    obtain ⟨q', hq', hlast', -⟩ := h.prev_end
    have hqq : q = q' := Option.some.inj (hlast.symm.trans hlast')
    rw [← hqq] at hq'
    have haq : a ≠ q := by
      rintro rfl
      exact hfrom.1 hq'
    have hxc : x ≠ c := by
      rintro rfl
      simp at hto
    have hxp : x ≠ p := by
      rintro rfl
      simp at hnew
    refine ⟨?_, ?_, ih hfrom.2 hto.2 hnew.2 h hq'⟩
    · rw [add_next hback hpq, if_neg haq, if_neg (Ne.symm hnew.1), hnext]
    · rw [add_prev hback hpq, if_neg hxc, if_neg hxp, hprev]

end Segment

namespace IsRing

variable {m : Links N} {head p : N} {l l₁ l₂ : List N}

theorem nodup_tail (h : IsRing m head l) : (l ++ [head]).Nodup :=
  (List.perm_append_singleton head l).nodup_iff.mpr h.nodup

theorem next_head (h : IsRing m head l) : m.next head = (l ++ [head]).head? := h.linked.next_start

theorem next_node (h : IsRing m head (l₁ ++ p :: l₂)) : m.next p = (l₂ ++ [head]).head? :=
  (Segment.append.1 h.linked).2.next_start

theorem head_ne {a : N} (h : IsRing m head (a :: l)) : a ≠ head := by
  rintro rfl
  exact (List.nodup_cons.mp h.nodup).1 (by simp)

theorem ne_head (h : IsRing m head (l₁ ++ p :: l₂)) : p ≠ head := by
  rintro rfl
  exact (List.nodup_cons.mp h.nodup).1 (by simp)

variable [DecidableEq N]

theorem init (m : Links N) (head : N) : IsRing (m.init head) head [] where
  nodup := List.nodup_singleton head
  linked := by simp [Segment, Links.init, Links.setNext, Links.setPrev]

theorem del (l₁ : List N) (h : IsRing m head (l₁ ++ p :: l₂)) : IsRing (m.del p) head (l₁ ++ l₂) where
  nodup := by
    have hsub : (l₁ ++ l₂).Sublist (l₁ ++ p :: l₂) := (List.sublist_cons_self p l₂).append_left l₁
    exact (hsub.cons_cons head).nodup h.nodup
  linked := h.linked.del h.nodup h.nodup_tail

theorem addTail (h : IsRing m head l) (hnew : p ∉ head :: l) : IsRing (m.addTail head p) head (l ++ [p]) where
  nodup := by
    rw [List.mem_cons, not_or] at hnew
    rw [← List.cons_append, List.nodup_append]
    refine ⟨h.nodup, List.nodup_singleton p, ?_⟩
    intro a ha b hb
    rw [List.mem_singleton.mp hb]
    rintro rfl
    exact (List.mem_cons.mp ha).elim hnew.1 hnew.2
  linked := by
    have hnew' : p ∉ head :: (l ++ [head]) := by simp_all
    exact h.linked.addTail h.nodup h.nodup_tail hnew'

theorem empty (h : IsRing m head l) : m.empty head = l.isEmpty := by
  unfold Links.empty
  rw [h.next_head]
  cases l with
  | nil => simp
  | cons x l =>
    have hne : x ≠ head := h.head_ne
    simp [hne]

theorem first (h : IsRing m head l) : m.first head = l.head? := by
  unfold Links.first
  rw [h.empty, h.next_head]
  cases l <;> simp

theorem walk_from (l₁ : List N) (h : IsRing m head (l₁ ++ l₂)) {fuel : ℕ} (hfuel : l₂.length < fuel) :
    m.walk head fuel (l₂ ++ [head]).head? = l₂ := by
  induction l₂ generalizing l₁ fuel with
  | nil =>
    cases fuel with
    | zero => omega
    | succ fuel => simp [Links.walk]
  | cons x l ih =>
    cases fuel with
    | zero => omega
    | succ fuel =>
      simp only [List.cons_append, List.head?_cons, Links.walk, if_neg h.ne_head, h.next_node]
      rw [ih (l₁ ++ [x]) (by simpa using h) (by simpa using hfuel)]

-- `dl_list_for_each` visits the nodes in order.
theorem walk (h : IsRing m head l) {fuel : ℕ} (hfuel : l.length < fuel) : m.walk head fuel (m.next head) = l := by
  rw [h.next_head]
  exact walk_from [] h hfuel

theorem len (h : IsRing m head l) {fuel : ℕ} (hfuel : l.length < fuel) : m.len head fuel = l.length := by
  rw [Links.len, h.walk hfuel]

theorem drop {pending : Option N} (h : IsRing m head (l₁ ++ pending.toList ++ l₂)) :
    IsRing (m.drop pending) head (l₁ ++ l₂) := by
  cases pending with
  | none => simpa [Links.drop] using h
  | some p => exact IsRing.del l₁ (by simpa using h)

theorem sweep_from {keep : N → Bool} (l₁ : List N) (pending : Option N) (h : IsRing m head (l₁ ++ pending.toList ++ l₂)) {fuel : ℕ}
    (hfuel : l₂.length < fuel) :
    IsRing (Links.sweep keep head fuel (l₂ ++ [head]).head? pending m) head (l₁ ++ l₂.filter keep) := by
  induction l₂ generalizing l₁ fuel pending m with
  | nil =>
    cases fuel with
    | zero => omega
    | succ fuel =>
      simp only [List.nil_append, List.head?_cons, Links.sweep, if_true, List.filter_nil]
      exact h.drop
  | cons x l ih =>
    cases fuel with
    | zero => omega
    | succ fuel =>
      rw [List.length_cons] at hfuel
      have hdropped : IsRing (m.drop pending) head (l₁ ++ x :: l) := h.drop
      simp only [List.cons_append, List.head?_cons, Links.sweep, if_neg hdropped.ne_head, hdropped.next_node]
      by_cases hkeep : keep x = true
      · rw [if_pos hkeep, List.filter_cons_of_pos hkeep]
        have hkept : IsRing (m.drop pending) head (l₁ ++ [x] ++ (none : Option N).toList ++ l) := by simpa using hdropped
        simpa using ih _ none hkept (by omega)
      · rw [if_neg hkeep, List.filter_cons_of_neg hkeep]
        have hpending : IsRing (m.drop pending) head (l₁ ++ (some x).toList ++ l) := by simpa using hdropped
        exact ih _ (some x) hpending (by omega)

theorem sweep {keep : N → Bool} (h : IsRing m head l) {fuel : ℕ} (hfuel : l.length < fuel) :
    IsRing (Links.sweep keep head fuel (m.next head) none m) head (l.filter keep) := by
  rw [h.next_head]
  exact sweep_from [] none h hfuel

theorem drain_from (h : IsRing m head l) (k i : ℕ) (found : Option N) {fuel : ℕ} (hfuel : l.length < fuel) :
    IsRing (Links.drain k head fuel i found m).2 head [] ∧
      (Links.drain k head fuel i found m).1 = (if i ≤ k then l[k - i]? else none).or found := by
  induction l generalizing i found fuel m with
  | nil =>
    cases fuel with
    | zero => omega
    | succ fuel =>
      simp only [Links.drain, h.first, List.head?_nil]
      exact ⟨h, by simp⟩
  | cons x l ih =>
    cases fuel with
    | zero => omega
    | succ fuel =>
      rw [List.length_cons] at hfuel
      simp only [Links.drain, h.first, List.head?_cons]
      have hrest : IsRing (m.del x) head l := IsRing.del [] h
      have hl : l.length < fuel := by omega
      obtain ⟨hring, hfound⟩ := ih hrest (i + 1) (if i = k then some x else found) hl
      refine ⟨hring, hfound.trans ?_⟩
      rcases Nat.lt_trichotomy i k with hlt | rfl | hgt
      · obtain ⟨d, rfl⟩ : ∃ d, k = i + 1 + d := ⟨k - i - 1, by omega⟩
        have hsub : i + 1 + d - i = d + 1 := by omega
        simp [hsub, show ¬i = i + 1 + d by omega, show i ≤ i + 1 + d by omega]
      · simp [show ¬i + 1 ≤ i by omega]
      · simp [show ¬i + 1 ≤ k by omega, show ¬i ≤ k by omega, show ¬i = k by omega]

theorem drain (h : IsRing m head l) (k : ℕ) {fuel : ℕ} (hfuel : l.length < fuel) :
    IsRing (Links.drain k head fuel 0 none m).2 head [] ∧ (Links.drain k head fuel 0 none m).1 = l[k]? := by
  simpa using h.drain_from k 0 none hfuel

end IsRing

end WpaSupplicant.Lib.Ring

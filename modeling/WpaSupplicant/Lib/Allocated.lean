import WpaSupplicant.Lib.Checked

namespace WpaSupplicant.Lib.Allocated

-- Buffers of an allocated size that grow at their end

variable {α : Type}

def put (size : ℕ) (buf x : List α) : Option (List α) :=
  if buf.length + x.length ≤ size then some (buf ++ x) else none

def putAll (size : ℕ) (buf : List α) (l : List (List α)) : Option (List α) := l.foldlM (put size) buf

section Put

variable {size : ℕ} {buf buf' x : List α} {l : List (List α)}

theorem put_of_le (h : buf.length + x.length ≤ size) : put size buf x = some (buf ++ x) := if_pos h

theorem putAll_cons : putAll size buf (x :: l) = (put size buf x).bind fun buf => putAll size buf l :=
  List.foldlM_cons ..

theorem putAll_eq (h : buf.length ≤ size) :
    putAll size buf l = if buf.length + l.flatten.length ≤ size then some (buf ++ l.flatten) else none := by
  induction l generalizing buf with
  | nil =>
    rw [List.flatten_nil, List.append_nil, List.length_nil, Nat.add_zero, if_pos h]
    rfl
  | cons x l ih =>
    rw [putAll_cons, List.flatten_cons, List.length_append]
    by_cases hx : buf.length + x.length ≤ size
    · rw [put_of_le hx, Option.bind_some, ih (by rw [List.length_append]; exact hx), List.length_append,
        List.append_assoc, Nat.add_assoc]
    · rw [put, if_neg hx, if_neg (by omega)]
      rfl

end Put

section Pieces

variable {n : ℕ} {l : List α}

def pieces (n : ℕ) (l : List α) : List (List α) := if l = [] ∨ n = 0 then [] else l.take n :: pieces n (l.drop n)
termination_by l.length
decreasing_by
  rename_i h
  rw [List.length_drop]
  have hl : 0 < l.length := List.length_pos_iff.2 fun hl => h (.inl hl)
  omega

theorem pieces_nil : pieces n ([] : List α) = [] := by
  rw [pieces, if_pos (.inl rfl)]

theorem pieces_cons (hn : 0 < n) (hl : l ≠ []) : pieces n l = l.take n :: pieces n (l.drop n) := by
  rw [pieces, if_neg (by rintro (h | h) <;> [exact hl h; omega])]

theorem pieces_induction {P : List α → Prop} (hn : 0 < n) (hnil : P [])
    (hcons : ∀ l, l ≠ [] → P (l.drop n) → P l) (l : List α) : P l := by
  induction hlen : l.length using Nat.strongRecOn generalizing l with
  | ind k ih =>
    by_cases hl : l = []
    · rw [hl]
      exact hnil
    · have hpos := List.length_pos_iff.2 hl
      exact hcons l hl (ih _ (by rw [List.length_drop]; omega) _ rfl)

theorem flatten_pieces (hn : 0 < n) (l : List α) : (pieces n l).flatten = l := by
  induction l using pieces_induction hn with
  | hnil => rw [pieces_nil, List.flatten_nil]
  | hcons l hl ih => rw [pieces_cons hn hl, List.flatten_cons, ih, List.take_append_drop]

theorem length_of_mem_pieces (hn : 0 < n) (l : List α) : ∀ x ∈ pieces n l, 0 < x.length ∧ x.length ≤ n := by
  induction l using pieces_induction hn with
  | hnil =>
    rw [pieces_nil]
    exact fun x hx => absurd hx List.not_mem_nil
  | hcons l hl ih =>
    rw [pieces_cons hn hl, List.forall_mem_cons, List.length_take]
    have hpos := List.length_pos_iff.2 hl
    exact ⟨by omega, ih⟩

theorem length_pieces_le (hn : 0 < n) (l : List α) (k : ℕ) : (pieces n l).length ≤ k ↔ l.length ≤ n * k := by
  induction l using pieces_induction hn generalizing k with
  | hnil => simp [pieces_nil]
  | hcons l hl ih =>
    have hpos := List.length_pos_iff.2 hl
    rw [pieces_cons hn hl, List.length_cons]
    cases k with
    | zero => omega
    | succ k =>
      rw [Nat.add_le_add_iff_right, ih k, List.length_drop, Nat.mul_succ]
      omega

theorem whole_pieces (hn : 0 < n) (l : List α) (k : ℕ) (hl : l.length = n * k) :
    (pieces n l).length = k ∧ ∀ x ∈ pieces n l, x.length = n := by
  induction l using pieces_induction hn generalizing k with
  | hnil =>
    have hk : k = 0 := (Nat.mul_eq_zero.1 hl.symm).resolve_left (by omega)
    rw [pieces_nil, hk]
    exact ⟨rfl, fun x hx => absurd hx List.not_mem_nil⟩
  | hcons l hne ih =>
    have hpos := List.length_pos_iff.2 hne
    cases k with
    | zero => omega
    | succ k =>
      rw [Nat.mul_succ] at hl
      obtain ⟨hcount, hwhole⟩ := ih k (by rw [List.length_drop]; omega)
      rw [pieces_cons hn hne, List.length_cons, hcount, List.forall_mem_cons, List.length_take]
      exact ⟨rfl, by omega, hwhole⟩

end Pieces

end WpaSupplicant.Lib.Allocated

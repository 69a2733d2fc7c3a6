import Mathlib.Data.List.Basic
import Mathlib.Data.Vector.Defs
import Mathlib.Tactic.Common

namespace WpaSupplicant.Lib.Buffer

variable {α : Type}

-- The `n` elements of a buffer from position `i` on
def field (l : List α) (i n : ℕ) : List α := (l.drop i).take n

-- A buffer with the elements from position `i` on written over
def patch (l : List α) (i : ℕ) (x : List α) : List α := l.take i ++ x ++ l.drop (i + x.length)

section

variable {l r x y : List α} {i n : ℕ}

theorem patch_append (hi : l.length = i) (hx : x.length = y.length) :
    patch (l ++ x ++ r) i y = l ++ y ++ r := by
  have htake : (l ++ x ++ r).take i = l := by
    rw [List.append_assoc]
    exact List.take_left' hi
  have hdrop : (l ++ x ++ r).drop (i + y.length) = r := by
    apply List.drop_left'
    rw [List.length_append, hi, hx]
  rw [patch, htake, hdrop]

theorem field_append (hi : l.length = i) (hn : x.length = n) : field (l ++ x ++ r) i n = x := by
  rw [field, List.append_assoc, List.drop_left' hi, List.take_left' hn]

theorem field_middle {k : ℕ} (hi : l.length = i) (h : k + n ≤ x.length) : field (l ++ x ++ r) (i + k) n = field x k n := by
  rw [field, field, ← hi, List.append_assoc, List.drop_length_add_append, List.drop_append_of_le_length (by omega),
    List.take_append_of_le_length (by rw [List.length_drop]; omega)]

theorem getElem?_patch_of_lt {j : ℕ} (hj : j < i) (hl : i ≤ l.length) : (patch l i x)[j]? = l[j]? := by
  have hlt : j < (l.take i).length := by
    rw [List.length_take]
    omega
  rw [patch, List.append_assoc, List.getElem?_append_left hlt, List.getElem?_take_of_lt hj]

theorem length_le_flatMap {β : Type} {f : β → List α} {b : β} {bs : List β} (h : b ∈ bs) :
    (f b).length ≤ (bs.flatMap f).length := by
  obtain ⟨before, after, rfl⟩ := List.append_of_mem h
  rw [List.flatMap_append, List.flatMap_cons, List.length_append, List.length_append]
  omega

theorem le_length_patch (hl : i ≤ l.length) : l.length ≤ (patch l i x).length := by
  simp only [patch, List.length_append, List.length_take, List.length_drop]
  omega

end

end WpaSupplicant.Lib.Buffer

namespace WpaSupplicant.Lib.Checked

open Buffer

-- Buffers with reads and writes that are checked against their size

variable {α : Type}

def store (buf : List α) (pos : ℕ) (x : List α) : Option (List α) :=
  if pos + x.length ≤ buf.length then some (patch buf pos x) else none

def load (buf : List α) (pos n : ℕ) :
    Option (List α) := if pos + n ≤ buf.length then some (field buf pos n) else none

def move (buf : List α) (dest pos n : ℕ) : Option (List α) := (load buf pos n).bind (store buf dest)

variable {buf buf' rest x : List α} {pos : ℕ}

theorem load_eq {n : ℕ} (h : pos + n ≤ buf.length) : load buf pos n = some (field buf pos n) := if_pos h

theorem length_field {n : ℕ} (h : pos + n ≤ buf.length) : (field buf pos n).length = n := by
  rw [field, List.length_take, List.length_drop]
  omega

theorem drop_field {n : ℕ} (k : ℕ) : (field buf pos n).drop k = field buf (pos + k) (n - k) := by
  rw [field, field, List.drop_take, List.drop_drop]

theorem store_eq_some : store buf pos x = some buf' ↔ pos + x.length ≤ buf.length ∧ patch buf pos x = buf' := by
  by_cases h : pos + x.length ≤ buf.length
  · simp [store, h]
  · simp [store, h]

theorem store_append (done : List α) (h : x.length ≤ rest.length) :
    store (done ++ rest) done.length x = some (done ++ x ++ rest.drop x.length) := by
  rw [store, if_pos (by rw [List.length_append]; omega)]
  simp [patch]

theorem length_store (h : store buf pos x = some buf') : buf'.length = buf.length := by
  obtain ⟨hle, rfl⟩ := store_eq_some.1 h
  simp only [patch, List.length_append, List.length_take, List.length_drop]
  omega

theorem isSome_store : (store buf pos x).isSome ↔ pos + x.length ≤ buf.length := by
  simp [store]

-- Room is made for some elements, which are still those that were there.
theorem move_append (done : List α) {k n : ℕ} (h : k + n ≤ rest.length) :
    move (done ++ rest) (done.length + k) done.length n =
      some (done ++ rest.take k ++ rest.take n ++ rest.drop (k + n)) := by
  have hload : load (done ++ rest) done.length n = some (rest.take n) := by
    rw [load, if_pos (by rw [List.length_append]; omega)]
    simp [field]
  have hlen : (rest.take n).length = n := by
    rw [List.length_take]
    omega
  have hk : (done ++ rest.take k).length = done.length + k := by
    rw [List.length_append, List.length_take]
    omega
  have hsplit : done ++ rest = done ++ rest.take k ++ rest.drop k := by simp
  rw [move, hload, Option.bind_some, hsplit, ← hk, store_append _ (by rw [hlen, List.length_drop]; omega), hlen]
  simp

theorem store_keeps {done : List α} (hpos : done.length ≤ pos) (h : store (done ++ rest) pos x = some buf') :
    ∃ rest', buf' = done ++ rest' := by
  obtain ⟨-, rfl⟩ := store_eq_some.1 h
  refine ⟨rest.take (pos - done.length) ++ x ++ (done ++ rest).drop (pos + x.length), ?_⟩
  rw [patch, List.take_append, List.take_of_length_le hpos]
  simp

theorem move_keeps {done : List α} {dest n : ℕ} (hdest : done.length ≤ dest)
    (h : move (done ++ rest) dest pos n = some buf') : ∃ rest', buf' = done ++ rest' := by
  obtain ⟨x, -, hstore⟩ := Option.bind_eq_some_iff.mp h
  exact store_keeps hdest hstore

section Returns

variable {β ε : Type} {P : α → Prop} {Q : β → Prop} {n : ℕ}

-- A computation with checked reads and writes goes through, and its result is as said.
def Returns (r : Option α) (P : α → Prop) : Prop := ∃ a, r = some a ∧ P a

theorem Returns.pure {a : α} (h : P a) : Returns (some a) P := ⟨a, rfl, h⟩

variable {r : Option α}

theorem returns_iff : (Returns r fun _ => True) ↔ r.isSome := by
  simp only [Returns, and_true, Option.isSome_iff_exists]

theorem Returns.bind {f : α → Option β} (hr : Returns r P) (hf : ∀ a, P a → Returns (f a) Q) :
    Returns (r.bind f) Q := by
  obtain ⟨a, rfl, ha⟩ := hr
  exact hf a ha

theorem Returns.map {f : α → β} (hr : Returns r P) (hf : ∀ a, P a → Q (f a)) : Returns (r.map f) Q := by
  obtain ⟨a, rfl, ha⟩ := hr
  exact ⟨f a, rfl, hf a ha⟩

theorem Returns.ite {c : Prop} [Decidable c] {r r' : Option α} (hpos : c → Returns r P)
    (hneg : ¬ c → Returns r' P) :
    Returns (if c then r else r') P := by
  by_cases h : c
  · rw [if_pos h]
    exact hpos h
  · rw [if_neg h]
    exact hneg h

theorem Returns.mono {P' : α → Prop} (hr : Returns r P) (h : ∀ a, P a → P' a) : Returns r P' := by
  obtain ⟨a, rfl, ha⟩ := hr
  exact ⟨a, rfl, h a ha⟩

theorem Returns.foldlM {f : β → α → Option β} {I : β → List α → Prop}
    (hstep : ∀ b a l, I b (a :: l) → Returns (f b a) fun b' => I b' l) {l : List α} {b : β} (h : I b l) :
    Returns (l.foldlM f b) fun b' => I b' [] := by
  induction l generalizing b with
  | nil => exact .pure h
  | cons a l ih =>
    rw [List.foldlM_cons]
    exact (hstep b a l h).bind fun b' hb' => ih hb'

theorem Returns.mapM {f : α → Option β} {l : List α} (h : ∀ a ∈ l, Returns (f a) fun _ => True) :
    Returns (l.mapM f) fun _ => True := by
  induction l with
  | nil => exact .pure trivial
  | cons a l ih =>
    obtain ⟨ha, hl⟩ := List.forall_mem_cons.1 h
    rw [List.mapM_cons]
    exact ha.bind fun b _ => (ih hl).bind fun l' _ => .pure trivial

theorem returns_load (h : pos + n ≤ buf.length) : Returns (load buf pos n) fun l => l = field buf pos n :=
  ⟨_, load_eq h, rfl⟩

theorem returns_store (h : pos + x.length ≤ buf.length) :
    Returns (store buf pos x) fun buf' => buf'.length = buf.length := by
  have hsome : store buf pos x = some (patch buf pos x) := if_pos h
  exact ⟨_, hsome, length_store hsome⟩

-- A copy to the beginning of an array of a declared size
def fill (dst : List.Vector α n) (x : List α) : Option (List.Vector α n) :=
  if h : x.length ≤ n then
    some ⟨x ++ dst.val.drop x.length, by rw [List.length_append, List.length_drop, dst.property]; omega⟩
  else none

theorem isSome_fill {d : List.Vector α n} : (fill d x).isSome ↔ x.length ≤ n := by
  by_cases h : x.length ≤ n
  · rw [fill, dif_pos h]
    exact iff_of_true rfl h
  · rw [fill, dif_neg h]
    exact iff_of_false Bool.false_ne_true h

theorem returns_fill {d : List.Vector α n} (h : x.length ≤ n) : Returns (fill d x) fun _ => True :=
  returns_iff.2 (isSome_fill.2 h)

-- Of a value or a return code, what holds of the value
def Good (P : α → Prop) (r : Except ε α) : Prop := ∀ a, r = .ok a → P a

theorem good_ok {a : α} (h : P a) : Good P (.ok a : Except ε α) := by
  intro b hb
  cases hb
  exact h

theorem good_error {e : ε} : Good P (.error e : Except ε α) := by
  intro b hb
  cases hb

end Returns

end WpaSupplicant.Lib.Checked

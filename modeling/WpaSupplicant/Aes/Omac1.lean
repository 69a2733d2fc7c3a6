import WpaSupplicant.Aes.Wrap

namespace WpaSupplicant.Aes

open Lib.Octets

-- `aes_encrypt` on a block of 16 octets
def aesEncrypt (c : BlockCipher) (key : BitVec 128) (b : Octets) : Octets :=
  putBE 16 (c.encrypt key (getBE 128 b))

-- The loop of `gf_mulx`
def shiftOctets : Octets → Octets
  | [] => []
  | [x] => [x <<< 1]
  | x :: y :: l => ((x <<< 1) ||| (y >>> 7)) :: shiftOctets (y :: l)

def gfMulx (pad : Octets) : Octets :=
  if pad.getD 0 0 &&& 0x80 ≠ 0 then (shiftOctets pad).modify 15 (· ^^^ 0x87) else shiftOctets pad

-- `pos`, `end` and `e`: what is left of the current element, and the elements behind it
structure Cursor where
  elem : Octets
  next : List Octets
  deriving DecidableEq, Repr

-- `addr[e]` and `len[e]` of the next element; `none` if there is none to read.
def load : List Octets → Option Cursor
  | [] => none
  | elem :: next => some ⟨elem, next⟩

-- `*pos++`, and the next element where this was the last octet; `none` for a read outside the elements
def take (cur : Cursor) : Option (UInt8 × Cursor) :=
  match cur.elem with
  | [] => none
  | x :: xs => if xs = [] then (load cur.next).map fun cur' => (x, cur') else some (x, { cur with elem := xs })

-- So many octets, each of them written over one of `cbc`
def absorb : ℕ → Octets → Cursor → Option (Octets × Cursor)
  | n + 1, b :: cbc, cur =>
    (take cur).bind fun p => (absorb n cbc p.2).map fun q => ((b ^^^ p.1) :: q.1, q.2)
  | _, cbc, cur => some (cbc, cur)

variable (c : BlockCipher) (key : BitVec 128)

-- The loop over the full blocks, with `left`; each round takes 16 octets from what bounds the rounds.
def blocks : ℕ → ℕ → Octets → Cursor → Option (ℕ × Octets × Cursor)
  | fuel + 1, left, cbc, cur =>
    if 16 ≤ left then
      (absorb 16 cbc cur).bind fun p =>
        blocks fuel (left - 16) (if 16 < left then aesEncrypt c key p.1 else p.1) p.2
    else some (left, cbc, cur)
  | 0, left, cbc, cur => some (left, cbc, cur)

-- What follows the loop
def finish (totalLen left : ℕ) (cbc : Octets) (cur : Cursor) : Option Octets :=
  let pad := gfMulx (aesEncrypt c key (List.replicate 16 0))
  if left ≠ 0 ∨ totalLen = 0 then
    (absorb left cbc cur).map fun p =>
      aesEncrypt c key (List.zipWith (· ^^^ ·) (gfMulx pad) (p.1.modify left (· ^^^ 0x80)))
  else some (aesEncrypt c key (List.zipWith (· ^^^ ·) pad cbc))

-- `omac1_aes_128_vector`, where the context of the key is allocated; `none` when it reads outside its
-- arguments
def omac1Aes128Vector (elems : List Octets) : Option Octets :=
  let totalLen := (elems.map List.length).sum
  (load elems).bind fun cur =>
    (blocks c key totalLen totalLen (List.replicate 16 0) cur).bind fun r =>
      finish c key totalLen r.1 r.2.1 r.2.2

def omac1Aes128 (data : Octets) : Option Octets := omac1Aes128Vector c key [data]

-- The doubling of SP 800-38B
def dbl (b : Octets) : Octets :=
  let x := getBE 128 b
  putBE 16 (if x.msb then (x <<< 1) ^^^ 0x87 else x <<< 1)

def subkey1 : Octets := dbl (aesEncrypt c key (List.replicate 16 0))

def subkey2 : Octets := dbl (subkey1 c key)

-- The last block: complete, or padded with a one bit and zeros
def lastBlock (m : Octets) : Octets :=
  if m.length = 16 then List.zipWith (· ^^^ ·) (subkey1 c key) m
  else List.zipWith (· ^^^ ·) (subkey2 c key) (m ++ 0x80 :: List.replicate (15 - m.length) 0)

def cmacFrom : ℕ → Octets → Octets → Octets
  | fuel + 1, chain, m =>
    if 16 < m.length then
      cmacFrom fuel (aesEncrypt c key (List.zipWith (· ^^^ ·) chain (m.take 16))) (m.drop 16)
    else aesEncrypt c key (List.zipWith (· ^^^ ·) chain (lastBlock c key m))
  | 0, chain, m => aesEncrypt c key (List.zipWith (· ^^^ ·) chain (lastBlock c key m))

def cmac (m : Octets) : Octets := cmacFrom c key m.length (List.replicate 16 0) m

theorem ofBE_cons (x : UInt8) (l : Octets) : ofBE (x :: l) = x.toNat * 256 ^ l.length + ofBE l := by
  induction l using List.reverseRecOn with
  | nil => simp [ofBE]
  | append_singleton l b ih =>
    rw [← List.cons_append, ofBE_concat, ofBE_concat, ih, List.length_append, List.length_singleton,
      Nat.pow_succ]
    ring

theorem length_shiftOctets (l : Octets) : (shiftOctets l).length = l.length := by
  fun_induction shiftOctets l with
  | case1 => rfl
  | case2 x => rfl
  | case3 x y l ih => simp only [List.length_cons, ih]

theorem toNat_shift (x : UInt8) : (x <<< 1).toNat = 2 * x.toNat % 256 := by
  rw [UInt8.toNat_shiftLeft, Nat.shiftLeft_eq, Nat.mul_comm]
  rfl

theorem toNat_shift_or (x y : UInt8) : ((x <<< 1) ||| (y >>> 7)).toNat = 2 * x.toNat % 256 + y.toNat / 128 := by
  have hy := y.toNat_lt
  have hright : (y >>> 7).toNat = y.toNat / 128 := by
    rw [UInt8.toNat_shiftRight, Nat.shiftRight_eq_div_pow]
    rfl
  have heven : 2 * x.toNat % 256 = 2 ^ 1 * (x.toNat % 128) := by omega
  rw [UInt8.toNat_or, toNat_shift, hright, heven]
  exact (Nat.two_pow_add_eq_or_of_lt (i := 1) (by omega) _).symm

theorem carry_eq (y P w : ℕ) (hw : w < P) : 2 * (y * P + w) / (P * 256) = y / 128 := by
  have hsplit : y = 128 * (y / 128) + y % 128 := (Nat.div_add_mod y 128).symm
  have hrest : y % 128 * P ≤ 127 * P := Nat.mul_le_mul_right P (by omega)
  have hexpand : y * P = 128 * (y / 128 * P) + y % 128 * P := by
    nth_rewrite 1 [hsplit]
    ring
  refine Nat.div_eq_of_lt_le ?_ ?_
  · have hleft : y / 128 * (P * 256) = 256 * (y / 128 * P) := by ring
    omega
  · have hright : (y / 128 + 1) * (P * 256) = 256 * (y / 128 * P) + 256 * P := by ring
    omega

theorem ofBE_shiftOctets (l : Octets) : ofBE (shiftOctets l) = 2 * ofBE l % 256 ^ l.length := by
  fun_induction shiftOctets l with
  | case1 => rfl
  | case2 x =>
    rw [ofBE_cons, ofBE_cons, toNat_shift]
    simp
  | case3 x y l ih =>
    have hy := y.toNat_lt
    have hpow : 256 ^ (l.length + 1) = 256 ^ l.length * 256 := pow_succ _ _
    have hcarry := carry_eq y.toNat (256 ^ l.length) (ofBE l) (ofBE_lt l)
    have hlen : (shiftOctets (y :: l)).length = l.length + 1 := length_shiftOctets _
    have hpos : 0 < 256 ^ (l.length + 1) := Nat.pow_pos (by omega)
    rw [← ofBE_cons, ← hpow] at hcarry
    rw [ofBE_cons, toNat_shift_or, hlen, ih, ofBE_cons x, List.length_cons (a := x), List.length_cons,
      pow_succ 256 (List.length l + 1)]
    generalize 256 ^ (l.length + 1) = Q at hcarry hpos ⊢
    have hnum : 2 * (x.toNat * Q + ofBE (y :: l)) = 2 * ofBE (y :: l) + Q * (2 * x.toNat) := by ring
    rw [hnum, Nat.mod_mul, Nat.add_mul_mod_self_left, Nat.add_mul_div_left _ _ hpos, hcarry]
    have hsum : (y.toNat / 128 + 2 * x.toNat) % 256 = 2 * x.toNat % 256 + y.toNat / 128 := by omega
    rw [hsum]
    ring

theorem modify_length (l : Octets) (b : UInt8) (f : UInt8 → UInt8) :
    (l ++ [b]).modify l.length f = l ++ [f b] := by
  induction l with
  | nil => rfl
  | cons x l ih => simpa using ih

theorem ofBE_modify_last (l : Octets) (b m : UInt8) :
    ofBE ((l ++ [b]).modify l.length (· ^^^ m)) = ofBE (l ++ [b]) ^^^ m.toNat := by
  have hm : m.toNat / 2 ^ 8 = 0 := Nat.div_eq_of_lt m.toNat_lt
  have hb := b.toNat_lt
  have hhigh : (256 * ofBE l + b.toNat ^^^ m.toNat) / 2 ^ 8 = ofBE l := by
    rw [Nat.xor_div_two_pow, hm, Nat.xor_zero]
    omega
  have hlow : (256 * ofBE l + b.toNat ^^^ m.toNat) % 2 ^ 8 = b.toNat ^^^ m.toNat := by
    have hleft : (256 * ofBE l + b.toNat) % 2 ^ 8 = b.toNat := by omega
    rw [Nat.xor_mod_two_pow, hleft, Nat.mod_eq_of_lt m.toNat_lt]
  rw [modify_length, ofBE_concat, ofBE_concat, UInt8.toNat_xor]
  omega

set_option maxRecDepth 100000 in
theorem first_bit (x : UInt8) (l : Octets) (h : l.length = 15) :
    x &&& 0x80 ≠ 0 ↔ (getBE 128 (x :: l)).msb = true := by
  have hlow := ofBE_lt l
  have hlt := ofBE_lt (x :: l)
  have hbit : ∀ n : Fin 256, UInt8.ofNat n &&& 0x80 ≠ 0 ↔ 128 ≤ n.val := by decide
  have hx : x &&& 0x80 ≠ 0 ↔ 128 ≤ x.toNat := by
    simpa using hbit ⟨x.toNat, x.toNat_lt⟩
  have hsize : (256 : ℕ) ^ (15 + 1) = 2 ^ 128 := by norm_num
  rw [List.length_cons, h, hsize] at hlt
  rw [h] at hlow
  rw [BitVec.msb_eq_decide, decide_eq_true_iff, hx, getBE, BitVec.toNat_ofNat, Nat.mod_eq_of_lt hlt, ofBE_cons, h]
  omega

theorem eq_putBE {w n : ℕ} {l : Octets} {x : BitVec w} (hlen : l.length = n) (h : ofBE l = x.toNat) :
    l = putBE n x := by
  rw [putBE, ← h, ← hlen, toBE_ofBE]

-- `gf_mulx` doubles in the field.
theorem gfMulx_eq (b : Octets) (h : b.length = 16) : gfMulx b = dbl b := by
  obtain ⟨x, l, rfl⟩ := List.exists_cons_of_length_eq_add_one h
  have hl : l.length = 15 := by simpa using h
  have hshift : ofBE (shiftOctets (x :: l)) = (getBE 128 (x :: l) <<< 1).toNat := by
    rw [ofBE_shiftOctets, h, BitVec.toNat_shiftLeft, Nat.shiftLeft_eq, getBE, BitVec.toNat_ofNat, Nat.mod_mul_mod]
    norm_num [Nat.mul_comm]
  have hlen : (shiftOctets (x :: l)).length = 16 := by rw [length_shiftOctets, h]
  have hbit := first_bit x l hl
  unfold gfMulx dbl
  rw [List.getD_cons_zero]
  by_cases hmsb : (getBE 128 (x :: l)).msb = true
  · simp only [hbit.2 hmsb, hmsb, if_true, not_false_iff, ne_eq]
    refine eq_putBE (by rw [List.length_modify, hlen]) ?_
    rw [BitVec.toNat_xor, ← hshift]
    have hne : shiftOctets (x :: l) ≠ [] := fun hnil => by simp [hnil] at hlen
    obtain ⟨init, last, heq⟩ : ∃ init last, shiftOctets (x :: l) = init ++ [last] :=
      ⟨_, _, (List.dropLast_append_getLast hne).symm⟩
    have hinit : (init).length = 15 := by
      rw [heq] at hlen
      simpa using hlen
    rw [heq, ← hinit, ofBE_modify_last]
    rfl
  · have hmsb' : (getBE 128 (x :: l)).msb = false := by simpa using hmsb
    rw [if_neg (fun hx => hmsb (hbit.1 hx))]
    simp only [hmsb', Bool.false_eq_true, if_false]
    exact eq_putBE hlen hshift

-- The elements that end with an empty one behind their last octet, and have no empty one before it
def Readable : List Octets → Prop
  | [] => False
  | e :: es => if e = [] then ∀ y ∈ es, y = [] else Readable es

def Cursor.elems (cur : Cursor) : List Octets := cur.elem :: cur.next

def Cursor.rest (cur : Cursor) : Octets := cur.elems.flatten

variable {cur : Cursor}

theorem load_eq {elems : List Octets} (h : load elems = some cur) : cur.elems = elems := by
  cases elems with
  | nil => cases h
  | cons e es =>
    obtain rfl := Option.some.inj h
    rfl

theorem readable_of_rest_nil (h : cur.rest = []) : Readable cur.elems := by
  have hall : ∀ y ∈ cur.elem :: cur.next, y = [] := List.flatten_eq_nil_iff.1 h
  rw [Cursor.elems, Readable, if_pos (hall _ List.mem_cons_self)]
  exact fun y hy => hall y (List.mem_cons_of_mem _ hy)

theorem take_cons {cur' : Cursor} {x : UInt8} (h : take cur = some (x, cur')) :
    cur.rest = x :: cur'.rest ∧ (Readable cur.elems ↔ Readable cur'.elems) := by
  obtain ⟨elem, next⟩ := cur
  cases elem with
  | nil => cases h
  | cons y ys =>
    have hread : Readable (Cursor.elems ⟨y :: ys, next⟩) ↔ Readable next := by simp [Cursor.elems, Readable]
    by_cases hlast : ys = []
    · simp only [take, hlast, if_true, Option.map_eq_some_iff] at h
      obtain ⟨loaded, hload, heq⟩ := h
      obtain ⟨rfl, rfl⟩ := Prod.mk.inj heq
      have helems := load_eq hload
      rw [hread, Cursor.rest, Cursor.rest, helems, hlast]
      exact ⟨rfl, Iff.rfl⟩
    · simp only [take, if_neg hlast] at h
      obtain ⟨rfl, rfl⟩ := Prod.mk.inj (Option.some.inj h)
      rw [hread]
      exact ⟨rfl, by simp [Cursor.elems, Readable, hlast]⟩

theorem isSome_take (hread : Readable cur.elems) (hrest : cur.rest ≠ []) : (take cur).isSome := by
  obtain ⟨elem, next⟩ := cur
  cases elem with
  | nil =>
    have hall : ∀ y ∈ next, y = [] := by simpa [Cursor.elems, Readable] using hread
    exact absurd (by simpa [Cursor.rest, Cursor.elems] using hall) hrest
  | cons y ys =>
    have hnext : Readable next := by simpa [Cursor.elems, Readable] using hread
    by_cases hlast : ys = []
    · cases next with
      | nil => exact hnext.elim
      | cons e es => simp [take, hlast, load]
    · simp [take, hlast]

-- What is written over `cbc` when the octets `xs` are absorbed
def xorPrefix (cbc xs : Octets) : Octets := List.zipWith (· ^^^ ·) cbc xs ++ cbc.drop xs.length

theorem absorb_eq {n : ℕ} {cbc cbc' : Octets} {cur' : Cursor} (hn : n ≤ cbc.length)
    (h : absorb n cbc cur = some (cbc', cur')) :
    ∃ xs, xs.length = n ∧ cur.rest = xs ++ cur'.rest ∧ cbc' = xorPrefix cbc xs ∧
      (Readable cur.elems ↔ Readable cur'.elems) := by
  induction n generalizing cbc cbc' cur with
  | zero =>
    obtain ⟨rfl, rfl⟩ := Prod.mk.inj (Option.some.inj h)
    exact ⟨[], rfl, rfl, by simp [xorPrefix], Iff.rfl⟩
  | succ n ih =>
    cases cbc with
    | nil => simp at hn
    | cons b cbc =>
      simp only [absorb, Option.bind_eq_some_iff, Option.map_eq_some_iff] at h
      obtain ⟨⟨x, mid⟩, htake, ⟨cbc₂, last⟩, habsorb, heq⟩ := h
      obtain ⟨rfl, rfl⟩ := Prod.mk.inj heq
      obtain ⟨hrest, hread⟩ := take_cons htake
      obtain ⟨xs, hlen, hrest', rfl, hread'⟩ := ih (by simpa using hn) habsorb
      refine ⟨x :: xs, by rw [List.length_cons, hlen], ?_, rfl, hread.trans hread'⟩
      rw [hrest, hrest', List.cons_append]

theorem isSome_absorb {n : ℕ} {cbc : Octets} (hread : Readable cur.elems) (hn : n ≤ cur.rest.length) :
    (absorb n cbc cur).isSome := by
  induction n generalizing cbc cur with
  | zero => simp [absorb]
  | succ n ih =>
    cases cbc with
    | nil => simp [absorb]
    | cons b cbc =>
      have hne : cur.rest ≠ [] := fun hnil => by simp [hnil] at hn
      obtain ⟨⟨x, cur'⟩, htake⟩ := Option.isSome_iff_exists.1 (isSome_take hread hne)
      obtain ⟨hrest, hiff⟩ := take_cons htake
      have hn' : n ≤ cur'.rest.length := by
        rw [hrest] at hn
        simpa using hn
      simp [absorb, htake, ih (hiff.1 hread) hn']

section Run

theorem zipWith_xor_left_comm (p chain m : Octets) :
    List.zipWith (· ^^^ ·) p (List.zipWith (· ^^^ ·) chain m) =
      List.zipWith (· ^^^ ·) chain (List.zipWith (· ^^^ ·) p m) := by
  induction p generalizing chain m with
  | nil => simp
  | cons x p ih =>
    cases chain with
    | nil => simp
    | cons y chain =>
      cases m with
      | nil => simp
      | cons z m =>
        have hxyz : x ^^^ (y ^^^ z) = y ^^^ (x ^^^ z) := by
          rw [← UInt8.xor_assoc, ← UInt8.xor_assoc, UInt8.xor_comm x y]
        simp [ih, hxyz]

variable {cbc : Octets} {cur : Cursor}

theorem xorPrefix_full {xs : Octets} (h : xs.length = cbc.length) :
    xorPrefix cbc xs = List.zipWith (· ^^^ ·) cbc xs := by
  simp [xorPrefix, h]

-- The octet 0x80 behind the message pads the block, as what is left of `cbc` stands against zeros.
theorem xorPrefix_pad (cbc xs : Octets) (h : xs.length < cbc.length) :
    (xorPrefix cbc xs).modify xs.length (· ^^^ 0x80) =
      List.zipWith (· ^^^ ·) cbc (xs ++ 0x80 :: List.replicate (cbc.length - 1 - xs.length) 0) := by
  induction xs generalizing cbc with
  | nil =>
    cases cbc with
    | nil => cases h
    | cons b cbc =>
      have hzero : List.zipWith (· ^^^ ·) cbc (List.replicate cbc.length 0) = cbc := by
        induction cbc with
        | nil => rfl
        | cons x cbc ih => simpa [List.replicate_succ] using ih (by simp)
      simp [xorPrefix, hzero]
  | cons x xs ih =>
    cases cbc with
    | nil => cases h
    | cons b cbc =>
      have htail := ih cbc (by simpa using h)
      have hcount : (b :: cbc).length - 1 - (x :: xs).length = cbc.length - 1 - xs.length := by
        simp only [List.length_cons]
        omega
      rw [hcount]
      simpa [xorPrefix] using htail

variable {c : BlockCipher} {key : BitVec 128} {total : ℕ}

theorem length_aesEncrypt (b : Octets) : (aesEncrypt c key b).length = 16 := length_putBE _ _

theorem length_dbl (b : Octets) : (dbl b).length = 16 := length_putBE _ _

theorem gfMulx_pad : gfMulx (aesEncrypt c key (List.replicate 16 0)) = subkey1 c key :=
  gfMulx_eq _ (length_aesEncrypt _)

theorem gfMulx_subkey1 : gfMulx (subkey1 c key) = subkey2 c key := gfMulx_eq _ (length_dbl _)

theorem finish_short {left : ℕ} {mac : Octets} (hcbc : cbc.length = 16) (hleft : left = cur.rest.length)
    (hshort : left < 16) (hstart : left ≠ 0 ∨ total = 0) (h : finish c key total left cbc cur = some mac) :
    mac = aesEncrypt c key (List.zipWith (· ^^^ ·) cbc (lastBlock c key cur.rest)) ∧ Readable cur.elems := by
  simp only [finish, if_pos hstart, gfMulx_pad, gfMulx_subkey1, Option.map_eq_some_iff] at h
  obtain ⟨⟨cbc', cur'⟩, habsorb, rfl⟩ := h
  obtain ⟨xs, hlen, hrest, rfl, hread⟩ := absorb_eq (by omega) habsorb
  have hend : cur'.rest = [] := by
    have hcount := congrArg List.length hrest
    rw [List.length_append] at hcount
    exact List.eq_nil_of_length_eq_zero (by omega)
  rw [hend, List.append_nil] at hrest
  refine ⟨?_, hread.2 (readable_of_rest_nil hend)⟩
  have hpad := xorPrefix_pad cbc xs (by omega)
  rw [lastBlock, hrest, if_neg (by omega), zipWith_xor_left_comm]
  simp only
  rw [← hlen, hpad, hcbc]

theorem finish_full {xs mac : Octets} (hcbc : cbc.length = 16) (hxs : xs.length = 16) (htotal : total ≠ 0)
    (h : finish c key total 0 (xorPrefix cbc xs) cur = some mac) :
    mac = aesEncrypt c key (List.zipWith (· ^^^ ·) cbc (lastBlock c key xs)) := by
  have hnone : ¬((0 : ℕ) ≠ 0 ∨ total = 0) := by omega
  simp only [finish, if_neg hnone, gfMulx_pad] at h
  obtain rfl := Option.some.inj h
  rw [lastBlock, if_pos hxs, xorPrefix_full (by omega), zipWith_xor_left_comm]

theorem length_xorPrefix {xs : Octets} (h : xs.length ≤ cbc.length) :
    (xorPrefix cbc xs).length = cbc.length := by
  simp [xorPrefix]
  omega

theorem blocks_finish {fuel left : ℕ} {mac : Octets} (hcbc : cbc.length = 16)
    (hleft : left = cur.rest.length) (hfuel : left ≤ fuel) (hstart : left ≠ 0 ∨ total = 0)
    (htotal : left ≤ total)
    (h : (blocks c key fuel left cbc cur).bind (fun r => finish c key total r.1 r.2.1 r.2.2) = some mac) :
    mac = cmacFrom c key fuel cbc cur.rest ∧ Readable cur.elems := by
  induction fuel generalizing left cbc cur with
  | zero => exact finish_short hcbc hleft (by omega) hstart h
  | succ fuel ih =>
    by_cases hblock : 16 ≤ left
    · simp only [blocks, if_pos hblock, Option.bind_eq_some_iff] at h
      obtain ⟨r, ⟨⟨cbc', cur'⟩, habsorb, hblocks⟩, hfinish⟩ := h
      obtain ⟨xs, hlen, hrest, rfl, hread⟩ := absorb_eq (by omega) habsorb
      have hcount : left = xs.length + cur'.rest.length := by rw [hleft, hrest, List.length_append]
      have hchain : (xorPrefix cbc xs).length = 16 := by rw [length_xorPrefix (by omega), hcbc]
      rw [cmacFrom, ← hleft]
      by_cases hmore : 16 < left
      · rw [if_pos hmore, hrest, List.take_left' hlen, List.drop_left' hlen, hread,
          ← xorPrefix_full (by omega)]
        simp only [if_pos hmore] at hblocks
        have hleft' : left - 16 = cur'.rest.length := by omega
        refine ih (length_aesEncrypt _) hleft' (by omega) (by omega) (by omega) ?_
        rw [hblocks]
        exact hfinish
      · have hend : cur'.rest = [] := List.eq_nil_of_length_eq_zero (by omega)
        have hleft' : left - 16 = 0 := by omega
        have hdone : blocks c key fuel 0 (xorPrefix cbc xs) cur' = some (0, xorPrefix cbc xs, cur') := by
          cases fuel <;> simp [blocks]
        simp only [if_neg hmore, hleft', hdone] at hblocks
        obtain rfl := Option.some.inj hblocks
        rw [if_neg hmore, hrest, hend, List.append_nil]
        exact ⟨finish_full hcbc hlen (by omega) hfinish, hread.2 (readable_of_rest_nil hend)⟩
    · simp only [blocks, if_neg hblock, Option.bind_some] at h
      rw [cmacFrom, ← hleft, if_neg (by omega)]
      exact finish_short hcbc hleft (by omega) hstart h

theorem isSome_finish {left : ℕ} (hread : Readable cur.elems) (hleft : left ≤ cur.rest.length) :
    (finish c key total left cbc cur).isSome := by
  rw [finish]
  split_ifs with hstart
  · simpa using isSome_absorb hread hleft
  · rfl

theorem isSome_blocks_finish (c : BlockCipher) (key : BitVec 128) {fuel left : ℕ} {cbc : Octets} (cur : Cursor)
    (hcbc : cbc.length = 16)
    (hread : Readable cur.elems) (hleft : left = cur.rest.length) :
    ((blocks c key fuel left cbc cur).bind fun r => finish c key total r.1 r.2.1 r.2.2).isSome := by
  induction fuel generalizing left cbc cur with
  | zero => exact isSome_finish hread (Nat.le_of_eq hleft)
  | succ fuel ih =>
    by_cases hblock : 16 ≤ left
    · have hsome : (absorb 16 cbc cur).isSome := isSome_absorb hread (hleft ▸ hblock)
      obtain ⟨⟨cbc', cur'⟩, habsorb⟩ := Option.isSome_iff_exists.1 hsome
      obtain ⟨xs, hlen, hrest, rfl, hiff⟩ := absorb_eq (by omega) habsorb
      have hcount : left - 16 = cur'.rest.length := by
        rw [hleft, hrest, List.length_append]
        omega
      have hchain : (xorPrefix cbc xs).length = 16 := by rw [length_xorPrefix (by omega), hcbc]
      simp only [blocks, if_pos hblock, habsorb, Option.bind_some]
      refine ih cur' ?_ (hiff.1 hread) hcount
      split_ifs
      · exact length_aesEncrypt _
      · exact hchain
    · simp only [blocks, if_neg hblock, Option.bind_some]
      exact isSome_finish hread (Nat.le_of_eq hleft)

end Run

-- The vector function returns the CMAC of the joined elements, and stays in them, exactly when an
-- empty element stands behind their last octet and none before it.
theorem omac1Aes128Vector_cmac (c : BlockCipher) (key : BitVec 128) (elems : List Octets) :
    omac1Aes128Vector c key elems = some (cmac c key elems.flatten) ↔ Readable elems := by
  cases elems with
  | nil => simp [omac1Aes128Vector, load, Readable]
  | cons e es =>
    have hload : load (e :: es) = some ⟨e, es⟩ := rfl
    have hrest : (⟨e, es⟩ : Cursor).rest = (e :: es).flatten := rfl
    have htotal : ((e :: es).map List.length).sum = (⟨e, es⟩ : Cursor).rest.length := by
      rw [hrest, List.length_flatten]
    have hzero : (List.replicate 16 (0 : UInt8)).length = 16 := List.length_replicate
    rw [omac1Aes128Vector, hload, Option.bind_some, htotal, cmac]
    constructor
    · intro h
      exact (blocks_finish hzero rfl (Nat.le_refl _) (by omega) (Nat.le_refl _) h).2
    · intro hread
      obtain ⟨mac, hmac⟩ := Option.isSome_iff_exists.1
        (isSome_blocks_finish c key ⟨e, es⟩ hzero hread rfl)
      rw [hmac, (blocks_finish hzero rfl (Nat.le_refl _) (by omega) (Nat.le_refl _) hmac).1, hrest]

-- One element with data: the element behind it is read, which the arguments do not have.
theorem omac1Aes128Vector_single :
    omac1Aes128Vector BlockCipher.transparent 0 [[1]] = none := by
  decide

end WpaSupplicant.Aes

import WpaSupplicant.Lib.Feedback
import WpaSupplicant.Radius.Keys
import WpaSupplicant.Radius.RoundTrip

namespace WpaSupplicant.Radius.Keys

open Lib.Octets Lib.Buffer Lib.Checked Lib.Allocated Lib.Reads Lib.Feedback

section Chain

variable (c : Crypto) {secret auth salt : Octets} {first : Bool}

def mask (secret prev : Octets) : Octets := c.md5 (secret ++ prev)

def withMask (m block : Octets) : Octets := xorOctets block m

@[simp] theorem length_xorOctets (a b : Octets) : (xorOctets a b).length = min a.length b.length :=
  List.length_zipWith

theorem xorOctets_cancel {a b : Octets} (h : a.length ≤ b.length) : xorOctets (xorOctets a b) b = a := by
  induction a generalizing b with
  | nil => rfl
  | cons x a ih =>
    cases b with
    | nil => exact absurd h (by simp)
    | cons y b =>
      have hxy : x ^^^ y ^^^ y = x := by rw [UInt8.xor_assoc, UInt8.xor_self, UInt8.xor_zero]
      have hrest := ih (Nat.le_of_succ_le_succ h)
      rw [xorOctets, xorOctets, List.zipWith_cons_cons, List.zipWith_cons_cons, hxy]
      exact congrArg (x :: ·) hrest

theorem length_withMask {m block : Octets} (hm : m.length = md5MacLen) (hblock : block.length = md5MacLen) :
    (withMask m block).length = md5MacLen := by
  rw [withMask, length_xorOctets, hm, hblock, Nat.min_self]

-- What is hashed for the mask of a block: the ciphertext before it is at the end of what is done.
def InputIs (secret auth salt : Octets) (first : Bool) (pre input : Octets) : Prop :=
  if first then input = secret ++ auth ++ salt
  else ∃ before prev, pre = before ++ prev ∧ prev.length = md5MacLen ∧ input = secret ++ prev

variable {blocks : List Octets}

theorem length_flatten_blocks (h : ∀ b ∈ blocks, b.length = md5MacLen) :
    blocks.flatten.length = md5MacLen * blocks.length := by
  induction blocks with
  | nil => rfl
  | cons b blocks ih =>
    obtain ⟨hb, hrest⟩ := List.forall_mem_cons.1 h
    rw [List.flatten_cons, List.length_append, ih hrest, hb, List.length_cons, Nat.mul_succ, Nat.add_comm]

theorem encryptLoop_eq (hblocks : ∀ b ∈ blocks, b.length = md5MacLen) (pre post input : Octets)
    (hinput : InputIs secret auth salt first pre input) :
    encryptLoop c salt auth secret first pre.length (md5MacLen * blocks.length) (pre ++ blocks.flatten ++ post) =
      some (pre ++ (forward (mask c secret) withMask (c.md5 input) blocks).flatten ++ post) := by
  induction blocks generalizing pre first input with
  | nil => rw [encryptLoop, if_neg (by simp), forward]
  | cons block blocks ih =>
    obtain ⟨hblock, hrest⟩ := List.forall_mem_cons.1 hblocks
    have hlen := length_withMask (c.length_md5 input) hblock
    have hpos : 0 < md5MacLen * (block :: blocks).length := Nat.mul_pos (by decide) (Nat.succ_pos _)
    have hleft : md5MacLen * (block :: blocks).length - md5MacLen = md5MacLen * blocks.length := by
      rw [List.length_cons, Nat.mul_succ, Nat.add_sub_cancel]
    have hbuf : pre ++ (block :: blocks).flatten ++ post = pre ++ block ++ (blocks.flatten ++ post) := by
      rw [List.flatten_cons]
      simp only [List.append_assoc]
    have hin : (if first = true then some (secret ++ auth ++ salt)
        else (load (pre ++ (block :: blocks).flatten ++ post) (pre.length - md5MacLen) md5MacLen).map
          fun prev => secret ++ prev) = some input := by
      cases first with
      | true => exact congrArg some hinput.symm
      | false =>
        obtain ⟨before, prev, rfl, hprev, rfl⟩ := hinput
        have hload : load (before ++ prev ++ (block :: blocks).flatten ++ post)
            ((before ++ prev).length - md5MacLen) md5MacLen = some prev :=
          load_split (l := before) (r := (block :: blocks).flatten ++ post) (by simp only [List.append_assoc])
            (by rw [List.length_append, hprev, Nat.add_sub_cancel]) hprev
        rw [if_neg Bool.false_ne_true, hload]
        rfl
    have hstore : store (pre ++ block ++ (blocks.flatten ++ post)) pre.length (withMask (c.md5 input) block) =
        some (pre ++ withMask (c.md5 input) block ++ blocks.flatten ++ post) := by
      rw [store_eq_some]
      refine ⟨by simp only [List.length_append, hlen, hblock]; omega, ?_⟩
      rw [patch_append rfl (by rw [hlen, hblock])]
      simp only [List.append_assoc]
    have hinput' : InputIs secret auth salt false (pre ++ withMask (c.md5 input) block)
        (secret ++ withMask (c.md5 input) block) := ⟨pre, _, rfl, hlen, rfl⟩
    have hnext := ih hrest _ _ hinput'
    have hat : pre.length + md5MacLen = (pre ++ withMask (c.md5 input) block).length := by
      rw [List.length_append, hlen]
    rw [encryptLoop, if_pos hpos, hin, Option.bind_some, hbuf, load_split rfl rfl hblock, Option.bind_some]
    change (store _ _ (withMask (c.md5 input) block)).bind _ = _
    rw [hstore, Option.bind_some, hleft, hat, hnext, forward, List.flatten_cons]
    simp only [List.append_assoc]
    rfl

theorem decryptLoop_eq (hblocks : ∀ b ∈ blocks, b.length = md5MacLen) (pre input plain : Octets)
    {size : ℕ} (hsize : plain.length + md5MacLen * blocks.length ≤ size) (hsalt : salt.length = 2)
    (hpre : ∃ rest, pre = salt ++ rest) (hinput : InputIs secret auth salt first pre input) :
    decryptLoop c (pre ++ blocks.flatten) auth secret size first pre.length (md5MacLen * blocks.length) plain =
      some (plain ++ (backward (mask c secret) withMask (c.md5 input) blocks).flatten) := by
  induction blocks generalizing pre first input plain with
  | nil => rw [decryptLoop, if_neg (by simp), backward, List.flatten_nil, List.append_nil]
  | cons block blocks ih =>
    obtain ⟨hblock, hrest⟩ := List.forall_mem_cons.1 hblocks
    have hlen := length_withMask (c.length_md5 input) hblock
    have hpos : 0 < md5MacLen * (block :: blocks).length := Nat.mul_pos (by decide) (Nat.succ_pos _)
    have hcount : md5MacLen * (block :: blocks).length = md5MacLen * blocks.length + md5MacLen := by
      rw [List.length_cons, Nat.mul_succ]
    obtain ⟨rest, hsplit⟩ := hpre
    have hin : (if first = true then
          (load (pre ++ (block :: blocks).flatten) 0 2).map fun salt => secret ++ auth ++ salt
        else (load (pre ++ (block :: blocks).flatten) (pre.length - md5MacLen) md5MacLen).map
          fun prev => secret ++ prev) = some input := by
      cases first with
      | true =>
        have hload : load (pre ++ (block :: blocks).flatten) 0 2 = some salt :=
          load_split (l := []) (r := rest ++ (block :: blocks).flatten)
            (by rw [hsplit]; simp only [List.nil_append, List.append_assoc]) rfl hsalt
        rw [if_pos rfl, hload]
        exact congrArg some hinput.symm
      | false =>
        obtain ⟨before, prev, hbefore, hprev, rfl⟩ := hinput
        have hload : load (pre ++ (block :: blocks).flatten) (pre.length - md5MacLen) md5MacLen = some prev :=
          load_split (l := before) (r := (block :: blocks).flatten) (by rw [hbefore])
            (by rw [hbefore, List.length_append, hprev, Nat.add_sub_cancel]) hprev
        rw [if_neg Bool.false_ne_true, hload]
        rfl
    have hload : load (pre ++ (block :: blocks).flatten) pre.length md5MacLen = some block :=
      load_split (l := pre) (r := blocks.flatten) (by rw [List.flatten_cons, List.append_assoc]) rfl hblock
    have hput : put size plain (withMask (c.md5 input) block) = some (plain ++ withMask (c.md5 input) block) :=
      put_of_le (by omega)
    have hinput' : InputIs secret auth salt false (pre ++ block) (secret ++ block) := ⟨pre, block, rfl, hblock, rfl⟩
    have hnext := ih hrest (pre ++ block) (secret ++ block) (plain ++ withMask (c.md5 input) block)
      (by rw [List.length_append]; omega) ⟨rest ++ block, by rw [hsplit, List.append_assoc]⟩ hinput'
    have hat : pre.length + md5MacLen = (pre ++ block).length := by rw [List.length_append, hblock]
    have hbuf : pre ++ (block :: blocks).flatten = pre ++ block ++ blocks.flatten := by
      rw [List.flatten_cons, List.append_assoc]
    rw [decryptLoop, if_pos hpos, hin, Option.bind_some, hload, Option.bind_some]
    change (put _ _ (withMask (c.md5 input) block)).bind _ = _
    rw [hput, Option.bind_some, hcount, Nat.add_sub_cancel, hat, hbuf, hnext, backward, List.flatten_cons,
      List.append_assoc]
    rfl

theorem backward_forward_blocks (hblocks : ∀ b ∈ blocks, b.length = md5MacLen) (input : Octets) :
    backward (mask c secret) withMask (c.md5 input) (forward (mask c secret) withMask (c.md5 input) blocks) =
      blocks := by
  refine backward_forward (M := fun m => m.length = md5MacLen) (c.length_md5 _) (fun _ => c.length_md5 _) ?_
  intro m hm p hp
  exact xorOctets_cancel (by rw [hblocks p hp, hm])

theorem length_forward_blocks (hblocks : ∀ b ∈ blocks, b.length = md5MacLen) (input : Octets) :
    ∀ b ∈ forward (mask c secret) withMask (c.md5 input) blocks, b.length = md5MacLen :=
  forall_forward (M := fun m => m.length = md5MacLen) (P := fun b => b.length = md5MacLen) (c.length_md5 _)
    (fun _ => c.length_md5 _) fun _ hm p hp => length_withMask hm (hblocks p hp)

end Chain

section Padding

variable {n room : ℕ}

-- What is encrypted has a number of blocks, where its length is one.
theorem padLen_blocks (h : 0 ≤ padLen n) : ∃ k : ℕ, padLen n = (md5MacLen * k : ℕ) ∧ md5MacLen * k ≤ n + 16 := by
  rw [padLen] at h ⊢
  by_cases hrest : (1 + n) % 16 ≠ 0
  · rw [if_pos hrest]
    rw [md5MacLen]
    exact ⟨(1 + n) % 256 / 16 + 1, by omega, by omega⟩
  rw [if_neg hrest, Int.bmod_def] at h
  rw [if_neg hrest, Int.bmod_def]
  refine ⟨(1 + n) % 2 ^ 32 / 16, ?_, ?_⟩
  · rw [md5MacLen]
    split at h
    · rename_i hlt
      rw [if_pos hlt]
      omega
    · omega
  · rw [md5MacLen]
    omega

theorem padLen_short (h : n < 240) :
    ∃ k, padLen n = (md5MacLen * k : ℕ) ∧ 1 + n ≤ md5MacLen * k ∧ md5MacLen * k ≤ 240 := by
  rw [padLen, md5MacLen]
  by_cases hrest : (1 + n) % 16 ≠ 0
  · rw [if_pos hrest]
    exact ⟨(1 + n) % 256 / 16 + 1, by omega, by omega, by omega⟩
  · rw [if_neg hrest, Int.bmod_def, if_pos (by omega)]
    exact ⟨(1 + n) / 16, by omega, by omega, by omega⟩

theorem short_of_added (hn : n < 256) (h : padLen n + 8 ≤ maxAttrLen) : n < 240 := by
  rw [padLen, maxAttrLen] at h
  split at h
  · omega
  · rw [Int.bmod_def, if_pos (by omega)] at h
    omega

structure KeyFits (n room : ℕ) : Prop where
  nonneg : 0 ≤ padLen n
  padded : padLen n ≤ room
  key : 1 + n ≤ room

end Padding

section Attribute

variable {c : Crypto} {key salt auth secret buf : Octets} {first : Bool} {pos len room vendorType saltNum : ℕ}

variable {k : ℕ}

theorem returns_encryptLoop (hlen : len = md5MacLen * k) (hroom : pos + len ≤ buf.length)
    (hprev : first = true ∨ md5MacLen ≤ pos) :
    Returns (encryptLoop c salt auth secret first pos len buf) fun buf' => buf'.length = buf.length := by
  induction k generalizing first pos len buf with
  | zero =>
    rw [encryptLoop, if_neg (by omega)]
    exact .pure rfl
  | succ k ih =>
    rw [Nat.mul_succ] at hlen
    have hblock : 0 < md5MacLen := by decide
    rw [encryptLoop, if_pos (by omega)]
    refine Returns.bind (P := fun _ => True) ?_ fun input _ => ?_
    · refine .ite (fun _ => .pure trivial) fun hfirst => ?_
      have hback : md5MacLen ≤ pos := hprev.resolve_left hfirst
      exact (returns_load (by omega)).map fun _ _ => trivial
    · refine (returns_load (by omega)).bind fun block hload => ?_
      have hwidth : (xorOctets block (c.md5 input)).length = md5MacLen := by
        rw [length_xorOctets, hload, length_field (by omega), c.length_md5, Nat.min_self]
      refine (returns_store (by omega)).bind fun buf' hbuf' => ?_
      exact (ih (by omega) (by omega) (.inr (by omega))).mono fun _ h => h.trans hbuf'

theorem returns_encryptMsKey (hfits : KeyFits key.length room) (hbuf : buf.length = pos + room) :
    Returns (encryptMsKey c key salt auth secret buf pos) fun r =>
      r.1.length = buf.length ∧ (r.2 : ℤ) = padLen key.length := by
  obtain ⟨k, hk, -⟩ := padLen_blocks hfits.nonneg
  have hpadded := hfits.padded
  have hkey := hfits.key
  have hnat : (padLen key.length).toNat = md5MacLen * k := by rw [hk, Int.toNat_natCast]
  have hle : md5MacLen * k ≤ room := by omega
  rw [encryptMsKey, if_neg (not_lt.2 hfits.nonneg)]
  dsimp only
  rw [hnat]
  refine (returns_store (by rw [List.length_replicate]; omega)).bind fun buf₁ h₁ => ?_
  refine (returns_store (by rw [List.length_singleton]; omega)).bind fun buf₂ h₂ => ?_
  refine (returns_store (by omega)).bind fun buf₃ h₃ => ?_
  refine (returns_encryptLoop rfl (by omega) (.inl rfl)).map fun buf₄ h₄ =>
    ⟨h₄.trans (h₃.trans (h₂.trans h₁)), hk.symm⟩

theorem encryptMsKey_none (hfits : ¬ KeyFits key.length room) (hbuf : buf.length = pos + room) :
    encryptMsKey c key salt auth secret buf pos = none := by
  rw [encryptMsKey]
  by_cases hneg : padLen key.length < 0
  · rw [if_pos hneg]
  rw [if_neg hneg]
  dsimp only
  by_cases hpad : padLen key.length ≤ room
  · have hfirst : pos + (List.replicate (padLen key.length).toNat (0 : UInt8)).length ≤ buf.length := by
      rw [List.length_replicate]
      omega
    have hkey : ¬ 1 + key.length ≤ room := fun h => hfits ⟨not_lt.1 hneg, hpad, h⟩
    obtain ⟨buf₁, h₁, hlen₁⟩ := returns_store hfirst
    rw [h₁, Option.bind_some]
    refine Option.bind_eq_none_iff.2 fun buf₂ h₂ => ?_
    have hlen₂ := length_store h₂
    have hthird : store buf₂ (pos + 1) key = none := if_neg (by omega)
    rw [hthird]
    rfl
  · have hfirst : store buf pos (List.replicate (padLen key.length).toNat (0 : UInt8)) = none :=
      if_neg (by rw [List.length_replicate]; omega)
    rw [hfirst]
    rfl

theorem returns_mppeAttr (c : Crypto) (vendorType : ℕ) (auth secret : Octets) (saltNum : ℕ)
    (hfits : KeyFits key.length room) :
    Returns (mppeAttr c vendorType key auth secret saltNum (8 + room)) fun data =>
      (data.length : ℤ) = 8 + padLen key.length := by
  have hpadded := hfits.padded
  refine (returns_store (by rw [length_toBE, List.length_replicate]; omega)).bind fun buf₁ h₁ => ?_
  rw [List.length_replicate] at h₁
  refine (returns_store (by rw [List.length_singleton]; omega)).bind fun buf₂ h₂ => ?_
  refine (returns_store (by rw [length_toBE]; omega)).bind fun buf₃ h₃ => ?_
  refine (returns_encryptMsKey hfits (by omega)).bind fun r hr => ?_
  obtain ⟨hlen, hpad⟩ := hr
  refine (returns_store (by rw [List.length_singleton]; omega)).bind fun buf₄ h₄ => ?_
  have hroom : 0 + (8 + r.2) ≤ buf₄.length := by omega
  exact (returns_load hroom).mono fun data hdata => by rw [hdata, length_field hroom]; omega

theorem mppeAttr_none (hfits : ¬ KeyFits key.length room) :
    mppeAttr c vendorType key auth secret saltNum (8 + room) = none := by
  refine Option.bind_eq_none_iff.2 fun buf₁ h₁ => Option.bind_eq_none_iff.2 fun buf₂ h₂ =>
    Option.bind_eq_none_iff.2 fun buf₃ h₃ => ?_
  have hlen₁ := length_store h₁
  have hlen₂ := length_store h₂
  have hlen₃ := length_store h₃
  rw [List.length_replicate] at hlen₁
  rw [encryptMsKey_none hfits (by omega)]
  rfl

def keyBlocks (key : Octets) (k : ℕ) : List Octets :=
  pieces md5MacLen ([UInt8.ofNat key.length] ++ key ++ List.replicate (md5MacLen * k - (1 + key.length)) 0)

theorem keyBlocks_spec (hk : 1 + key.length ≤ md5MacLen * k) :
    (keyBlocks key k).length = k ∧ ∀ b ∈ keyBlocks key k, b.length = md5MacLen := by
  refine whole_pieces (by decide) _ k ?_
  rw [List.length_append, List.length_append, List.length_singleton, List.length_replicate]
  omega

def cipher (c : Crypto) (key salt auth secret : Octets) (k : ℕ) : Octets :=
  (forward (mask c secret) withMask (c.md5 (secret ++ auth ++ salt)) (keyBlocks key k)).flatten

theorem length_cipher (hk : 1 + key.length ≤ md5MacLen * k) :
    (cipher c key salt auth secret k).length = md5MacLen * k := by
  obtain ⟨hcount, hblocks⟩ := keyBlocks_spec hk
  rw [cipher, length_flatten_blocks (length_forward_blocks c hblocks _), length_forward, hcount]

theorem encryptMsKey_short (c : Crypto) (salt auth secret pre : Octets) {rest : Octets}
    (hpad : padLen key.length = (md5MacLen * k : ℕ)) (hk : 1 + key.length ≤ md5MacLen * k)
    (hroom : md5MacLen * k ≤ rest.length) :
    encryptMsKey c key salt auth secret (pre ++ rest) pre.length =
      some (pre ++ cipher c key salt auth secret k ++ rest.drop (md5MacLen * k), md5MacLen * k) := by
  obtain ⟨hcount, hblocks⟩ := keyBlocks_spec hk
  have hflat : (keyBlocks key k).flatten =
      [UInt8.ofNat key.length] ++ key ++ List.replicate (md5MacLen * k - (1 + key.length)) 0 :=
    flatten_pieces (by decide) _
  have hinput : InputIs secret auth salt true pre (secret ++ auth ++ salt) := rfl
  have hloop := encryptLoop_eq c hblocks pre (rest.drop (md5MacLen * k)) (secret ++ auth ++ salt) hinput
  have hzero : store (pre ++ rest) pre.length (List.replicate (md5MacLen * k) 0) =
      some (pre ++ List.replicate (md5MacLen * k) 0 ++ rest.drop (md5MacLen * k)) := by
    have hfits : (List.replicate (md5MacLen * k) (0 : UInt8)).length ≤ rest.length := by
      rw [List.length_replicate]
      exact hroom
    have hstore := store_append pre hfits
    rwa [List.length_replicate] at hstore
  have hsplit : List.replicate (md5MacLen * k) (0 : UInt8) =
      [0] ++ List.replicate key.length 0 ++ List.replicate (md5MacLen * k - (1 + key.length)) 0 := by
    have hone : [(0 : UInt8)] = List.replicate 1 0 := rfl
    rw [hone, ← List.replicate_add, ← List.replicate_add]
    congr 1
    omega
  have hnum : store (pre ++ List.replicate (md5MacLen * k) 0 ++ rest.drop (md5MacLen * k)) pre.length
      [UInt8.ofNat key.length] = some (pre ++ [UInt8.ofNat key.length] ++ (List.replicate key.length 0 ++
        List.replicate (md5MacLen * k - (1 + key.length)) 0 ++ rest.drop (md5MacLen * k))) := by
    rw [store_eq_some, hsplit]
    refine ⟨by simp only [List.length_append, List.length_singleton]; omega, ?_⟩
    have hpatch := patch_append (l := pre) (x := [(0 : UInt8)]) (y := [UInt8.ofNat key.length])
      (r := List.replicate key.length 0 ++ List.replicate (md5MacLen * k - (1 + key.length)) 0 ++
        rest.drop (md5MacLen * k)) (i := pre.length) rfl rfl
    rw [← hpatch]
    simp only [List.append_assoc]
  have hkey : store (pre ++ [UInt8.ofNat key.length] ++ (List.replicate key.length 0 ++
      List.replicate (md5MacLen * k - (1 + key.length)) 0 ++ rest.drop (md5MacLen * k))) (pre.length + 1) key =
        some (pre ++ (keyBlocks key k).flatten ++ rest.drop (md5MacLen * k)) := by
    rw [store_eq_some]
    refine ⟨by simp only [List.length_append, List.length_singleton, List.length_replicate]; omega, ?_⟩
    have hpatch := patch_append (l := pre ++ [UInt8.ofNat key.length]) (x := List.replicate key.length 0) (y := key)
      (r := List.replicate (md5MacLen * k - (1 + key.length)) 0 ++ rest.drop (md5MacLen * k)) (i := pre.length + 1)
      List.length_append List.length_replicate
    rw [hflat]
    simp only [List.append_assoc] at hpatch ⊢
    exact hpatch
  rw [hcount] at hloop
  rw [encryptMsKey, if_neg (by rw [hpad]; omega)]
  dsimp only
  rw [hpad, Int.toNat_natCast, hzero, Option.bind_some, hnum, Option.bind_some, hkey, Option.bind_some, hloop]
  rfl

def msAttr (c : Crypto) (vendorType : ℕ) (key auth secret : Octets) (saltNum k : ℕ) : Octets :=
  toBE 4 vendorIdMicrosoft ++ [UInt8.ofNat vendorType, UInt8.ofNat (4 + md5MacLen * k)] ++
    (toBE 2 saltNum ++ cipher c key (toBE 2 saltNum) auth secret k)

theorem length_msAttr (hk : 1 + key.length ≤ md5MacLen * k) :
    (msAttr c vendorType key auth secret saltNum k).length = 8 + md5MacLen * k := by
  simp only [msAttr, List.length_append, length_toBE, length_cipher hk, List.length_cons, List.length_nil]
  omega

-- The header is written into the first octets of the buffer, its length at last.
theorem mppeAttr_short (hpad : padLen key.length = (md5MacLen * k : ℕ))
    (hk : 1 + key.length ≤ md5MacLen * k) (hroom : md5MacLen * k ≤ room) :
    mppeAttr c vendorType key auth secret saltNum (8 + room) =
      some (msAttr c vendorType key auth secret saltNum k) := by
  have hzeros : List.replicate (8 + room) (0 : UInt8) =
      [0, 0, 0, 0] ++ [0] ++ [0] ++ [0, 0] ++ List.replicate room 0 := by
    rw [List.replicate_add]
    rfl
  have hstore : ∀ {l x y r : Octets} {i : ℕ}, l.length = i → x.length = y.length →
      store (l ++ x ++ r) i y = some (l ++ y ++ r) := by
    intro l x y r i hl hxy
    rw [store_eq_some]
    exact ⟨by simp only [List.length_append]; omega, patch_append hl hxy⟩
  have hvendor : store (List.replicate (8 + room) 0) 0 (toBE 4 vendorIdMicrosoft) =
      some (toBE 4 vendorIdMicrosoft ++ ([0] ++ [0] ++ [0, 0] ++ List.replicate room 0)) := by
    have h := hstore (l := []) (x := [0, 0, 0, 0]) (y := toBE 4 vendorIdMicrosoft)
      (r := [0] ++ [0] ++ [0, 0] ++ List.replicate room 0) (i := 0) rfl (length_toBE _ _).symm
    rw [hzeros]
    simpa only [List.append_assoc, List.nil_append] using h
  have htype : store (toBE 4 vendorIdMicrosoft ++ ([0] ++ [0] ++ [0, 0] ++ List.replicate room 0)) 4
      [UInt8.ofNat vendorType] =
        some (toBE 4 vendorIdMicrosoft ++ [UInt8.ofNat vendorType] ++ ([0] ++ [0, 0] ++ List.replicate room 0)) := by
    have h := hstore (l := toBE 4 vendorIdMicrosoft) (x := [0]) (y := [UInt8.ofNat vendorType])
      (r := [0] ++ [0, 0] ++ List.replicate room 0) (length_toBE _ _) rfl
    simpa only [List.append_assoc] using h
  have hsalt : store
      (toBE 4 vendorIdMicrosoft ++ [UInt8.ofNat vendorType] ++ ([0] ++ [0, 0] ++ List.replicate room 0)) 6 (toBE 2 saltNum) = some (toBE 4 vendorIdMicrosoft ++ [UInt8.ofNat vendorType, 0] ++ toBE 2 saltNum ++
        List.replicate room 0) := by
    have h := hstore (l := toBE 4 vendorIdMicrosoft ++ [UInt8.ofNat vendorType, 0]) (x := [0, 0])
      (y := toBE 2 saltNum) (r := List.replicate room 0) (i := 6)
      (by rw [List.length_append, length_toBE]; rfl) (length_toBE _ _).symm
    simpa only [List.append_assoc, List.cons_append, List.nil_append] using h
  have hroom' : md5MacLen * k ≤ (List.replicate room (0 : UInt8)).length := by
    rw [List.length_replicate]
    exact hroom
  have hencrypt := encryptMsKey_short c (toBE 2 saltNum) auth secret
    (toBE 4 vendorIdMicrosoft ++ [UInt8.ofNat vendorType, 0] ++ toBE 2 saltNum) hpad hk hroom'
  have hpre : (toBE 4 vendorIdMicrosoft ++ [UInt8.ofNat vendorType, 0] ++ toBE 2 saltNum).length = 8 := by
    rw [List.length_append, List.length_append, length_toBE, length_toBE]
    rfl
  have hlength : store (toBE 4 vendorIdMicrosoft ++ [UInt8.ofNat vendorType, 0] ++ toBE 2 saltNum ++
      cipher c key (toBE 2 saltNum) auth secret k ++ (List.replicate room 0).drop (md5MacLen * k)) 5
        [UInt8.ofNat (4 + md5MacLen * k)] =
      some (msAttr c vendorType key auth secret saltNum k ++ (List.replicate room 0).drop (md5MacLen * k)) := by
    have h := hstore (l := toBE 4 vendorIdMicrosoft ++ [UInt8.ofNat vendorType]) (x := [0])
      (y := [UInt8.ofNat (4 + md5MacLen * k)]) (r := toBE 2 saltNum ++ cipher c key (toBE 2 saltNum) auth secret k ++
        (List.replicate room 0).drop (md5MacLen * k)) (i := 5) (by rw [List.length_append, length_toBE]; rfl) rfl
    simpa only [msAttr, List.append_assoc, List.cons_append, List.nil_append] using h
  rw [hpre] at hencrypt
  rw [mppeAttr, hvendor, Option.bind_some, htype, Option.bind_some, hsalt, Option.bind_some, hencrypt,
    Option.bind_some]
  dsimp only
  rw [hlength, Option.bind_some]
  exact load_split (l := []) rfl rfl (length_msAttr hk)

end Attribute

section Lookup

variable {buf pre post data : Octets} {vendor subtype vendorType pos : ℕ} {rest : List ℕ}

theorem getVendorAttr_microsoft {body : Octets} (subtype : ℕ) (rest : List ℕ)
    (hdata : data = toBE 4 vendorIdMicrosoft ++ [UInt8.ofNat vendorType, UInt8.ofNat (2 + body.length)] ++ body)
    (htype : vendorType < 256) (hshort : data.length ≤ maxAttrLen)
    (hbuf : buf = pre ++ encodeAttr ⟨attrVendorSpecific, data⟩ ++ post) :
    getVendorAttr buf vendorIdMicrosoft subtype (pre.length :: rest) =
      if vendorType = subtype then some (some body) else getVendorAttr buf vendorIdMicrosoft subtype rest := by
  have hlen : data.length = 6 + body.length := by
    rw [hdata, List.length_append, List.length_append, length_toBE]
    rfl
  rw [maxAttrLen] at hshort
  have hsplit : buf = pre ++ [26] ++ [UInt8.ofNat (2 + data.length)] ++ toBE 4 vendorIdMicrosoft ++
      [UInt8.ofNat vendorType] ++ [UInt8.ofNat (2 + body.length)] ++ body ++ post := by
    rw [hbuf, encodeAttr, hdata]
    simp only [List.append_assoc, List.cons_append, List.nil_append]
    rfl
  have hread : ∀ {l r : Octets} {n p : ℕ}, n < 256 → buf = l ++ [UInt8.ofNat n] ++ r → l.length = p →
      readBE buf p 1 = some n := by
    intro l r n p hn hl hp
    rw [readBE_split (n := 1) hl hp rfl]
    have hvalue : ofBE [UInt8.ofNat n] = n % 256 := by simp [ofBE]
    rw [hvalue, Nat.mod_eq_of_lt hn]
  have h0 : readBE buf pre.length 1 = some 26 :=
    hread (l := pre) (r := [UInt8.ofNat (2 + data.length)] ++ toBE 4 vendorIdMicrosoft ++ [UInt8.ofNat vendorType] ++
      [UInt8.ofNat (2 + body.length)] ++ body ++ post)
      (by decide) (by rw [hsplit]; simp only [List.append_assoc]; rfl) rfl
  have h1 : readBE buf (pre.length + 1) 1 = some (2 + data.length) :=
    hread (l := pre ++ [26]) (r := toBE 4 vendorIdMicrosoft ++ [UInt8.ofNat vendorType] ++
      [UInt8.ofNat (2 + body.length)] ++ body ++ post) (by omega) (by rw [hsplit]; simp only [List.append_assoc])
      List.length_append
  have h2 : readBE buf (pre.length + 2) 4 = some vendorIdMicrosoft := by
    rw [readBE_split (l := pre ++ [26] ++ [UInt8.ofNat (2 + data.length)]) (x := toBE 4 vendorIdMicrosoft)
      (r := [UInt8.ofNat vendorType] ++ [UInt8.ofNat (2 + body.length)] ++ body ++ post)
      (by rw [hsplit]; simp only [List.append_assoc]) (by rw [List.length_append, List.length_append]; rfl)
      (length_toBE _ _), ofBE_toBE]
    rfl
  have h6 : readBE buf (pre.length + 6) 1 = some vendorType :=
    hread (l := pre ++ [26] ++ [UInt8.ofNat (2 + data.length)] ++ toBE 4 vendorIdMicrosoft)
      (r := [UInt8.ofNat (2 + body.length)] ++ body ++ post) htype (by rw [hsplit]; simp only [List.append_assoc])
      (by rw [List.length_append, List.length_append, List.length_append, length_toBE]; rfl)
  have h7 : readBE buf (pre.length + 6 + 1) 1 = some (2 + body.length) :=
    hread
      (l := pre ++ [26] ++ [UInt8.ofNat (2 + data.length)] ++ toBE 4 vendorIdMicrosoft ++ [UInt8.ofNat vendorType])
      (r := body ++ post) (by omega) (by rw [hsplit]; simp only [List.append_assoc])
      (by simp only [List.length_append, length_toBE, List.length_singleton])
  have h8 : load buf (pre.length + 6 + 2) (2 + body.length - 2) = some body :=
    load_split (l := pre ++ [26] ++ [UInt8.ofNat (2 + data.length)] ++ toBE 4 vendorIdMicrosoft ++
        [UInt8.ofNat vendorType] ++ [UInt8.ofNat (2 + body.length)]) (r := post) hsplit
      (by simp only [List.length_append, length_toBE, List.length_singleton]) (by omega)
  have hloop : vendorLoop buf subtype (pre.length + 6) (2 + data.length - 6) =
      some (if vendorType = subtype then some body else none) := by
    rw [vendorLoop, if_pos (by omega), h7, Option.bind_some, if_neg (by omega), h6, Option.bind_some]
    by_cases heq : vendorType = subtype
    · rw [if_neg (not_not.2 heq), if_pos heq, h8]
      rfl
    · rw [if_pos heq, if_neg heq, vendorLoop, if_neg (by omega)]
  rw [getVendorAttr, h0, Option.bind_some, if_neg (by decide), h1, Option.bind_some, if_neg (by omega), h2,
    Option.bind_some, if_neg (by decide), hloop, Option.bind_some]
  by_cases heq : vendorType = subtype
  · rw [if_pos heq, if_pos heq]
    rfl
  · rw [if_neg heq, if_neg heq]
    rfl

-- With more octets behind, a look into an attribute finds the same.
theorem vendorLoop_append {left : ℕ} {r : Option Octets} {x : Octets}
    (h : vendorLoop buf subtype pos left = some r) :
    vendorLoop (buf ++ x) subtype pos left = some r := by
  induction left using Nat.strongRecOn generalizing pos with
  | ind left ih =>
    rw [vendorLoop] at h ⊢
    by_cases hleft : 2 ≤ left
    · rw [if_pos hleft] at h ⊢
      obtain ⟨len, hlen, h⟩ := Option.bind_eq_some_iff.1 h
      rw [readBE_append hlen, Option.bind_some]
      by_cases hbad : left < len ∨ len < 2
      · rw [if_pos hbad] at h ⊢
        exact h
      rw [if_neg hbad] at h ⊢
      obtain ⟨type, htype, h⟩ := Option.bind_eq_some_iff.1 h
      rw [readBE_append htype, Option.bind_some]
      by_cases heq : type ≠ subtype
      · rw [if_pos heq] at h ⊢
        exact ih _ (by omega) h
      rw [if_neg heq] at h ⊢
      obtain ⟨l, hl, rfl⟩ := Option.map_eq_some_iff.1 h
      rw [load_append hl, Option.map_some]
    · rw [if_neg hleft] at h ⊢
      exact h

theorem getVendorAttr_append {r : Option Octets} {x : Octets} (h : getVendorAttr buf vendor subtype rest = some r) :
    getVendorAttr (buf ++ x) vendor subtype rest = some r := by
  induction rest with
  | nil => exact h
  | cons p rest ih =>
    rw [getVendorAttr] at h ⊢
    obtain ⟨type, htype, h⟩ := Option.bind_eq_some_iff.1 h
    rw [readBE_append htype, Option.bind_some]
    by_cases hother : type ≠ attrVendorSpecific.toNat
    · rw [if_pos hother] at h ⊢
      exact ih h
    rw [if_neg hother] at h ⊢
    obtain ⟨len, hlen, h⟩ := Option.bind_eq_some_iff.1 h
    rw [readBE_append hlen, Option.bind_some]
    by_cases hshort : len < 6
    · rw [if_pos hshort] at h ⊢
      exact ih h
    rw [if_neg hshort] at h ⊢
    obtain ⟨id, hid, h⟩ := Option.bind_eq_some_iff.1 h
    rw [readBE_append hid, Option.bind_some]
    by_cases hvendor : id ≠ vendor
    · rw [if_pos hvendor] at h ⊢
      exact ih h
    rw [if_neg hvendor] at h ⊢
    obtain ⟨data, hdata, h⟩ := Option.bind_eq_some_iff.1 h
    rw [vendorLoop_append hdata, Option.bind_some]
    cases data with
    | none => exact ih h
    | some data => exact h

theorem getVendorAttr_concat (old rest : List ℕ) :
    getVendorAttr buf vendor subtype (old ++ rest) =
      (getVendorAttr buf vendor subtype old).bind fun data =>
        if data.isSome then some data else getVendorAttr buf vendor subtype rest := by
  induction old with
  | nil => rfl
  | cons p old ih =>
    rw [List.cons_append, getVendorAttr, getVendorAttr]
    cases readBE buf p 1 with
    | none => rfl
    | some type =>
      rw [Option.bind_some, Option.bind_some]
      by_cases hother : type ≠ attrVendorSpecific.toNat
      · rw [if_pos hother, if_pos hother, ih]
      rw [if_neg hother, if_neg hother]
      cases readBE buf (p + 1) 1 with
      | none => rfl
      | some len =>
        rw [Option.bind_some, Option.bind_some]
        by_cases hshort : len < 6
        · rw [if_pos hshort, if_pos hshort, ih]
        rw [if_neg hshort, if_neg hshort]
        cases readBE buf (p + 2) 4 with
        | none => rfl
        | some id =>
          rw [Option.bind_some, Option.bind_some]
          by_cases hvendor : id ≠ vendor
          · rw [if_pos hvendor, if_pos hvendor, ih]
          rw [if_neg hvendor, if_neg hvendor]
          cases vendorLoop buf subtype (p + 6) (len - 6) with
          | none => rfl
          | some data =>
            cases data with
            | none => exact ih
            | some data => rfl

theorem getVendorAttr_skip {old : List ℕ} (h : getVendorAttr buf vendor subtype old = some none) (rest : List ℕ) :
    getVendorAttr buf vendor subtype (old ++ rest) = getVendorAttr buf vendor subtype rest := by
  rw [getVendorAttr_concat, h]
  rfl

end Lookup

section Transport

variable {c : Crypto} {msg : Msg} {key salt auth secret : Octets} {k : ℕ}

theorem decryptMsKey_cipher (hsalt : salt.length = 2) (hpos : 0 < key.length) (hshort : key.length < 256)
    (hk : 1 + key.length ≤ md5MacLen * k) :
    decryptMsKey c (salt ++ cipher c key salt auth secret k) auth secret = some (some key) := by
  obtain ⟨hcount, hblocks⟩ := keyBlocks_spec hk
  have hlen : (salt ++ cipher c key salt auth secret k).length = 2 + md5MacLen * k := by
    rw [List.length_append, hsalt, length_cipher hk]
  have hforward : ∀ b ∈ forward (mask c secret) withMask (c.md5 (secret ++ auth ++ salt)) (keyBlocks key k),
      b.length = md5MacLen := length_forward_blocks c hblocks (secret ++ auth ++ salt)
  have hinput : InputIs secret auth salt true salt (secret ++ auth ++ salt) := rfl
  have hsize : ([] : Octets).length + md5MacLen * (forward (mask c secret) withMask (c.md5 (secret ++ auth ++ salt))
      (keyBlocks key k)).length ≤ md5MacLen * k := by
    rw [length_forward, hcount, List.length_nil, Nat.zero_add]
  have hloop := decryptLoop_eq c hforward salt (secret ++ auth ++ salt) [] hsize hsalt ⟨[], (List.append_nil _).symm⟩
    hinput
  rw [length_forward, hcount, backward_forward_blocks c hblocks, List.nil_append, hsalt] at hloop
  have hflat : (keyBlocks key k).flatten =
      [UInt8.ofNat key.length] ++ key ++ List.replicate (md5MacLen * k - (1 + key.length)) 0 :=
    flatten_pieces (by decide) _
  have hfirst : readBE (keyBlocks key k).flatten 0 1 = some key.length := by
    have hread : readBE (keyBlocks key k).flatten 0 1 = some (ofBE [UInt8.ofNat key.length]) :=
      readBE_split (l := []) (r := key ++ List.replicate (md5MacLen * k - (1 + key.length)) 0)
        (by rw [hflat, List.nil_append, List.append_assoc]) rfl rfl
    rw [hread]
    have hvalue : ofBE [UInt8.ofNat key.length] = key.length % 256 := by simp [ofBE]
    rw [hvalue, Nat.mod_eq_of_lt hshort]
  have hdata : 2 + md5MacLen * k - 2 = md5MacLen * k := Nat.add_sub_cancel_left _ _
  have hmod : md5MacLen * k % 16 = 0 := Nat.mul_mod_right 16 k
  have hblock : md5MacLen = 16 := rfl
  have hone : 16 ≤ md5MacLen * k := by omega
  have hdecrypt : decryptLoop c (salt ++ cipher c key salt auth secret k) auth secret (md5MacLen * k) true 2
      (md5MacLen * k) [] = some (keyBlocks key k).flatten := hloop
  have hload : load (keyBlocks key k).flatten 1 key.length = some key := load_split hflat rfl rfl
  rw [decryptMsKey, hlen, hdata, if_neg (by omega), if_neg (not_not.2 hmod), hdecrypt, Option.bind_some, hfirst,
    Option.bind_some, if_neg (by omega), hload]
  rfl

theorem length_decryptMsKey {r : Octets} (h : decryptMsKey c key auth secret = some (some r)) : r.length < 256 := by
  rw [decryptMsKey] at h
  split at h
  · cases h
  split at h
  · cases h
  obtain ⟨plain, -, h⟩ := Option.bind_eq_some_iff.1 h
  obtain ⟨len, hlen, h⟩ := Option.bind_eq_some_iff.1 h
  split at h
  · cases h
  obtain ⟨l, hl, hlr⟩ := Option.map_eq_some_iff.1 h
  cases hlr
  have hlt : len < 256 := by
    rw [readBE, load] at hlen
    split at hlen
    · cases hlen
      exact octetAt_lt plain 0
    · cases hlen
  rw [load] at hl
  split at hl
  · rename_i hroom
    cases hl
    rw [length_field hroom]
    exact hlt
  · cases hl

theorem addAttr_true {alloc : Alloc} {type : UInt8} {data : Octets} (h : (msg.addAttr alloc type data).2 = true) :
    data.length ≤ maxAttrLen ∧
      (msg.addAttr alloc type data).1 = ⟨msg.buf ++ encodeAttr ⟨type, data⟩, msg.attrPos ++ [msg.buf.length]⟩ := by
  rw [Msg.addAttr] at h ⊢
  by_cases hlong : maxAttrLen < data.length
  · rw [if_pos hlong] at h
    cases h
  rw [if_neg hlong] at h ⊢
  cases hbuf : alloc.buf with
  | false =>
    rw [hbuf] at h
    cases h
  | true =>
    cases harray : alloc.array with
    | false =>
      rw [hbuf, harray] at h
      cases h
    | true => exact ⟨not_lt.1 hlong, rfl⟩

theorem addAttr_succeeds {type : UInt8} {data : Octets} (h : data.length ≤ maxAttrLen) :
    (msg.addAttr {} type data).2 = true := by
  rw [Msg.addAttr, if_neg (not_lt.2 h)]
  rfl

theorem getMsKeys_two (old : List ℕ) {buf pre post send recv : Octets} {ks kr saltNum : ℕ} {d₁ d₂ : Octets}
    (hs : 0 < send.length ∧ send.length < 256 ∧ 1 + send.length ≤ md5MacLen * ks ∧ md5MacLen * ks ≤ 240)
    (hr : 0 < recv.length ∧ recv.length < 256 ∧ 1 + recv.length ≤ md5MacLen * kr ∧ md5MacLen * kr ≤ 240)
    (hd₁ : d₁ = msAttr c vendorAttrMsMppeSendKey send auth secret saltNum ks)
    (hd₂ : d₂ = msAttr c vendorAttrMsMppeRecvKey recv auth secret (saltNum ^^^ 1) kr)
    (hbuf : buf = pre ++ encodeAttr ⟨attrVendorSpecific, d₁⟩ ++ encodeAttr ⟨attrVendorSpecific, d₂⟩ ++ post)
    (hold : ∀ t ∈ [vendorAttrMsMppeSendKey, vendorAttrMsMppeRecvKey],
      getVendorAttr buf vendorIdMicrosoft t old = some none) :
    getMsKeys c ⟨buf, old ++ [pre.length, (pre ++ encodeAttr ⟨attrVendorSpecific, d₁⟩).length]⟩ auth secret =
      some ⟨some send, some recv⟩ := by
  obtain ⟨hspos, hsshort, hks, hks'⟩ := hs
  obtain ⟨hrpos, hrshort, hkr, hkr'⟩ := hr
  have hbody : ∀ {key : Octets} {k salt : ℕ}, 1 + key.length ≤ md5MacLen * k →
      4 + md5MacLen * k = 2 + (toBE 2 salt ++ cipher c key (toBE 2 salt) auth secret k).length := by
    intro key k salt hk
    rw [List.length_append, length_toBE, length_cipher hk]
    omega
  have hlen₁ : d₁.length ≤ maxAttrLen := by
    rw [hd₁, length_msAttr hks, maxAttrLen]
    omega
  have hlen₂ : d₂.length ≤ maxAttrLen := by
    rw [hd₂, length_msAttr hkr, maxAttrLen]
    omega
  have hdata₁ : d₁ = toBE 4 vendorIdMicrosoft ++ [UInt8.ofNat vendorAttrMsMppeSendKey,
      UInt8.ofNat (2 + (toBE 2 saltNum ++ cipher c send (toBE 2 saltNum) auth secret ks).length)] ++
        (toBE 2 saltNum ++ cipher c send (toBE 2 saltNum) auth secret ks) := by
    rw [hd₁, msAttr, hbody hks]
  have hdata₂ : d₂ = toBE 4 vendorIdMicrosoft ++ [UInt8.ofNat vendorAttrMsMppeRecvKey,
      UInt8.ofNat (2 + (toBE 2 (saltNum ^^^ 1) ++ cipher c recv (toBE 2 (saltNum ^^^ 1)) auth secret kr).length)] ++
        (toBE 2 (saltNum ^^^ 1) ++ cipher c recv (toBE 2 (saltNum ^^^ 1)) auth secret kr) := by
    rw [hd₂, msAttr, hbody hkr]
  have hbuf₁ : buf = pre ++ encodeAttr ⟨attrVendorSpecific, d₁⟩ ++ (encodeAttr ⟨attrVendorSpecific, d₂⟩ ++ post) := by
    rw [hbuf]
    simp only [List.append_assoc]
  have hfirst := fun (t : ℕ) (rest : List ℕ) => getVendorAttr_microsoft t rest hdata₁ (by decide) hlen₁ hbuf₁
  have hsecond := fun (t : ℕ) (rest : List ℕ) => getVendorAttr_microsoft t rest hdata₂ (by decide) hlen₂ hbuf
  have hsend := getVendorAttr_skip (hold _ List.mem_cons_self)
    [pre.length, (pre ++ encodeAttr ⟨attrVendorSpecific, d₁⟩).length]
  have hrecv := getVendorAttr_skip (hold _ (List.mem_cons_of_mem _ List.mem_cons_self))
    [pre.length, (pre ++ encodeAttr ⟨attrVendorSpecific, d₁⟩).length]
  rw [hfirst, if_pos rfl] at hsend
  rw [hfirst, if_neg (by decide), hsecond, if_pos rfl] at hrecv
  rw [getMsKeys, getMsKey, getMsKey, hsend, Option.bind_some, hrecv, Option.bind_some]
  dsimp only
  rw [decryptMsKey_cipher (length_toBE _ _) hspos hsshort hks, Option.bind_some,
    decryptMsKey_cipher (length_toBE _ _) hrpos hrshort hkr]
  rfl

abbrev Key := { l : Octets // 0 < l.length }

structure Carries (c : Crypto) (msg m : Msg) (auth secret : Octets) (send recv : Key) : Prop where
  added : getMsKeys c { m with attrPos := m.attrPos.drop msg.attrPos.length } auth secret =
    some ⟨some send.val, some recv.val⟩
  whole : (∀ t ∈ [vendorAttrMsMppeSendKey, vendorAttrMsMppeRecvKey],
      getVendorAttr msg.buf vendorIdMicrosoft t msg.attrPos = some none) →
    getMsKeys c m auth secret = some ⟨some send.val, some recv.val⟩

-- Nothing is written outside the buffers, and the function returns 0 or has added the keys.
def Transported (c : Crypto) (msg : Msg) (auth secret : Octets) (send recv : Key) (r : Option (Msg × Bool)) :
    Prop :=
  ∃ m ok, r = some (m, ok) ∧ (ok = true → Carries c msg m auth secret send recv)

def Added (n : ℕ) : Prop := padLen n + 8 ≤ maxAttrLen

structure Transportable (send recv : ℕ) : Prop where
  sendFits : KeyFits send (send + 16)
  recvFits : Added send → KeyFits recv (send + 16)
  short : Added send → Added recv → send < 256 ∧ recv < 256

theorem mppe_keys_transported (c : Crypto) (msg : Msg) (auth secret : Octets) (send recv : Key) :
    (∀ env, Transported c msg auth secret send recv (addMppeKeys c env msg auth secret send.val recv.val)) ↔
      Transportable send.val.length recv.val.length := by
  have hsize : 8 + send.val.length + 16 = 8 + (send.val.length + 16) := Nat.add_assoc _ _ _
  constructor
  · intro hall
    obtain ⟨m, ok, hres, hcarries⟩ := hall {}
    rw [addMppeKeys] at hres
    dsimp only at hres
    rw [Bool.not_true, if_neg Bool.false_ne_true, hsize] at hres
    obtain ⟨d₁, hd₁, hres⟩ := Option.bind_eq_some_iff.1 hres
    have hsend : KeyFits send.val.length (send.val.length + 16) := by
      by_contra hnot
      rw [mppeAttr_none hnot] at hd₁
      cases hd₁
    obtain ⟨x, hx, hlen₁⟩ := returns_mppeAttr c vendorAttrMsMppeSendKey auth secret
      (0 % 2 ^ 16 ||| 32768) hsend
    have hxd : x = d₁ := Option.some.inj (hx.symm.trans hd₁)
    rw [hxd] at hlen₁
    have hsecond : Added send.val.length →
        ∃ d₂, mppeAttr c vendorAttrMsMppeRecvKey recv.val auth secret ((0 % 2 ^ 16 ||| 32768) ^^^ 1)
          (8 + (send.val.length + 16)) = some d₂ ∧
          ((msg.addAttr {} attrVendorSpecific d₁).1.addAttr {} attrVendorSpecific d₂) = (m, ok) := by
      intro hadded
      rw [Added] at hadded
      have hok : (msg.addAttr {} attrVendorSpecific d₁).2 = true := addAttr_succeeds (by omega)
      rw [hok, Bool.not_true, if_neg Bool.false_ne_true] at hres
      exact Option.map_eq_some_iff.1 hres
    refine ⟨hsend, fun hadded => ?_, fun hadded hadded' => ?_⟩
    · obtain ⟨d₂, hd₂, -⟩ := hsecond hadded
      by_contra hnot
      rw [mppeAttr_none hnot] at hd₂
      cases hd₂
    · obtain ⟨d₂, hd₂, hlast⟩ := hsecond hadded
      have hrecv : KeyFits recv.val.length (send.val.length + 16) := by
        by_contra hnot
        rw [mppeAttr_none hnot] at hd₂
        cases hd₂
      obtain ⟨y, hy, hlen₂⟩ := returns_mppeAttr c vendorAttrMsMppeRecvKey auth secret
        ((0 % 2 ^ 16 ||| 32768) ^^^ 1) hrecv
      have hyd : y = d₂ := Option.some.inj (hy.symm.trans hd₂)
      rw [hyd] at hlen₂
      rw [Added] at hadded'
      have hok : ok = true := by
        rw [← (Prod.mk.inj hlast).2]
        exact addAttr_succeeds (by omega)
      have hkeys := (hcarries hok).added
      rw [getMsKeys] at hkeys
      obtain ⟨s, hs, hkeys⟩ := Option.bind_eq_some_iff.1 hkeys
      obtain ⟨r, hr, hkeys⟩ := Option.map_eq_some_iff.1 hkeys
      cases hkeys
      have hbound : ∀ {t : ℕ} {l : Octets}, getMsKey c { m with attrPos := m.attrPos.drop msg.attrPos.length } auth
          secret t = some (some l) → l.length < 256 := by
        intro t l hl
        obtain ⟨key, -, hl⟩ := Option.bind_eq_some_iff.1 hl
        cases key with
        | none => cases hl
        | some key => exact length_decryptMsKey hl
      exact ⟨hbound hs, hbound hr⟩
  · intro hlengths env
    rw [addMppeKeys]
    dsimp only
    rw [hsize]
    cases env.sendBuf with
    | false => exact ⟨msg, false, rfl, fun h => by cases h⟩
    | true =>
      rw [Bool.not_true, if_neg Bool.false_ne_true]
      obtain ⟨d₁, hd₁, hlen₁⟩ := returns_mppeAttr c vendorAttrMsMppeSendKey auth secret
        (env.random % 2 ^ 16 ||| 32768) hlengths.sendFits
      rw [hd₁, Option.bind_some]
      by_cases hok : (msg.addAttr env.sendAttr attrVendorSpecific d₁).2 = true
      · obtain ⟨hshort₁, hmsg₁⟩ := addAttr_true hok
        have hadded : Added send.val.length := by
          rw [Added]
          omega
        rw [hok, Bool.not_true, if_neg Bool.false_ne_true]
        cases env.recvBuf with
        | false => exact ⟨_, false, rfl, fun h => by cases h⟩
        | true =>
          rw [Bool.not_true, if_neg Bool.false_ne_true]
          obtain ⟨d₂, hd₂, hlen₂⟩ := returns_mppeAttr c vendorAttrMsMppeRecvKey auth secret
            ((env.random % 2 ^ 16 ||| 32768) ^^^ 1) (hlengths.recvFits hadded)
          rw [hd₂]
          refine
            ⟨((msg.addAttr env.sendAttr attrVendorSpecific d₁).1.addAttr env.recvAttr attrVendorSpecific d₂).1,
              ((msg.addAttr env.sendAttr attrVendorSpecific d₁).1.addAttr env.recvAttr attrVendorSpecific d₂).2,
              rfl, fun hok₂ => ?_⟩
          obtain ⟨hshort₂, hmsg₂⟩ := addAttr_true hok₂
          have hadded₂ : Added recv.val.length := by
            rw [Added]
            omega
          obtain ⟨hsendShort, hrecvShort⟩ := hlengths.short hadded hadded₂
          obtain ⟨ks, hpads, hks, hks'⟩ := padLen_short (short_of_added hsendShort hadded)
          obtain ⟨kr, hpadr, hkr, hkr'⟩ := padLen_short (short_of_added hrecvShort hadded₂)
          have hrooms := hlengths.sendFits.padded
          have hroomr := (hlengths.recvFits hadded).padded
          rw [mppeAttr_short hpads hks (by omega)] at hd₁
          rw [mppeAttr_short hpadr hkr (by omega)] at hd₂
          have htwo := fun (old : List ℕ) hold => getMsKeys_two old
            ⟨send.property, hsendShort, hks, hks'⟩ ⟨recv.property, hrecvShort, hkr, hkr'⟩
            (Option.some.inj hd₁).symm (Option.some.inj hd₂).symm
            (List.append_nil (msg.buf ++ encodeAttr ⟨attrVendorSpecific, d₁⟩ ++
              encodeAttr ⟨attrVendorSpecific, d₂⟩)).symm hold
          have hmsg : ((msg.addAttr env.sendAttr attrVendorSpecific d₁).1.addAttr env.recvAttr attrVendorSpecific
              d₂).1 = ⟨msg.buf ++ encodeAttr ⟨attrVendorSpecific, d₁⟩ ++ encodeAttr ⟨attrVendorSpecific, d₂⟩,
                msg.attrPos ++ [msg.buf.length, (msg.buf ++ encodeAttr ⟨attrVendorSpecific, d₁⟩).length]⟩ := by
            rw [hmsg₂, hmsg₁]
            exact congrArg (Msg.mk _) (List.append_assoc _ _ _)
          rw [hmsg]
          constructor
          · dsimp only
            rw [List.drop_left' rfl]
            exact htwo [] fun t _ => rfl
          · intro hnone
            refine htwo msg.attrPos fun t ht => ?_
            rw [List.append_assoc]
            exact getVendorAttr_append (hnone t ht)
      · rw [Bool.eq_false_of_not_eq_true hok]
        exact ⟨_, _, rfl, fun h => absurd h hok⟩

-- The buffer for a receive key of 48 octets has the size for a send key of 16.
theorem mppe_recv_key_overflow :
    addMppeKeys zeroCrypto {} (Msg.new codeAccessAccept 0) (List.replicate 16 0) [115] (List.replicate 16 1)
      (List.replicate 48 2) = none := by
  have hsend : KeyFits (List.replicate 16 (1 : UInt8)).length 32 := ⟨by decide, by decide, by decide⟩
  have hrecv : ¬ KeyFits (List.replicate 48 (2 : UInt8)).length 32 := fun h => absurd h.padded (by decide)
  obtain ⟨data, hdata, hlen⟩ := returns_mppeAttr zeroCrypto vendorAttrMsMppeSendKey (List.replicate 16 0) [115]
    (0 % 2 ^ 16 ||| 32768) hsend
  have hpad : padLen (List.replicate 16 (1 : UInt8)).length = 32 := rfl
  have hok : ((Msg.new codeAccessAccept 0).addAttr {} attrVendorSpecific data).2 = true :=
    addAttr_succeeds (by rw [maxAttrLen]; omega)
  rw [addMppeKeys]
  dsimp only
  rw [List.length_replicate, Bool.not_true, if_neg Bool.false_ne_true, hdata, Option.bind_some, hok, Bool.not_true,
    if_neg Bool.false_ne_true, if_neg Bool.false_ne_true, mppeAttr_none hrecv]
  rfl

end Transport

end WpaSupplicant.Radius.Keys

import Mathlib.Data.Fintype.Basic
import Mathlib.Tactic.FinCases
import WpaSupplicant.Common

namespace WpaSupplicant.Base64

-- `base64_table`: the letters, the digits, `+` and `/`
def base64Table : Octets :=
  (List.range 26).map (fun i => UInt8.ofNat (65 + i)) ++ (List.range 26).map (fun i => UInt8.ofNat (97 + i)) ++
    (List.range 10).map (fun i => UInt8.ofNat (48 + i)) ++ [43, 47]

def tableAt (v : UInt8) : UInt8 := base64Table.getD v.toNat 0

def padChar : UInt8 := 61
def lineFeed : UInt8 := 10

-- `olen`, in a `size_t`
def olen (len : ℕ) : ℕ :=
  let olen := (len * 4 % 2 ^ 64 / 3 + 4) % 2 ^ 64
  let olen := (olen + olen / 72) % 2 ^ 64
  (olen + 1) % 2 ^ 64

def quad (a b c : UInt8) : Octets :=
  [tableAt (a >>> 2), tableAt (((a &&& 0x03) <<< 4) ||| (b >>> 4)),
    tableAt (((b &&& 0x0f) <<< 2) ||| (c >>> 6)), tableAt (c &&& 0x3f)]

def endLine (lineLen : ℕ) : Octets := if lineLen ≠ 0 then [lineFeed] else []

def encodeFrom : ℕ → Octets → Octets
  | lineLen, a :: b :: c :: rest =>
    quad a b c ++
      if 72 ≤ lineLen + 4 then lineFeed :: encodeFrom 0 rest else encodeFrom (lineLen + 4) rest
  | lineLen, [a, b] =>
    [tableAt (a >>> 2), tableAt (((a &&& 0x03) <<< 4) ||| (b >>> 4)), tableAt ((b &&& 0x0f) <<< 2),
      padChar] ++ endLine (lineLen + 4)
  | lineLen, [a] =>
    [tableAt (a >>> 2), tableAt ((a &&& 0x03) <<< 4), padChar, padChar] ++ endLine (lineLen + 4)
  | lineLen, [] => endLine lineLen

-- `base64_encode`, where the allocation succeeds: the `out_len` octets that the NUL follows
def base64Encode (src : Octets) : Option Octets :=
  if olen src.length < src.length then none else some (encodeFrom 0 src)

-- `dtable`
def dtable (c : UInt8) : UInt8 :=
  if c = padChar then 0
  else if c ∈ base64Table then UInt8.ofNat (base64Table.idxOf c)
  else 0x80

def isCode (c : UInt8) : Bool := dtable c ≠ 0x80

-- The first loop of `base64_decode`
def count (src : Octets) : ℕ := src.countP isCode

-- What was written, and `*out_len` unless NULL is returned
structure Decoded where
  written : Octets
  outLen : Option ℤ
  deriving DecidableEq, Repr

def unblock (block : Octets) : Octets :=
  [(block.getD 0 0 <<< 2) ||| (block.getD 1 0 >>> 4), (block.getD 1 0 <<< 4) ||| (block.getD 2 0 >>> 2),
    (block.getD 2 0 <<< 6) ||| block.getD 3 0]

-- The second loop of `base64_decode`
def decodeFrom : Octets → Octets → ℕ → Octets → Decoded
  | [], _, _, out => ⟨out, some out.length⟩
  | c :: src, block, pad, out =>
    if isCode c then
      let pad := if c = padChar then pad + 1 else pad
      let block := block ++ [dtable c]
      if block.length = 4 then
        let out := out ++ unblock block
        if pad = 0 then decodeFrom src [] pad out
        else if pad = 1 then ⟨out, some (out.length - 1)⟩
        else if pad = 2 then ⟨out, some (out.length - 2)⟩
        else ⟨out, none⟩
      else decodeFrom src block pad out
    else decodeFrom src block pad out

-- `base64_decode`, where the allocation of `count / 4 * 3` octets succeeds
def base64Decode (src : Octets) : Decoded :=
  if count src = 0 ∨ count src % 4 ≠ 0 then ⟨[], none⟩ else decodeFrom src [] 0 []

theorem dtable_tableAt (v : UInt8) (hv : v.toNat < 64) :
    dtable (tableAt v) = v ∧ isCode (tableAt v) = true ∧ tableAt v ≠ padChar := by
  have hall : ∀ i : Fin 64, dtable (tableAt (UInt8.ofNat i)) = UInt8.ofNat i ∧
      isCode (tableAt (UInt8.ofNat i)) = true ∧ tableAt (UInt8.ofNat i) ≠ padChar := by decide +kernel
  have h := hall ⟨v.toNat, hv⟩
  rwa [UInt8.ofNat_toNat] at h

theorem eq_of_bits {x y : UInt8} (h : ∀ i : Fin 8, x.toBitVec[i] = y.toBitVec[i]) : x = y :=
  UInt8.eq_of_toBitVec_eq (BitVec.eq_of_getElem_eq fun i hi => h ⟨i, hi⟩)

theorem lt_of_mask {v : UInt8} (hv : v &&& 0x3f = v) : v.toNat < 64 := by
  have hle : v.toNat &&& 63 ≤ 63 := Nat.and_le_right
  have hnat : v.toNat &&& 63 = v.toNat := by
    simpa using congrArg UInt8.toNat hv
  omega

-- The six bits of each character, and the octets that are put together from them again
section Bits

variable (a b c : UInt8)

theorem first_lt : (a >>> 2).toNat < 64 := by
  apply lt_of_mask
  exact eq_of_bits fun i => by fin_cases i <;> simp

theorem second_lt : (((a &&& 0x03) <<< 4) ||| (b >>> 4)).toNat < 64 := by
  apply lt_of_mask
  exact eq_of_bits fun i => by fin_cases i <;> simp

theorem third_lt : (((b &&& 0x0f) <<< 2) ||| (c >>> 6)).toNat < 64 := by
  apply lt_of_mask
  exact eq_of_bits fun i => by fin_cases i <;> simp

theorem fourth_lt : (c &&& 0x3f).toNat < 64 := by
  apply lt_of_mask
  rw [UInt8.and_assoc]
  rfl

theorem join_first : ((a >>> 2) <<< 2) ||| ((((a &&& 0x03) <<< 4) ||| (b >>> 4)) >>> 4) = a := by
  exact eq_of_bits fun i => by fin_cases i <;> simp

theorem join_second : ((((a &&& 0x03) <<< 4) ||| (b >>> 4)) <<< 4) |||
    ((((b &&& 0x0f) <<< 2) ||| (c >>> 6)) >>> 2) = b := by
  exact eq_of_bits fun i => by fin_cases i <;> simp

theorem join_third : ((((b &&& 0x0f) <<< 2) ||| (c >>> 6)) <<< 6) ||| (c &&& 0x3f) = c := by
  exact eq_of_bits fun i => by fin_cases i <;> simp

end Bits

theorem endLine_zero : endLine 0 = [] := rfl

theorem endLine_pos {n : ℕ} (hn : n ≠ 0) : endLine n = [lineFeed] := if_pos hn

-- Four characters for each three octets, and a line feed for each 72 characters
theorem length_encodeFrom {lineLen m : ℕ} (src : Octets) (hline : lineLen = 4 * m) (hm : m < 18) :
    (encodeFrom lineLen src).length =
      4 * ((src.length + 2) / 3) + (m + (src.length + 2) / 3 + 17) / 18 := by
  fun_induction encodeFrom lineLen src generalizing m with
  | case1 lineLen a b c rest ih₁ ih₂ =>
    simp only [List.length_append, List.length_cons, quad, List.length_nil]
    by_cases hfull : 72 ≤ lineLen + 4
    · rw [if_pos hfull, List.length_cons, ih₁ (m := 0) rfl (by decide)]
      omega
    · rw [if_neg hfull, ih₂ (m := m + 1) (by omega) (by omega)]
      omega
  | case2 lineLen a b | case3 lineLen a =>
    rw [List.length_append, endLine_pos (by omega)]
    simp only [List.length_cons, List.length_nil]
    omega
  | case4 lineLen =>
    by_cases hzero : m = 0
    · rw [hline, hzero]
      rfl
    rw [endLine_pos (by omega)]
    simp only [List.length_cons, List.length_nil]
    omega

-- Only the first product can wrap.
theorem olen_eq (len : ℕ) :
    olen len = len * 4 % 2 ^ 64 / 3 + 4 + (len * 4 % 2 ^ 64 / 3 + 4) / 72 + 1 := by
  have hwrap : len * 4 % 2 ^ 64 / 3 < 2 ^ 63 := by omega
  unfold olen
  dsimp only
  generalize len * 4 % 2 ^ 64 / 3 = third at hwrap ⊢
  rw [Nat.mod_eq_of_lt (a := third + 4) (by omega), Nat.mod_eq_of_lt (by omega), Nat.mod_eq_of_lt (by omega)]

-- A length that passes the test is far from where the product wraps.
theorem lt_of_le_olen {len : ℕ} (hlen : len < 2 ^ 64) (hfit : len ≤ olen len) : len < 2 ^ 62 := by
  rw [olen_eq] at hfit
  by_contra hlarge
  have hwrap : len * 4 % 2 ^ 64 = len * 4 - 2 ^ 64 * (len * 4 / 2 ^ 64) := by omega
  have hquot : len * 4 / 2 ^ 64 = 1 ∨ len * 4 / 2 ^ 64 = 2 ∨ len * 4 / 2 ^ 64 = 3 := by omega
  rcases hquot with hquot | hquot | hquot <;> rw [hquot] at hwrap <;> rw [hwrap] at hfit <;> omega

theorem size_le_olen {len : ℕ} (hlen : len < 2 ^ 64) (hfit : len ≤ olen len) :
    4 * ((len + 2) / 3) + ((len + 2) / 3 + 17) / 18 + 1 ≤ olen len := by
  have hsmall := lt_of_le_olen hlen hfit
  have hexact : len * 4 % 2 ^ 64 = len * 4 := by omega
  rw [olen_eq, hexact]
  omega

section RoundTrip

variable {block out src : Octets} {pad : ℕ} {c : UInt8}

theorem decodeFrom_skip (hc : isCode c = false) :
    decodeFrom (c :: src) block pad out = decodeFrom src block pad out := by
  rw [decodeFrom, hc]
  rfl

theorem decodeFrom_collect (hc : isCode c = true) (hblock : block.length ≠ 3) :
    decodeFrom (c :: src) block pad out =
      decodeFrom src (block ++ [dtable c]) (if c = padChar then pad + 1 else pad) out := by
  have hlen : (block ++ [dtable c]).length ≠ 4 := by
    rw [List.length_append, List.length_singleton]
    omega
  rw [decodeFrom, if_pos hc]
  exact if_neg hlen

theorem decodeFrom_close (hc : isCode c = true) (hblock : block.length = 3) :
    decodeFrom (c :: src) block pad out =
      let pad := if c = padChar then pad + 1 else pad
      let out := out ++ unblock (block ++ [dtable c])
      if pad = 0 then decodeFrom src [] pad out
      else if pad = 1 then ⟨out, some (out.length - 1)⟩
      else if pad = 2 then ⟨out, some (out.length - 2)⟩
      else ⟨out, none⟩ := by
  have hlen : (block ++ [dtable c]).length = 4 := by rw [List.length_append, hblock, List.length_singleton]
  rw [decodeFrom, if_pos hc]
  exact if_pos hlen

theorem decodeFrom_table {v : UInt8} (hv : v.toNat < 64) (hblock : block.length ≠ 3) :
    decodeFrom (tableAt v :: src) block pad out = decodeFrom src (block ++ [v]) pad out := by
  obtain ⟨hd, hc, hp⟩ := dtable_tableAt v hv
  rw [decodeFrom_collect hc hblock, hd, if_neg hp]

theorem isCode_padChar : isCode padChar = true := by decide

theorem isCode_lineFeed : isCode lineFeed = false := by decide

theorem dtable_padChar : dtable padChar = 0 := rfl

theorem decodeFrom_quad (a b c : UInt8) (src out : Octets) :
    decodeFrom (quad a b c ++ src) [] 0 out = decodeFrom src [] 0 (out ++ [a, b, c]) := by
  obtain ⟨hd, hc, hp⟩ := dtable_tableAt _ (fourth_lt c)
  simp only [quad, List.cons_append, List.nil_append]
  rw [decodeFrom_table (first_lt a) (by simp), decodeFrom_table (second_lt a b) (by simp),
    decodeFrom_table (third_lt b c) (by simp), decodeFrom_close hc (by simp), hd, if_neg hp]
  simp only [if_true, List.nil_append, List.cons_append, unblock, List.getD_cons_zero, List.getD_cons_succ,
    join_first, join_second, join_third]

theorem decodeFrom_two (a b : UInt8) (src out : Octets) :
    decodeFrom (tableAt (a >>> 2) :: tableAt (((a &&& 0x03) <<< 4) ||| (b >>> 4)) ::
      tableAt ((b &&& 0x0f) <<< 2) :: padChar :: src) [] 0 out =
      ⟨out ++ [a, b] ++ [((b &&& 0x0f) <<< 2) <<< 6], some (out.length + 2)⟩ := by
  have hthird : (b &&& 0x0f) <<< 2 = ((b &&& 0x0f) <<< 2) ||| ((0 : UInt8) >>> 6) := by simp
  have hlt : ((b &&& 0x0f) <<< 2).toNat < 64 := by
    rw [hthird]
    exact third_lt b 0
  have hjoin := join_second a b 0
  rw [← hthird] at hjoin
  rw [decodeFrom_table (first_lt a) (by simp), decodeFrom_table (second_lt a b) (by simp),
    decodeFrom_table hlt (by simp), decodeFrom_close isCode_padChar (by simp), dtable_padChar, if_pos rfl]
  simp [unblock, join_first, hjoin]
  omega

theorem decodeFrom_one (a : UInt8) (src out : Octets) :
    decodeFrom (tableAt (a >>> 2) :: tableAt ((a &&& 0x03) <<< 4) :: padChar :: padChar :: src) [] 0 out =
      ⟨out ++ [a] ++ [((a &&& 0x03) <<< 4) <<< 4, 0], some (out.length + 1)⟩ := by
  have hsecond : (a &&& 0x03) <<< 4 = ((a &&& 0x03) <<< 4) ||| ((0 : UInt8) >>> 4) := by simp
  have hlt : ((a &&& 0x03) <<< 4).toNat < 64 := by
    rw [hsecond]
    exact second_lt a 0
  have hjoin := join_first a 0
  rw [← hsecond] at hjoin
  rw [decodeFrom_table (first_lt a) (by simp), decodeFrom_table hlt (by simp),
    decodeFrom_collect isCode_padChar (by simp), decodeFrom_close isCode_padChar (by simp), dtable_padChar,
    if_pos rfl]
  simp [unblock, hjoin]
  omega

theorem decodeFrom_encodeFrom (lineLen : ℕ) (src out : Octets) :
    ∃ extra, decodeFrom (encodeFrom lineLen src) [] 0 out =
      ⟨out ++ src ++ extra, some (out.length + src.length)⟩ := by
  fun_induction encodeFrom lineLen src generalizing out with
  | case1 lineLen a b c rest ih₁ ih₂ =>
    have hshape (extra : Octets) :
        (⟨out ++ [a, b, c] ++ rest ++ extra, some ((out ++ [a, b, c]).length + rest.length)⟩ : Decoded) =
          ⟨out ++ a :: b :: c :: rest ++ extra, some (out.length + (a :: b :: c :: rest).length)⟩ := by
      simp
      omega
    rw [decodeFrom_quad]
    by_cases hfull : 72 ≤ lineLen + 4
    · obtain ⟨extra, hrest⟩ := ih₁ (out ++ [a, b, c])
      rw [if_pos hfull, decodeFrom_skip isCode_lineFeed, hrest]
      exact ⟨extra, hshape extra⟩
    · obtain ⟨extra, hrest⟩ := ih₂ (out ++ [a, b, c])
      rw [if_neg hfull, hrest]
      exact ⟨extra, hshape extra⟩
  | case2 lineLen a b => exact ⟨_, decodeFrom_two a b _ out⟩
  | case3 lineLen a => exact ⟨_, decodeFrom_one a _ out⟩
  | case4 lineLen =>
    refine ⟨[], ?_⟩
    by_cases hzero : lineLen = 0
    · rw [hzero, endLine_zero]
      simp [decodeFrom]
    · rw [endLine_pos hzero, decodeFrom_skip isCode_lineFeed]
      simp [decodeFrom]

theorem count_lineFeed (src : Octets) : count (lineFeed :: src) = count src :=
  List.countP_cons_of_neg (by decide)

theorem count_code (hc : isCode c = true) : count (c :: src) = count src + 1 :=
  List.countP_cons_of_pos hc

theorem count_table {v : UInt8} (hv : v.toNat < 64) (src : Octets) : count (tableAt v :: src) = count src + 1 :=
  count_code (dtable_tableAt v hv).2.1

theorem count_endLine (n : ℕ) : count (endLine n) = 0 := by
  unfold endLine
  split_ifs
  · exact count_lineFeed []
  · rfl

theorem count_encodeFrom (lineLen : ℕ) (src : Octets) :
    count (encodeFrom lineLen src) = 4 * ((src.length + 2) / 3) := by
  fun_induction encodeFrom lineLen src with
  | case1 lineLen a b c rest ih₁ ih₂ =>
    simp only [quad, List.cons_append, List.nil_append, List.length_cons]
    rw [count_table (first_lt a), count_table (second_lt a b), count_table (third_lt b c),
      count_table (fourth_lt c)]
    by_cases hfull : 72 ≤ lineLen + 4
    · rw [if_pos hfull, count_lineFeed, ih₁]
      omega
    · rw [if_neg hfull, ih₂]
      omega
  | case2 lineLen a b =>
    have hlt := third_lt b 0
    simp only [UInt8.zero_shiftRight, UInt8.or_zero] at hlt
    simp only [List.cons_append, List.nil_append, List.length_cons, List.length_nil]
    rw [count_table (first_lt a), count_table (second_lt a b), count_table hlt, count_code isCode_padChar,
      count_endLine]
  | case3 lineLen a =>
    have hlt := second_lt a 0
    simp only [UInt8.zero_shiftRight, UInt8.or_zero] at hlt
    simp only [List.cons_append, List.nil_append, List.length_cons, List.length_nil]
    rw [count_table (first_lt a), count_table hlt, count_code isCode_padChar, count_code isCode_padChar,
      count_endLine]
  | case4 lineLen => exact count_endLine lineLen

def Decoded.Within (d : Decoded) (size : ℕ) : Prop :=
  d.written.length ≤ size ∧ ∀ n, d.outLen = some n → 0 ≤ n ∧ n ≤ d.written.length

theorem Decoded.Within.mono {d : Decoded} {m n : ℕ} (h : d.Within m) (hle : m ≤ n) : d.Within n :=
  ⟨h.1.trans hle, h.2⟩

theorem length_unblock (block : Octets) : (unblock block).length = 3 := rfl

theorem decodeFrom_within (src : Octets) (hblock : block.length < 4) :
    (decodeFrom src block pad out).Within (out.length + (block.length + count src) / 4 * 3) := by
  induction src generalizing block pad out with
  | nil =>
    refine ⟨Nat.le_add_right _ _, fun n hn => ?_⟩
    obtain rfl : (out.length : ℤ) = n := Option.some.inj hn
    simp [decodeFrom]
  | cons c src ih =>
    by_cases hc : isCode c = true
    · rw [count_code hc]
      by_cases hthree : block.length = 3
      · have hsize : (out ++ unblock (block ++ [dtable c])).length = out.length + 3 := by
          rw [List.length_append, length_unblock]
        rw [decodeFrom_close hc hthree]
        generalize (if c = padChar then pad + 1 else pad) = pad'
        generalize out ++ unblock (block ++ [dtable c]) = out' at hsize ⊢
        have hstop (k : ℤ) (hk : 0 ≤ k ∧ k ≤ 2) :
            (⟨out', some (out'.length - k)⟩ : Decoded).Within (out.length + (block.length + (count src + 1)) / 4 * 3) := by
          refine ⟨?_, fun n hn => ?_⟩
          · show out'.length ≤ _
            omega
          · have hn' := Option.some.inj hn
            show 0 ≤ n ∧ n ≤ (out'.length : ℤ)
            omega
        dsimp only
        split_ifs with hzero hone htwo
        · refine (ih (by decide)).mono ?_
          rw [List.length_nil]
          omega
        · exact hstop 1 (by decide)
        · exact hstop 2 (by decide)
        · refine ⟨?_, fun n hn => by cases hn⟩
          show out'.length ≤ _
          omega
      · rw [decodeFrom_collect hc hthree]
        refine (ih ?_).mono ?_
        · rw [List.length_append, List.length_singleton]
          omega
        · rw [List.length_append, List.length_singleton]
          omega
    · have hskip : isCode c = false := Bool.eq_false_of_not_eq_true hc
      rw [decodeFrom_skip hskip]
      have hcount : count (c :: src) = count src := List.countP_cons_of_neg hc
      rw [hcount]
      exact ih hblock

theorem base64Decode_within (src : Octets) : (base64Decode src).Within (count src / 4 * 3) := by
  unfold base64Decode
  split_ifs with hcount
  · exact ⟨Nat.zero_le _, fun n hn => by cases hn⟩
  have hblock : ([] : Octets).length < 4 := by decide
  have h : (decodeFrom src [] 0 []).Within _ := decodeFrom_within src hblock
  rwa [List.length_nil, Nat.zero_add, Nat.zero_add] at h

-- The output fits into what was allocated for it, and decodes to the string; no string is decoded to
-- more than its buffer holds.
theorem base64_round_trip (src : Octets) (hne : src ≠ []) (hlen : src.length < 2 ^ 64)
    (hfit : src.length ≤ olen src.length) :
    (∃ out, base64Encode src = some out ∧ out.length + 1 ≤ olen src.length ∧
      (base64Decode out).outLen = some src.length ∧ (base64Decode out).written.take src.length = src) ∧
      ∀ s : Octets, (base64Decode s).Within (count s / 4 * 3) := by
  refine ⟨⟨encodeFrom 0 src, if_neg (by omega), ?_, ?_⟩, base64Decode_within⟩
  · rw [length_encodeFrom src (m := 0) rfl (by decide), Nat.zero_add]
    exact size_le_olen hlen hfit
  · have hpos := List.length_pos_iff.mpr hne
    have hcount := count_encodeFrom 0 src
    obtain ⟨extra, hdecode⟩ := decodeFrom_encodeFrom 0 src []
    rw [base64Decode, if_neg (by omega), hdecode]
    simp

-- A string that takes two lines
theorem base64_round_trip_sample :
    (∃ out, base64Encode (List.replicate 55 7) = some out ∧ out.length + 1 ≤ olen 55 ∧
      (base64Decode out).outLen = some 55 ∧
      (base64Decode out).written.take 55 = List.replicate 55 7) ∧
      ∀ s : Octets, (base64Decode s).Within (count s / 4 * 3) :=
  base64_round_trip (List.replicate 55 7) (by decide) (by decide) (by decide)

end RoundTrip

end WpaSupplicant.Base64

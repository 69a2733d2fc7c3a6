import WpaSupplicant.Common
import WpaSupplicant.Lib.Chain

namespace WpaSupplicant.Aes

open Lib.Octets Lib.Chain

-- The AES block functions: `aes_encrypt` and `aes_decrypt` with the context of a key
structure BlockCipher where
  encrypt : BitVec 128 → BitVec 128 → BitVec 128
  decrypt : BitVec 128 → BitVec 128 → BitVec 128
  decrypt_encrypt : ∀ key b, decrypt key (encrypt key b) = b
  encrypt_decrypt : ∀ key b, encrypt key (decrypt key b) = b

def BlockCipher.transparent : BlockCipher where
  encrypt _ b := b
  decrypt _ b := b
  decrypt_encrypt _ _ := rfl
  encrypt_decrypt _ _ := rfl

abbrev Register := BitVec 64

def registers : ℕ → Octets → List Register
  | 0, _ => []
  | n + 1, buf => getBE 64 (buf.take 8) :: registers n (buf.drop 8)

def octets (rs : List Register) : Octets := rs.flatMap (putBE 8)

theorem length_registers (n : ℕ) (buf : Octets) : (registers n buf).length = n := by
  induction n generalizing buf with
  | zero => rfl
  | succ n ih => rw [registers, List.length_cons, ih]

theorem octets_cons (r : Register) (rs : List Register) : octets (r :: rs) = putBE 8 r ++ octets rs := rfl

theorem registers_octets (rs : List Register) : registers rs.length (octets rs) = rs := by
  induction rs with
  | nil => rfl
  | cons r rs ih =>
    rw [List.length_cons, registers, octets_cons, List.take_left' (length_putBE 8 r),
      List.drop_left' (length_putBE 8 r), ih, getBE_putBE 8 r rfl]

theorem octets_registers {n : ℕ} {buf : Octets} (h : buf.length = 8 * n) : octets (registers n buf) = buf := by
  induction n generalizing buf with
  | zero => exact (List.eq_nil_of_length_eq_zero h).symm
  | succ n ih =>
    have htake : (buf.take 8).length = 8 := by
      rw [List.length_take]
      omega
    have hdrop : (buf.drop 8).length = 8 * n := by
      rw [List.length_drop]
      omega
    rw [registers, octets_cons, putBE_getBE 64 8 _ rfl htake, ih hdrop, List.take_append_drop]

section Wrap

variable (c : BlockCipher) (kek : BitVec 128)

-- What is written over the register `A` at step `t = n * j + i`: `a[7] ^= n * j + i`
def counterOctet (t : ℕ) : Register := BitVec.ofNat 64 (t % 256)

-- The body of the inner loop of `aes_wrap`
def wrapStep (counter : ℕ → Register) (t : ℕ) (a r : Register) : Register × Register :=
  let b := c.encrypt kek (a ++ r)
  (b.extractLsb' 64 64 ^^^ counter t, b.extractLsb' 0 64)

-- The body of the inner loop of `aes_unwrap`
def unwrapStep (counter : ℕ → Register) (t : ℕ) (a r : Register) : Register × Register :=
  let b := c.decrypt kek ((a ^^^ counter t) ++ r)
  (b.extractLsb' 64 64, b.extractLsb' 0 64)

-- The two loops of `aes_wrap` on `A` and the registers `R[1]` to `R[n]`
def wrapLoops (counter : ℕ → Register) (n : ℕ) (s : Register × List Register) : Register × List Register :=
  rounds (wrapStep c kek counter) n (List.range 6) s

-- The two loops of `aes_unwrap`, from `j = 5` down to `j = 0`
def unwrapLoops (counter : ℕ → Register) (n : ℕ) (s : Register × List Register) :
    Register × List Register :=
  roundsBack (unwrapStep c kek counter) n (List.range 6) s

-- The initial value of `A`
def initialValue : Register := 0xa6a6a6a6a6a6a6a6

def wrapWith (counter : ℕ → Register) (n : ℕ) (plain : Octets) : Octets :=
  let s := wrapLoops c kek counter n (initialValue, registers n plain)
  octets (s.1 :: s.2)

def unwrapWith (counter : ℕ → Register) (n : ℕ) (cipher : Octets) : Option Octets :=
  let s := unwrapLoops c kek counter n (getBE 64 (cipher.take 8), registers n (cipher.drop 8))
  if s.1 = initialValue then some (octets s.2) else none

-- `aes_wrap` and `aes_unwrap`, where the context of the key is allocated
def aesWrap (n : ℕ) (plain : Octets) : Octets := wrapWith c kek counterOctet n plain

def aesUnwrap (n : ℕ) (cipher : Octets) : Option Octets := unwrapWith c kek counterOctet n cipher

end Wrap

section Inverse

variable {c : BlockCipher} {kek : BitVec 128} {counter : ℕ → Register} {n : ℕ}

theorem extract_high (a r : Register) : (a ++ r).extractLsb' 64 64 = a := BitVec.extractLsb'_append_eq_left

theorem extract_low (a r : Register) : (a ++ r).extractLsb' 0 64 = r := BitVec.extractLsb'_append_eq_right

theorem append_extract (b : BitVec 128) : b.extractLsb' 64 64 ++ b.extractLsb' 0 64 = b :=
  BitVec.extractLsb'_append_extractLsb'

theorem unwrapStep_wrapStep (t : ℕ) (a r : Register) :
    unwrapStep c kek counter t (wrapStep c kek counter t a r).1 (wrapStep c kek counter t a r).2 = (a, r) := by
  rw [unwrapStep, wrapStep]
  dsimp only
  rw [BitVec.xor_assoc, BitVec.xor_self, BitVec.xor_zero, append_extract, c.decrypt_encrypt, extract_high,
    extract_low]

theorem wrapStep_unwrapStep (t : ℕ) (a r : Register) :
    wrapStep c kek counter t (unwrapStep c kek counter t a r).1 (unwrapStep c kek counter t a r).2 = (a, r) := by
  rw [wrapStep, unwrapStep]
  dsimp only
  rw [append_extract, c.encrypt_decrypt, extract_high, extract_low, BitVec.xor_assoc, BitVec.xor_self,
    BitVec.xor_zero]

theorem unwrapLoops_wrapLoops (s : Register × List Register) :
    unwrapLoops c kek counter n (wrapLoops c kek counter n s) = s :=
  roundsBack_rounds unwrapStep_wrapStep

theorem wrapLoops_unwrapLoops (s : Register × List Register) :
    wrapLoops c kek counter n (unwrapLoops c kek counter n s) = s :=
  rounds_roundsBack wrapStep_unwrapStep

theorem length_wrapLoops (s : Register × List Register) :
    (wrapLoops c kek counter n s).2.length = s.2.length := length_rounds

theorem length_unwrapLoops (s : Register × List Register) :
    (unwrapLoops c kek counter n s).2.length = s.2.length := length_roundsBack

theorem split_wrapped (s : Register × List Register) (h : s.2.length = n) :
    (getBE 64 ((octets (s.1 :: s.2)).take 8), registers n ((octets (s.1 :: s.2)).drop 8)) = s := by
  rw [octets_cons, List.take_left' (length_putBE 8 s.1), List.drop_left' (length_putBE 8 s.1),
    getBE_putBE 8 s.1 rfl, ← h, registers_octets]

theorem join_wrapped {cipher : Octets} (h : cipher.length = 8 * (n + 1)) :
    octets (getBE 64 (cipher.take 8) :: registers n (cipher.drop 8)) = cipher := octets_registers h

theorem unwrapWith_wrapWith {plain : Octets} (h : plain.length = 8 * n) :
    unwrapWith c kek counter n (wrapWith c kek counter n plain) = some plain := by
  have hlen : (wrapLoops c kek counter n (initialValue, registers n plain)).2.length = n := by
    rw [length_wrapLoops, length_registers]
  rw [unwrapWith, wrapWith, split_wrapped _ hlen, unwrapLoops_wrapLoops, if_pos rfl, octets_registers h]

theorem wrapWith_unwrapWith {cipher plain : Octets} (hlen : cipher.length = 8 * (n + 1))
    (h : unwrapWith c kek counter n cipher = some plain) : wrapWith c kek counter n plain = cipher := by
  rw [unwrapWith] at h
  split_ifs at h with hiv
  have hplain := Option.some.inj h
  have hregs : (unwrapLoops c kek counter n (getBE 64 (cipher.take 8), registers n (cipher.drop 8))).2.length = n := by
    rw [length_unwrapLoops, length_registers]
  have hback : registers n plain =
      (unwrapLoops c kek counter n (getBE 64 (cipher.take 8), registers n (cipher.drop 8))).2 := by
    rw [← hplain]
    nth_rewrite 1 [← hregs]
    exact registers_octets _
  rw [wrapWith, hback, ← hiv, Prod.mk.eta, wrapLoops_unwrapLoops, join_wrapped hlen]

theorem aes_wrap_inverse (c : BlockCipher) (kek : BitVec 128) (n : ℕ) (plain cipher : Octets)
    (hplain : plain.length = 8 * n) (hcipher : cipher.length = 8 * (n + 1)) :
    aesUnwrap c kek n (aesWrap c kek n plain) = some plain ∧
      ∀ p, aesUnwrap c kek n cipher = some p → aesWrap c kek n p = cipher :=
  ⟨unwrapWith_wrapWith hplain, fun _ => wrapWith_unwrapWith hcipher⟩

theorem aes_wrap_inverse_sample :
    aesUnwrap .transparent 1 2 (aesWrap .transparent 1 2 (List.replicate 16 7)) =
        some (List.replicate 16 7) ∧
      ∀ p, aesUnwrap .transparent 1 2 (List.replicate 24 9) = some p →
        aesWrap .transparent 1 2 p = List.replicate 24 9 :=
  aes_wrap_inverse .transparent 1 2 (List.replicate 16 7) (List.replicate 24 9) rfl rfl

end Inverse

section Counter

variable {c : BlockCipher} {kek : BitVec 128} {n : ℕ}

def counter64 (t : ℕ) : Register := BitVec.ofNat 64 t

def rfcWrap (c : BlockCipher) (kek : BitVec 128) (n : ℕ) (plain : Octets) : Octets :=
  wrapWith c kek counter64 n plain

def rfcUnwrap (c : BlockCipher) (kek : BitVec 128) (n : ℕ) (cipher : Octets) : Option Octets :=
  unwrapWith c kek counter64 n cipher

theorem counterOctet_eq {t : ℕ} (h : t ≤ 255) : counterOctet t = counter64 t := by
  rw [counterOctet, counter64, Nat.mod_eq_of_lt (by omega)]

section Short

variable {counter counter' : ℕ → Register}

theorem wrapLoops_congr (h : ∀ t, 1 ≤ t → t ≤ n * 6 → counter t = counter' t)
    (s : Register × List Register) (hs : s.2.length = n) :
    wrapLoops c kek counter n s = wrapLoops c kek counter' n s := by
  refine rounds_congr (k := 6) (fun t hone htop => ?_) (fun j hj => List.mem_range.mp hj) hs
  funext a r
  rw [wrapStep, wrapStep, h t hone htop]

theorem unwrapLoops_congr (h : ∀ t, 1 ≤ t → t ≤ n * 6 → counter t = counter' t)
    (s : Register × List Register) (hs : s.2.length = n) :
    unwrapLoops c kek counter n s = unwrapLoops c kek counter' n s := by
  refine roundsBack_congr (k := 6) (fun t hone htop => ?_) (fun j hj => List.mem_range.mp hj) hs
  funext a r
  rw [unwrapStep, unwrapStep, h t hone htop]

end Short

section Long

variable (counter : ℕ → Register)

-- The counters 1 to `m`, added up
def total : ℕ → Register
  | 0 => 0#64
  | m + 1 => total m ^^^ counter (m + 1)

theorem wrapStep_transparent (t : ℕ) (a r : Register) :
    wrapStep .transparent kek counter t a r = (a ^^^ counter t, r) := by
  have hid : BlockCipher.transparent.encrypt kek (a ++ r) = a ++ r := rfl
  rw [wrapStep, hid, extract_high, extract_low]

-- A cipher that changes nothing leaves the counters in `A`.
theorem pass_transparent (iv : Register) (m : ℕ) (rs : List Register) :
    pass (wrapStep .transparent kek counter) (m + 1) (iv ^^^ total counter m) rs =
      (iv ^^^ total counter (m + rs.length), rs) := by
  induction rs generalizing m with
  | nil => rfl
  | cons r rs ih =>
    have hnext : iv ^^^ total counter m ^^^ counter (m + 1) = iv ^^^ total counter (m + 1) := by
      rw [BitVec.xor_assoc, total]
    have hlen : m + 1 + rs.length = m + (r :: rs).length := by
      rw [List.length_cons]
      omega
    rw [Lib.Chain.pass, wrapStep_transparent, hnext, ih, hlen]

theorem rounds_transparent (kek : BitVec 128) (iv : Register) (rs : List Register) (j k : ℕ) :
    rounds (wrapStep .transparent kek counter) rs.length (List.range' j k)
        (iv ^^^ total counter (rs.length * j), rs) =
      (iv ^^^ total counter (rs.length * (j + k)), rs) := by
  induction k generalizing j with
  | zero => rfl
  | succ k ih =>
    have hnext : rs.length * j + rs.length = rs.length * (j + 1) := by rw [Nat.mul_succ]
    have hlast : j + 1 + k = j + (k + 1) := by omega
    rw [List.range'_succ, rounds, pass_transparent, hnext, ih, hlast]

theorem wrapWith_transparent (plain : Octets) :
    wrapWith .transparent kek counter n plain =
      octets ((initialValue ^^^ total counter (n * 6)) :: registers n plain) := by
  have h := rounds_transparent counter kek initialValue (registers n plain) 0 6
  rw [length_registers, Nat.mul_zero, total, BitVec.xor_zero, ← List.range_eq_range'] at h
  rw [wrapWith, wrapLoops, h]

theorem total_counterOctet (m : ℕ) : total counterOctet m >>> 8 = 0#64 := by
  induction m with
  | zero => rfl
  | succ m ih =>
    have hoctet : counterOctet (m + 1) >>> 8 = 0#64 := by
      apply BitVec.eq_of_toNat_eq
      rw [counterOctet, BitVec.toNat_ushiftRight, BitVec.toNat_ofNat, Nat.shiftRight_eq_div_pow]
      simp
      omega
    rw [total, BitVec.ushiftRight_xor_distrib, ih, hoctet, BitVec.xor_self]

theorem counter64_shift {t : ℕ} (h : t < 2 ^ 64) : counter64 t >>> 8 = BitVec.ofNat 64 (t / 256) := by
  apply BitVec.eq_of_toNat_eq
  rw [counter64, BitVec.toNat_ushiftRight, BitVec.toNat_ofNat, BitVec.toNat_ofNat,
    Nat.shiftRight_eq_div_pow, Nat.mod_eq_of_lt h, Nat.mod_eq_of_lt (by omega)]

-- Two counters that differ in the last bit only cancel out in the higher octets.
theorem total_counter64 {k : ℕ} (h : 2 * k < 2 ^ 64) :
    total counter64 (2 * k) >>> 8 = BitVec.ofNat 64 (2 * k / 256) := by
  induction k with
  | zero => rfl
  | succ k ih =>
    have hpair : (2 * k + 1) / 256 = 2 * k / 256 := by omega
    have hlast : 2 * (k + 1) = 2 * k + 1 + 1 := by omega
    rw [hlast, total, total, BitVec.ushiftRight_xor_distrib, BitVec.ushiftRight_xor_distrib,
      ih (by omega), counter64_shift (by omega), counter64_shift (by omega), hpair, BitVec.xor_self,
      BitVec.zero_xor]

theorem putBE_injective {x y : Register} (h : putBE 8 x = putBE 8 y) : x = y := by
  rw [← getBE_putBE 8 x rfl, h, getBE_putBE 8 y rfl]

-- Past 255 the two counters give different results with a cipher that changes nothing.
theorem wrap_transparent_differs (hlong : 255 < n * 6) (hn : n * 6 < 2 ^ 64) (plain : Octets) :
    aesWrap .transparent kek n plain ≠ rfcWrap .transparent kek n plain := by
  intro h
  rw [aesWrap, rfcWrap, wrapWith_transparent, wrapWith_transparent, octets_cons, octets_cons] at h
  have ha := putBE_injective (List.append_cancel_right h)
  have heven : n * 6 = 2 * (n * 3) := by omega
  have hshift := congrArg (fun x : Register => x >>> 8) ha
  simp only [BitVec.ushiftRight_xor_distrib, total_counterOctet] at hshift
  rw [heven, total_counter64 (by omega), BitVec.xor_right_inj] at hshift
  have hnat := congrArg BitVec.toNat hshift
  rw [BitVec.toNat_ofNat, BitVec.toNat_ofNat, Nat.zero_mod, Nat.mod_eq_of_lt (by omega)] at hnat
  omega

end Long

-- The code agrees with RFC 3394 exactly on keys that do not take the counter past one octet.
theorem aes_wrap_rfc3394 (n : ℕ) (hn : n ≤ 8191) :
    ((∀ t, 1 ≤ t → t ≤ n * 6 → counterOctet t = counter64 t) ∧
      ∀ (c : BlockCipher) (kek : BitVec 128) (plain cipher : Octets), plain.length = 8 * n →
        cipher.length = 8 * (n + 1) →
        aesWrap c kek n plain = rfcWrap c kek n plain ∧ aesUnwrap c kek n cipher = rfcUnwrap c kek n cipher) ↔
      n * 6 ≤ 255 := by
  constructor
  · intro h
    by_contra hlong
    exact wrap_transparent_differs (n := n) (by omega) (by omega) (List.replicate (8 * n) 0)
      (h.2 .transparent 0 (List.replicate (8 * n) 0) (List.replicate (8 * (n + 1)) 0) (by simp) (by simp)).1
  · intro hshort
    have hcounter (t : ℕ) (_ : 1 ≤ t) (htop : t ≤ n * 6) : counterOctet t = counter64 t :=
      counterOctet_eq (htop.trans hshort)
    refine ⟨hcounter, fun c kek plain cipher _ _ => ⟨?_, ?_⟩⟩
    · rw [aesWrap, rfcWrap, wrapWith, wrapWith, wrapLoops_congr hcounter _ (length_registers n plain)]
    · rw [aesUnwrap, rfcUnwrap, unwrapWith, unwrapWith,
        unwrapLoops_congr hcounter _ (length_registers n (cipher.drop 8))]

theorem aes_wrap_rfc3394_sample :
    ((∀ t, 1 ≤ t → t ≤ 2 * 6 → counterOctet t = counter64 t) ∧
      ∀ (c : BlockCipher) (kek : BitVec 128) (plain cipher : Octets), plain.length = 8 * 2 →
        cipher.length = 8 * (2 + 1) →
        aesWrap c kek 2 plain = rfcWrap c kek 2 plain ∧ aesUnwrap c kek 2 cipher = rfcUnwrap c kek 2 cipher) ↔
      2 * 6 ≤ 255 := aes_wrap_rfc3394 2 (by decide)

-- Key data of 344 octets, one register more than the counter can tell apart
theorem aes_wrap_long_key :
    aesWrap .transparent 0 43 (List.replicate 344 0) ≠ rfcWrap .transparent 0 43 (List.replicate 344 0) :=
  wrap_transparent_differs (by decide) (by decide) _

end Counter

end WpaSupplicant.Aes

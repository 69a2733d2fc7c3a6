import Mathlib.Data.List.Induction
import Mathlib.Data.Nat.ModEq
import Mathlib.Tactic.Ring
import Mathlib.Tactic.Linarith

namespace WpaSupplicant.Lib.Octets

def ofBE (l : List UInt8) : ℕ :=
  l.foldl (fun acc b => 256 * acc + b.toNat) 0

-- The last `n` octets of a number, most significant octet first.
def toBE : ℕ → ℕ → List UInt8
  | 0, _ => []
  | n + 1, x => toBE n (x / 256) ++ [UInt8.ofNat x]

-- The first `n` octets of a number, least significant octet first.
def toLE : ℕ → ℕ → List UInt8
  | 0, _ => []
  | n + 1, x => UInt8.ofNat x :: toLE n (x / 256)

@[simp] theorem length_toBE (n x : ℕ) : (toBE n x).length = n := by
  induction n generalizing x with
  | zero => rfl
  | succ n ih => simp [toBE, ih]

@[simp] theorem length_toLE (n x : ℕ) : (toLE n x).length = n := by
  induction n generalizing x with
  | zero => rfl
  | succ n ih => simp [toLE, ih]

@[simp] theorem ofBE_nil : ofBE [] = 0 := rfl

theorem ofBE_concat (l : List UInt8) (b : UInt8) :
    ofBE (l ++ [b]) = 256 * ofBE l + b.toNat := by
  simp [ofBE]

theorem ofBE_toBE (n x : ℕ) : ofBE (toBE n x) = x % 256 ^ n := by
  induction n generalizing x with
  | zero => simp [toBE, Nat.mod_one]
  | succ n ih =>
    rw [toBE, ofBE_concat, ih, Nat.pow_succ', Nat.mod_mul]
    simp
    omega

theorem ofBE_lt (l : List UInt8) : ofBE l < 256 ^ l.length := by
  induction l using List.reverseRecOn with
  | nil => simp
  | append_singleton l b ih =>
    rw [ofBE_concat, List.length_append, List.length_singleton, Nat.pow_succ']
    have hb := b.toNat_lt
    omega

theorem toBE_ofBE (l : List UInt8) : toBE l.length (ofBE l) = l := by
  induction l using List.reverseRecOn with
  | nil => rfl
  | append_singleton l b ih =>
    have hb := b.toNat_lt
    rw [List.length_append, List.length_singleton, toBE, ofBE_concat]
    have hdiv : (256 * ofBE l + b.toNat) / 256 = ofBE l := by omega
    have hlast : UInt8.ofNat (256 * ofBE l + b.toNat) = b := by
      apply UInt8.toNat_inj.mp
      rw [UInt8.toNat_ofNat']
      omega
    rw [hdiv, ih, hlast]

-- Octets of a fixed-width field: a `BitVec` holds the same data as its octet string.
def putBE {w : ℕ} (n : ℕ) (x : BitVec w) : List UInt8 := toBE n x.toNat

def getBE (w : ℕ) (l : List UInt8) : BitVec w := BitVec.ofNat w (ofBE l)

@[simp] theorem length_putBE {w : ℕ} (n : ℕ) (x : BitVec w) : (putBE n x).length = n := by
  simp [putBE]

theorem getBE_putBE {w : ℕ} (n : ℕ) (x : BitVec w) (hw : w = 8 * n) :
    getBE w (putBE n x) = x := by
  apply BitVec.eq_of_toNat_eq
  have hpow : 2 ^ w = 256 ^ n := by
    rw [hw, Nat.pow_mul]
  have hx := x.isLt
  rw [getBE, putBE, ofBE_toBE, BitVec.toNat_ofNat, hpow, Nat.mod_mod]
  exact Nat.mod_eq_of_lt (by omega)

theorem putBE_getBE (w n : ℕ) (l : List UInt8) (hw : w = 8 * n) (hlen : l.length = n) :
    putBE n (getBE w l) = l := by
  have hpow : 2 ^ w = 256 ^ n := by
    rw [hw, Nat.pow_mul]
  have hlt := ofBE_lt l
  rw [hlen] at hlt
  rw [putBE, getBE, BitVec.toNat_ofNat, hpow, Nat.mod_eq_of_lt hlt, ← hlen, toBE_ofBE]

-- The carry loop of a big-endian counter, written on its octets in the order in which the
-- loop visits them: from the last octet to the first, stopping at the first one that does
-- not wrap to zero.
def incCarry : List UInt8 → List UInt8
  | [] => []
  | b :: bs => if b + 1 ≠ 0 then (b + 1) :: bs else (b + 1) :: incCarry bs

-- `inc_byte_array`: add one to a big-endian octet string in place.
def incByteArray (counter : List UInt8) : List UInt8 :=
  (incCarry counter.reverse).reverse

private theorem toNat_add_one (b : UInt8) : (b + 1).toNat = (b.toNat + 1) % 256 := by
  simp [UInt8.toNat_add]

-- One round of the carry loop, read as a number: either the last digit absorbs the carry or it
-- wraps and the carry goes on.
private theorem ofBE_incCarry (l : List UInt8) :
    ofBE (incCarry l).reverse = (ofBE l.reverse + 1) % 256 ^ l.length := by
  induction l with
  | nil => rfl
  | cons b bs ih =>
    have hb := b.toNat_lt
    have hlt : ofBE bs.reverse < 256 ^ bs.length := by
      simpa using ofBE_lt bs.reverse
    have hstep := toNat_add_one b
    rw [incCarry, List.reverse_cons, ofBE_concat, List.length_cons, Nat.pow_succ']
    by_cases hz : b + 1 = 0
    · have hb255 : b.toNat = 255 := by
        have h0 : (b + 1).toNat = 0 := by simp [hz]
        omega
      rw [if_neg (by simpa using hz), List.reverse_cons, ofBE_concat, ih, hz, hb255]
      have hcarry : 256 * ofBE bs.reverse + 255 + 1 = 256 * (ofBE bs.reverse + 1) := by ring
      rw [hcarry, Nat.mul_mod_mul_left]
      simp
    · have hne : (b + 1).toNat ≠ 0 := by
        intro h
        exact hz (UInt8.toNat_inj.mp (by simpa using h))
      rw [if_pos hz, List.reverse_cons, ofBE_concat, hstep]
      rw [Nat.mod_eq_of_lt (show 256 * ofBE bs.reverse + b.toNat + 1 < 256 * 256 ^ bs.length by
        omega)]
      omega

-- The octet loop is the successor modulo the size of the counter.
theorem ofBE_incByteArray (l : List UInt8) :
    ofBE (incByteArray l) = (ofBE l + 1) % 256 ^ l.length := by
  have h := ofBE_incCarry l.reverse
  simpa [incByteArray] using h

-- A counter field of `n` octets, incremented by the octet loop.
def incField {w : ℕ} (n : ℕ) (x : BitVec w) : BitVec w :=
  getBE w (incByteArray (putBE n x))

theorem incField_eq {w : ℕ} (n : ℕ) (x : BitVec w) (hw : w = 8 * n) : incField n x = x + 1 := by
  apply BitVec.eq_of_toNat_eq
  have hpow : 2 ^ w = 256 ^ n := by
    rw [hw, Nat.pow_mul]
  rw [incField, getBE, BitVec.toNat_ofNat, ofBE_incByteArray, putBE, ofBE_toBE, length_toBE,
    BitVec.toNat_add, hpow, Nat.mod_mod]
  rcases w with _ | w
  · have hn : n = 0 := by omega
    subst hn
    simp [Nat.mod_one]
  · have hone : BitVec.toNat (1 : BitVec (w + 1)) = 1 := by simp
    rw [hone, Nat.mod_add_mod]

example : incByteArray [0x12, 0xff, 0xff] = [0x13, 0x00, 0x00] := by decide

end WpaSupplicant.Lib.Octets

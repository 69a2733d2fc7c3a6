import WpaSupplicant.Bss
import WpaSupplicant.Lib.Preference

namespace WpaSupplicant.Scan

open Bss Lib.Preference

-- `WPA_SCAN_NOISE_INVALID`, `WPA_SCAN_LEVEL_DBM`, `IEEE80211_CAP_PRIVACY` and `GREAT_SNR`
def noiseInvalid (r : ScanRes) : Bool := r.flags.getLsbD 1
def levelDbm (r : ScanRes) : Bool := r.flags.getLsbD 3
def privacy (r : ScanRes) : Bool := r.caps.getLsbD 4
def greatSnr : ℤ := 30

def eidSuppRates : UInt8 := 1
def eidRsn : UInt8 := 48
def eidExtSuppRates : UInt8 := 50
def wpaIeVendorType : Octets := [0x00, 0x50, 0xf2, 0x01]

-- The difference of two `int` values, which the processor reduces
def intSub (a b : ℤ) : ℤ := (a - b).bmod (2 ^ 32)

-- The loop of `wpa_scan_get_max_rate` over one element
def maxRateFrom (rate : ℕ) (ie : Option Octets) : ℕ :=
  (ie.getD []).foldl (fun rate b => if rate < (b &&& 0x7f).toNat then (b &&& 0x7f).toNat else rate) rate

def wpaScanGetMaxRate (r : ScanRes) : ℕ :=
  maxRateFrom (maxRateFrom 0 (getIe r.ies eidSuppRates)) (getIe r.ies eidExtSuppRates)

-- `wpa_a` and `wpa_b`
def hasWpa (r : ScanRes) : Bool :=
  (getVendorIe r.ies wpaIeVendorType).isSome || (getIe r.ies eidRsn).isSome

def is5ghz (r : ScanRes) : Bool := 4000 < r.freq

def snrKnown (r : ScanRes) : Bool := levelDbm r && !noiseInvalid r

-- `snr_a`, for a result that is compared with another
def snr (r other : ScanRes) : ℤ :=
  if snrKnown r && snrKnown other then
    if intSub r.level r.noise < greatSnr then intSub r.level r.noise else greatSnr
  else r.level

-- Two results close enough for a look at their rates
def close (a b : ScanRes) : Bool :=
  (snr a b ≠ 0 && snr b a ≠ 0 && (intSub (snr b a) (snr a b)).natAbs < 5) ||
    (a.qual ≠ 0 && b.qual ≠ 0 && (intSub b.qual a.qual).natAbs < 10)

def wpaScanResultCompar (a b : ScanRes) : ℤ :=
  if hasWpa b && !hasWpa a then 1
  else if !hasWpa b && hasWpa a then -1
  else if !privacy a && privacy b then 1
  else if privacy a && !privacy b then -1
  else if close a b && wpaScanGetMaxRate a ≠ wpaScanGetMaxRate b then
    intSub (wpaScanGetMaxRate b) (wpaScanGetMaxRate a)
  else if close a b && is5ghz a ≠ is5ghz b then if is5ghz a then -1 else 1
  else if snr b a = snr a b then intSub b.qual a.qual
  else intSub (snr b a) (snr a b)

section Numbers

-- Numbers of a driver: their differences fit into an `int`.
structure Small (r : ScanRes) : Prop where
  level : r.level.natAbs ≤ 2 ^ 28
  noise : r.noise.natAbs ≤ 2 ^ 28
  qual : r.qual.natAbs ≤ 2 ^ 28

theorem intSub_eq {a b : ℤ} (ha : a.natAbs ≤ 2 ^ 29) (hb : b.natAbs ≤ 2 ^ 29) : intSub a b = a - b := by
  rw [intSub, Int.bmod_eq_of_le] <;> omega

variable {a b : ScanRes}

theorem snr_small (h : Small a) (b : ScanRes) : (snr a b).natAbs ≤ 2 ^ 29 := by
  have hl := h.level
  have hn := h.noise
  have hdiff := intSub_eq (a := a.level) (b := a.noise) (by omega) (by omega)
  unfold snr greatSnr
  split_ifs <;> omega

theorem natAbs_intSub_comm (x y : ℤ) : (intSub x y).natAbs = (intSub y x).natAbs := by
  rw [intSub, intSub, Int.bmod_def, Int.bmod_def]
  split_ifs <;> omega

theorem close_comm (a b : ScanRes) : close a b = close b a := by
  rw [close, close, natAbs_intSub_comm (snr b a), natAbs_intSub_comm b.qual,
    Bool.and_comm (decide (snr a b ≠ 0)), Bool.and_comm (decide (a.qual ≠ 0))]

theorem maxRateFrom_lt {rate : ℕ} (hrate : rate < 128) (ie : Option Octets) : maxRateFrom rate ie < 128 := by
  unfold maxRateFrom
  induction ie.getD [] generalizing rate with
  | nil => exact hrate
  | cons b body ih =>
    have hb : (b &&& 0x7f).toNat < 128 := by
      rw [UInt8.toNat_and]
      exact Nat.and_lt_two_pow (n := 7) _ (by decide)
    rw [List.foldl_cons]
    split_ifs
    · exact ih hb
    · exact ih hrate

theorem maxRate_lt (r : ScanRes) : wpaScanGetMaxRate r < 128 :=
  maxRateFrom_lt (maxRateFrom_lt (by decide) _) _

end Numbers

section Order

variable {a b c : ScanRes}

def grade (r : ScanRes) : ℕ := 2 * (hasWpa r).toNat + (privacy r).toNat

def rank (r : ScanRes) : ℕ := 2 * (128 * grade r + wpaScanGetMaxRate r) + (is5ghz r).toNat

def ByRank (a b : ScanRes) : Prop :=
  grade a ≠ grade b ∨
    (close a b ∧ (wpaScanGetMaxRate a ≠ wpaScanGetMaxRate b ∨ is5ghz a ≠ is5ghz b))

def Strong (a b : ScanRes) : Prop :=
  grade b < grade a ∨
    (grade a = grade b ∧ (snr b a < snr a b ∨ (snr a b = snr b a ∧ b.qual ≤ a.qual)))

theorem ByRank.symm (h : ByRank a b) : ByRank b a := by
  rcases h with hgrade | ⟨hclose, hdiffer⟩
  · exact .inl hgrade.symm
  · exact .inr ⟨by rwa [close_comm], hdiffer.imp Ne.symm Ne.symm⟩

theorem ByRank.differ (h : ByRank a b) : rank a ≠ rank b := by
  have ha := maxRate_lt a
  have hb := maxRate_lt b
  have ha5 := (is5ghz a).toNat_le
  have hb5 := (is5ghz b).toNat_le
  rw [rank, rank]
  rcases h with hgrade | ⟨-, hrate | hband⟩
  · omega
  · omega
  have hbit : (is5ghz a).toNat ≠ (is5ghz b).toNat := by
    cases ha : is5ghz a <;> cases hb : is5ghz b <;> simp_all
  omega

def preference : Rule ScanRes where
  byRank := ByRank
  rank := rank
  strong := Strong
  symm := ByRank.symm
  differ := ByRank.differ
  total a b := by
    unfold Strong
    omega

def comparWithin (a b : ScanRes) : ℤ :=
  if close a b && wpaScanGetMaxRate a ≠ wpaScanGetMaxRate b then
    intSub (wpaScanGetMaxRate b) (wpaScanGetMaxRate a)
  else if close a b && is5ghz a ≠ is5ghz b then if is5ghz a then -1 else 1
  else if snr b a = snr a b then intSub b.qual a.qual
  else intSub (snr b a) (snr a b)

theorem compar_grade (a b : ScanRes) :
    wpaScanResultCompar a b =
      if grade a < grade b then 1 else if grade b < grade a then -1 else comparWithin a b := by
  unfold wpaScanResultCompar grade
  cases hasWpa a <;> cases hasWpa b <;> cases privacy a <;> cases privacy b <;> rfl

-- Where the rates and the bands do not decide, the strength does.
theorem comparWithin_eq (ha : Small a) (hb : Small b) (hby : ¬ ByRank a b) :
    comparWithin a b = if snr b a = snr a b then b.qual - a.qual else snr b a - snr a b := by
  have hqual := intSub_eq (a := b.qual) (b := a.qual) (by have := hb.qual; omega) (by have := ha.qual; omega)
  have hsnr := intSub_eq (snr_small hb a) (snr_small ha b)
  have hrate : (close a b && decide (wpaScanGetMaxRate a ≠ wpaScanGetMaxRate b)) = false := by
    simp only [Bool.and_eq_false_imp, decide_eq_false_iff_not]
    exact fun hclose hne => hby (.inr ⟨hclose, .inl hne⟩)
  have hband : (close a b && decide (is5ghz a ≠ is5ghz b)) = false := by
    simp only [Bool.and_eq_false_imp, decide_eq_false_iff_not]
    exact fun hclose hne => hby (.inr ⟨hclose, .inr hne⟩)
  rw [comparWithin, hrate, hband, hqual, hsnr]
  simp only [Bool.false_eq_true, if_false]

theorem comparWithin_strong (ha : Small a) (hb : Small b) (hgrade : grade a = grade b)
    (hby : ¬ ByRank a b) : comparWithin a b ≤ 0 ↔ Strong a b := by
  rw [comparWithin_eq ha hb hby, Strong]
  split_ifs <;> omega

theorem comparWithin_rank (hgrade : grade a = grade b) (hby : ByRank a b) :
    (comparWithin a b ≤ 0 ↔ rank b < rank a) ∧ comparWithin b a = - comparWithin a b := by
  have hra := maxRate_lt a
  have hrb := maxRate_lt b
  have hrate := intSub_eq (a := (wpaScanGetMaxRate b : ℤ)) (b := (wpaScanGetMaxRate a : ℤ)) (by omega) (by omega)
  have hrate' := intSub_eq (a := (wpaScanGetMaxRate a : ℤ)) (b := (wpaScanGetMaxRate b : ℤ)) (by omega) (by omega)
  obtain ⟨hclose, hdiffer⟩ := hby.resolve_left (not_not_intro hgrade)
  have hclose' : close b a = true := by rwa [close_comm]
  rw [comparWithin, comparWithin, hrate, hrate', rank, rank, hgrade, hclose, hclose']
  by_cases hne : wpaScanGetMaxRate a = wpaScanGetMaxRate b
  · have hband := hdiffer.resolve_left (not_not_intro hne)
    rw [hne]
    cases ha : is5ghz a <;> cases hb : is5ghz b <;> simp_all
  have hne' := Ne.symm hne
  simp only [hne, hne', ne_eq, not_false_eq_true, decide_true, Bool.and_self, if_true]
  have ha5 := (is5ghz a).toNat_le
  have hb5 := (is5ghz b).toNat_le
  omega

theorem compar_nonpos (ha : Small a) (hb : Small b) :
    wpaScanResultCompar a b ≤ 0 ↔ NotWorse preference a b := by
  have hdef : NotWorse preference a b ↔
      (ByRank a b ∧ rank b < rank a) ∨ (¬ ByRank a b ∧ Strong a b) := Iff.rfl
  rw [compar_grade, hdef]
  by_cases hgrade : grade a = grade b
  · rw [if_neg (by omega), if_neg (by omega)]
    by_cases hby : ByRank a b
    · rw [(comparWithin_rank hgrade hby).1]
      simp [hby]
    · rw [comparWithin_strong ha hb hgrade hby]
      simp [hby]
  · have hby : ByRank a b := .inl hgrade
    have hra := maxRate_lt a
    have hrb := maxRate_lt b
    have ha5 := (is5ghz a).toNat_le
    have hb5 := (is5ghz b).toNat_le
    have hrank : rank b < rank a ↔ grade b < grade a := by
      rw [rank, rank]
      omega
    rw [hrank]
    simp only [hby, true_and, not_true_eq_false, false_and, or_false]
    split_ifs <;> omega

theorem compar_neg (ha : Small a) (hb : Small b) : wpaScanResultCompar b a = - wpaScanResultCompar a b := by
  rw [compar_grade, compar_grade]
  by_cases hgrade : grade a = grade b
  · rw [if_neg (by omega), if_neg (by omega), if_neg (by omega), if_neg (by omega)]
    by_cases hby : ByRank a b
    · exact (comparWithin_rank hgrade hby).2
    · rw [comparWithin_eq ha hb hby, comparWithin_eq hb ha fun h => hby h.symm]
      split_ifs <;> omega
  · split_ifs <;> omega

-- Strengths that are measured in one unit are in order.
theorem strong_trans (hab : snrKnown a = snrKnown b) (hbc : snrKnown b = snrKnown c) (h₁ : Strong a b)
    (h₂ : Strong b c) : Strong a c := by
  have hunit (r s t : ScanRes) (hs : snrKnown s = snrKnown r) (ht : snrKnown t = snrKnown r) :
      snr r s = snr r t := by rw [snr, snr, hs, ht]
  have ha := hunit a b c hab.symm (hbc.symm.trans hab.symm)
  have hb := hunit b a c hab hbc.symm
  have hc := hunit c a b (hab.trans hbc) hbc
  unfold Strong at *
  omega

-- The comparison changes its sign with the order of its arguments; on results whose strengths are in
-- order it is transitive exactly where rates and bands run into none of the two circles.
theorem wpaScanResultCompar_consistent (l : List ScanRes) (hsmall : ∀ r ∈ l, Small r)
    (hstrong : ∀ a ∈ l, ∀ b ∈ l, ∀ c ∈ l, Strong a b → Strong b c → Strong a c) :
    (∀ a ∈ l, ∀ b ∈ l, 0 < wpaScanResultCompar a b ↔ wpaScanResultCompar b a < 0) ∧
      ((∀ a ∈ l, ∀ b ∈ l, ∀ c ∈ l, wpaScanResultCompar a b ≤ 0 → wpaScanResultCompar b c ≤ 0 →
          wpaScanResultCompar a c ≤ 0) ↔
        ∀ a ∈ l, ∀ b ∈ l, ∀ c ∈ l,
          ¬ Overtakes preference a b c ∧ ¬ Chain preference a b c) := by
  constructor
  · intro a ha b hb
    have hneg := compar_neg (hsmall a ha) (hsmall b hb)
    omega
  · rw [← transitive_iff hstrong]
    have hle {x y : ScanRes} (hx : x ∈ l) (hy : y ∈ l) := compar_nonpos (hsmall x hx) (hsmall y hy)
    constructor
    · intro h a ha b hb c hc hab hbc
      exact (hle ha hc).mp (h a ha b hb c hc ((hle ha hb).mpr hab) ((hle hb hc).mpr hbc))
    · intro h a ha b hb c hc hab hbc
      exact (hle ha hc).mpr (h a ha b hb c hc ((hle ha hb).mp hab) ((hle hb hc).mp hbc))

def sampleRes (level : ℤ) (rate : UInt8) : ScanRes where
  bssid := 1
  level := level
  ies := [1, 1, rate]

def sampleList : List ScanRes := [sampleRes (-60) 108, sampleRes (-56) 72, sampleRes (-40) 48]

theorem wpaScanResultCompar_consistent_sample :
    (∀ a ∈ sampleList, ∀ b ∈ sampleList, 0 < wpaScanResultCompar a b ↔ wpaScanResultCompar b a < 0) ∧
      ((∀ a ∈ sampleList, ∀ b ∈ sampleList, ∀ c ∈ sampleList, wpaScanResultCompar a b ≤ 0 →
          wpaScanResultCompar b c ≤ 0 → wpaScanResultCompar a c ≤ 0) ↔
        ∀ a ∈ sampleList, ∀ b ∈ sampleList, ∀ c ∈ sampleList,
          ¬ Overtakes preference a b c ∧ ¬ Chain preference a b c) := by
  have hunit : ∀ r ∈ sampleList, snrKnown r = false := by decide
  refine wpaScanResultCompar_consistent sampleList ?_ fun a ha b hb c hc => strong_trans ?_ ?_
  · intro r hr
    have hr' : r.level.natAbs ≤ 2 ^ 28 ∧ r.noise.natAbs ≤ 2 ^ 28 ∧ r.qual.natAbs ≤ 2 ^ 28 := by
      revert r
      decide
    exact ⟨hr'.1, hr'.2.1, hr'.2.2⟩
  · rw [hunit a ha, hunit b hb]
  · rw [hunit b hb, hunit c hc]

-- Levels 4 dB apart are close, levels 8 dB apart are not: the rates order the neighbours, the level
-- the two ends.
theorem wpaScanResultCompar_circular :
    wpaScanResultCompar (sampleRes (-60) 108) (sampleRes (-56) 72) ≤ 0 ∧
      wpaScanResultCompar (sampleRes (-56) 72) (sampleRes (-52) 48) ≤ 0 ∧
      ¬ wpaScanResultCompar (sampleRes (-60) 108) (sampleRes (-52) 48) ≤ 0 := by
  decide

end Order

end WpaSupplicant.Scan

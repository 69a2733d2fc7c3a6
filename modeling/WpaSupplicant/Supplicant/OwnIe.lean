import WpaSupplicant.Ap.ValidateIe
import WpaSupplicant.RsnIe.Insertion
import WpaSupplicant.Supplicant.WpaIe

namespace WpaSupplicant.Supplicant

open Lib.Octets KeyData RsnIe

-- `wpa_parse_wpa_ie`, with the `proto` that the two parsers set
def wpaParseWpaIe (ie : Octets) : Except ℤ (Proto × WpaIeData) :=
  if 1 ≤ ie.length ∧ ie.getD 0 0 = eidRsn then (wpaParseWpaIeRsn ie).map fun data => (.rsn, data)
  else (Ap.WpaIe.wpaParseWpaIeWpa ie).map fun data => (.wpa, data)

section Generated

variable {rest : Octets} {len : ℕ}

theorem none_not_mem_of_putFields {fields : List (Option Octets)} {g g' : Gen}
    (h : putFields fields g = some (.inr g')) : none ∉ fields := by
  induction fields generalizing g with
  | nil => exact List.not_mem_nil
  | cons x fields ih =>
    cases x with
    | none => cases h
    | some x =>
      obtain ⟨g₁, -, hrest⟩ := Option.bind_eq_some_iff.mp h
      rw [List.mem_cons, not_or]
      exact ⟨Option.some_ne_none x ∘ Eq.symm, ih hrest⟩

theorem none_not_mem_of_returned {fields : List (Option Octets)} {g : Gen} {mem : Octets} {n : ℕ}
    (h : genFields len fields g = some (.returned mem n)) : none ∉ fields := by
  obtain ⟨r, hput, hr⟩ := Option.bind_eq_some_iff.mp h
  cases r with
  | inl mem' => cases hr
  | inr g' => exact none_not_mem_of_putFields hput

theorem take_of_returned (os : List Octets) {a b : UInt8} {done mem : Octets} {n : ℕ}
    (h : genFields len (os.map some) ⟨a :: b :: done ++ rest, (a :: b :: done).length⟩ = some (.returned mem n)) :
    mem.take n = elem a (done ++ os.flatten) := by
  rw [genFields_map_some] at h
  by_cases hfits : os.flatten.length ≤ rest.length
  · rw [if_pos hfits] at h
    by_cases hasked : (elem a (done ++ os.flatten)).length ≤ len
    · rw [if_pos hasked] at h
      cases h
      exact List.take_left
    · rw [if_neg hasked] at h
      cases h
  · rw [if_neg hfits] at h
    cases h

theorem suites_of_returned {group pairwise akm : Option Octets} (os : List Octets) {a b : UInt8} {done mem : Octets}
    {n : ℕ}
    (h : genFields len ([group, some (toLE 2 1), pairwise, some (toLE 2 1), akm] ++ os.map some)
      ⟨a :: b :: done ++ rest, (a :: b :: done).length⟩ = some (.returned mem n)) :
    ∃ g p k, group = some g ∧ pairwise = some p ∧ akm = some k ∧
      mem.take n = elem a (done ++ (g ++ (toLE 2 1 ++ p ++ (toLE 2 1 ++ k ++ os.flatten)))) := by
  have hall := none_not_mem_of_returned h
  simp only [List.mem_append, List.mem_cons, not_or] at hall
  obtain ⟨⟨hgroup, -, hpairwise, -, hakm, -⟩, -⟩ := hall
  obtain ⟨g, rfl⟩ := Option.ne_none_iff_exists'.mp (Ne.symm hgroup)
  obtain ⟨p, rfl⟩ := Option.ne_none_iff_exists'.mp (Ne.symm hpairwise)
  obtain ⟨k, rfl⟩ := Option.ne_none_iff_exists'.mp (Ne.symm hakm)
  refine ⟨g, p, k, rfl, rfl, rfl, ?_⟩
  have htake := take_of_returned ([g, toLE 2 1, p, toLE 2 1, k] ++ os) h
  rw [htake]
  simp

end Generated

section Selectors

variable {c : Cipher} {k : KeyMgmt} {s : Octets}

theorem rsnSelector_group (h : AuthIe.rsnGroupSuite c = some s) : rsnSelectorToBitfield s = some c := by
  cases c <;> cases h <;> rfl

theorem rsnSelector_pairwise (h : rsnPairwiseSuite c = some s) : rsnSelectorToBitfield s = some c := by
  cases c <;> cases h <;> rfl

theorem rsnSelector_akm (h : rsnAkmSuite k = some s) : rsnKeyMgmtToBitfield s = some k := by
  cases k <;> cases h <;> rfl

theorem wpaSelector_group (h : AuthIe.wpaGroupSuite c = some s) : Ap.WpaIe.wpaSelectorToBitfield s = some c := by
  cases c <;> cases h <;> rfl

theorem wpaSelector_pairwise (h : wpaPairwiseSuite c = some s) : Ap.WpaIe.wpaSelectorToBitfield s = some c := by
  cases c <;> cases h <;> rfl

theorem wpaSelector_akm (h : wpaAkmSuite k = some s) : Ap.WpaIe.wpaKeyMgmtToBitfield s = some k := by
  cases k <;> cases h <;> rfl

end Selectors

section Parsed

variable {conf : Config} {pmksa : Option (BitVec 128)} {d : WpaIeData}

def ownPmkids (conf : Config) : Option (BitVec 128) → Option Octets
  | some pmkid => some (putBE 16 pmkid)
  | none => if conf.mgmtGroupCipher = some .aes128Cmac then some [] else none

theorem mgmt_suite (conf : Config) (hd : d.mgmtGroupCipher = some .aes128Cmac) :
    mgmt d (if conf.mgmtGroupCipher = some .aes128Cmac then AuthIe.rsnCipherSuiteAes128Cmac else []) = .ok d := by
  by_cases hmgmt : conf.mgmtGroupCipher = some .aes128Cmac
  · rw [if_pos hmgmt]
    obtain ⟨⟩ := d
    obtain rfl := hd
    rfl
  · rw [if_neg hmgmt]
    rfl

theorem afterCaps_own (hd : d.mgmtGroupCipher = some .aes128Cmac) (hnone : d.pmkids = none) :
    afterCaps d (pmkidField pmksa ++ mgmtField conf pmksa) = .ok { d with pmkids := ownPmkids conf pmksa } := by
  cases pmksa with
  | some pmkid =>
    have hmgmt := mgmt_suite conf (d := { d with pmkids := some (putBE 16 pmkid) }) hd
    have hfield : mgmtField conf (some pmkid) =
        if conf.mgmtGroupCipher = some .aes128Cmac then AuthIe.rsnCipherSuiteAes128Cmac else [] := rfl
    rw [pmkidField, List.append_assoc, afterCaps_pmkid (length_putBE 16 pmkid), hfield, hmgmt, ownPmkids]
  | none =>
    rw [pmkidField, List.nil_append, mgmtField, ownPmkids]
    by_cases hmgmt : conf.mgmtGroupCipher = some .aes128Cmac
    · rw [if_pos hmgmt, if_pos hmgmt]
      have h := mgmt_suite conf (d := { d with pmkids := some [] }) hd
      rw [if_pos hmgmt] at h
      exact h
    · rw [if_neg hmgmt, if_neg hmgmt, ← hnone]
      rfl

theorem length_fields (conf : Config) (pmksa : Option (BitVec 128)) :
    (toLE 2 (mfpCapab conf.mfp) ++ (pmkidField pmksa ++ mgmtField conf pmksa)).length ≤ 26 := by
  rw [List.length_append, List.length_append, length_toLE, length_pmkidField, length_mgmtField]
  split <;> split <;> omega

theorem getLE16_mfpCapab (mfp : Mfp) : getLE16 (toLE 2 (mfpCapab mfp)) = mfpCapab mfp := by
  cases mfp <;> rfl

theorem wpaParseWpaIeRsn_own {g p k : Octets} (hg : AuthIe.rsnGroupSuite conf.groupCipher = some g)
    (hp : rsnPairwiseSuite conf.pairwiseCipher = some p) (hk : rsnAkmSuite conf.keyMgmt = some k) :
    wpaParseWpaIeRsn (elem eidRsn (toLE 2 1 ++ (g ++ (toLE 2 1 ++ p ++ (toLE 2 1 ++ k ++
        (toLE 2 (mfpCapab conf.mfp) ++ (pmkidField pmksa ++ mgmtField conf pmksa))))))) =
      .ok { pairwiseCipher := [conf.pairwiseCipher], groupCipher := some conf.groupCipher, keyMgmt := [conf.keyMgmt],
            capabilities := mfpCapab conf.mfp, pmkids := ownPmkids conf pmksa } := by
  let s : Suites :=
    { group := ⟨g, length_suite (.inr (.inl hg))⟩
      pairwise := [⟨p, length_suite (.inr (.inr (.inr hp)))⟩]
      akm := [⟨k, length_akmSuite (.inr hk)⟩]
      pairwise_ne := List.cons_ne_nil _ _
      akm_ne := List.cons_ne_nil _ _ }
  have hbody : toLE 2 1 ++ (g ++ (toLE 2 1 ++ p ++ (toLE 2 1 ++ k ++
      (toLE 2 (mfpCapab conf.mfp) ++ (pmkidField pmksa ++ mgmtField conf pmksa))))) =
      s.octets ++ (toLE 2 (mfpCapab conf.mfp) ++ (pmkidField pmksa ++ mgmtField conf pmksa)) := by
    simp [s, Suites.octets, suiteList]
  have htail := length_fields conf pmksa
  have hdata : suitesData s = .ok
      { pairwiseCipher := [conf.pairwiseCipher], groupCipher := some conf.groupCipher, keyMgmt := [conf.keyMgmt] } := by
    have hgroup : conf.groupCipher ≠ .aes128Cmac := by
      intro h
      rw [h] at hg
      cases hg
    have hpairwise : conf.pairwiseCipher ≠ .aes128Cmac := by
      intro h
      rw [h] at hp
      cases hp
    simp only [suitesData, s, List.map_cons, List.map_nil, List.filterMap_cons, List.filterMap_nil,
      rsnSelector_group hg, rsnSelector_pairwise hp, rsnSelector_akm hk]
    rw [if_neg (fun h => hgroup (Option.some.inj h)), if_neg]
    rw [List.mem_singleton]
    exact Ne.symm hpairwise
  have hlen : s.octets.length = 18 := length_octets s
  rw [hbody, wpaParseWpaIeRsn_eq (by rw [List.length_append, hlen]; omega), hdata, Except.bind,
    trailer_caps (length_toLE 2 _), afterCaps_own rfl rfl, getLE16_mfpCapab]

theorem wpaParseWpaIeWpa_own {g p k : Octets} (hg : AuthIe.wpaGroupSuite conf.groupCipher = some g)
    (hp : wpaPairwiseSuite conf.pairwiseCipher = some p) (hk : wpaAkmSuite conf.keyMgmt = some k) :
    Ap.WpaIe.wpaParseWpaIeWpa (elem eidVendorSpecific (wpaOuiType ++ toLE 2 1 ++ (g ++ (toLE 2 1 ++ p ++
        (toLE 2 1 ++ k ++ []))))) =
      .ok { pairwiseCipher := [conf.pairwiseCipher], groupCipher := some conf.groupCipher, keyMgmt := [conf.keyMgmt],
            mgmtGroupCipher := none } := by
  have hglen : g.length = 4 := length_suite (.inl hg)
  have hplen : p.length = 4 := length_suite (.inr (.inr (.inl hp)))
  have hklen : k.length = 4 := length_akmSuite (.inl hk)
  have hpairwise : toLE 2 1 ++ p = suiteList [⟨p, hplen⟩] := by simp [suiteList]
  have hakm : toLE 2 1 ++ k = suiteList [⟨k, hklen⟩] := by simp [suiteList]
  have hdrop : (elem eidVendorSpecific (wpaOuiType ++ toLE 2 1 ++ (g ++ (toLE 2 1 ++ p ++
      (toLE 2 1 ++ k ++ []))))).drop 8 = g ++ (toLE 2 1 ++ p ++ (toLE 2 1 ++ k ++ [])) := rfl
  have hgroup (d : WpaIeData) (l : Octets) :
      Ap.WpaIe.group d (g ++ l) = .ok ({ d with groupCipher := some conf.groupCipher }, l) := by
    rw [Ap.WpaIe.group, if_pos (by rw [List.length_append]; omega), List.take_left' hglen, List.drop_left' hglen,
      wpaSelector_group hg]
  have hone {botch short : ℤ} (s : Selector) (t : Octets) :
      suites botch short (suiteList [s] ++ t) = .ok (some [s.1], t) :=
    suites_suiteList (List.cons_ne_nil _ _) (by simp)
  have hlen : (elem eidVendorSpecific (wpaOuiType ++ toLE 2 1 ++ (g ++ (toLE 2 1 ++ p ++
      (toLE 2 1 ++ k ++ []))))).length = 24 := by
    simp [elem, hglen, hplen, hklen, wpaOuiType, rsnSelector]
  rw [Ap.WpaIe.wpaParseWpaIeWpa, if_neg (by omega), if_neg, hdrop, hpairwise, hakm]
  · simp only [hgroup, bind, Except.bind, hone, List.filterMap_cons, List.filterMap_nil, wpaSelector_pairwise hp,
      wpaSelector_akm hk]
    rfl
  · rw [not_or, not_or, not_or, not_not, not_not, not_not, not_not, hlen]
    refine ⟨rfl, ?_, rfl, rfl⟩
    simp [elem, hglen, hplen, hklen, wpaOuiType, rsnSelector]

theorem pmkidList_own (data : WpaIeData) (h : data.pmkids = ownPmkids conf pmksa) :
    Ap.pmkidList data = pmksa.toList := by
  cases pmksa with
  | none =>
    have hnil : data.pmkids.getD [] = [] := by
      rw [h, ownPmkids]
      split <;> rfl
    rw [Ap.pmkidList, hnil]
    rfl
  | some pmkid =>
    have htake : ((putBE 16 pmkid).drop (16 * 0)).take 16 = putBE 16 pmkid := by
      rw [Nat.mul_zero, List.drop_zero]
      exact List.take_of_length_le (by rw [length_putBE])
    have hlen : (putBE 16 pmkid).length / 16 = 1 := by rw [length_putBE]
    rw [Ap.pmkidList, h, ownPmkids, Option.getD_some, hlen, List.range_one, List.map_singleton, htake,
      getBE_putBE 16 pmkid rfl]
    rfl

end Parsed

section RoundTrip

variable {conf : Config} {pmksa : Option (BitVec 128)} {mem mem' : Octets} {len n : ℕ}

theorem rsn_round_trip (hmem : len ≤ mem.length) (h : wpaGenWpaIeRsn conf pmksa mem len = some (.returned mem' n)) :
    wpaParseWpaIe (mem'.take n) = .ok (.rsn,
      { pairwiseCipher := [conf.pairwiseCipher], groupCipher := some conf.groupCipher, keyMgmt := [conf.keyMgmt],
        capabilities := mfpCapab conf.mfp, pmkids := ownPmkids conf pmksa }) := by
  by_cases hlen : rsnSize pmksa ≤ len
  · obtain ⟨b, hgen⟩ := wpaGenWpaIeRsn_header conf hmem hlen
    rw [hgen] at h
    obtain ⟨g, p, k, hg, hp, hk, htake⟩ :=
      suites_of_returned [toLE 2 (mfpCapab conf.mfp), pmkidField pmksa, mgmtField conf pmksa] h
    rw [htake, wpaParseWpaIe, if_pos ⟨by simp [elem], rfl⟩, List.flatten_cons, List.flatten_cons, List.flatten_cons,
      List.flatten_nil, List.append_nil, wpaParseWpaIeRsn_own hg hp hk]
    rfl
  · rw [wpaGenWpaIeRsn, if_pos (by omega)] at h
    cases h

theorem wpa_round_trip (hmem : len ≤ mem.length) (h : wpaGenWpaIeWpa conf mem len = some (.returned mem' n)) :
    wpaParseWpaIe (mem'.take n) = .ok (.wpa,
      { pairwiseCipher := [conf.pairwiseCipher], groupCipher := some conf.groupCipher, keyMgmt := [conf.keyMgmt],
        mgmtGroupCipher := none }) := by
  by_cases hlen : 24 ≤ len
  · obtain ⟨b, hgen⟩ := wpaGenWpaIeWpa_header conf hmem hlen
    rw [hgen] at h
    obtain ⟨g, p, k, hg, hp, hk, htake⟩ := suites_of_returned [] h
    rw [htake, wpaParseWpaIe, if_neg (fun h => absurd h.2 (by decide : eidVendorSpecific ≠ eidRsn)), List.flatten_nil,
      wpaParseWpaIeWpa_own hg hp hk]
    rfl
  · rw [wpaGenWpaIeWpa, if_pos (by omega)] at h
    cases h

-- What a generator has returned is read back by the parser. A WPA IE carries neither the PMKID nor the management group
-- cipher.
theorem own_ie_round_trip (conf : Config) (pmksa : Option (BitVec 128)) (buf behind mem : Octets) (n : ℕ)
    (h : wpaGenWpaIe conf pmksa (buf ++ behind) buf.length = some (.returned mem n)) :
    ∃ data, wpaParseWpaIe (mem.take n) = .ok (conf.proto, data) ∧
      data.pairwiseCipher = [conf.pairwiseCipher] ∧ data.groupCipher = some conf.groupCipher ∧
      data.keyMgmt = [conf.keyMgmt] ∧
      (conf.proto = .rsn → data.capabilities = mfpCapab conf.mfp ∧ Ap.pmkidList data = pmksa.toList ∧
        (conf.mgmtGroupCipher = some .aes128Cmac → data.mgmtGroupCipher = some .aes128Cmac)) ∧
      (conf.proto = .wpa → data.capabilities = 0 ∧ Ap.pmkidList data = [] ∧ data.mgmtGroupCipher = none) := by
  have hmem : buf.length ≤ (buf ++ behind).length := by
    rw [List.length_append]
    omega
  cases hproto : conf.proto with
  | rsn =>
    rw [wpaGenWpaIe, hproto] at h
    refine ⟨_, rsn_round_trip hmem h, rfl, rfl, rfl, fun _ => ⟨rfl, pmkidList_own _ rfl, fun _ => rfl⟩, fun hwpa => ?_⟩
    cases hwpa
  | wpa =>
    rw [wpaGenWpaIe, hproto] at h
    refine ⟨_, wpa_round_trip hmem h, rfl, rfl, rfl, fun hrsn => ?_, fun _ => ⟨rfl, by simp [Ap.pmkidList], rfl⟩⟩
    cases hrsn

-- With a PMKSA, protected management frames and a buffer of exactly the size of the IE
theorem own_ie_round_trip_rsn : ∃ data,
    wpaParseWpaIe [48, 42, 1, 0, 0, 15, 172, 4, 1, 0, 0, 15, 172, 4, 1, 0, 0, 15, 172, 2, 192, 0, 1, 0,
      0, 0, 0, 0, 0, 0, 0, 0, 0, 0, 0, 0, 0, 0, 0, 7, 0, 15, 172, 6] = .ok (.rsn, data) ∧
    Ap.pmkidList data = [7] := by
  have hgen : wpaGenWpaIe { ownAddr := 0, mgmtGroupCipher := some .aes128Cmac, mfp := .required } (some 7)
      (List.replicate 44 0 ++ []) (List.replicate 44 (0 : UInt8)).length =
      some (.returned [48, 42, 1, 0, 0, 15, 172, 4, 1, 0, 0, 15, 172, 4, 1, 0, 0, 15, 172, 2, 192, 0, 1, 0,
        0, 0, 0, 0, 0, 0, 0, 0, 0, 0, 0, 0, 0, 0, 0, 7, 0, 15, 172, 6] 44) := by
    decide
  obtain ⟨data, hparse, -, -, -, hrsn, -⟩ := own_ie_round_trip _ _ _ _ _ _ hgen
  exact ⟨data, hparse, (hrsn rfl).2.1⟩

theorem wpa_ie_drops_pmkid : ∃ mem data,
    wpaGenWpaIe { ownAddr := 0, proto := .wpa, mgmtGroupCipher := some .aes128Cmac } (some 7)
      (List.replicate 24 0) 24 = some (.returned mem 24) ∧
    wpaParseWpaIe (mem.take 24) = .ok (.wpa, data) ∧ Ap.pmkidList data ≠ [7] ∧
    data.mgmtGroupCipher ≠ some .aes128Cmac := by
  have hgen : wpaGenWpaIe { ownAddr := 0, proto := .wpa, mgmtGroupCipher := some .aes128Cmac } (some 7)
      (List.replicate 24 0) 24 =
      some (.returned [221, 22, 0, 80, 242, 1, 1, 0, 0, 80, 242, 4, 1, 0, 0, 80, 242, 4, 1, 0, 0, 80, 242, 2] 24) := by
    decide
  refine ⟨_, _, hgen, rfl, ?_, ?_⟩
  · decide
  · decide

end RoundTrip

end WpaSupplicant.Supplicant

import WpaSupplicant.Lib.Checked
import WpaSupplicant.RsnIe

namespace WpaSupplicant.RsnIe

open Lib.Octets Lib.Checked KeyData

def pmkidLen : ℕ := 16

-- `WPA_GET_LE16` at a position
def loadLE16 (buf : Octets) (pos : ℕ) : Option ℕ := (load buf pos 2).map getLE16

-- The loop of `wpa_insert_pmkid` that looks for the RSN IE before `stop`
def findRsn (buf : Octets) (stop : ℕ) : ℕ → ℕ → Option (Option ℕ)
  | 0, _ => none
  | fuel + 1, start =>
    if start < stop then
      match buf[start]? with
      | none => none
      | some id =>
        if id = eidRsn then some (some start)
        else
          match buf[start + 1]? with
          | none => none
          | some len => findRsn buf stop fuel (start + (2 + len.toNat))
    else some none

-- `end - rpos` as a `size_t`
def sizeFrom (rpos stop : ℕ) : ℕ := if rpos ≤ stop then stop - rpos else 2 ^ 64 - (rpos - stop)

-- `start[1] += n`
def addToLength (buf : Octets) (start n : ℕ) : Option Octets :=
  match buf[start + 1]? with
  | none => none
  | some len => store buf (start + 1) [len + UInt8.ofNat n]

-- The end of `wpa_insert_pmkid`, from the position of the PMKID-Count field on
def insertAtCount (start rend stop : ℕ) (pmkid : Octets) (rpos : ℕ) (buf : Octets) : Option (ℤ × Octets) :=
  if rpos = rend then
    (move buf (rpos + (2 + pmkidLen)) rpos (sizeFrom rpos stop)).bind fun buf =>
    (store buf rpos (toLE 2 1)).bind fun buf =>
    (store buf (rpos + 2) pmkid).bind fun buf =>
    (addToLength buf start (2 + pmkidLen)).map fun buf => ((2 + pmkidLen : ℕ), buf)
  else
    (loadLE16 buf rpos).bind fun count =>
    if count ≠ 0 then some (-1, buf)
    else
      (store buf rpos (toLE 2 1)).bind fun buf =>
      let rpos := rpos + 2
      (move buf (rpos + pmkidLen) rpos (sizeFrom rpos stop)).bind fun buf =>
      (store buf rpos pmkid).bind fun buf =>
      (addToLength buf start pmkidLen).map fun buf => ((pmkidLen : ℕ), buf)

-- The start of `wpa_insert_pmkid` on the RSN IE that is found, up to the capabilities
def insertInRsn (start stop : ℕ) (pmkid buf : Octets) : Option (ℤ × Octets) :=
  match buf[start + 1]? with
  | none => none
  | some len =>
    let rend := start + 2 + len.toNat
    (loadLE16 buf (start + 8)).bind fun pairwise =>
    (loadLE16 buf (start + 8 + (2 + pairwise * 4))).bind fun akm =>
    let rpos := start + 8 + (2 + pairwise * 4) + (2 + akm * 4)
    if rpos = rend then
      (move buf (rpos + 2) rpos (sizeFrom rpos stop)).bind fun buf =>
      (store buf rpos [0, 0]).bind fun buf =>
      insertAtCount start rend stop pmkid (rpos + 2) buf
    else if rend < rpos + 2 then some (-1, buf)
    else insertAtCount start rend stop pmkid (rpos + 2) buf

-- `wpa_insert_pmkid` on the first `iesLen` octets of a buffer. Nothing comes of a call that reads or writes outside of
-- the buffer.
def wpaInsertPmkid (buf : Octets) (iesLen : ℕ) (pmkid : Octets) : Option (ℤ × Octets) :=
  match findRsn buf iesLen (iesLen + 1) 0 with
  | none => none
  | some none => some (-1, buf)
  | some (some start) => insertInRsn start iesLen pmkid buf

-- An information element
structure Ie where
  id : UInt8
  body : Octets
  short : body.length < 256

def Ie.octets (e : Ie) : Octets := elem e.id e.body

def iesOctets (l : List Ie) : Octets := l.flatMap Ie.octets

abbrev Selector := { s : Octets // s.length = 4 }

-- What an RSN IE has before its capabilities
structure Suites where
  group : Selector
  pairwise : List Selector
  akm : List Selector
  pairwise_ne : pairwise ≠ []
  akm_ne : akm ≠ []

def suiteList (l : List Selector) : Octets := toLE 2 l.length ++ l.flatMap Subtype.val

def Suites.octets (s : Suites) : Octets := toLE 2 1 ++ s.group.1 ++ suiteList s.pairwise ++ suiteList s.akm

-- A buffer with information elements around the body of an RSN IE, and what else is in the buffer
def withRsn (before : List Ie) (body : Octets) (after : List Ie) (rest : Octets) : Octets :=
  iesOctets before ++ elem eidRsn body ++ iesOctets after ++ rest

-- The PMKID is in the RSN IE and nothing else has changed in it; the other elements are as they were, and the value
-- is the growth.
def Inserts (before : List Ie) (body : Octets) (after : List Ie) (spare pmkid : Octets) : Prop :=
  ∃ body' rest : Octets, body'.length < 256 ∧
    wpaInsertPmkid (withRsn before body after spare) (withRsn before body after []).length pmkid =
      some ((body'.length : ℤ) - body.length, withRsn before body' after rest) ∧
    ∃ data, wpaParseWpaIeRsn (elem eidRsn body) = .ok data ∧
      wpaParseWpaIeRsn (elem eidRsn body') = .ok { data with pmkids := some pmkid }

end WpaSupplicant.RsnIe

namespace WpaSupplicant.RsnIe

open Lib.Octets Lib.Buffer Lib.Checked KeyData

section Parser

variable {d : WpaIeData} {t : Octets}

theorem getLE16_toLE {n : ℕ} (h : n < 65536) : getLE16 (toLE 2 n ++ t) = n := by
  simp only [getLE16, toLE, List.cons_append, List.nil_append, List.getD_cons_zero, List.getD_cons_succ,
    UInt8.toNat_ofNat']
  omega

theorem length_count (l : Octets) : (l ++ toLE 2 1).length = l.length + 2 := by
  rw [List.length_append, length_toLE]

theorem length_suiteList (l : List Selector) : (suiteList l).length = 2 + 4 * l.length := by
  rw [suiteList, List.length_append, length_toLE]
  congr 1
  induction l with
  | nil => rfl
  | cons s l ih =>
    rw [List.flatMap_cons, List.length_append, ih, s.2, List.length_cons]
    omega

theorem selectors_append (l : List Selector) : selectors l.length (l.flatMap Subtype.val ++ t) = l.map Subtype.val := by
  induction l with
  | nil => rfl
  | cons s l ih =>
    rw [selectors, List.length_cons, List.range_succ_eq_map, List.map_cons, List.map_map, List.map_cons]
    congr 1
    · simp [s.2]
    · rw [← ih, selectors]
      refine List.map_congr_left fun k _ => ?_
      have hpos : 4 * (k + 1) = s.1.length + 4 * k := by
        rw [s.2]
        omega
      rw [Function.comp_apply, hpos, ← List.drop_drop, List.flatMap_cons, List.append_assoc, List.drop_left]

theorem suites_suiteList {botch short : ℤ} {l : List Selector} (hne : l ≠ []) (hcount : l.length < 65536) :
    suites botch short (suiteList l ++ t) = .ok (some (l.map Subtype.val), t) := by
  have hlen := length_suiteList l
  have hpos : l.length ≠ 0 := fun h => hne (List.eq_nil_of_length_eq_zero h)
  have hget : getLE16 (suiteList l ++ t) = l.length := by
    rw [suiteList, List.append_assoc]
    exact getLE16_toLE hcount
  have hdrop : (suiteList l ++ t).drop 2 = l.flatMap Subtype.val ++ t := by
    rw [suiteList, List.append_assoc]
    exact List.drop_left' (length_toLE 2 _)
  have hflat : (l.flatMap Subtype.val).length = 4 * l.length := by
    rw [suiteList, List.length_append, length_toLE] at hlen
    omega
  rw [suites, if_pos (by rw [List.length_append, hlen]; omega)]
  dsimp only
  rw [hget, hdrop, if_neg (by rw [List.length_append, hflat]; omega), selectors_append,
    List.drop_left' hflat]

def suitesData (s : Suites) : Except ℤ WpaIeData :=
  if rsnSelectorToBitfield s.group.1 = some .aes128Cmac then .error (-1)
  else if .aes128Cmac ∈ (s.pairwise.map Subtype.val).filterMap rsnSelectorToBitfield then .error (-1)
  else
    .ok
      { groupCipher := rsnSelectorToBitfield s.group.1
        pairwiseCipher := (s.pairwise.map Subtype.val).filterMap rsnSelectorToBitfield
        keyMgmt := (s.akm.map Subtype.val).filterMap rsnKeyMgmtToBitfield }

theorem length_octets (s : Suites) :
    s.octets.length = 10 + 4 * s.pairwise.length + 4 * s.akm.length := by
  simp only [Suites.octets, List.length_append, length_toLE, length_suiteList, s.group.2]
  omega

theorem wpaParseWpaIeRsn_eq {s : Suites} (hlen : (s.octets ++ t).length < 256) :
    wpaParseWpaIeRsn (elem eidRsn (s.octets ++ t)) = (suitesData s).bind fun d => trailer d t := by
  have hsuites := length_octets s
  have hbody : s.octets ++ t =
      1 :: 0 :: (s.group.1 ++ (suiteList s.pairwise ++ (suiteList s.akm ++ t))) := by
    simp [Suites.octets, toLE]
  rw [List.length_append] at hlen
  have hpairwise : s.pairwise.length < 65536 := by omega
  have hakm : s.akm.length < 65536 := by omega
  have hieLen : (UInt8.ofNat (s.octets ++ t).length).toNat = (s.octets ++ t).length := by
    rw [UInt8.toNat_ofNat', List.length_append]
    exact Nat.mod_eq_of_lt hlen
  have hgroup : group {} (s.group.1 ++ (suiteList s.pairwise ++ (suiteList s.akm ++ t))) =
      if rsnSelectorToBitfield s.group.1 = some .aes128Cmac then .error (-1)
      else .ok ({ groupCipher := rsnSelectorToBitfield s.group.1 }, suiteList s.pairwise ++ (suiteList s.akm ++ t)) := by
    rw [group, if_pos (by rw [List.length_append, s.group.2]; omega)]
    dsimp only
    rw [List.take_left' s.group.2, List.drop_left' s.group.2]
  rw [wpaParseWpaIeRsn, if_neg (by simp [elem]; omega), if_neg]
  · have hdrop : (elem eidRsn (s.octets ++ t)).drop 4 =
        s.group.1 ++ (suiteList s.pairwise ++ (suiteList s.akm ++ t)) := by
      rw [elem, hbody]
      rfl
    rw [hdrop, hgroup, suitesData]
    by_cases hgroupCmac : rsnSelectorToBitfield s.group.1 = some .aes128Cmac
    · rw [if_pos hgroupCmac, if_pos hgroupCmac]
      rfl
    rw [if_neg hgroupCmac, if_neg hgroupCmac]
    simp only [bind, Except.bind, pairwise, suites_suiteList s.pairwise_ne hpairwise]
    by_cases hpairCmac : .aes128Cmac ∈ (s.pairwise.map Subtype.val).filterMap rsnSelectorToBitfield
    · rw [if_pos hpairCmac, if_pos hpairCmac]
    · rw [if_neg hpairCmac, if_neg hpairCmac]
      simp only [akm, bind, Except.bind, suites_suiteList s.akm_ne hakm]
  · rw [not_or, not_or, not_not, not_not, not_not]
    refine ⟨rfl, ?_, ?_⟩
    · simpa [elem] using hieLen
    · rw [elem, hbody]
      rfl

-- What follows the suites that are accepted: the capabilities, the PMKIDs, and the management group cipher
def mgmt (d : WpaIeData) (l : Octets) : Except ℤ WpaIeData :=
  if 4 ≤ l.length then
    if rsnSelectorToBitfield (l.take 4) = some .aes128Cmac then
      .ok { d with mgmtGroupCipher := rsnSelectorToBitfield (l.take 4) }
    else .error (-10)
  else .ok d

def afterCaps (d : WpaIeData) (l : Octets) : Except ℤ WpaIeData :=
  if 2 ≤ l.length then
    if (l.drop 2).length < 16 * getLE16 l then .error (-9)
    else mgmt { d with pmkids := some ((l.drop 2).take (16 * getLE16 l)) } (l.drop (2 + 16 * getLE16 l))
  else mgmt d l

theorem trailer_eq : trailer d t =
    if 2 ≤ t.length then afterCaps { d with capabilities := getLE16 t } (t.drop 2) else afterCaps d t := by
  by_cases hcaps : 2 ≤ t.length
  · rw [if_pos hcaps]
    simp only [trailer, if_pos hcaps, afterCaps, mgmt]
    by_cases hlong : 2 ≤ (t.drop 2).length
    · simp only [hlong, if_true, true_and]
    · simp only [hlong, if_false, false_and]
  · rw [if_neg hcaps]
    simp only [trailer, afterCaps, mgmt, hcaps, if_false, false_and]

theorem mgmt_pmkids (p : Option Octets) (l : Octets) :
    mgmt { d with pmkids := p } l = (mgmt d l).map fun d => { d with pmkids := p } := by
  unfold mgmt
  split
  · split <;> rfl
  · rfl

theorem trailer_caps {caps l : Octets} (hcaps : caps.length = 2) :
    trailer d (caps ++ l) = afterCaps { d with capabilities := getLE16 caps } l := by
  obtain ⟨a, b, rfl⟩ := List.length_eq_two.mp hcaps
  rw [trailer_eq, if_pos (by simp)]
  rfl

theorem afterCaps_pmkid {pmkid : Octets} (hpmkid : pmkid.length = pmkidLen) (l : Octets) :
    afterCaps d (toLE 2 1 ++ (pmkid ++ l)) = mgmt { d with pmkids := some pmkid } l := by
  have hdrop : (toLE 2 1 ++ (pmkid ++ l)).drop 2 = pmkid ++ l := rfl
  rw [afterCaps, if_pos (by simp), getLE16_toLE (by omega), hdrop, if_neg, List.take_left' (by rw [hpmkid]; rfl),
    ← List.drop_drop, hdrop, List.drop_left' (by rw [hpmkid]; rfl)]
  rw [List.length_append, hpmkid, pmkidLen]
  omega

theorem afterCaps_short {p : Octets} (hp : p.length < pmkidLen) : afterCaps d (toLE 2 1 ++ p) = .error (-9) := by
  have hdrop : (toLE 2 1 ++ p).drop 2 = p := rfl
  rw [pmkidLen] at hp
  rw [afterCaps, if_pos (by simp), getLE16_toLE (by omega), hdrop, if_pos (by omega)]

theorem getLE16_eq_zero {l : Octets} (hl : 2 ≤ l.length) (h : getLE16 l = 0) : ∃ l', l = [0, 0] ++ l' := by
  obtain ⟨a, b, l', rfl⟩ : ∃ a b l', l = a :: b :: l' := by
    match l, hl with
    | a :: b :: l', _ => exact ⟨a, b, l', rfl⟩
  simp only [getLE16, List.getD_cons_zero, List.getD_cons_succ] at h
  have ha : a = 0 := UInt8.toNat_inj.mp (by rw [UInt8.toNat_zero]; omega)
  have hb : b = 0 := UInt8.toNat_inj.mp (by rw [UInt8.toNat_zero]; omega)
  exact ⟨l', by rw [ha, hb]; rfl⟩

theorem count_eq_zero {l : Octets} {data : WpaIeData} (hl : 2 ≤ l.length) (h : afterCaps d l = .ok data)
    (hnone : data.pmkids = none ∨ data.pmkids = some []) : getLE16 l = 0 := by
  rw [afterCaps, if_pos hl] at h
  split at h
  · cases h
  rename_i hfits
  rw [mgmt_pmkids] at h
  cases hmgmt : mgmt d (l.drop (2 + 16 * getLE16 l)) with
  | error e =>
    rw [hmgmt] at h
    cases h
  | ok data' =>
    rw [hmgmt] at h
    cases h
    rcases hnone with hnone | hnone
    · cases hnone
    have hnil := congrArg List.length (Option.some.inj hnone)
    rw [List.length_take, List.length_nil] at hnil
    omega

end Parser

section Code

variable {pmkid : Octets}

theorem loadLE16_append (done : Octets) {n : ℕ} (hn : n < 65536) (rest : Octets) :
    loadLE16 (done ++ (toLE 2 n ++ rest)) done.length = some n := by
  have hfield : field (done ++ (toLE 2 n ++ rest)) done.length 2 = toLE 2 n := by
    rw [field, List.drop_left, List.take_left' (length_toLE 2 n)]
  rw [loadLE16, load, if_pos (by simp only [List.length_append, length_toLE]; omega), hfield, Option.map_some]
  have hget := getLE16_toLE (t := []) hn
  rw [List.append_nil] at hget
  rw [hget]

theorem findRsn_before (done : Octets) (before : List Ie) (hids : ∀ e ∈ before, e.id ≠ eidRsn) (rest : Octets)
    (stop fuel : ℕ) (hfuel : before.length < fuel) (hstop : done.length + (iesOctets before).length < stop) :
    findRsn (done ++ (iesOctets before ++ eidRsn :: rest)) stop fuel done.length =
      some (some (done.length + (iesOctets before).length)) := by
  induction before generalizing done fuel with
  | nil =>
    obtain ⟨fuel, rfl⟩ : ∃ n, fuel = n + 1 := ⟨fuel - 1, by omega⟩
    rw [findRsn, if_pos (by omega)]
    simp [iesOctets]
  | cons e before ih =>
    obtain ⟨fuel, rfl⟩ : ∃ n, fuel = n + 1 := ⟨fuel - 1, by omega⟩
    have hcons : iesOctets (e :: before) = e.octets ++ iesOctets before := rfl
    have hlen : e.octets.length = 2 + e.body.length := by
      rw [Ie.octets, elem, List.length_cons, List.length_cons]
      omega
    have hnat : (UInt8.ofNat e.body.length).toNat = e.body.length := by
      rw [UInt8.toNat_ofNat']
      exact Nat.mod_eq_of_lt e.short
    rw [hcons, List.length_append] at hstop ⊢
    have hsplit : done ++ (e.octets ++ iesOctets before ++ eidRsn :: rest) =
        done ++ e.octets ++ (iesOctets before ++ eidRsn :: rest) := by simp
    have hless : before.length < fuel := by
      rw [List.length_cons] at hfuel
      omega
    have hnext := ih (done ++ e.octets) (fun e' he' => hids e' (List.mem_cons_of_mem e he')) fuel hless
      (by rw [List.length_append]; omega)
    have hid : (done ++ (e.octets ++ iesOctets before ++ eidRsn :: rest))[done.length]? = some e.id := by
      simp [Ie.octets, elem]
    have hbody : (done ++ (e.octets ++ iesOctets before ++ eidRsn :: rest))[done.length + 1]? =
        some (UInt8.ofNat e.body.length) := by
      simp [Ie.octets, elem]
    rw [findRsn, if_pos (by omega), hid]
    dsimp only
    rw [if_neg (hids e List.mem_cons_self), hbody]
    dsimp only
    rw [hnat, ← hlen, ← List.length_append, hsplit, hnext, List.length_append]
    congr 2
    omega

-- The two counts lead behind the AKM suites.
theorem insertInRsn_eq (done : Octets) {s : Suites} {t : Octets} (hlen : (s.octets ++ t).length < 256) (rest : Octets)
    (stop : ℕ) : insertInRsn done.length stop pmkid (done ++ (elem eidRsn (s.octets ++ t) ++ rest)) =
      let buf := done ++ (elem eidRsn (s.octets ++ t) ++ rest)
      let rpos := done.length + 2 + s.octets.length
      if t.length = 0 then
        (move buf (rpos + 2) rpos (sizeFrom rpos stop)).bind fun buf =>
        (store buf rpos [0, 0]).bind fun buf =>
        insertAtCount done.length (rpos + t.length) stop pmkid (rpos + 2) buf
      else if t.length < 2 then some (-1, buf)
      else insertAtCount done.length (rpos + t.length) stop pmkid (rpos + 2) buf := by
  have hsuites := length_octets s
  have hget : (done ++ (elem eidRsn (s.octets ++ t) ++ rest))[done.length + 1]? =
      some (UInt8.ofNat (s.octets ++ t).length) := by
    simp [elem]
  have hnat : (UInt8.ofNat (s.octets ++ t).length).toNat = s.octets.length + t.length := by
    rw [UInt8.toNat_ofNat', Nat.mod_eq_of_lt hlen, List.length_append]
  rw [List.length_append] at hlen
  have hpairwise : loadLE16 (done ++ (elem eidRsn (s.octets ++ t) ++ rest)) (done.length + 8) =
      some s.pairwise.length := by
    have hload := loadLE16_append (done ++ [eidRsn, UInt8.ofNat (s.octets ++ t).length] ++ toLE 2 1 ++ s.group.1)
      (n := s.pairwise.length) (by omega) (s.pairwise.flatMap Subtype.val ++ suiteList s.akm ++ t ++ rest)
    have hpos : (done ++ [eidRsn, UInt8.ofNat (s.octets ++ t).length] ++ toLE 2 1 ++ s.group.1).length =
        done.length + 8 := by
      simp [s.group.2]
    rw [hpos] at hload
    rw [← hload]
    simp [elem, Suites.octets, suiteList]
  have hakm : loadLE16 (done ++ (elem eidRsn (s.octets ++ t) ++ rest))
      (done.length + 8 + (2 + s.pairwise.length * 4)) = some s.akm.length := by
    have hload := loadLE16_append (done ++ [eidRsn, UInt8.ofNat (s.octets ++ t).length] ++ toLE 2 1 ++ s.group.1 ++
      suiteList s.pairwise) (n := s.akm.length) (by omega) (s.akm.flatMap Subtype.val ++ t ++ rest)
    have hpos : (done ++ [eidRsn, UInt8.ofNat (s.octets ++ t).length] ++ toLE 2 1 ++ s.group.1 ++
        suiteList s.pairwise).length = done.length + 8 + (2 + s.pairwise.length * 4) := by
      simp [s.group.2, length_suiteList]
      omega
    rw [hpos] at hload
    rw [← hload]
    simp [elem, Suites.octets, suiteList]
  have hrpos : done.length + 8 + (2 + s.pairwise.length * 4) + (2 + s.akm.length * 4) =
      done.length + 2 + s.octets.length := by omega
  rw [insertInRsn, hget]
  dsimp only
  rw [hpairwise, Option.bind_some, hakm, Option.bind_some, hnat, hrpos, ← Nat.add_assoc]
  by_cases hzero : t.length = 0
  · rw [if_pos hzero, if_pos (by omega)]
  rw [if_neg hzero, if_neg (by omega)]
  by_cases hone : t.length < 2
  · rw [if_pos hone, if_pos (by omega)]
  · rw [if_neg hone, if_neg (by omega)]

theorem addToLength_append (done : Octets) (id len : UInt8) (rest : Octets) (n : ℕ) :
    addToLength (done ++ id :: len :: rest) done.length n = some (done ++ id :: (len + UInt8.ofNat n) :: rest) := by
  have hget : (done ++ id :: len :: rest)[done.length + 1]? = some len := by simp
  have hsplit : done ++ id :: len :: rest = done ++ [id] ++ (len :: rest) := by simp
  have hpos : done.length + 1 = (done ++ [id]).length := by simp
  rw [addToLength, hget]
  dsimp only
  rw [hsplit, hpos, store_append (done ++ [id]) (by simp)]
  simp

theorem move_gap (done : Octets) {after : Octets} (spare : Octets) (k : ℕ) (hk : k ≤ spare.length) {stop : ℕ}
    (hstop : stop = done.length + after.length) :
    ∃ gap, gap.length = k ∧ move (done ++ (after ++ spare)) (done.length + k) done.length (sizeFrom done.length stop) =
      some (done ++ (gap ++ (after ++ spare.drop k))) := by
  have hsize : sizeFrom done.length stop = after.length := by
    rw [sizeFrom, if_pos (by omega)]
    omega
  refine ⟨(after ++ spare).take k, ?_, ?_⟩
  · rw [List.length_take, List.length_append]
    omega
  · rw [hsize, move_append done (by rw [List.length_append]; omega), List.take_left, Nat.add_comm k, ← List.drop_drop,
      List.drop_left]
    simp

theorem insertAtCount_end (done body : Octets) {after spare : Octets} (hspare : 2 + pmkidLen ≤ spare.length)
    (hpmkid : pmkid.length = pmkidLen) {rend stop : ℕ} (hrend : rend = (done ++ elem eidRsn body).length)
    (hstop : stop = rend + after.length) :
    insertAtCount done.length rend stop pmkid rend (done ++ elem eidRsn body ++ (after ++ spare)) =
      some (((2 + pmkidLen : ℕ) : ℤ), done ++ eidRsn :: (UInt8.ofNat body.length + UInt8.ofNat (2 + pmkidLen)) ::
        (body ++ toLE 2 1 ++ pmkid ++ after ++ spare.drop (2 + pmkidLen))) := by
  subst hrend
  obtain ⟨gap, hgap, hmove⟩ := move_gap (done ++ elem eidRsn body) _ _ hspare hstop
  have hcount : store (done ++ elem eidRsn body ++ (gap ++ (after ++ spare.drop (2 + pmkidLen))))
      (done ++ elem eidRsn body).length (toLE 2 1) =
      some (done ++ elem eidRsn body ++ toLE 2 1 ++ (gap.drop 2 ++ (after ++ spare.drop (2 + pmkidLen)))) := by
    rw [store_append _ (by rw [List.length_append, length_toLE]; omega), length_toLE,
      List.drop_append_of_le_length (by omega)]
  have hstore : store (done ++ elem eidRsn body ++ toLE 2 1 ++ (gap.drop 2 ++ (after ++ spare.drop (2 + pmkidLen))))
      ((done ++ elem eidRsn body).length + 2) pmkid =
      some (done ++ elem eidRsn body ++ toLE 2 1 ++ pmkid ++ (after ++ spare.drop (2 + pmkidLen))) := by
    have hpos : (done ++ elem eidRsn body).length + 2 = (done ++ elem eidRsn body ++ toLE 2 1).length := by
      rw [length_count]
    have hlen : (gap.drop 2).length = pmkid.length := by
      rw [List.length_drop, hgap, hpmkid]
      omega
    rw [hpos, store_append _ (by rw [List.length_append]; omega), ← hlen, List.drop_left]
  have hadd := addToLength_append done eidRsn (UInt8.ofNat body.length)
    (body ++ toLE 2 1 ++ pmkid ++ after ++ spare.drop (2 + pmkidLen)) (2 + pmkidLen)
  have hshape : done ++ elem eidRsn body ++ toLE 2 1 ++ pmkid ++ (after ++ spare.drop (2 + pmkidLen)) =
      done ++ eidRsn :: UInt8.ofNat body.length ::
        (body ++ toLE 2 1 ++ pmkid ++ after ++ spare.drop (2 + pmkidLen)) := by
    simp [elem]
  rw [insertAtCount, if_pos rfl, hmove, Option.bind_some, hcount, Option.bind_some, hstore, Option.bind_some, hshape,
    hadd, Option.map_some]

theorem insertAtCount_zero (done front l : Octets) (len : UInt8) {after spare : Octets}
    (hspare : pmkidLen ≤ spare.length) (hpmkid : pmkid.length = pmkidLen) {rpos rend stop : ℕ} (hrpos : rpos = (done ++ eidRsn :: len :: front).length)
    (hrend : rpos ≠ rend) (hstop : stop = rpos + 2 + (l ++ after).length) :
    insertAtCount done.length rend stop pmkid rpos (done ++ eidRsn :: len :: front ++ ([0, 0] ++ (l ++ after ++ spare))) =
      some ((pmkidLen : ℤ), done ++ eidRsn :: (len + UInt8.ofNat pmkidLen) ::
        (front ++ toLE 2 1 ++ pmkid ++ l ++ after ++ spare.drop pmkidLen)) := by
  subst hrpos
  have hload : loadLE16 (done ++ eidRsn :: len :: front ++ ([0, 0] ++ (l ++ after ++ spare)))
      (done ++ eidRsn :: len :: front).length = some 0 :=
    loadLE16_append (done ++ eidRsn :: len :: front) (n := 0) (by omega) (l ++ after ++ spare)
  have hcount : store (done ++ eidRsn :: len :: front ++ ([0, 0] ++ (l ++ after ++ spare)))
      (done ++ eidRsn :: len :: front).length (toLE 2 1) =
      some (done ++ eidRsn :: len :: front ++ toLE 2 1 ++ (l ++ after ++ spare)) := by
    rw [store_append _ (by simp)]
    rfl
  have hpos : (done ++ eidRsn :: len :: front).length + 2 = (done ++ eidRsn :: len :: front ++ toLE 2 1).length := by
    rw [length_count]
  rw [hpos] at hstop
  obtain ⟨gap, hgap, hmove⟩ := move_gap (done ++ eidRsn :: len :: front ++ toLE 2 1) _ _ hspare hstop
  have hstore : store (done ++ eidRsn :: len :: front ++ toLE 2 1 ++ (gap ++ (l ++ after ++ spare.drop pmkidLen)))
      (done ++ eidRsn :: len :: front ++ toLE 2 1).length pmkid =
      some (done ++ eidRsn :: len :: front ++ toLE 2 1 ++ pmkid ++ (l ++ after ++ spare.drop pmkidLen)) := by
    have hlen : gap.length = pmkid.length := by rw [hgap, hpmkid]
    rw [store_append _ (by rw [List.length_append]; omega), ← hlen, List.drop_left]
  have hadd := addToLength_append done eidRsn len
    (front ++ toLE 2 1 ++ pmkid ++ l ++ after ++ spare.drop pmkidLen) pmkidLen
  have hshape : done ++ eidRsn :: len :: front ++ toLE 2 1 ++ pmkid ++ (l ++ after ++ spare.drop pmkidLen) =
      done ++ eidRsn :: len :: (front ++ toLE 2 1 ++ pmkid ++ l ++ after ++ spare.drop pmkidLen) := by
    simp
  rw [insertAtCount, if_neg hrend, hload, Option.bind_some, if_neg (by simp), hcount, Option.bind_some, hpos]
  dsimp only
  rw [hmove, Option.bind_some, hstore, Option.bind_some, hshape, hadd, Option.map_some]

theorem insertAtCount_behind (done front rest : Octets) (len : UInt8) {rpos rend stop : ℕ}
    (hrpos : rpos = (done ++ eidRsn :: len :: front).length) (hrend : rpos ≠ rend) {ret : ℤ} {buf' : Octets}
    (h : insertAtCount done.length rend stop pmkid rpos (done ++ eidRsn :: len :: front ++ rest) = some (ret, buf')) :
    (ret = -1 ∧ buf' = done ++ eidRsn :: len :: front ++ rest) ∨
      ret = pmkidLen ∧ ∃ rest', buf' = done ++ eidRsn :: (len + UInt8.ofNat pmkidLen) ::
        (front ++ toLE 2 1 ++ pmkid ++ rest') := by
  subst hrpos
  rw [insertAtCount, if_neg hrend] at h
  obtain ⟨count, -, h⟩ := Option.bind_eq_some_iff.mp h
  by_cases hcount : count = 0
  · rw [if_neg (not_not.mpr hcount)] at h
    obtain ⟨buf₁, hbuf₁, h⟩ := Option.bind_eq_some_iff.mp h
    obtain ⟨buf₂, hbuf₂, h⟩ := Option.bind_eq_some_iff.mp h
    obtain ⟨buf₃, hbuf₃, h⟩ := Option.bind_eq_some_iff.mp h
    obtain ⟨buf₄, hbuf₄, h⟩ := Option.map_eq_some_iff.mp h
    cases h
    have hpos : (done ++ eidRsn :: len :: front).length + 2 = (done ++ eidRsn :: len :: front ++ toLE 2 1).length := by
      rw [length_count]
    have hfits := (store_eq_some.1 hbuf₁).1
    rw [@List.length_append _ _ rest] at hfits
    rw [store_append _ (by omega)] at hbuf₁
    cases hbuf₁
    rw [hpos] at hbuf₂ hbuf₃
    obtain ⟨rest₂, rfl⟩ := move_keeps (by omega) hbuf₂
    have hfits₂ := (store_eq_some.1 hbuf₃).1
    rw [@List.length_append _ _ rest₂] at hfits₂
    rw [store_append _ (by omega)] at hbuf₃
    cases hbuf₃
    have hshape : done ++ eidRsn :: len :: front ++ toLE 2 1 ++ pmkid ++ rest₂.drop pmkid.length =
        done ++ eidRsn :: len :: (front ++ toLE 2 1 ++ pmkid ++ rest₂.drop pmkid.length) := by
      simp
    rw [hshape, addToLength_append] at hbuf₄
    cases hbuf₄
    exact Or.inr ⟨rfl, _, rfl⟩
  · rw [if_pos hcount] at h
    cases h
    exact Or.inl ⟨rfl, rfl⟩

end Code

section Insertion

variable {before after : List Ie} {s : Suites} {t spare pmkid : Octets}

theorem length_iesOctets (l : List Ie) : l.length ≤ (iesOctets l).length := by
  induction l with
  | nil => exact Nat.le_refl 0
  | cons e l ih =>
    have hcons : iesOctets (e :: l) = e.octets ++ iesOctets l := rfl
    have hlen : e.octets.length = 2 + e.body.length := by
      rw [Ie.octets, elem, List.length_cons, List.length_cons]
      omega
    rw [hcons, List.length_append, List.length_cons]
    omega

theorem wpaInsertPmkid_eq (hids : ∀ e ∈ before, e.id ≠ eidRsn) (hlen : (s.octets ++ t).length < 256) :
    wpaInsertPmkid (withRsn before (s.octets ++ t) after spare) (withRsn before (s.octets ++ t) after []).length pmkid =
      insertInRsn (iesOctets before).length (withRsn before (s.octets ++ t) after []).length pmkid
        (iesOctets before ++ (elem eidRsn (s.octets ++ t) ++ (iesOctets after ++ spare))) := by
  have hshape : withRsn before (s.octets ++ t) after spare =
      [] ++ (iesOctets before ++ eidRsn :: (UInt8.ofNat (s.octets ++ t).length ::
        (s.octets ++ t ++ (iesOctets after ++ spare)))) := by
    simp [withRsn, elem]
  have hcount := length_iesOctets before
  have hstop : (withRsn before (s.octets ++ t) after []).length =
      (iesOctets before).length + (2 + (s.octets ++ t).length + (iesOctets after).length) := by
    simp only [withRsn, elem, List.length_append, List.length_cons, List.length_nil]
    omega
  have hfind := findRsn_before [] before hids
    (UInt8.ofNat (s.octets ++ t).length :: (s.octets ++ t ++ (iesOctets after ++ spare)))
    (withRsn before (s.octets ++ t) after []).length
    ((withRsn before (s.octets ++ t) after []).length + 1) (by omega)
    (by rw [List.length_nil]; omega)
  rw [← hshape, List.length_nil, Nat.zero_add] at hfind
  rw [wpaInsertPmkid, hfind, hshape]
  simp [elem]

theorem inserts_shape {body rest : Octets} {b : UInt8} {ret : ℤ} (hins : Inserts before body after spare pmkid)
    (hcall : wpaInsertPmkid (withRsn before body after spare) (withRsn before body after []).length pmkid =
      some (ret, iesOctets before ++ eidRsn :: b :: rest)) :
    ret = (b.toNat : ℤ) - body.length ∧ ∃ data, wpaParseWpaIeRsn (elem eidRsn (rest.take b.toNat)) = .ok data := by
  obtain ⟨body', rest', hshort, hresult, data, -, hparse⟩ := hins
  rw [hcall] at hresult
  obtain ⟨hret, hbuf⟩ := Prod.mk.inj (Option.some.inj hresult)
  rw [withRsn, List.append_assoc, List.append_assoc] at hbuf
  have hcons := List.append_cancel_left hbuf
  rw [elem, List.cons_append, List.cons_append] at hcons
  obtain ⟨hb, hrest⟩ := List.cons.inj (List.cons.inj hcons).2
  have hnat : b.toNat = body'.length := by
    rw [hb, UInt8.toNat_ofNat']
    exact Nat.mod_eq_of_lt hshort
  rw [hnat, hrest, List.take_left]
  exact ⟨hret, _, hparse⟩

variable {data : WpaIeData}

theorem cut_not_parsed {caps rest : Octets} {n : ℕ} (hcaps : caps.length = 2)
    (hpmkid : pmkid.length = pmkidLen) (hlow : s.octets.length + 4 ≤ n)
    (hhigh : n < s.octets.length + 4 + pmkidLen) (hshort : n < 256) :
    wpaParseWpaIeRsn (elem eidRsn ((s.octets ++ caps ++ toLE 2 1 ++ pmkid ++ rest).take n)) ≠ .ok data := by
  have htake : (s.octets ++ caps ++ toLE 2 1 ++ pmkid ++ rest).take n =
      s.octets ++ (caps ++ (toLE 2 1 ++ pmkid.take (n - (s.octets.length + 4)))) := by
    have hfront : (s.octets ++ caps ++ toLE 2 1).length = s.octets.length + 4 := by
      rw [List.length_append, List.length_append, hcaps, length_toLE]
    rw [List.append_assoc _ pmkid, List.take_append, hfront, List.take_of_length_le (by omega),
      List.take_append_of_le_length (by omega)]
    simp
  have hlen : (pmkid.take (n - (s.octets.length + 4))).length = n - (s.octets.length + 4) := by
    rw [List.length_take]
    omega
  rw [htake, wpaParseWpaIeRsn_eq (by simp only [List.length_append, hcaps, length_toLE, hlen]; omega)]
  cases suitesData s with
  | error e => exact fun h => nomatch h
  | ok d =>
    rw [Except.bind, trailer_caps hcaps, afterCaps_short (by omega)]
    exact fun h => nomatch h

theorem not_inserts_behind (caps rest : Octets) (rend stop : ℕ) (hcaps : caps.length = 2)
    (hpmkid : pmkid.length = pmkidLen) (hlen : (s.octets ++ t).length < 256) (hcut : t.length < 4)
    (hrend : (iesOctets before).length + 2 + (s.octets ++ caps).length ≠ rend)
    (hcall : wpaInsertPmkid (withRsn before (s.octets ++ t) after spare) (withRsn before (s.octets ++ t) after []).length
      pmkid = insertAtCount (iesOctets before).length rend stop pmkid
        ((iesOctets before).length + 2 + (s.octets ++ caps).length)
        (iesOctets before ++ eidRsn :: UInt8.ofNat (s.octets ++ t).length :: (s.octets ++ caps) ++ rest)) :
    ¬Inserts before (s.octets ++ t) after spare pmkid := by
  intro hins
  have hnat : (UInt8.ofNat (s.octets ++ t).length).toNat = (s.octets ++ t).length := by
    rw [UInt8.toNat_ofNat']
    exact Nat.mod_eq_of_lt hlen
  have hpos : (iesOctets before).length + 2 + (s.octets ++ caps).length =
      (iesOctets before ++ eidRsn :: UInt8.ofNat (s.octets ++ t).length :: (s.octets ++ caps)).length := by
    simp only [List.length_append, List.length_cons]
    omega
  obtain ⟨body', rest', hshort, hresult, data, hdata, hparse⟩ := id hins
  rcases insertAtCount_behind _ _ _ _ hpos hrend (hcall ▸ hresult) with ⟨hret, hbuf⟩ | ⟨hret, rest₁, hbuf⟩
  · rw [hret, hbuf] at hresult
    rw [List.append_assoc, List.cons_append, List.cons_append] at hresult
    have hshape := (inserts_shape hins hresult).1
    rw [hnat] at hshape
    omega
  · rw [hret, hbuf] at hresult
    obtain ⟨hlength, data', hparsed⟩ := inserts_shape hins hresult
    have hoctet := (UInt8.ofNat (s.octets ++ t).length + UInt8.ofNat pmkidLen).toNat_lt
    have hbody : (s.octets ++ t).length = s.octets.length + t.length := List.length_append
    rw [pmkidLen] at hlength hoctet
    exact cut_not_parsed hcaps hpmkid (by rw [pmkidLen]; omega) (by rw [pmkidLen]; omega)
      (by rw [pmkidLen]; omega) hparsed

-- Without capabilities the PMKID is lost.
theorem not_inserts_nil (hids : ∀ e ∈ before, e.id ≠ eidRsn) (hspare : 20 ≤ spare.length)
    (hpmkid : pmkid.length = pmkidLen) (hlen : (s.octets ++ []).length < 256) :
    ¬Inserts before (s.octets ++ []) after spare pmkid := by
  have hstop : (withRsn before (s.octets ++ []) after []).length =
      (iesOctets before ++ elem eidRsn s.octets).length + (iesOctets after).length := by
    simp only [withRsn, List.append_nil, List.length_append]
  obtain ⟨gap, hgap, hmove⟩ := move_gap (iesOctets before ++ elem eidRsn s.octets) spare 2
    (by omega) hstop
  have hpos : (iesOctets before).length + 2 + s.octets.length = (iesOctets before ++ elem eidRsn s.octets).length := by
    simp only [elem, List.length_append, List.length_cons]
    omega
  have hcaps : store (iesOctets before ++ elem eidRsn s.octets ++ (gap ++ (iesOctets after ++ spare.drop 2)))
      (iesOctets before ++ elem eidRsn s.octets).length [0, 0] =
      some (iesOctets before ++ elem eidRsn s.octets ++ [0, 0] ++ (iesOctets after ++ spare.drop 2)) := by
    have hlength : gap.length = ([0, 0] : Octets).length := hgap
    rw [store_append _ (by rw [List.length_append]; omega), ← hlength, List.drop_left]
  have hshape : iesOctets before ++ (elem eidRsn (s.octets ++ []) ++ (iesOctets after ++ spare)) =
      iesOctets before ++ elem eidRsn s.octets ++ (iesOctets after ++ spare) := by simp
  have hcall : wpaInsertPmkid (withRsn before (s.octets ++ []) after spare)
      (withRsn before (s.octets ++ []) after []).length pmkid =
      insertAtCount (iesOctets before).length (iesOctets before ++ elem eidRsn s.octets).length
        (withRsn before (s.octets ++ []) after []).length pmkid
        ((iesOctets before ++ elem eidRsn s.octets).length + 2)
        (iesOctets before ++ elem eidRsn s.octets ++ [0, 0] ++ (iesOctets after ++ spare.drop 2)) := by
    rw [wpaInsertPmkid_eq hids hlen, insertInRsn_eq _ hlen]
    dsimp only
    rw [if_pos List.length_nil, hshape, hpos, hmove, Option.bind_some, hcaps, Option.bind_some, List.length_nil,
      Nat.add_zero]
  have hcount : (iesOctets before).length + 2 + (s.octets ++ [0, 0]).length =
      (iesOctets before ++ elem eidRsn s.octets).length + 2 := by
    rw [← hpos, List.length_append, ← Nat.add_assoc]
    rfl
  refine not_inserts_behind [0, 0] (iesOctets after ++ spare.drop 2)
    (iesOctets before ++ elem eidRsn s.octets).length (withRsn before (s.octets ++ []) after []).length rfl hpmkid hlen
    (by decide) (by omega) ?_
  rw [hcall, hcount]
  simp [elem]

-- One octet behind the capabilities is taken for a count.
theorem not_inserts_stray (hids : ∀ e ∈ before, e.id ≠ eidRsn) (hpmkid : pmkid.length = pmkidLen)
    (hlen : (s.octets ++ t).length < 256) (ht : t.length = 3) : ¬Inserts before (s.octets ++ t) after spare pmkid := by
  obtain ⟨a, b, c, rfl⟩ := List.length_eq_three.mp ht
  have hcall : wpaInsertPmkid (withRsn before (s.octets ++ [a, b, c]) after spare)
      (withRsn before (s.octets ++ [a, b, c]) after []).length pmkid =
      insertAtCount (iesOctets before).length ((iesOctets before).length + 2 + s.octets.length + 3)
        (withRsn before (s.octets ++ [a, b, c]) after []).length pmkid
        ((iesOctets before).length + 2 + s.octets.length + 2)
        (iesOctets before ++ (elem eidRsn (s.octets ++ [a, b, c]) ++ (iesOctets after ++ spare))) := by
    rw [wpaInsertPmkid_eq hids hlen, insertInRsn_eq _ hlen]
    dsimp only
    rw [if_neg (by omega), if_neg (by omega), ht]
  have hcount : (iesOctets before).length + 2 + (s.octets ++ [a, b]).length =
      (iesOctets before).length + 2 + s.octets.length + 2 := by
    rw [List.length_append, ← Nat.add_assoc]
    rfl
  refine not_inserts_behind [a, b] (c :: (iesOctets after ++ spare))
    ((iesOctets before).length + 2 + s.octets.length + 3) (withRsn before (s.octets ++ [a, b, c]) after []).length rfl
    hpmkid hlen (by omega) (by omega) ?_
  rw [hcall, hcount]
  simp [elem]

theorem not_inserts_short (hids : ∀ e ∈ before, e.id ≠ eidRsn) (hlen : (s.octets ++ t).length < 256)
    (ht : t.length = 1) : ¬Inserts before (s.octets ++ t) after spare pmkid := by
  intro hins
  have hcall : wpaInsertPmkid (withRsn before (s.octets ++ t) after spare)
      (withRsn before (s.octets ++ t) after []).length pmkid =
      some (-1, iesOctets before ++ eidRsn :: UInt8.ofNat (s.octets ++ t).length ::
        (s.octets ++ t ++ (iesOctets after ++ spare))) := by
    rw [wpaInsertPmkid_eq hids hlen, insertInRsn_eq _ hlen]
    dsimp only
    rw [if_neg (by omega), if_pos (by omega)]
    rfl
  have hshape := (inserts_shape hins hcall).1
  rw [UInt8.toNat_ofNat', Nat.mod_eq_of_lt hlen] at hshape
  omega

-- The two layouts that the function can extend: the capabilities are last, or a count of zero follows them.
theorem insert_behind_caps (after : List Ie) (hids : ∀ e ∈ before, e.id ≠ eidRsn) (hspare : 20 ≤ spare.length)
    (hpmkid : pmkid.length = pmkidLen) (hlen : (s.octets ++ t).length < 256) (ht : t.length = 2) :
    wpaInsertPmkid (withRsn before (s.octets ++ t) after spare) (withRsn before (s.octets ++ t) after []).length pmkid =
      some (((2 + pmkidLen : ℕ) : ℤ), iesOctets before ++
        eidRsn :: (UInt8.ofNat (s.octets ++ t).length + UInt8.ofNat (2 + pmkidLen)) ::
          (s.octets ++ t ++ toLE 2 1 ++ pmkid ++ iesOctets after ++ spare.drop (2 + pmkidLen))) := by
  have hpos : (iesOctets before).length + 2 + s.octets.length + 2 =
      (iesOctets before ++ elem eidRsn (s.octets ++ t)).length := by
    simp only [elem, List.length_append, List.length_cons, ht]
    omega
  have hstop : (withRsn before (s.octets ++ t) after []).length =
      (iesOctets before).length + 2 + s.octets.length + 2 + (iesOctets after).length := by
    rw [hpos, ← List.length_append, withRsn, List.append_nil]
  have hshape : iesOctets before ++ (elem eidRsn (s.octets ++ t) ++ (iesOctets after ++ spare)) =
      iesOctets before ++ elem eidRsn (s.octets ++ t) ++ (iesOctets after ++ spare) := by
    rw [List.append_assoc]
  rw [wpaInsertPmkid_eq hids hlen, insertInRsn_eq _ hlen]
  dsimp only
  rw [if_neg (by omega), if_neg (by omega), ht, hshape]
  exact insertAtCount_end _ _ (by rw [pmkidLen]; omega) hpmkid hpos hstop

theorem insert_at_zero {caps l : Octets} (after : List Ie) (hids : ∀ e ∈ before, e.id ≠ eidRsn)
    (hspare : 20 ≤ spare.length) (hpmkid : pmkid.length = pmkidLen)
    (hlen : (s.octets ++ (caps ++ ([0, 0] ++ l))).length < 256)
    (hcaps : caps.length = 2) :
    wpaInsertPmkid (withRsn before (s.octets ++ (caps ++ ([0, 0] ++ l))) after spare)
        (withRsn before (s.octets ++ (caps ++ ([0, 0] ++ l))) after []).length pmkid =
      some ((pmkidLen : ℤ), iesOctets before ++
        eidRsn :: (UInt8.ofNat (s.octets ++ (caps ++ ([0, 0] ++ l))).length + UInt8.ofNat pmkidLen) ::
          (s.octets ++ caps ++ toLE 2 1 ++ pmkid ++ l ++ iesOctets after ++ spare.drop pmkidLen)) := by
  have hpos : (iesOctets before).length + 2 + s.octets.length + 2 = (iesOctets before ++
      eidRsn :: UInt8.ofNat (s.octets ++ (caps ++ ([0, 0] ++ l))).length :: (s.octets ++ caps)).length := by
    simp only [List.length_append, List.length_cons, hcaps]
    omega
  have ht : (caps ++ ([0, 0] ++ l)).length = 4 + l.length := by
    simp only [List.length_append, List.length_cons, List.length_nil, hcaps]
    omega
  have hstop : (withRsn before (s.octets ++ (caps ++ ([0, 0] ++ l))) after []).length =
      (iesOctets before).length + 2 + s.octets.length + 2 + 2 + (l ++ iesOctets after).length := by
    simp only [withRsn, elem, List.append_nil, List.length_append, List.length_cons, List.length_nil, hcaps]
    omega
  have hshape : iesOctets before ++ (elem eidRsn (s.octets ++ (caps ++ ([0, 0] ++ l))) ++ (iesOctets after ++ spare)) =
      iesOctets before ++ eidRsn :: UInt8.ofNat (s.octets ++ (caps ++ ([0, 0] ++ l))).length :: (s.octets ++ caps) ++
        ([0, 0] ++ (l ++ iesOctets after ++ spare)) := by
    simp [elem]
  rw [wpaInsertPmkid_eq hids hlen, insertInRsn_eq _ hlen]
  dsimp only
  rw [if_neg (by omega), if_neg (by omega), hshape]
  exact insertAtCount_zero _ _ _ _ (by rw [pmkidLen]; omega) hpmkid hpos (by omega) hstop

theorem inserts_of_call {body body' rest : Octets} {b : UInt8} {k : ℕ}
    (hcall : wpaInsertPmkid (withRsn before body after spare) (withRsn before body after []).length pmkid =
      some ((k : ℤ), iesOctets before ++ eidRsn :: b :: (body' ++ iesOctets after ++ rest)))
    (hb : b = UInt8.ofNat body.length + UInt8.ofNat k) (hlen : body'.length = body.length + k)
    (hroom : body.length + k < 256) (hdata : wpaParseWpaIeRsn (elem eidRsn body) = .ok data)
    (hparse : wpaParseWpaIeRsn (elem eidRsn body') = .ok { data with pmkids := some pmkid }) :
    Inserts before body after spare pmkid := by
  have hoctet : b = UInt8.ofNat body'.length := by
    rw [hb, hlen, UInt8.ofNat_add]
  refine ⟨body', rest, by omega, ?_, data, hdata, hparse⟩
  rw [hcall, hoctet, withRsn, elem, hlen]
  congr 2
  · omega
  · simp

theorem inserts_behind_caps_iff (hids : ∀ e ∈ before, e.id ≠ eidRsn) (hspare : 20 ≤ spare.length)
    (hpmkid : pmkid.length = pmkidLen) (hlen : (s.octets ++ t).length < 256) (ht : t.length = 2)
    (hdata : wpaParseWpaIeRsn (elem eidRsn (s.octets ++ t)) = .ok data) :
    Inserts before (s.octets ++ t) after spare pmkid ↔ (s.octets ++ t).length + 18 < 256 := by
  have hcall := insert_behind_caps after hids hspare hpmkid hlen ht
  constructor
  · rintro ⟨body', rest, hshort, hresult, -⟩
    rw [hcall] at hresult
    have hret := (Prod.mk.inj (Option.some.inj hresult)).1
    rw [pmkidLen] at hret
    omega
  · intro hroom
    have hbody : (s.octets ++ t ++ toLE 2 1 ++ pmkid).length = (s.octets ++ t).length + (2 + pmkidLen) := by
      rw [List.length_append, length_count, hpmkid, Nat.add_assoc]
    have hparse : wpaParseWpaIeRsn (elem eidRsn (s.octets ++ t ++ toLE 2 1 ++ pmkid)) =
        .ok { data with pmkids := some pmkid } := by
      have hshape : s.octets ++ t ++ toLE 2 1 ++ pmkid = s.octets ++ (t ++ (toLE 2 1 ++ (pmkid ++ []))) := by simp
      rw [hshape, wpaParseWpaIeRsn_eq (by rw [← hshape, hbody, pmkidLen]; omega)]
      rw [wpaParseWpaIeRsn_eq hlen] at hdata
      cases hsuites : suitesData s with
      | error e =>
        rw [hsuites] at hdata
        cases hdata
      | ok d =>
        have hcaps := trailer_caps (d := d) (l := []) ht
        rw [List.append_nil] at hcaps
        rw [hsuites, Except.bind, hcaps] at hdata
        cases hdata
        rw [Except.bind, trailer_caps ht, afterCaps_pmkid hpmkid]
        rfl
    exact inserts_of_call hcall rfl hbody (by rw [pmkidLen]; omega) hdata hparse

theorem inserts_at_zero_iff {caps l : Octets} (hids : ∀ e ∈ before, e.id ≠ eidRsn)
    (hspare : 20 ≤ spare.length) (hpmkid : pmkid.length = pmkidLen)
    (hlen : (s.octets ++ (caps ++ ([0, 0] ++ l))).length < 256) (hcaps : caps.length = 2)
    (hdata : wpaParseWpaIeRsn (elem eidRsn (s.octets ++ (caps ++ ([0, 0] ++ l)))) = .ok data) :
    Inserts before (s.octets ++ (caps ++ ([0, 0] ++ l))) after spare pmkid ↔
      (s.octets ++ (caps ++ ([0, 0] ++ l))).length + 16 < 256 := by
  have hcall := insert_at_zero after hids hspare hpmkid hlen hcaps
  constructor
  · rintro ⟨body', rest, hshort, hresult, -⟩
    rw [hcall] at hresult
    have hret := (Prod.mk.inj (Option.some.inj hresult)).1
    rw [pmkidLen] at hret
    omega
  · intro hroom
    have hbody : (s.octets ++ caps ++ toLE 2 1 ++ pmkid ++ l).length =
        (s.octets ++ (caps ++ ([0, 0] ++ l))).length + pmkidLen := by
      simp only [List.length_append, length_toLE, hpmkid, List.length_cons, List.length_nil]
      omega
    have hparse : wpaParseWpaIeRsn (elem eidRsn (s.octets ++ caps ++ toLE 2 1 ++ pmkid ++ l)) =
        .ok { data with pmkids := some pmkid } := by
      have hshape : s.octets ++ caps ++ toLE 2 1 ++ pmkid ++ l = s.octets ++ (caps ++ (toLE 2 1 ++ (pmkid ++ l))) := by
        simp
      rw [hshape, wpaParseWpaIeRsn_eq (by rw [← hshape, hbody, pmkidLen]; omega)]
      rw [wpaParseWpaIeRsn_eq hlen] at hdata
      cases hsuites : suitesData s with
      | error e =>
        rw [hsuites] at hdata
        cases hdata
      | ok d =>
        rw [hsuites, Except.bind, trailer_caps hcaps] at hdata
        have hnone : afterCaps { d with capabilities := getLE16 caps } ([0, 0] ++ l) =
            mgmt { d with capabilities := getLE16 caps, pmkids := some [] } l := rfl
        rw [hnone, mgmt_pmkids (d := { d with capabilities := getLE16 caps })] at hdata
        rw [Except.bind, trailer_caps hcaps, afterCaps_pmkid hpmkid,
          mgmt_pmkids (d := { d with capabilities := getLE16 caps })]
        obtain ⟨data', hmgmt⟩ : ∃ data', mgmt { d with capabilities := getLE16 caps } l = .ok data' := by
          cases hmgmt : mgmt { d with capabilities := getLE16 caps } l with
          | error e =>
            rw [hmgmt] at hdata
            cases hdata
          | ok data' => exact ⟨data', rfl⟩
        rw [hmgmt] at hdata ⊢
        cases hdata
        rfl
    exact inserts_of_call hcall rfl hbody (by rw [pmkidLen]; omega) hdata hparse

-- The PMKID is inserted just where the capabilities are present, no stray octet follows them, and the length octet has
-- room.
theorem pmkid_inserted_iff {data : WpaIeData} (hids : ∀ e ∈ before, e.id ≠ eidRsn) (hspare : 20 ≤ spare.length)
    (hpmkid : pmkid.length = pmkidLen) (hlen : (s.octets ++ t).length < 256)
    (hdata : wpaParseWpaIeRsn (elem eidRsn (s.octets ++ t)) = .ok data)
    (hnone : data.pmkids = none ∨ data.pmkids = some []) :
    Inserts before (s.octets ++ t) after spare pmkid ↔
      (t.length = 2 ∧ (s.octets ++ t).length + 18 < 256) ∨ (4 ≤ t.length ∧ (s.octets ++ t).length + 16 < 256) := by
  obtain ht | ht | ht | ht | ht : t.length = 0 ∨ t.length = 1 ∨ t.length = 2 ∨ t.length = 3 ∨ 4 ≤ t.length := by omega
  · obtain rfl := List.eq_nil_of_length_eq_zero ht
    refine iff_of_false (not_inserts_nil hids hspare hpmkid hlen) ?_
    omega
  · refine iff_of_false (not_inserts_short hids hlen ht) ?_
    omega
  · rw [inserts_behind_caps_iff hids hspare hpmkid hlen ht hdata]
    omega
  · refine iff_of_false (not_inserts_stray hids hpmkid hlen ht) ?_
    omega
  obtain ⟨caps, l, hcaps, rfl⟩ : ∃ caps l : Octets, caps.length = 2 ∧ t = caps ++ ([0, 0] ++ l) := by
    rw [wpaParseWpaIeRsn_eq hlen] at hdata
    cases hsuites : suitesData s with
    | error e =>
      rw [hsuites] at hdata
      cases hdata
    | ok d =>
      rw [hsuites, Except.bind, trailer_eq, if_pos (by omega)] at hdata
      have hlong : 2 ≤ (t.drop 2).length := by
        rw [List.length_drop]
        omega
      obtain ⟨l, hl⟩ := getLE16_eq_zero hlong (count_eq_zero hlong hdata hnone)
      refine ⟨t.take 2, l, ?_, by rw [← hl, List.take_append_drop]⟩
      rw [List.length_take]
      omega
  rw [inserts_at_zero_iff hids hspare hpmkid hlen hcaps hdata]
  omega

def wpa2Psk : Suites where
  group := ⟨AuthIe.rsnCipherSuiteCcmp, rfl⟩
  pairwise := [⟨AuthIe.rsnCipherSuiteCcmp, rfl⟩]
  akm := [⟨AuthIe.rsnAuthKeyMgmtPskOver8021x, rfl⟩]
  pairwise_ne := by decide
  akm_ne := by decide

theorem inserted_behind_capabilities :
    Inserts [] (wpa2Psk.octets ++ [0, 0]) [] (List.replicate 20 0) (List.replicate 16 7) :=
  have hdata : wpaParseWpaIeRsn (elem eidRsn (wpa2Psk.octets ++ [0, 0])) =
      .ok { groupCipher := some .ccmp, pairwiseCipher := [.ccmp], keyMgmt := [.psk] } := by rfl
  (pmkid_inserted_iff (fun _ he => absurd he List.not_mem_nil) (by decide) (by decide) (by decide) hdata
    (Or.inl rfl)).mpr (Or.inl (by decide))

-- An RSN IE that ends with the AKM suites
theorem lost_without_capabilities :
    wpaParseWpaIeRsn (elem eidRsn (wpa2Psk.octets ++ [])) =
      .ok { groupCipher := some .ccmp, pairwiseCipher := [.ccmp], keyMgmt := [.psk] } ∧
    ¬Inserts [] (wpa2Psk.octets ++ []) [] (List.replicate 20 0) (List.replicate 16 7) :=
  ⟨by rfl, not_inserts_nil (fun _ he => absurd he List.not_mem_nil) (by decide) (by decide) (by decide)⟩

end Insertion

end WpaSupplicant.RsnIe

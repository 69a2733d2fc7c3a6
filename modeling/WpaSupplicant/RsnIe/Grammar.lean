import WpaSupplicant.RsnIe.Insertion

namespace WpaSupplicant.RsnIe

open Lib.Octets Lib.Buffer Lib.Checked KeyData

abbrev Pmkid := { o : Octets // o.length = pmkidLen }

inductive MgmtPart where
  | cut (left : Octets) (short : left.length < 4)
  | suite (behind : Octets)

inductive PmkidPart where
  | cut (left : Octets) (short : left.length < 2)
  | list (pmkids : List Pmkid) (count : pmkids.length < 65536) (next : MgmtPart)

inductive CapabPart where
  | cut (left : Octets) (short : left.length < 2)
  | capab (field : Octets) (two : field.length = 2) (next : PmkidPart)

structure SuiteList where
  suites : List Selector
  ne : suites ≠ []
  count : suites.length < 65536

inductive AkmPart where
  | cut
  | list (akm : SuiteList) (next : CapabPart)

inductive PairwisePart where
  | cut
  | list (pairwise : SuiteList)
      (cipher : ∀ s ∈ pairwise.suites, rsnSelectorToBitfield s.1 ≠ some .aes128Cmac) (next : AkmPart)

-- The body of an RSN IE behind the version: a prefix of the fields, cut at one of their boundaries
inductive Body where
  | cut
  | group (suite : Selector) (cipher : rsnSelectorToBitfield suite.1 ≠ some .aes128Cmac) (next : PairwisePart)

def MgmtPart.octets : MgmtPart → Octets
  | .cut left _ => left
  | .suite behind => AuthIe.rsnCipherSuiteAes128Cmac ++ behind

def PmkidPart.octets : PmkidPart → Octets
  | .cut left _ => left
  | .list pmkids _ next => toLE 2 pmkids.length ++ (pmkids.flatMap Subtype.val ++ next.octets)

def CapabPart.octets : CapabPart → Octets
  | .cut left _ => left
  | .capab field _ next => field ++ next.octets

def SuiteList.octets (l : SuiteList) : Octets := suiteList l.suites

def AkmPart.octets : AkmPart → Octets
  | .cut => []
  | .list akm next => akm.octets ++ next.octets

def PairwisePart.octets : PairwisePart → Octets
  | .cut => []
  | .list pairwise _ next => pairwise.octets ++ next.octets

def Body.octets : Body → Octets
  | .cut => []
  | .group suite _ next => suite.1 ++ next.octets

def Body.ie (b : Body) : Octets := elem eidRsn (toLE 2 1 ++ b.octets)

section Meaning

variable (d : WpaIeData)

-- What the fields say, over the defaults of the parser
def MgmtPart.fill : MgmtPart → WpaIeData
  | .cut _ _ => d
  | .suite _ => { d with mgmtGroupCipher := some .aes128Cmac }

def PmkidPart.fill : PmkidPart → WpaIeData
  | .cut _ _ => d
  | .list pmkids _ next => next.fill { d with pmkids := some (pmkids.flatMap Subtype.val) }

def CapabPart.fill : CapabPart → WpaIeData
  | .cut _ _ => d
  | .capab field _ next => next.fill { d with capabilities := getLE16 field }

def AkmPart.fill : AkmPart → WpaIeData
  | .cut => d
  | .list akm next =>
    next.fill { d with keyMgmt := akm.suites.filterMap fun s => rsnKeyMgmtToBitfield s.1 }

def PairwisePart.fill : PairwisePart → WpaIeData
  | .cut => d
  | .list pairwise _ next =>
    next.fill { d with pairwiseCipher := pairwise.suites.filterMap fun s => rsnSelectorToBitfield s.1 }

def Body.fill : Body → WpaIeData
  | .cut => d
  | .group suite _ next => next.fill { d with groupCipher := rsnSelectorToBitfield suite.1 }

end Meaning

section Fields

variable {d d' : WpaIeData} {l : Octets}

theorem exists_pieces (k n : ℕ) (l : Octets) (h : l.length = k * n) :
    ∃ pieces : List { o : Octets // o.length = k }, pieces.length = n ∧ pieces.flatMap Subtype.val = l := by
  induction n generalizing l with
  | zero => exact ⟨[], rfl, (List.eq_nil_of_length_eq_zero h).symm⟩
  | succ n ih =>
    rw [Nat.mul_succ] at h
    obtain ⟨pieces, hcount, hflat⟩ := ih (l.drop k) (by rw [List.length_drop]; omega)
    have hone : (l.take k).length = k := by
      rw [List.length_take]
      omega
    exact ⟨⟨l.take k, hone⟩ :: pieces, by rw [List.length_cons, hcount],
      by rw [List.flatMap_cons, hflat, List.take_append_drop]⟩

theorem length_pieces {k : ℕ} (pieces : List { o : Octets // o.length = k }) :
    (pieces.flatMap Subtype.val).length = k * pieces.length := by
  induction pieces with
  | nil => rfl
  | cons p pieces ih => rw [List.flatMap_cons, List.length_append, p.2, ih, List.length_cons, Nat.mul_succ, Nat.add_comm]

theorem getLE16_lt (l : Octets) : getLE16 l < 65536 := by
  have h₀ := (l.getD 0 0).toNat_lt
  have h₁ := (l.getD 1 0).toNat_lt
  rw [getLE16]
  omega

theorem toLE_getLE16 (h : 2 ≤ l.length) : toLE 2 (getLE16 l) = l.take 2 := by
  obtain ⟨a, b, t, rfl⟩ : ∃ a b t, l = a :: b :: t := by
    rcases l with _ | ⟨a, _ | ⟨b, t⟩⟩
    · simp at h
    · simp at h
    · exact ⟨a, b, t, rfl⟩
  have ha := a.toNat_lt
  have hb := b.toNat_lt
  simp only [getLE16, List.getD_cons_zero, List.getD_cons_succ, toLE, List.take_succ_cons, List.take_zero,
    List.cons.injEq, and_true]
  constructor
  · apply UInt8.toNat_inj.mp
    rw [UInt8.toNat_ofNat']
    omega
  · apply UInt8.toNat_inj.mp
    rw [UInt8.toNat_ofNat']
    omega

theorem eq_of_ite {α : Type} {p : Prop} [Decidable p] {a b c : α} (h : (if p then a else b) = c) (hne : a ≠ c) :
    b = c := by
  by_cases hp : p
  · exact absurd ((if_pos hp).symm.trans h) hne
  · exact (if_neg hp).symm.trans h

theorem rsnSelector_cmac {s : Octets} :
    rsnSelectorToBitfield s = some .aes128Cmac ↔ s = AuthIe.rsnCipherSuiteAes128Cmac := by
  constructor
  · intro h
    rw [rsnSelectorToBitfield] at h
    have hlast := eq_of_ite (eq_of_ite (eq_of_ite (eq_of_ite (eq_of_ite h (by decide)) (by decide)) (by decide))
      (by decide)) (by decide)
    by_contra hne
    rw [if_neg hne] at hlast
    cases hlast
  · rintro rfl
    rfl

theorem mgmt_iff : mgmt d l = .ok d' ↔ ∃ m : MgmtPart, l = m.octets ∧ d' = m.fill d := by
  constructor
  · intro h
    by_cases hlong : 4 ≤ l.length
    · rw [mgmt, if_pos hlong] at h
      by_cases hcmac : rsnSelectorToBitfield (l.take 4) = some .aes128Cmac
      · rw [if_pos hcmac] at h
        refine ⟨.suite (l.drop 4), ?_, ?_⟩
        · rw [MgmtPart.octets, ← rsnSelector_cmac.1 hcmac, List.take_append_drop]
        · rw [hcmac] at h
          exact (Except.ok.inj h).symm
      · rw [if_neg hcmac] at h
        cases h
    · rw [mgmt, if_neg hlong] at h
      exact ⟨.cut l (by omega), rfl, (Except.ok.inj h).symm⟩
  · rintro ⟨m, rfl, rfl⟩
    cases m with
    | cut left short => rw [mgmt, MgmtPart.octets, if_neg (by omega)]; rfl
    | suite behind => rfl

theorem afterCaps_iff : afterCaps d l = .ok d' ↔ ∃ p : PmkidPart, l = p.octets ∧ d' = p.fill d := by
  constructor
  · intro h
    by_cases hlong : 2 ≤ l.length
    · rw [afterCaps, if_pos hlong] at h
      by_cases hunder : (l.drop 2).length < 16 * getLE16 l
      · rw [if_pos hunder] at h
        cases h
      rw [if_neg hunder] at h
      obtain ⟨m, hrest, hfill⟩ := mgmt_iff.1 h
      obtain ⟨pmkids, hcount, hflat⟩ := exists_pieces pmkidLen (getLE16 l) ((l.drop 2).take (16 * getLE16 l))
        (by rw [List.length_take, pmkidLen]; omega)
      have hbound : pmkids.length < 65536 := by
        rw [hcount]
        exact getLE16_lt l
      refine ⟨.list pmkids hbound m, ?_, ?_⟩
      · rw [PmkidPart.octets, hflat, hcount, ← hrest, ← List.drop_drop, List.take_append_drop, toLE_getLE16 hlong,
          List.take_append_drop]
      · rw [PmkidPart.fill, hflat, hfill]
    · rw [afterCaps, if_neg hlong, mgmt, if_neg (by omega)] at h
      exact ⟨.cut l (by omega), rfl, (Except.ok.inj h).symm⟩
  · rintro ⟨p, rfl, rfl⟩
    cases p with
    | cut left short =>
      rw [afterCaps, PmkidPart.octets, if_neg (by omega), mgmt, if_neg (by omega)]
      rfl
    | list pmkids count next =>
      have hflat : (pmkids.flatMap Subtype.val).length = 16 * pmkids.length := length_pieces pmkids
      have hdrop : (PmkidPart.list pmkids count next).octets.drop 2 = pmkids.flatMap Subtype.val ++ next.octets := rfl
      have hget : getLE16 (PmkidPart.list pmkids count next).octets = pmkids.length := getLE16_toLE count
      rw [afterCaps, if_pos (by simp [PmkidPart.octets]), hget, hdrop, if_neg (by rw [List.length_append]; omega),
        ← List.drop_drop, hdrop, List.take_left' hflat, List.drop_left' hflat]
      exact mgmt_iff.2 ⟨next, rfl, rfl⟩

theorem trailer_iff : trailer d l = .ok d' ↔ ∃ c : CapabPart, l = c.octets ∧ d' = c.fill d := by
  constructor
  · intro h
    rw [trailer_eq] at h
    by_cases hlong : 2 ≤ l.length
    · rw [if_pos hlong] at h
      obtain ⟨p, hrest, hfill⟩ := afterCaps_iff.1 h
      have htwo : (l.take 2).length = 2 := by
        rw [List.length_take]
        omega
      have hfield : getLE16 (l.take 2) = getLE16 l := by
        have hget := getLE16_toLE (t := []) (getLE16_lt l)
        rwa [List.append_nil, toLE_getLE16 hlong] at hget
      refine ⟨.capab (l.take 2) htwo p, ?_, ?_⟩
      · rw [CapabPart.octets, ← hrest, List.take_append_drop]
      · rw [CapabPart.fill, hfield, hfill]
    · rw [if_neg hlong, afterCaps, if_neg hlong, mgmt, if_neg (by omega)] at h
      exact ⟨.cut l (by omega), rfl, (Except.ok.inj h).symm⟩
  · rintro ⟨c, rfl, rfl⟩
    cases c with
    | cut left short =>
      rw [trailer_eq, CapabPart.octets, if_neg (by omega), afterCaps, if_neg (by omega), mgmt, if_neg (by omega)]
      rfl
    | capab field two next =>
      rw [CapabPart.octets, trailer_caps two]
      exact afterCaps_iff.2 ⟨next, rfl, rfl⟩

theorem ok_bind {α β : Type} (a : α) (f : α → Except ℤ β) : (Except.ok a).bind f = f a := rfl

theorem suites_octets {botch short : ℤ} (s : SuiteList) (t : Octets) :
    suites botch short (s.octets ++ t) = .ok (some (s.suites.map Subtype.val), t) := suites_suiteList s.ne s.count

theorem suites_iff {botch short : ℤ} {list : Option (List Octets)} {rest : Octets} :
    suites botch short l = .ok (list, rest) ↔
      (list = none ∧ l = [] ∧ rest = []) ∨
        ∃ s : SuiteList, list = some (s.suites.map Subtype.val) ∧ l = s.octets ++ rest := by
  constructor
  · intro h
    by_cases hlong : 2 ≤ l.length
    · rw [suites, if_pos hlong] at h
      dsimp only at h
      by_cases hbotch : getLE16 l = 0 ∨ (l.drop 2).length < 4 * getLE16 l
      · rw [if_pos hbotch] at h
        cases h
      rw [if_neg hbotch] at h
      rw [not_or] at hbotch
      obtain ⟨hlist, hrest⟩ := Prod.mk.inj (Except.ok.inj h)
      obtain ⟨sels, hcount, hflat⟩ := exists_pieces 4 (getLE16 l) ((l.drop 2).take (4 * getLE16 l))
        (by rw [List.length_take]; omega)
      have hsplit : l.drop 2 = sels.flatMap Subtype.val ++ rest := by
        rw [hflat, ← hrest, List.take_append_drop]
      have hne : sels ≠ [] := by
        rintro rfl
        exact hbotch.1 hcount.symm
      have hbound : sels.length < 65536 := by
        rw [hcount]
        exact getLE16_lt l
      refine .inr ⟨⟨sels, hne, hbound⟩, ?_, ?_⟩
      · rw [← hlist, hsplit, ← hcount, selectors_append]
      · rw [SuiteList.octets, suiteList, hcount, List.append_assoc, ← hsplit, toLE_getLE16 hlong,
          List.take_append_drop]
    · rw [suites, if_neg hlong] at h
      by_cases hone : l.length = 1
      · rw [if_pos hone] at h
        cases h
      rw [if_neg hone] at h
      obtain ⟨hlist, hrest⟩ := Prod.mk.inj (Except.ok.inj h)
      have hnil : l = [] := List.eq_nil_of_length_eq_zero (by omega)
      exact .inl ⟨hlist.symm, hnil, by rw [← hrest, hnil]⟩
  · rintro (⟨rfl, rfl, rfl⟩ | ⟨s, rfl, rfl⟩)
    · rfl
    · exact suites_octets s rest

theorem map_filterMap {α : Type} (f : Octets → Option α) (sels : List Selector) :
    (sels.map Subtype.val).filterMap f = sels.filterMap fun s => f s.1 := by
  rw [List.filterMap_map]
  rfl

theorem akm_iff :
    ((akm d l).bind fun r => trailer r.1 r.2) = .ok d' ↔ ∃ a : AkmPart, l = a.octets ∧ d' = a.fill d := by
  constructor
  · intro h
    cases hlist : suites (-6) (-7) l with
    | error e => simp [akm, bind, Except.bind, hlist] at h
    | ok r =>
      obtain ⟨list, rest⟩ := r
      simp only [akm, bind, Except.bind, hlist] at h
      rcases suites_iff.1 hlist with ⟨rfl, hnil, rfl⟩ | ⟨s, rfl, hl⟩
      · exact ⟨.cut, hnil, (Except.ok.inj h).symm⟩
      obtain ⟨c, hrest, hfill⟩ := trailer_iff.1 h
      refine ⟨.list s c, by rw [AkmPart.octets, ← hrest, hl], ?_⟩
      rw [AkmPart.fill, hfill, map_filterMap]
  · rintro ⟨a, rfl, rfl⟩
    cases a with
    | cut => rfl
    | list s next =>
      simp only [akm, bind, Except.bind, AkmPart.octets, suites_octets]
      exact trailer_iff.2 ⟨next, rfl, by rw [AkmPart.fill, map_filterMap]⟩

theorem pairwise_iff :
    ((pairwise d l).bind fun r => (akm r.1 r.2).bind fun r => trailer r.1 r.2) = .ok d' ↔
      ∃ p : PairwisePart, l = p.octets ∧ d' = p.fill d := by
  constructor
  · intro h
    cases hlist : suites (-4) (-5) l with
    | error e => simp [pairwise, bind, Except.bind, hlist] at h
    | ok r =>
      obtain ⟨list, rest⟩ := r
      simp only [pairwise, bind, hlist] at h
      rcases suites_iff.1 hlist with ⟨rfl, hnil, rfl⟩ | ⟨s, rfl, hl⟩
      · exact ⟨.cut, hnil, (Except.ok.inj h).symm⟩
      simp only [ok_bind] at h
      by_cases hcmac : .aes128Cmac ∈ (s.suites.map Subtype.val).filterMap rsnSelectorToBitfield
      · rw [if_pos hcmac] at h
        cases h
      rw [if_neg hcmac] at h
      obtain ⟨a, hrest, hfill⟩ := akm_iff.1 h
      have hcipher : ∀ sel ∈ s.suites, rsnSelectorToBitfield sel.1 ≠ some .aes128Cmac := by
        intro sel hsel hmac
        exact hcmac (List.mem_filterMap.mpr ⟨sel.1, List.mem_map_of_mem hsel, hmac⟩)
      refine ⟨.list s hcipher a, by rw [PairwisePart.octets, ← hrest, hl], ?_⟩
      rw [PairwisePart.fill, hfill, map_filterMap]
  · rintro ⟨p, rfl, rfl⟩
    cases p with
    | cut => rfl
    | list s hcipher next =>
      have hcmac : .aes128Cmac ∉ (s.suites.map Subtype.val).filterMap rsnSelectorToBitfield := by
        intro hmem
        obtain ⟨o, ho, hmac⟩ := List.mem_filterMap.mp hmem
        obtain ⟨sel, hsel, rfl⟩ := List.mem_map.mp ho
        exact hcipher sel hsel hmac
      simp only [pairwise, bind, ok_bind, PairwisePart.octets, suites_octets, if_neg hcmac]
      exact akm_iff.2 ⟨next, rfl, by rw [PairwisePart.fill, map_filterMap]⟩

theorem body_iff :
    ((group d l).bind fun r => (pairwise r.1 r.2).bind fun r => (akm r.1 r.2).bind fun r => trailer r.1 r.2) = .ok d' ↔
      ∃ b : Body, l = b.octets ∧ d' = b.fill d := by
  constructor
  · intro h
    by_cases hlong : 4 ≤ l.length
    · rw [group, if_pos hlong] at h
      dsimp only at h
      by_cases hcmac : rsnSelectorToBitfield (l.take 4) = some .aes128Cmac
      · rw [if_pos hcmac] at h
        cases h
      rw [if_neg hcmac] at h
      obtain ⟨p, hrest, hfill⟩ := pairwise_iff.1 h
      have hfour : (l.take 4).length = 4 := by
        rw [List.length_take]
        omega
      exact ⟨.group ⟨l.take 4, hfour⟩ hcmac p, by rw [Body.octets, ← hrest, List.take_append_drop], hfill⟩
    · rw [group, if_neg hlong] at h
      by_cases hzero : 0 < l.length
      · rw [if_pos hzero] at h
        cases h
      have hnil : l = [] := List.eq_nil_of_length_eq_zero (by omega)
      subst hnil
      exact ⟨.cut, rfl, (Except.ok.inj h).symm⟩
  · rintro ⟨b, rfl, rfl⟩
    cases b with
    | cut => rfl
    | group suite hcmac next =>
      rw [Body.octets, group, if_pos (by rw [List.length_append, suite.2]; omega)]
      dsimp only
      rw [List.take_left' suite.2, List.drop_left' suite.2, if_neg hcmac]
      exact pairwise_iff.2 ⟨next, rfl, rfl⟩

theorem wpaParseWpaIeRsn_iff {ie : Octets} :
    wpaParseWpaIeRsn ie = .ok d' ↔ ∃ b : Body, b.octets.length + 2 < 256 ∧ ie = b.ie ∧ d' = b.fill {} := by
  constructor
  · intro h
    rw [wpaParseWpaIeRsn] at h
    by_cases hshort : ie.length < 4
    · rw [if_pos hshort] at h
      cases h
    rw [if_neg hshort] at h
    by_cases hhdr : ie.getD 0 0 ≠ eidRsn ∨ (ie.getD 1 0).toNat ≠ ie.length - 2 ∨ getLE16 (ie.drop 2) ≠ 1
    · rw [if_pos hhdr] at h
      cases h
    rw [if_neg hhdr] at h
    rw [not_or, not_or, not_not, not_not, not_not] at hhdr
    obtain ⟨hid, hlen, hversion⟩ := hhdr
    obtain ⟨b, hbody, hfill⟩ := body_iff.1 h
    obtain ⟨i, n, v, rfl⟩ : ∃ i n v, ie = i :: n :: v := by
      rcases ie with _ | ⟨i, _ | ⟨n, v⟩⟩
      · simp at hshort
      · simp at hshort
      · exact ⟨i, n, v, rfl⟩
    have hv : v = toLE 2 1 ++ b.octets := by
      have htwo : 2 ≤ v.length := by
        simp only [List.length_cons] at hshort
        omega
      have hone := toLE_getLE16 htwo
      have hdrop : v.drop 2 = b.octets := hbody
      have hget : getLE16 v = 1 := hversion
      rw [← hdrop, ← hget, hone, List.take_append_drop]
    have hn : n.toNat = (toLE 2 1 ++ b.octets).length := by
      rw [← hv]
      exact hlen
    have hbound := n.toNat_lt
    rw [List.length_append, length_toLE] at hn
    refine ⟨b, by omega, ?_, hfill⟩
    have hi : i = eidRsn := hid
    have hnat : n = UInt8.ofNat (toLE 2 1 ++ b.octets).length := by
      apply UInt8.toNat_inj.mp
      rw [UInt8.toNat_ofNat', List.length_append, length_toLE]
      omega
    rw [Body.ie, elem, ← hnat, hi, hv]
  · rintro ⟨b, hshort, rfl, rfl⟩
    have hlen : (b.ie).length = 4 + b.octets.length := by
      simp only [Body.ie, elem, List.length_cons, List.length_append, length_toLE]
      omega
    rw [wpaParseWpaIeRsn, if_neg (by omega), if_neg]
    · exact body_iff.2 ⟨b, rfl, rfl⟩
    · rw [not_or, not_or, not_not, not_not, not_not, hlen]
      refine ⟨rfl, ?_, rfl⟩
      change (UInt8.ofNat (toLE 2 1 ++ b.octets).length).toNat = _
      rw [UInt8.toNat_ofNat', List.length_append, length_toLE]
      omega

end Fields

end WpaSupplicant.RsnIe

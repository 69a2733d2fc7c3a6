import WpaSupplicant.Ap.Ft
import WpaSupplicant.KeyData.Pointers
import WpaSupplicant.Lib.Records
import WpaSupplicant.RsnIe.Reads

namespace WpaSupplicant.Ap.Ft.Pointers

open Lib.Buffer Lib.Records KeyData KeyData.Pointers

-- `wpa_ft_parse_ies` and `ieee802_11_parse_elems` with the pointers that they return, as offsets into
-- the buffer

def pmkidLen : ℕ := 16
def r1khIdLen : ℕ := 6

-- `struct wpa_ft_ies`; `r1kh_id` and `rsn_pmkid` have no length of their own.
structure FtPtrs where
  mdie : Option Slice := none
  ftie : Option Slice := none
  r1khId : Option ℕ := none
  gtk : Option Slice := none
  r0khId : Option Slice := none
  rsn : Option Slice := none
  rsnPmkid : Option ℕ := none
  tie : Option Slice := none
  igtk : Option Slice := none
  ric : Option ℕ := none
  ricLen : ℕ := 0
  deriving DecidableEq, Repr

def bodyAt (buf : Octets) (pos : ℕ) : Slice := ⟨pos + 2, lengthAt buf pos⟩

section Code

variable (buf : Octets)

-- The `switch` of `wpa_ft_parse_ftie`
def ftSubelem (pos : ℕ) (parse : FtPtrs) : Option FtPtrs :=
  let id := octet buf pos
  if id = 1 then
    if lengthAt buf pos ≠ r1khIdLen then none else some { parse with r1khId := some (pos + 2) }
  else if id = 2 then some { parse with gtk := some (bodyAt buf pos) }
  else if id = 3 then
    if lengthAt buf pos < 1 ∨ 48 < lengthAt buf pos then none
    else some { parse with r0khId := some (bodyAt buf pos) }
  else if id = 4 then some { parse with igtk := some (bodyAt buf pos) }
  else some parse

-- The loop of `wpa_ft_parse_ftie`
def parseSubelems (pos fin : ℕ) (parse : FtPtrs) : Option FtPtrs :=
  if pos + 2 ≤ fin ∧ pos + 2 + lengthAt buf pos ≤ fin then
    (ftSubelem buf pos parse).bind fun parse => parseSubelems (pos + 2 + lengthAt buf pos) fin parse
  else some parse
termination_by fin - pos

def wpaFtParseFtie (ie ieLen : ℕ) (parse : FtPtrs) : Option FtPtrs :=
  parseSubelems buf (ie + Ftie.len) (ie + ieLen) { parse with ftie := some ⟨ie, ieLen⟩ }

-- `parse` and `prot_ie_count`
structure FtScan where
  parse : FtPtrs := {}
  protIeCount : ℕ := 0
  deriving DecidableEq, Repr

-- The RSN IE of `wpa_ft_parse_ies`; the PMKID is taken where there is one only.
def ftRsn (pos : ℕ) (parse : FtPtrs) : Option FtPtrs :=
  match RsnIe.Raw.wpaParseWpaIeRsn (field buf pos (lengthAt buf pos + 2)) with
  | some (.ok data) =>
    some
      { parse with
        rsn := some (bodyAt buf pos)
        rsnPmkid :=
          if data.numPmkid = 1 ∧ data.pmkid.isSome then data.pmkid.map (pos + ·) else parse.rsnPmkid }
  | _ => none

-- The `switch` of `wpa_ft_parse_ies`
def ftElem (pos : ℕ) (s : FtScan) : Option FtScan :=
  let id := octet buf pos
  if id = eidRsn then (ftRsn buf pos s.parse).map fun parse => { s with parse := parse }
  else if id = eidMobilityDomain then some { s with parse := { s.parse with mdie := some (bodyAt buf pos) } }
  else if id = eidFastBssTransition then
    if lengthAt buf pos < Ftie.len then none
    else
      (wpaFtParseFtie buf (pos + 2) (lengthAt buf pos) s.parse).map fun parse =>
        { parse := parse, protIeCount := (octet buf (pos + 3)).toNat }
  else if id = eidTimeoutInterval then some { s with parse := { s.parse with tie := some (bodyAt buf pos) } }
  else if id = eidRicData then some { s with parse := { s.parse with ric := s.parse.ric.or (some pos) } }
  else some s

-- The first loop of `wpa_ft_parse_ies`
def parseFtElems (pos fin : ℕ) (s : FtScan) : Option FtScan :=
  if pos + 2 ≤ fin ∧ pos + 2 + lengthAt buf pos ≤ fin then
    (ftElem buf pos s).bind fun s => parseFtElems (pos + 2 + lengthAt buf pos) fin s
  else some s
termination_by fin - pos

def ricEnd (fin : ℕ) : ℕ → ℕ → ℕ × ℕ
  | pos, count + 1 =>
    if pos + 2 ≤ fin ∧ pos + 2 + lengthAt buf pos ≤ fin then ricEnd fin (pos + 2 + lengthAt buf pos) count
    else (pos, count + 1)
  | pos, 0 => (pos, 0)

-- How many of the elements are there that the count covers besides the RIC IEs
def FtPtrs.present (parse : FtPtrs) : ℕ :=
  (if parse.rsn.isSome then 1 else 0) + (if parse.mdie.isSome then 1 else 0) + (if parse.ftie.isSome then 1 else 0)

-- The last part of `wpa_ft_parse_ies`
def checkProtected (s : FtScan) : Option FtPtrs :=
  if s.protIeCount = 0 then some s.parse
  else if s.protIeCount < s.parse.present then none
  else
    let count := s.protIeCount - s.parse.present
    match s.parse.ric with
    | none => if count = 0 then some s.parse else none
    | some ric =>
      if count = 0 then none
      else
        let r := ricEnd buf buf.length ric count
        if r.2 = 0 then some { s.parse with ricLen := r.1 - ric } else none

def wpaFtParseIes : Option FtPtrs := (parseFtElems buf 0 buf.length {}).bind (checkProtected buf)

-- What is needed of `struct ieee802_11_elems`
structure Elems where
  rsnIe : Option Slice := none
  mdie : Option Slice := none
  wmmTspec : Option Slice := none
  deriving DecidableEq, Repr

-- The TSPEC of `ieee802_11_parse_vendor_specific`: `OUI_MICROSOFT`, `WMM_OUI_TYPE` and
-- `WMM_OUI_SUBTYPE_TSPEC_ELEMENT`
def isTspec (pos : ℕ) : Bool := 5 ≤ lengthAt buf pos && field buf (pos + 2) 5 = [0x00, 0x50, 0xf2, 2, 2]

-- The `switch` of `ieee802_11_parse_elems`
def parseElem (pos : ℕ) (elems : Elems) : Elems :=
  let id := octet buf pos
  if id = eidVendorSpecific then
    if isTspec buf pos then { elems with wmmTspec := some (bodyAt buf pos) } else elems
  else if id = eidRsn then { elems with rsnIe := some (bodyAt buf pos) }
  else if id = eidMobilityDomain then { elems with mdie := some (bodyAt buf pos) }
  else elems

-- The loop of `ieee802_11_parse_elems`; `none` for `ParseFailed`
def parseElemsFrom (pos left : ℕ) (elems : Elems) : Option Elems :=
  if 2 ≤ left then
    if left - 2 < lengthAt buf pos then none
    else parseElemsFrom (pos + 2 + lengthAt buf pos) (left - 2 - lengthAt buf pos) (parseElem buf pos elems)
  else if left = 0 then some elems
  else none
termination_by left

def ieee80211ParseElems : Option Elems := parseElemsFrom buf 0 buf.length {}

end Code

section Statement

variable (buf : Octets)

def elements (pos fin : ℕ) : List ℕ := records (fun e => 2 + lengthAt buf e) pos fin

-- The count of protected IEs, in the MIC Control field of the FTIE
def FtPtrs.count (p : FtPtrs) : ℕ := (p.ftie.map fun f => (octet buf (f.off + 1)).toNat).getD 0

def FtPtrs.element (p : FtPtrs) (id : UInt8) : Option Slice :=
  if id = eidRsn then p.rsn
  else if id = eidMobilityDomain then p.mdie
  else if id = eidFastBssTransition then p.ftie
  else if id = eidTimeoutInterval then p.tie
  else none

def FtPtrs.subelem (p : FtPtrs) (id : UInt8) : Option Slice :=
  if id = 1 then p.r1khId.map (⟨·, r1khIdLen⟩)
  else if id = 2 then p.gtk
  else if id = 3 then p.r0khId
  else if id = 4 then p.igtk
  else none

structure Inside (p : FtPtrs) : Prop where
  element : ∀ id t, p.element id = some t → t.off + t.len ≤ buf.length
  pmkid : ∀ o, p.rsnPmkid = some o → o + pmkidLen ≤ buf.length
  ric : ∀ r, p.ric = some r → r + p.ricLen ≤ buf.length
  subelem : ∀ id t, p.subelem id = some t →
    ∃ f, p.ftie = some f ∧ f.off ≤ t.off ∧ t.off + t.len ≤ f.off + f.len

-- The count is that of the elements that the MIC covers: the elements of the RIC range are a run of the
-- elements of the buffer, which starts with the first RIC Data element.
def Covered (p : FtPtrs) : Prop :=
  0 < p.count buf → ∃ before run after,
    elements buf 0 buf.length = before ++ run ++ after ∧ p.count buf = p.present + run.length ∧
    (∀ e ∈ before, octet buf e ≠ eidRicData) ∧
    match p.ric with
    | none => run = []
    | some ric => octet buf ric = eidRicData ∧ run.head? = some ric ∧ run = elements buf ric (ric + p.ricLen)

def Agrees (p : FtPtrs) : Prop :=
  ∀ elems, ieee80211ParseElems buf = some elems → elems.rsnIe = p.rsn ∧ elems.mdie = p.mdie

-- The FTIEs of the buffer, and whether one has a subelement
def fties : List ℕ := (elements buf 0 buf.length).filter fun e => octet buf e = eidFastBssTransition

def hasSubelem (e : ℕ) (id : UInt8) : Bool :=
  (elements buf (e + 2 + Ftie.len) (e + 2 + lengthAt buf e)).any fun s => octet buf s = id

def LastComplete : Prop :=
  ∀ id ∈ [(1 : UInt8), 2, 3, 4], ∀ e ∈ fties buf, hasSubelem buf e id = true →
    ∀ l, (fties buf).getLast? = some l → hasSubelem buf l id = true

end Statement

section Loops

variable {buf : Octets} {pos fin : ℕ}

theorem elements_cons (h : pos + 2 ≤ fin ∧ pos + 2 + lengthAt buf pos ≤ fin) :
    elements buf pos fin = pos :: elements buf (pos + 2 + lengthAt buf pos) fin := by
  rw [elements, records_cons (by omega) (by omega), ← Nat.add_assoc]
  rfl

theorem elements_nil (h : ¬(pos + 2 ≤ fin ∧ pos + 2 + lengthAt buf pos ≤ fin)) : elements buf pos fin = [] :=
  records_nil (by omega)

theorem mem_elements {e : ℕ} (h : e ∈ elements buf pos fin) : pos ≤ e ∧ e + 2 + lengthAt buf e ≤ fin := by
  obtain ⟨hle, -, hfin⟩ := mem_records h
  exact ⟨hle, by omega⟩

theorem parseFtElems_latest {β : Type} (field : FtScan → Option β) (f : ℕ → Option β)
    (hstep : ∀ e s s', e + 2 + lengthAt buf e ≤ fin → ftElem buf e s = some s' → field s' = (f e).or (field s))
    {s s' : FtScan} (h : parseFtElems buf pos fin s = some s') :
    field s' = (latest f (elements buf pos fin)).or (field s) := by
  fun_induction parseFtElems buf pos fin s with
  | case1 pos s hpos ih =>
    obtain ⟨s₁, hs₁, hrest⟩ := Option.bind_eq_some_iff.1 h
    rw [elements_cons hpos, latest, Option.or_assoc, ← hstep pos s s₁ hpos.2 hs₁]
    exact ih s₁ hrest
  | case2 pos s hpos =>
    obtain rfl := Option.some.inj h
    rw [elements_nil hpos]
    rfl

theorem parseFtElems_keeps (P : FtScan → Prop)
    (hstep : ∀ e s s', e + 2 + lengthAt buf e ≤ fin → P s → ftElem buf e s = some s' → P s') {s s' : FtScan}
    (hs : P s) (h : parseFtElems buf pos fin s = some s') : P s' := by
  fun_induction parseFtElems buf pos fin s with
  | case1 pos s hpos ih =>
    obtain ⟨s₁, hs₁, hrest⟩ := Option.bind_eq_some_iff.1 h
    exact ih s₁ (hstep pos s s₁ hpos.2 hs hs₁) hrest
  | case2 pos s hpos =>
    obtain rfl := Option.some.inj h
    exact hs

-- The subelements are all that `wpa_ft_parse_ftie` assigns besides the FTIE itself.
structure SameElements (p p' : FtPtrs) : Prop where
  mdie : p'.mdie = p.mdie
  ftie : p'.ftie = p.ftie
  rsn : p'.rsn = p.rsn
  rsnPmkid : p'.rsnPmkid = p.rsnPmkid
  tie : p'.tie = p.tie
  ric : p'.ric = p.ric
  ricLen : p'.ricLen = p.ricLen

variable {p p' : FtPtrs}

theorem ftSubelem_spec (h : ftSubelem buf pos p = some p') :
    SameElements p p' ∧ ∀ id ∈ [(1 : UInt8), 2, 3, 4],
      p'.subelem id = (if octet buf pos = id then some (bodyAt buf pos) else none).or (p.subelem id) := by
  simp only [ftSubelem] at h
  split_ifs at h with h1 hlen h2 h3 hlen h4
  · obtain rfl := Option.some.inj h
    refine ⟨⟨rfl, rfl, rfl, rfl, rfl, rfl, rfl⟩, ?_⟩
    simp [FtPtrs.subelem, bodyAt, h1, not_not.1 hlen]
  · obtain rfl := Option.some.inj h
    refine ⟨⟨rfl, rfl, rfl, rfl, rfl, rfl, rfl⟩, ?_⟩
    simp [FtPtrs.subelem, h2]
  · obtain rfl := Option.some.inj h
    refine ⟨⟨rfl, rfl, rfl, rfl, rfl, rfl, rfl⟩, ?_⟩
    simp [FtPtrs.subelem, h3]
  · obtain rfl := Option.some.inj h
    refine ⟨⟨rfl, rfl, rfl, rfl, rfl, rfl, rfl⟩, ?_⟩
    simp [FtPtrs.subelem, h4]
  · obtain rfl := Option.some.inj h
    refine ⟨⟨rfl, rfl, rfl, rfl, rfl, rfl, rfl⟩, ?_⟩
    simp [h1, h2, h3, h4]

theorem parseSubelems_same (h : parseSubelems buf pos fin p = some p') : SameElements p p' := by
  fun_induction parseSubelems buf pos fin p with
  | case1 pos p hpos ih =>
    obtain ⟨p₁, hp₁, hrest⟩ := Option.bind_eq_some_iff.1 h
    obtain ⟨h1, h2, h3, h4, h5, h6, h7⟩ := ih p₁ hrest
    obtain ⟨g1, g2, g3, g4, g5, g6, g7⟩ := (ftSubelem_spec hp₁).1
    exact ⟨h1.trans g1, h2.trans g2, h3.trans g3, h4.trans g4, h5.trans g5, h6.trans g6, h7.trans g7⟩
  | case2 pos p hpos =>
    obtain rfl := Option.some.inj h
    exact ⟨rfl, rfl, rfl, rfl, rfl, rfl, rfl⟩

-- The last subelement of a kind between two pointers
def subelemIn (buf : Octets) (pos fin : ℕ) (id : UInt8) : Option Slice :=
  latest (fun s => if octet buf s = id then some (bodyAt buf s) else none) (elements buf pos fin)

theorem parseSubelems_subelem (h : parseSubelems buf pos fin p = some p') {id : UInt8}
    (hid : id ∈ [(1 : UInt8), 2, 3, 4]) : p'.subelem id = (subelemIn buf pos fin id).or (p.subelem id) := by
  fun_induction parseSubelems buf pos fin p with
  | case1 pos p hpos ih =>
    obtain ⟨p₁, hp₁, hrest⟩ := Option.bind_eq_some_iff.1 h
    rw [subelemIn, elements_cons hpos, latest, Option.or_assoc, ← (ftSubelem_spec hp₁).2 id hid]
    exact ih p₁ hrest
  | case2 pos p hpos =>
    obtain rfl := Option.some.inj h
    rw [subelemIn, elements_nil hpos]
    rfl

inductive ElemStep (buf : Octets) (e : ℕ) (s s' : FtScan) : Prop where
  | rsn (hid : octet buf e = eidRsn) (pmkid : Option ℕ)
      (hpmkid : pmkid = s.parse.rsnPmkid ∨ ∃ o, pmkid = some o ∧ o + pmkidLen ≤ e + 2 + lengthAt buf e)
      (hstep : s' = { s with parse := { s.parse with rsn := some (bodyAt buf e), rsnPmkid := pmkid } })
  | mdie (hid : octet buf e = eidMobilityDomain)
      (hstep : s' = { s with parse := { s.parse with mdie := some (bodyAt buf e) } })
  | ftie (hid : octet buf e = eidFastBssTransition) (hlen : Ftie.len ≤ lengthAt buf e)
      (hparse : wpaFtParseFtie buf (e + 2) (lengthAt buf e) s.parse = some s'.parse)
      (hcount : s'.protIeCount = (octet buf (e + 3)).toNat)
  | tie (hid : octet buf e = eidTimeoutInterval)
      (hstep : s' = { s with parse := { s.parse with tie := some (bodyAt buf e) } })
  | ric (hid : octet buf e = eidRicData)
      (hstep : s' = { s with parse := { s.parse with ric := s.parse.ric.or (some e) } })
  | other (hids : octet buf e ∉ [eidRsn, eidMobilityDomain, eidFastBssTransition, eidTimeoutInterval, eidRicData])
      (hstep : s' = s)

theorem ftRsn_spec {e : ℕ} (hfin : e + 2 + lengthAt buf e ≤ buf.length) (h : ftRsn buf e p = some p') :
    ∃ pmkid, (pmkid = p.rsnPmkid ∨ ∃ o, pmkid = some o ∧ o + pmkidLen ≤ e + 2 + lengthAt buf e) ∧
      p' = { p with rsn := some (bodyAt buf e), rsnPmkid := pmkid } := by
  have hlen : (field buf e (lengthAt buf e + 2)).length = lengthAt buf e + 2 := by
    rw [field, List.length_take, List.length_drop]
    omega
  unfold ftRsn at h
  split at h
  · rename_i data hdata
    obtain rfl := Option.some.inj h
    refine ⟨_, ?_, rfl⟩
    split_ifs with hone
    · obtain ⟨hnum, hsome⟩ := hone
      obtain ⟨o, ho⟩ := Option.isSome_iff_exists.1 hsome
      rcases RsnIe.Raw.wpaParseWpaIeRsn_sim (field buf e (lengthAt buf e + 2)) with
        ⟨err, herr, -⟩ | ⟨data', d, hok, -, hsees⟩
      · rw [hdata] at herr
        cases herr
      rw [hdata] at hok
      obtain rfl := Except.ok.inj (Option.some.inj hok)
      have hin := hsees.pmkids
      cases hd : d.pmkids with
      | none =>
        rw [hd] at hin
        rw [hin.1] at ho
        cases ho
      | some list =>
        rw [hd] at hin
        obtain ⟨q, hq, hle, -⟩ := hin
        rw [hlen, hnum] at hle
        refine .inr ⟨e + q, by rw [hq]; rfl, ?_⟩
        unfold pmkidLen
        omega
    · exact .inl rfl
  · cases h

theorem ftElem_step {e : ℕ} {s s' : FtScan} (hfin : e + 2 + lengthAt buf e ≤ buf.length)
    (h : ftElem buf e s = some s') : ElemStep buf e s s' := by
  simp only [ftElem] at h
  split_ifs at h with h1 h2 h3 hlen h4 h5
  · obtain ⟨parse, hparse, rfl⟩ := Option.map_eq_some_iff.1 h
    obtain ⟨pmkid, hpmkid, rfl⟩ := ftRsn_spec hfin hparse
    exact .rsn h1 pmkid hpmkid rfl
  · exact .mdie h2 (Option.some.inj h).symm
  · obtain ⟨parse, hparse, rfl⟩ := Option.map_eq_some_iff.1 h
    exact .ftie h3 (Nat.le_of_not_lt hlen) hparse rfl
  · exact .tie h4 (Option.some.inj h).symm
  · exact .ric h5 (Option.some.inj h).symm
  · refine .other ?_ (Option.some.inj h).symm
    simp [h1, h2, h3, h4, h5]

end Loops

section Fields

variable {buf : Octets} {s : FtScan}

def lastOf (buf : Octets) (id : UInt8) : Option Slice :=
  latest (fun e => if octet buf e = id then some (bodyAt buf e) else none) (elements buf 0 buf.length)

variable {s' : FtScan}

theorem element_step {e : ℕ} {s : FtScan} (h : ElemStep buf e s s') {id : UInt8}
    (hid : id ∈ [eidRsn, eidMobilityDomain, eidFastBssTransition, eidTimeoutInterval]) :
    s'.parse.element id = (if octet buf e = id then some (bodyAt buf e) else none).or (s.parse.element id) := by
  simp only [List.mem_cons, List.not_mem_nil, or_false] at hid
  cases h with
  | rsn hrsn pmkid hpmkid hs =>
    rw [hs, hrsn]
    rcases hid with rfl | rfl | rfl | rfl <;> rfl
  | mdie hmdie hs =>
    rw [hs, hmdie]
    rcases hid with rfl | rfl | rfl | rfl <;> rfl
  | ftie hftie hlen hparse hcount =>
    have hsame := parseSubelems_same hparse
    rw [hftie]
    rcases hid with rfl | rfl | rfl | rfl
    · exact hsame.rsn
    · exact hsame.mdie
    · exact hsame.ftie
    · exact hsame.tie
  | tie htie hs =>
    rw [hs, htie]
    rcases hid with rfl | rfl | rfl | rfl <;> rfl
  | ric hric hs =>
    rw [hs, hric]
    rcases hid with rfl | rfl | rfl | rfl <;> rfl
  | other hids hs =>
    have hne : octet buf e ≠ id := by
      rintro rfl
      apply hids
      rcases hid with hid | hid | hid | hid <;> rw [hid] <;> decide
    rw [hs, if_neg hne]
    rfl

theorem scan_element (h : parseFtElems buf 0 buf.length {} = some s) (id : UInt8)
    (hid : id ∈ [eidRsn, eidMobilityDomain, eidFastBssTransition, eidTimeoutInterval]) :
    s.parse.element id = lastOf buf id := by
  have hnone : ({} : FtScan).parse.element id = none := by
    simp only [List.mem_cons, List.not_mem_nil, or_false] at hid
    rcases hid with rfl | rfl | rfl | rfl <;> rfl
  have hlast := parseFtElems_latest (fun s => s.parse.element id) _
    (fun e s s' hfin hstep => element_step (ftElem_step hfin hstep) hid) h
  rw [hlast, hnone, Option.or_none]
  rfl

def lastSubelem (buf : Octets) (id : UInt8) : Option Slice :=
  latest (fun e =>
      if octet buf e = eidFastBssTransition then subelemIn buf (e + 2 + Ftie.len) (e + 2 + lengthAt buf e) id
      else none)
    (elements buf 0 buf.length)

theorem subelem_step {e : ℕ} {s : FtScan} (h : ElemStep buf e s s') {id : UInt8}
    (hid : id ∈ [(1 : UInt8), 2, 3, 4]) :
    s'.parse.subelem id =
      (if octet buf e = eidFastBssTransition then subelemIn buf (e + 2 + Ftie.len) (e + 2 + lengthAt buf e) id
        else none).or (s.parse.subelem id) := by
  cases h with
  | rsn hrsn pmkid hpmkid hs =>
    rw [hs, if_neg (by rw [hrsn]; decide)]
    rfl
  | mdie hmdie hs =>
    rw [hs, if_neg (by rw [hmdie]; decide)]
    rfl
  | ftie hftie hlen hparse hcount =>
    rw [if_pos hftie]
    exact parseSubelems_subelem hparse hid
  | tie htie hs =>
    rw [hs, if_neg (by rw [htie]; decide)]
    rfl
  | ric hric hs =>
    rw [hs, if_neg (by rw [hric]; decide)]
    rfl
  | other hids hs =>
    rw [hs, if_neg (fun heq => hids (by rw [heq]; decide))]
    rfl

theorem scan_subelem (h : parseFtElems buf 0 buf.length {} = some s) {id : UInt8}
    (hid : id ∈ [(1 : UInt8), 2, 3, 4]) : s.parse.subelem id = lastSubelem buf id := by
  have hnone : ({} : FtScan).parse.subelem id = none := by
    simp only [List.mem_cons, List.not_mem_nil, or_false] at hid
    rcases hid with rfl | rfl | rfl | rfl <;> rfl
  have hlast := parseFtElems_latest (fun s => s.parse.subelem id) _
    (fun e s s' hfin hstep => subelem_step (ftElem_step hfin hstep) hid) h
  rw [hlast, hnone, Option.or_none]
  rfl

-- What the other fields keep during the loop: the count is that of the FTIE, the PMKID is in the buffer, the
-- range of the RIC IEs is not determined yet.
structure ScanInv (buf : Octets) (s : FtScan) : Prop where
  count : s.protIeCount = s.parse.count buf
  pmkid : ∀ o, s.parse.rsnPmkid = some o → o + pmkidLen ≤ buf.length
  ricLen : s.parse.ricLen = 0

theorem scanInv_step {e : ℕ} {s : FtScan} (hfin : e + 2 + lengthAt buf e ≤ buf.length)
    (hs : ScanInv buf s) (h : ElemStep buf e s s') : ScanInv buf s' := by
  cases h with
  | rsn hrsn pmkid hpmkid hs' =>
    rw [hs']
    refine ⟨hs.count, ?_, hs.ricLen⟩
    rcases hpmkid with rfl | ⟨o, rfl, ho⟩
    · exact hs.pmkid
    · rintro o' ⟨⟩
      omega
  | mdie hmdie hs' | tie htie hs' | ric hric hs' =>
    rw [hs']
    exact ⟨hs.count, hs.pmkid, hs.ricLen⟩
  | ftie hftie hlen hparse hcount =>
    have hsame := parseSubelems_same hparse
    refine ⟨?_, ?_, hsame.ricLen.trans hs.ricLen⟩
    · rw [hcount, FtPtrs.count, hsame.ftie]
      rfl
    · rw [hsame.rsnPmkid]
      exact hs.pmkid
  | other hids hs' =>
    rw [hs']
    exact hs

theorem scan_inv (h : parseFtElems buf 0 buf.length {} = some s) : ScanInv buf s :=
  parseFtElems_keeps (ScanInv buf) (fun _ _ _ hfin hs hstep => scanInv_step hfin hs (ftElem_step hfin hstep))
    ⟨rfl, fun _ ho => (by cases ho), rfl⟩ h

theorem scan_ric {pos fin : ℕ} {s : FtScan} (hfin : fin ≤ buf.length)
    (h : parseFtElems buf pos fin s = some s') :
    s'.parse.ric = s.parse.ric.or ((elements buf pos fin).find? fun e => octet buf e = eidRicData) := by
  fun_induction parseFtElems buf pos fin s with
  | case1 pos s hpos ih =>
    obtain ⟨s₁, hs₁, hrest⟩ := Option.bind_eq_some_iff.1 h
    have hstep : s₁.parse.ric = s.parse.ric.or (if octet buf pos = eidRicData then some pos else none) := by
      cases ftElem_step (by omega) hs₁ with
      | rsn hid pmkid hpmkid hs | mdie hid hs | tie hid hs =>
        rw [hs, if_neg (by rw [hid]; decide), Option.or_none]
      | ftie hid hlen hparse hcount =>
        rw [(parseSubelems_same hparse).ric, if_neg (by rw [hid]; decide), Option.or_none]
      | ric hid hs => rw [hs, if_pos hid]
      | other hids hs => rw [hs, if_neg (fun hid => hids (by rw [hid]; decide)), Option.or_none]
    rw [ih s₁ hrest, hstep, elements_cons hpos, List.find?_cons, Option.or_assoc]
    by_cases hid : octet buf pos = eidRicData
    · simp [hid]
    · simp [hid]
  | case2 pos s hpos =>
    obtain rfl := Option.some.inj h
    rw [elements_nil hpos]
    simp

end Fields

section Results

variable {buf : Octets}

theorem ricEnd_run {fin pos count stop : ℕ} (hpos : pos ≤ fin) (h : ricEnd buf fin pos count = (stop, 0)) :
    ∃ run after, elements buf pos fin = run ++ after ∧ run.length = count ∧ elements buf pos stop = run ∧
      pos ≤ stop ∧ stop ≤ fin := by
  induction count generalizing pos with
  | zero =>
    obtain rfl := (Prod.mk.inj h).1
    exact ⟨[], _, rfl, rfl, elements_nil (by omega), Nat.le_refl _, hpos⟩
  | succ count ih =>
    rw [ricEnd] at h
    by_cases hwalk : pos + 2 ≤ fin ∧ pos + 2 + lengthAt buf pos ≤ fin
    · rw [if_pos hwalk] at h
      obtain ⟨run, after, hsplit, hlen, hrun, hle, hstop⟩ := ih hwalk.2 h
      refine ⟨pos :: run, after, ?_, by rw [List.length_cons, hlen], ?_, by omega, hstop⟩
      · rw [elements_cons hwalk, hsplit, List.cons_append]
      · rw [elements_cons (by omega), hrun]
    · rw [if_neg hwalk] at h
      cases h

theorem checkProtected_cases {s : FtScan} {p : FtPtrs} (h : checkProtected buf s = some p) :
    (s.protIeCount = 0 ∧ p = s.parse) ∨
      (s.parse.ric = none ∧ s.protIeCount = s.parse.present ∧ p = s.parse) ∨
      ∃ ric stop, s.parse.ric = some ric ∧ s.parse.present < s.protIeCount ∧
        ricEnd buf buf.length ric (s.protIeCount - s.parse.present) = (stop, 0) ∧
        p = { s.parse with ricLen := stop - ric } := by
  rw [checkProtected] at h
  by_cases hzero : s.protIeCount = 0
  · rw [if_pos hzero] at h
    exact .inl ⟨hzero, (Option.some.inj h).symm⟩
  by_cases hless : s.protIeCount < s.parse.present
  · rw [if_neg hzero, if_pos hless] at h
    cases h
  rw [if_neg hzero, if_neg hless] at h
  cases hric : s.parse.ric with
  | none =>
    simp only [hric] at h
    by_cases hleft : s.protIeCount - s.parse.present = 0
    · rw [if_pos hleft] at h
      exact .inr (.inl ⟨rfl, by omega, (Option.some.inj h).symm⟩)
    · rw [if_neg hleft] at h
      cases h
  | some ric =>
    simp only [hric] at h
    by_cases hleft : s.protIeCount - s.parse.present = 0
    · rw [if_pos hleft] at h
      cases h
    rw [if_neg hleft] at h
    by_cases hend : (ricEnd buf buf.length ric (s.protIeCount - s.parse.present)).2 = 0
    · rw [if_pos hend] at h
      refine .inr (.inr ⟨ric, _, rfl, by omega, Prod.ext rfl hend, (Option.some.inj h).symm.trans ?_⟩)
      dsimp only
      rw [hric]
    · rw [if_neg hend] at h
      cases h

variable {s : FtScan} {p : FtPtrs}

theorem scan_firstRic (hscan : parseFtElems buf 0 buf.length {} = some s) :
    s.parse.ric = (elements buf 0 buf.length).find? fun e => octet buf e = eidRicData :=
  (scan_ric (Nat.le_refl _) hscan).trans (Option.none_or ..)

theorem covered_of_check (hscan : parseFtElems buf 0 buf.length {} = some s) (h : checkProtected buf s = some p) :
    Covered buf p := by
  have hcount := (scan_inv hscan).count
  have hric := scan_firstRic hscan
  intro hpos
  rcases checkProtected_cases h with ⟨hzero, rfl⟩ | ⟨hnone, heq, rfl⟩ | ⟨ric, stop, hsome, hlt, hrun, rfl⟩
  · omega
  · refine ⟨elements buf 0 buf.length, [], [], by simp, ?_, ?_, by rw [hnone]⟩
    · rw [← hcount, heq]
      rfl
    · rw [hnone] at hric
      intro e he
      simpa using List.find?_eq_none.1 hric.symm e he
  · rw [hsome] at hric
    obtain ⟨hid, before, after, hsplit, hbefore⟩ := List.find?_eq_some_iff_append.1 hric.symm
    obtain ⟨-, hrest⟩ := records_split hsplit
    have hmem : ric ∈ elements buf 0 buf.length := by
      rw [hsplit]
      exact List.mem_append_right _ List.mem_cons_self
    have hin := (mem_elements hmem).2
    obtain ⟨run, after', hsplit', hlen, hrange, hle, hstop⟩ := ricEnd_run (by omega) hrun
    have hlist : ric :: after = run ++ after' := hrest.symm.trans hsplit'
    refine ⟨before, run, after', by rw [hsplit, hlist, List.append_assoc], ?_, ?_, ?_⟩
    · change s.parse.count buf = s.parse.present + run.length
      rw [← hcount]
      omega
    · intro e he
      simpa using hbefore e he
    · simp only [hsome]
      refine ⟨by simpa using hid, ?_, by rw [Nat.add_sub_cancel' hle, hrange]⟩
      cases run with
      | nil =>
        rw [List.length_nil] at hlen
        omega
      | cons r run =>
        rw [List.cons_append] at hlist
        rw [List.head?_cons, (List.cons.inj hlist).1]

theorem check_same (h : checkProtected buf s = some p) : ∃ n, p = { s.parse with ricLen := n } := by
  rcases checkProtected_cases h with ⟨-, rfl⟩ | ⟨-, -, rfl⟩ | ⟨ric, stop, -, -, -, rfl⟩
  · exact ⟨_, rfl⟩
  · exact ⟨_, rfl⟩
  · exact ⟨_, rfl⟩

theorem lastOf_inside {id : UInt8} {t : Slice} (h : lastOf buf id = some t) : t.off + t.len ≤ buf.length := by
  obtain ⟨before, e, after, hsplit, he, -⟩ := latest_eq_some h
  have hmem : e ∈ elements buf 0 buf.length := by
    rw [hsplit]
    exact List.mem_append_right _ List.mem_cons_self
  split_ifs at he
  obtain rfl := Option.some.inj he
  exact (mem_elements hmem).2

theorem element_inside (hscan : parseFtElems buf 0 buf.length {} = some s) {id : UInt8} {t : Slice}
    (h : s.parse.element id = some t) : t.off + t.len ≤ buf.length := by
  by_cases hid : id ∈ [eidRsn, eidMobilityDomain, eidFastBssTransition, eidTimeoutInterval]
  · rw [scan_element hscan id hid] at h
    exact lastOf_inside h
  · simp only [List.mem_cons, List.not_mem_nil, or_false, not_or] at hid
    simp [FtPtrs.element, hid] at h

theorem ric_inside (hscan : parseFtElems buf 0 buf.length {} = some s) (h : checkProtected buf s = some p) {r : ℕ}
    (hr : p.ric = some r) : r + p.ricLen ≤ buf.length := by
  have hfind := scan_firstRic hscan
  have hzero := (scan_inv hscan).ricLen
  have hin : ∀ r, s.parse.ric = some r → r ≤ buf.length := by
    intro r hr
    rw [hfind] at hr
    have := (mem_elements (List.mem_of_find?_eq_some hr)).2
    omega
  rcases checkProtected_cases h with ⟨-, rfl⟩ | ⟨hnone, -, rfl⟩ | ⟨ric, stop, hsome, -, hrun, rfl⟩
  · have := hin r hr
    omega
  · rw [hnone] at hr
    cases hr
  obtain ⟨-, -, -, -, -, hle, hstop⟩ := ricEnd_run (hin ric hsome) hrun
  have hric : r = ric := Option.some.inj (hr.symm.trans hsome)
  change r + (stop - ric) ≤ buf.length
  omega

theorem parseElemsFrom_latest {pos left : ℕ} {elems elems' : Elems} (hend : pos + left = buf.length)
    (h : parseElemsFrom buf pos left elems = some elems') :
    elems'.rsnIe = (latest (fun e => if octet buf e = eidRsn then some (bodyAt buf e) else none)
        (elements buf pos buf.length)).or elems.rsnIe ∧
      elems'.mdie = (latest (fun e => if octet buf e = eidMobilityDomain then some (bodyAt buf e) else none)
        (elements buf pos buf.length)).or elems.mdie := by
  fun_induction parseElemsFrom buf pos left elems with
  | case1 pos left elems hleft hshort => cases h
  | case2 pos left elems hleft hlong ih =>
    obtain ⟨hrsn, hmdie⟩ := ih (by omega) h
    have hstep : (parseElem buf pos elems).rsnIe =
          (if octet buf pos = eidRsn then some (bodyAt buf pos) else none).or elems.rsnIe ∧
        (parseElem buf pos elems).mdie =
          (if octet buf pos = eidMobilityDomain then some (bodyAt buf pos) else none).or elems.mdie := by
      have hids : eidVendorSpecific ≠ eidRsn ∧ eidVendorSpecific ≠ eidMobilityDomain ∧
          eidRsn ≠ eidMobilityDomain := by decide
      simp only [parseElem]
      split_ifs <;> simp_all
    rw [elements_cons (by omega), latest, latest, Option.or_assoc, Option.or_assoc, ← hstep.1, ← hstep.2]
    exact ⟨hrsn, hmdie⟩
  | case3 pos elems hleft =>
    obtain rfl := Option.some.inj h
    rw [elements_nil (by omega)]
    exact ⟨rfl, rfl⟩
  | case4 pos left elems hleft hne => cases h

theorem parseElemsFrom_tspec {pos left : ℕ} {elems elems' : Elems} {t : Slice} (hend : pos + left = buf.length)
    (hin : ∀ t, elems.wmmTspec = some t → 2 ≤ t.off ∧ t.off + t.len ≤ buf.length)
    (h : parseElemsFrom buf pos left elems = some elems') (ht : elems'.wmmTspec = some t) :
    2 ≤ t.off ∧ t.off + t.len ≤ buf.length := by
  fun_induction parseElemsFrom buf pos left elems with
  | case1 pos left elems hleft hshort => cases h
  | case2 pos left elems hleft hlong ih =>
    refine ih (by omega) ?_ h
    intro u hu
    simp only [parseElem] at hu
    split_ifs at hu
    · obtain rfl := Option.some.inj hu
      simp only [bodyAt]
      omega
    · exact hin u hu
    · exact hin u hu
    · exact hin u hu
    · exact hin u hu
  | case3 pos elems hleft =>
    obtain rfl := Option.some.inj h
    exact hin t ht
  | case4 pos left elems hleft hne => cases h

theorem wmmTspec_inside {elems : Elems} {t : Slice} (h : ieee80211ParseElems buf = some elems)
    (ht : elems.wmmTspec = some t) : 2 ≤ t.off ∧ t.off + t.len ≤ buf.length :=
  parseElemsFrom_tspec (Nat.zero_add _) (fun _ hu => (by cases hu)) h ht

theorem agrees_of_check (hscan : parseFtElems buf 0 buf.length {} = some s) (h : checkProtected buf s = some p) :
    Agrees buf p := by
  intro elems helems
  obtain ⟨n, rfl⟩ := check_same h
  obtain ⟨hrsn, hmdie⟩ := parseElemsFrom_latest (Nat.zero_add _) helems
  have hrsn' := scan_element hscan eidRsn (by decide)
  have hmdie' := scan_element hscan eidMobilityDomain (by decide)
  rw [Option.or_none] at hrsn hmdie
  exact ⟨hrsn.trans hrsn'.symm, hmdie.trans hmdie'.symm⟩

theorem hasSubelem_iff {e : ℕ} {id : UInt8} : hasSubelem buf e id = true ↔
    (subelemIn buf (e + 2 + Ftie.len) (e + 2 + lengthAt buf e) id).isSome := by
  rw [hasSubelem, List.any_eq_true]
  constructor
  · rintro ⟨sub, hsub, hid⟩
    refine latest_of_mem hsub ?_
    rw [if_pos (by simpa using hid)]
    rfl
  · intro h
    obtain ⟨t, ht⟩ := Option.isSome_iff_exists.1 h
    obtain ⟨before, sub, after, hsplit, hsub, -⟩ := latest_eq_some ht
    split_ifs at hsub with hid
    exact ⟨sub, by rw [hsplit]; exact List.mem_append_right _ List.mem_cons_self, by simpa using hid⟩

theorem subelemIn_inside {e : ℕ} {id : UInt8} {t : Slice}
    (h : subelemIn buf (e + 2 + Ftie.len) (e + 2 + lengthAt buf e) id = some t) :
    e + 2 ≤ t.off ∧ t.off + t.len ≤ e + 2 + lengthAt buf e := by
  obtain ⟨before, sub, after, hsplit, hsub, -⟩ := latest_eq_some h
  have hmem : sub ∈ elements buf (e + 2 + Ftie.len) (e + 2 + lengthAt buf e) := by
    rw [hsplit]
    exact List.mem_append_right _ List.mem_cons_self
  obtain ⟨hle, hfin⟩ := mem_elements hmem
  split_ifs at hsub
  obtain rfl := Option.some.inj hsub
  simp only [bodyAt]
  exact ⟨by omega, hfin⟩

theorem lastFtie_split {l : ℕ} (h : (fties buf).getLast? = some l) :
    ∃ before after, elements buf 0 buf.length = before ++ l :: after ∧ octet buf l = eidFastBssTransition ∧
      ∀ a ∈ after, octet buf a ≠ eidFastBssTransition := by
  have hlatest := latest_filter (fun e => decide (octet buf e = eidFastBssTransition)) id (elements buf 0 buf.length)
  rw [← fties, h] at hlatest
  obtain ⟨before, r, after, hsplit, hr, hafter⟩ := latest_eq_some hlatest
  split_ifs at hr with hid
  obtain rfl := Option.some.inj hr
  refine ⟨before, after, hsplit, by simpa using hid, fun a ha heq => ?_⟩
  have hnone := hafter a ha
  rw [if_pos (by simpa using heq)] at hnone
  cases hnone

theorem scan_ftie (hscan : parseFtElems buf 0 buf.length {} = some s) :
    s.parse.ftie = (fties buf).getLast?.map (bodyAt buf) := by
  have hlast := scan_element hscan eidFastBssTransition (by decide)
  have hlatest := latest_filter (fun e => decide (octet buf e = eidFastBssTransition)) (bodyAt buf)
    (elements buf 0 buf.length)
  simp only [decide_eq_true_eq] at hlatest
  exact hlast.trans hlatest

theorem order_of_split {l e : ℕ} {before after before' after' : List ℕ}
    (hl : elements buf 0 buf.length = before ++ l :: after) (he : elements buf 0 buf.length = before' ++ e :: after')
    (hnot : e ∉ after) (hne : e ≠ l) : e + 2 + lengthAt buf e ≤ l := by
  have hmem : e ∈ before ++ l :: after := by
    rw [← hl, he]
    exact List.mem_append_right _ List.mem_cons_self
  rcases List.mem_append.1 hmem with hbefore | hrest
  · have hle := (records_split hl).1 e hbefore
    omega
  rcases List.mem_cons.1 hrest with heq | hafter
  · exact absurd heq hne
  · exact absurd hafter hnot

theorem subelem_inside_iff (hscan : parseFtElems buf 0 buf.length {} = some s) :
    (∀ id t, s.parse.subelem id = some t →
      ∃ f, s.parse.ftie = some f ∧ f.off ≤ t.off ∧ t.off + t.len ≤ f.off + f.len) ↔ LastComplete buf := by
  have hftie := scan_ftie hscan
  constructor
  · intro hin id hid e he hhas l hl
    obtain ⟨heid, hmem⟩ : octet buf e = eidFastBssTransition ∧ e ∈ elements buf 0 buf.length := by
      have := List.mem_filter.1 he
      exact ⟨by simpa using this.2, this.1⟩
    have hsome : (lastSubelem buf id).isSome := by
      refine latest_of_mem hmem ?_
      rw [if_pos heid]
      exact hasSubelem_iff.1 hhas
    obtain ⟨t, ht⟩ := Option.isSome_iff_exists.1 hsome
    obtain ⟨f, hf, hoff, hfin⟩ := hin id t ((scan_subelem hscan hid).trans ht)
    rw [hftie, hl] at hf
    obtain rfl := Option.some.inj hf
    obtain ⟨before', r, after', hsplit', hr, hafter'⟩ := latest_eq_some ht
    split_ifs at hr with hrid
    obtain ⟨hrin, hrfin⟩ := subelemIn_inside hr
    obtain ⟨before, after, hsplit, hlid, hafter⟩ := lastFtie_split hl
    by_cases heq : r = l
    · rw [← heq]
      exact hasSubelem_iff.2 (by rw [hr]; rfl)
    have horder := order_of_split hsplit hsplit' (fun hmem => hafter r hmem hrid) heq
    simp only [bodyAt] at hoff
    omega
  · intro hlast id t ht
    have hid : id ∈ [(1 : UInt8), 2, 3, 4] := by
      by_contra hid
      simp only [List.mem_cons, List.not_mem_nil, or_false, not_or] at hid
      simp [FtPtrs.subelem, hid] at ht
    rw [scan_subelem hscan hid] at ht
    obtain ⟨before', r, after', hsplit', hr, hafter'⟩ := latest_eq_some ht
    split_ifs at hr with hrid
    have hmem : r ∈ fties buf := by
      refine List.mem_filter.2 ⟨?_, by simpa using hrid⟩
      rw [hsplit']
      exact List.mem_append_right _ List.mem_cons_self
    obtain ⟨l, hl⟩ : ∃ l, (fties buf).getLast? = some l := by
      cases hlist : (fties buf).getLast? with
      | none =>
        rw [List.getLast?_eq_none_iff.1 hlist] at hmem
        cases hmem
      | some l => exact ⟨l, rfl⟩
    have hhas := hlast id hid r hmem (hasSubelem_iff.2 (by rw [hr]; rfl)) l hl
    obtain ⟨before, after, hsplit, hlid, hafter⟩ := lastFtie_split hl
    obtain ⟨hrin, hrfin⟩ := subelemIn_inside hr
    refine ⟨bodyAt buf l, by rw [hftie, hl]; rfl, ?_⟩
    -- the pointer is of the last FTIE that has one, and the last of all has one
    have heq : r = l := by
      by_contra hne
      have horder := order_of_split hsplit hsplit' (fun hmem => hafter r hmem hrid) hne
      have hnot : l ∉ after' := by
        intro hmem'
        have hnone := hafter' l hmem'
        rw [if_pos hlid] at hnone
        have hsome := hasSubelem_iff.1 hhas
        rw [hnone] at hsome
        cases hsome
      have hback := order_of_split hsplit' hsplit hnot (Ne.symm hne)
      omega
    rw [← heq]
    exact ⟨hrin, hrfin⟩

end Results

-- What is accepted is covered by the MIC and taken for the negotiation as it should be exactly when the
-- last FTIE has every kind of subelement that an FTIE has.
theorem wpaFtParseIes_pointers (buf : Octets) (p : FtPtrs) (h : wpaFtParseIes buf = some p) :
    (Inside buf p ∧ Covered buf p ∧ Agrees buf p) ↔ LastComplete buf := by
  obtain ⟨s, hscan, hcheck⟩ := Option.bind_eq_some_iff.1 h
  have hsub := subelem_inside_iff hscan
  obtain ⟨n, hp⟩ := check_same hcheck
  have hsubelem : p.subelem = s.parse.subelem := by rw [hp]; rfl
  have hftie : p.ftie = s.parse.ftie := by rw [hp]
  rw [← hsub, ← hsubelem, ← hftie]
  constructor
  · rintro ⟨hin, -, -⟩
    exact hin.subelem
  · intro hin
    refine ⟨⟨?_, ?_, fun r hr => ric_inside hscan hcheck hr, hin⟩, covered_of_check hscan hcheck,
      agrees_of_check hscan hcheck⟩
    · intro id t ht
      rw [hp] at ht
      exact element_inside hscan ht
    · rw [hp]
      exact (scan_inv hscan).pmkid

-- An FTIE with the identifier of the R1 key holder, which says that a RIC IE behind it is covered
def ftieAndRic : Octets :=
  [55, 90, 0, 2] ++ List.replicate 80 0 ++ [1, 6, 1, 2, 3, 4, 5, 6] ++ [57, 4, 1, 0, 0, 0]

def ftieAndRicPtrs : FtPtrs := { ftie := some ⟨2, 90⟩, r1khId := some 86, ric := some 92, ricLen := 6 }

theorem wpaFtParseIes_pointers_sample :
    Inside ftieAndRic ftieAndRicPtrs ∧ Covered ftieAndRic ftieAndRicPtrs ∧ Agrees ftieAndRic ftieAndRicPtrs := by
  refine (wpaFtParseIes_pointers _ _ (by decide +kernel)).2 ?_
  have hone : fties ftieAndRic = [0] := by decide +kernel
  intro id _ e he hhas l hl
  rw [hone] at he hl
  obtain rfl := List.mem_singleton.1 he
  obtain rfl : 0 = l := by simpa using hl
  exact hhas

-- Two FTIEs, the first of which has the identifier of an R1 key holder: it is taken as one of the second.
def twoFties : Octets :=
  [55, 90] ++ List.replicate 82 0 ++ [1, 6, 1, 2, 3, 4, 5, 6] ++ [55, 82] ++ List.replicate 82 0

theorem wpaFtParseIes_stale :
    wpaFtParseIes twoFties = some { ftie := some ⟨94, 82⟩, r1khId := some 86 } ∧
      ¬Inside twoFties { ftie := some ⟨94, 82⟩, r1khId := some 86 } := by
  refine ⟨by decide +kernel, fun hin => ?_⟩
  obtain ⟨f, hf, hoff, -⟩ := hin.subelem 1 ⟨86, r1khIdLen⟩ rfl
  obtain rfl := Option.some.inj hf
  exact absurd hoff (by decide)

end WpaSupplicant.Ap.Ft.Pointers

import WpaSupplicant.Lib.FirstMatch
import WpaSupplicant.P2p.Pointers
import WpaSupplicant.Wps.Pointers.Theorems

namespace WpaSupplicant.P2p.Pointers

open Lib.Octets Lib.Buffer Lib.Checked Lib.Records Lib.FirstMatch KeyData.Pointers Wps.Pointers

section Reads

variable {buf : Octets} {pos n : ℕ}

theorem returns_loadBE (h : pos + n ≤ buf.length) :
    Returns (loadBE buf pos n) fun v => v = ofBE (field buf pos n) :=
  (returns_load h).map fun _ hl => congrArg ofBE hl

theorem returns_octet (h : pos < buf.length) : Returns (loadBE buf pos 1) fun v => v = (octet buf pos).toNat :=
  ⟨_, loadBE_one h, rfl⟩

def attrLen (buf : Octets) (pos : ℕ) : ℕ := ofBE (field buf (pos + 1) 2).reverse

def attrSize (buf : Octets) (pos : ℕ) : ℕ := 3 + attrLen buf pos

theorem returns_attrLen (h : pos + 3 ≤ buf.length) :
    Returns (loadLE16 buf (pos + 1)) fun v => v = attrLen buf pos :=
  (returns_load (by omega)).map fun _ hl => congrArg (fun l => ofBE l.reverse) hl

end Reads

section Attributes

variable {buf : Octets} {msg : P2pMessage} {c d : Case} {pos len r : ℕ}

def attributes (buf : Octets) : List ℕ := records (attrSize buf) 0 buf.length

-- What an attribute is kept as by a case of the `switch`
def value (buf : Octets) (c : Case) (r : ℕ) : Option Slice :=
  if (octet buf r).toNat = c.id ∧ ¬ (c.nullIgnored = true ∧ attrLen buf r = 0) then
    some ⟨r + 3, c.stored (attrLen buf r)⟩
  else none

structure P2pInside (buf : Octets) (msg : P2pMessage) : Prop where
  attr : ∀ c ∈ p2pCases, ∀ s, msg.attr c.field = some s → s.off + max c.least s.len ≤ buf.length
  p2pDeviceAddr : ∀ p, msg.p2pDeviceAddr = some p → p + 6 ≤ buf.length
  priDevType : ∀ p, msg.priDevType = some p → p + 8 ≤ buf.length
  deviceName : msg.deviceName.length = 33

def P2pMessage.rest (msg : P2pMessage) : P2pMessage :=
  { msg with
    attr := fun _ => none
    p2pDeviceAddr := none
    priDevType := none
    numSecDevTypes := 0
    deviceName := []
    configMethods := 0 }

theorem p2pCases_distinct : Distinct Case.id Case.field p2pCases := by
  unfold Distinct
  decide

theorem p2pCases_field : ∀ c ∈ p2pCases, ∀ d ∈ p2pCases, c.field = d.field → c = d := by decide

theorem p2pCases_logged : ∀ c ∈ p2pCases, c.logged ≤ c.least := by decide

theorem p2pCases_deviceInfo : ∀ c ∈ p2pCases, c.id = attrDeviceInfo → c.least = 17 := by decide

theorem Case.stored_le (c : Case) (len : ℕ) : c.stored len ≤ len := Nat.mod_le _ _

theorem length_printable (n : ℕ) (name : Octets) : (printable n name).length = name.length := by
  induction n generalizing name with
  | zero => cases name <;> rfl
  | succ n ih =>
    cases name with
    | nil => rfl
    | cons a name =>
      rw [printable]
      split
      · rfl
      · rw [List.length_cons, List.length_cons, ih]

theorem returns_deviceInfo (hlen : 17 ≤ len) (hpos : pos + len ≤ buf.length) (hmsg : P2pInside buf msg) :
    Returns (deviceInfo buf msg pos len)
      (Good fun msg' => P2pInside buf msg' ∧ msg'.rest = msg.rest ∧ msg'.attr = msg.attr) := by
  refine (returns_loadBE (by omega)).bind fun methods _ => ?_
  refine (returns_octet (by omega)).bind fun num _ => ?_
  refine .ite (fun _ => .pure good_error) fun htypes => ?_
  refine .ite (fun _ => .pure good_error) fun hheader => ?_
  refine (returns_loadBE (by omega)).bind fun header _ => ?_
  refine .ite (fun _ => .pure good_error) fun _ => ?_
  refine (returns_loadBE (by omega)).bind fun nlen _ => ?_
  refine .ite (fun _ => .pure good_error) fun hnlen => ?_
  have hname : pos + 6 + 2 + 8 + 1 + num * 8 + 4 + nlen ≤ buf.length := by omega
  refine (returns_load hname).bind fun octets hoctets => ?_
  have hroom : 0 + (octets ++ [0]).length ≤ msg.deviceName.length := by
    rw [List.length_append, List.length_singleton, hoctets, length_field hname, hmsg.deviceName]
    omega
  refine (returns_store hroom).map fun name hlength => good_ok ⟨?_, rfl, rfl⟩
  constructor
  · exact hmsg.attr
  · intro p hp
    cases hp
    omega
  · intro p hp
    cases hp
    omega
  · exact (length_printable _ _).trans (hlength.trans hmsg.deviceName)

theorem returns_attribute (hlen : len = attrLen buf r) (hpos : r + 3 + len ≤ buf.length)
    (hmsg : P2pInside buf msg) :
    Returns (p2pParseAttribute buf msg (octet buf r).toNat (r + 3) len)
      (Good fun msg' => P2pInside buf msg' ∧ msg'.rest = msg.rest ∧
        ∀ c ∈ p2pCases, msg'.attr c.field = (value buf c r).or (msg.attr c.field)) := by
  unfold p2pParseAttribute
  cases hcase : p2pCases.find? (·.id = (octet buf r).toNat) with
  | none =>
    refine .pure (good_ok ⟨hmsg, rfl, ?_⟩)
    intro c hc
    rw [value, if_neg, Option.none_or]
    rintro ⟨hid, -⟩
    exact ne_of_find_none hc hcase hid
  | some d =>
    obtain ⟨hd, hid⟩ := find_key hcase
    have hother : ∀ c ∈ p2pCases, c.field ≠ d.field → value buf c r = none := by
      intro c hc hne
      rw [value, if_neg]
      rintro ⟨hc', -⟩
      exact hne ((p2pCases_distinct c hc d hd).1 (hc'.symm.trans hid.symm))
    dsimp only
    by_cases hnull : d.nullIgnored = true ∧ len = 0
    · rw [if_pos hnull]
      refine .pure (good_ok ⟨hmsg, rfl, ?_⟩)
      intro c hc
      by_cases heq : c.field = d.field
      · have hsame : c.nullIgnored = true ∧ attrLen buf r = 0 := by
          rw [p2pCases_field c hc d hd heq, ← hlen]
          exact hnull
        rw [value, if_neg fun h => h.2 hsame, Option.none_or]
      · rw [hother c hc heq, Option.none_or]
    · rw [if_neg hnull]
      by_cases hbounds : len < d.least ∨ d.most < len
      · rw [if_pos hbounds]
        exact .pure good_error
      have hlogged := p2pCases_logged d hd
      have hstored := d.stored_le len
      have hread : max d.logged (if d.dumped = true then d.stored len else 0) ≤ len := by
        split <;> omega
      have hattr : ∀ c ∈ p2pCases, Function.update msg.attr d.field (some ⟨r + 3, d.stored len⟩) c.field =
          (value buf c r).or (msg.attr c.field) := by
        intro c hc
        by_cases heq : c.field = d.field
        · rw [heq, Function.update_self, p2pCases_field c hc d hd heq, value, if_pos ⟨hid.symm, by rwa [← hlen]⟩,
            Option.some_or, hlen]
        · rw [Function.update_of_ne heq, hother c hc heq, Option.none_or]
      have hinside : P2pInside buf
          { msg with attr := Function.update msg.attr d.field (some ⟨r + 3, d.stored len⟩) } := by
        refine { hmsg with attr := ?_ }
        intro c hc s hs
        by_cases heq : c.field = d.field
        · dsimp only at hs
          rw [heq, Function.update_self] at hs
          cases hs
          rw [p2pCases_field c hc d hd heq]
          dsimp only
          omega
        · dsimp only at hs
          rw [Function.update_of_ne heq] at hs
          exact hmsg.attr c hc s hs
      rw [if_neg hbounds]
      refine (returns_load (by omega)).bind fun _ _ => ?_
      split
      · rename_i hinfo
        have hleast := p2pCases_deviceInfo d hd (hid.trans hinfo)
        refine (returns_deviceInfo (by omega) hpos hinside).mono fun res hres msg' hmsg' => ?_
        obtain ⟨hin, hrest, hsame⟩ := hres msg' hmsg'
        refine ⟨hin, hrest, ?_⟩
        rw [hsame]
        exact hattr
      · exact .pure (good_ok ⟨hinside, rfl, hattr⟩)

-- The loop: what an attribute is kept as is what the last one of its type says.
theorem returns_parseP2pFrom (hpos : pos ≤ buf.length) (hmsg : P2pInside buf msg) :
    Returns (parseP2pFrom buf pos msg)
      (Good fun msg' => P2pInside buf msg' ∧ msg'.rest = msg.rest ∧
        ∀ c ∈ p2pCases, msg'.attr c.field =
          (latest (value buf c) (records (attrSize buf) pos buf.length)).or (msg.attr c.field)) := by
  induction hn : buf.length - pos using Nat.strong_induction_on generalizing pos msg with
  | _ n ih =>
    rw [parseP2pFrom]
    by_cases hend : pos < buf.length
    · rw [if_pos hend]
      by_cases hshort : buf.length ≤ pos + 2
      · rw [if_pos hshort]
        exact .pure good_error
      rw [if_neg hshort]
      refine (returns_attrLen (by omega)).bind fun len hlen => ?_
      by_cases hover : buf.length < pos + 3 + len
      · rw [if_pos hover]
        exact .pure good_error
      rw [if_neg hover]
      refine (returns_octet hend).bind fun id hid => ?_
      rw [hid]
      refine (returns_attribute hlen (by omega) hmsg).bind fun res hres => ?_
      cases res with
      | error ret => exact .pure good_error
      | ok next =>
        obtain ⟨hin, hrest, hattr⟩ := hres next rfl
        have hsize : attrSize buf pos = 3 + len := by rw [attrSize, hlen]
        refine (ih _ (by omega) (by omega) hin rfl).mono fun res hres msg' hmsg' => ?_
        obtain ⟨hin', hrest', hattr'⟩ := hres msg' hmsg'
        refine ⟨hin', hrest'.trans hrest, ?_⟩
        intro c hc
        rw [records_cons (by omega) (by omega), hsize, ← Nat.add_assoc, latest, Option.or_assoc, hattr' c hc,
          hattr c hc]
    · have hnone : records (attrSize buf) pos buf.length = [] := records_nil (by rw [attrSize]; omega)
      rw [if_neg hend, hnone]
      exact .pure (good_ok ⟨hmsg, rfl, fun c _ => rfl⟩)

end Attributes

section WpsAttributes

variable {buf : Octets} {msg : P2pMessage} {s : Option Slice}

structure WpsInside (buf : Octets) (msg : P2pMessage) : Prop where
  wpsPriDevType : ∀ p, msg.wpsPriDevType = some p → p + 8 ≤ buf.length
  wpsSecDevTypeList : ∀ s, msg.wpsSecDevTypeList = some s → s.off + s.len ≤ buf.length ∧ s.len ≤ secDevTypeMaxLen
  wpsVendorExt : ∀ s ∈ msg.wpsVendorExt, s.off + s.len ≤ buf.length
  manufacturer : ∀ s, msg.manufacturer = some s → s.off + s.len ≤ buf.length
  modelName : ∀ s, msg.modelName = some s → s.off + s.len ≤ buf.length
  modelNumber : ∀ s, msg.modelNumber = some s → s.off + s.len ≤ buf.length
  serialNumber : ∀ s, msg.serialNumber = some s → s.off + s.len ≤ buf.length

def P2pMessage.notWps (msg : P2pMessage) : P2pMessage :=
  { msg with
    deviceName := []
    devPasswordId := 0
    wpsConfigMethods := 0
    wpsPriDevType := none
    wpsSecDevTypeList := none
    wpsVendorExt := []
    manufacturer := none
    modelName := none
    modelNumber := none
    serialNumber := none }

theorem returns_be16Or {default : ℕ} (h : ∀ t, s = some t → t.off + 2 ≤ buf.length) :
    Returns (be16Or buf s default) fun _ => True := by
  cases s with
  | none => exact .pure trivial
  | some t => exact (returns_loadBE (h t rfl)).mono fun _ _ => trivial

theorem returns_wpsDeviceName {name : Octets} (h : ∀ t, s = some t → t.off + t.len ≤ buf.length) :
    Returns (wpsDeviceName buf s name) fun name' => name'.length = name.length := by
  cases s with
  | none => exact .pure rfl
  | some t =>
    rw [wpsDeviceName]
    split
    · rename_i hroom
      refine (returns_load (h t rfl)).bind fun octets hoctets => returns_store ?_
      rw [hoctets, length_field (h t rfl)]
      omega
    · exact .pure rfl

theorem returns_wps (hname : msg.deviceName.length = 33) (hpri : msg.wpsPriDevType = none)
    (hsec : msg.wpsSecDevTypeList = none) :
    Returns (p2pParseWpsIe buf msg)
      (Good fun msg' => WpsInside buf msg' ∧ msg'.notWps = msg.notWps ∧ msg'.deviceName.length = 33) := by
  have hparse : Returns (wpsParseMsg buf) (Good fun attr => attr.Inside buf) :=
    ⟨_, wpsParseMsg_eq buf, fun attr hattr =>
      parseFrom_inside inside_empty ((wpsParseMsg_eq buf).trans (congrArg some hattr))⟩
  refine hparse.bind fun res hres => ?_
  cases res with
  | error ret => exact .pure good_error
  | ok attr =>
    have hin := hres attr rfl
    refine (returns_wpsDeviceName fun t ht => hin.single _ t ht).bind fun name hlength => ?_
    refine (returns_be16Or fun t ht => hin.fixed _ t 2 ht rfl).bind fun methods _ => ?_
    refine (returns_be16Or fun t ht => hin.fixed _ t 2 ht rfl).map fun id _ => good_ok ⟨?_, rfl, hlength.trans hname⟩
    constructor
    · intro p hp
      dsimp only at hp
      rw [hpri, Option.or_none] at hp
      obtain ⟨t, ht, rfl⟩ := Option.map_eq_some_iff.1 hp
      exact hin.fixed _ t 8 ht rfl
    · intro t ht
      dsimp only at ht
      rw [hsec, Option.or_none] at ht
      exact ⟨hin.single _ t ht, hin.secDevTypeList t ht⟩
    · exact fun t ht => (hin.vendorExt.2 t ht).1
    · exact fun t ht => hin.single _ t ht
    · exact fun t ht => hin.single _ t ht
    · exact fun t ht => hin.single _ t ht
    · exact fun t ht => hin.single _ t ht

end WpsAttributes

section Elements

variable {ies : Octets} {ouiType pos : ℕ}

def elemSize (ies : Octets) (pos : ℕ) : ℕ := 2 + lengthAt ies pos

def elements (ies : Octets) : List ℕ := records (elemSize ies) 0 ies.length

def isVendor (ies : Octets) (ouiType r : ℕ) : Bool :=
  (octet ies r).toNat = 221 && 4 ≤ lengthAt ies r && ofBE (field ies (r + 2) 4) = ouiType

def vendorData (ies : Octets) (r : ℕ) : Octets := field ies (r + 6) (lengthAt ies r - 4)

def vendorOctets (ies : Octets) (ouiType : ℕ) : Octets :=
  ((elements ies).filter (isVendor ies ouiType)).flatMap (vendorData ies)

def vendorBuffer (ies : Octets) (ouiType : ℕ) : Option Octets :=
  if (elements ies).filter (isVendor ies ouiType) = [] then none else some (vendorOctets ies ouiType)

theorem returns_isVendorIe (ies : Octets) (ouiType pos : ℕ) (hpos : pos + elemSize ies pos ≤ ies.length) :
    Returns (isVendorIe ies ouiType pos (octet ies pos).toNat (lengthAt ies pos)) fun found =>
      found = isVendor ies ouiType pos := by
  rw [elemSize] at hpos
  unfold isVendorIe isVendor
  by_cases h : (octet ies pos).toNat = 221 ∧ 4 ≤ lengthAt ies pos
  · rw [if_pos h, decide_eq_true h.1, decide_eq_true h.2]
    refine (returns_loadBE (by omega)).map fun v hv => ?_
    rw [hv]
    rfl
  rw [if_neg h]
  refine .pure ?_
  by_cases hid : (octet ies pos).toNat = 221
  · rw [decide_eq_false fun hlen => h ⟨hid, hlen⟩, Bool.and_false, Bool.false_and]
  · rw [decide_eq_false hid, Bool.false_and, Bool.false_and]

theorem returns_findVendorIe (hpos : pos ≤ ies.length) :
    Returns (findVendorIe ies ouiType pos) fun ie =>
      (ie = none → (records (elemSize ies) pos ies.length).filter (isVendor ies ouiType) = []) ∧
        ∀ r, ie = some r → r ≤ ies.length ∧
          (records (elemSize ies) pos ies.length).filter (isVendor ies ouiType) ≠ [] ∧
          (records (elemSize ies) r ies.length).filter (isVendor ies ouiType) =
            (records (elemSize ies) pos ies.length).filter (isVendor ies ouiType) := by
  induction hn : ies.length - pos using Nat.strong_induction_on generalizing pos with
  | _ n ih =>
    rw [findVendorIe]
    by_cases hend : pos + 1 < ies.length
    · rw [if_pos hend]
      refine (returns_octet hend).bind fun elen helen => ?_
      have hsize : elemSize ies pos = 2 + elen := congrArg (2 + ·) helen.symm
      by_cases hover : ies.length < pos + 2 + elen
      · rw [if_pos hover, records_nil (by omega)]
        exact .pure ⟨fun _ => rfl, fun r hr => by cases hr⟩
      rw [if_neg hover]
      refine (returns_octet (by omega)).bind fun id hid => ?_
      have hvendor := returns_isVendorIe ies ouiType pos (by omega)
      have hlen : lengthAt ies pos = elen := helen.symm
      rw [← hid, hlen] at hvendor
      refine hvendor.bind fun found hfound => ?_
      have hrecords : records (elemSize ies) pos ies.length =
          pos :: records (elemSize ies) (pos + 2 + elen) ies.length := by
        rw [records_cons (by omega) (by omega), hsize, Nat.add_assoc]
      rw [hrecords]
      cases found with
      | true =>
        rw [List.filter_cons_of_pos hfound.symm]
        refine .pure ⟨fun h => absurd h (Option.some_ne_none _), fun r hr => ?_⟩
        cases hr
        refine ⟨hpos, List.cons_ne_nil _ _, ?_⟩
        rw [hrecords, List.filter_cons_of_pos hfound.symm]
      | false =>
        rw [List.filter_cons_of_neg (by rw [← hfound]; exact Bool.false_ne_true)]
        exact ih _ (by omega) (by omega) rfl
    · have hnone : records (elemSize ies) pos ies.length = [] := records_nil (by rw [elemSize]; omega)
      rw [if_neg hend, hnone]
      exact .pure ⟨fun _ => rfl, fun r hr => by cases hr⟩

theorem returns_concatVendorIes {buf : Octets} (hpos : pos ≤ ies.length) :
    Returns (concatVendorIes ies ouiType pos buf) fun buf' =>
      buf' = buf ++
        ((records (elemSize ies) pos ies.length).filter (isVendor ies ouiType)).flatMap (vendorData ies) := by
  induction hn : ies.length - pos using Nat.strong_induction_on generalizing pos buf with
  | _ n ih =>
    rw [concatVendorIes]
    by_cases hend : pos + 1 < ies.length
    · rw [if_pos hend]
      refine (returns_octet hend).bind fun elen helen => ?_
      have hsize : elemSize ies pos = 2 + elen := congrArg (2 + ·) helen.symm
      by_cases hover : ies.length < pos + 2 + elen
      · rw [if_pos hover, records_nil (by omega)]
        exact .pure (List.append_nil buf).symm
      rw [if_neg hover]
      refine (returns_octet (by omega)).bind fun id hid => ?_
      have hvendor := returns_isVendorIe ies ouiType pos (by omega)
      have hlen : lengthAt ies pos = elen := helen.symm
      rw [← hid, hlen] at hvendor
      refine hvendor.bind fun found hfound => ?_
      rw [records_cons (by omega) (by omega), hsize, ← Nat.add_assoc]
      cases found with
      | true =>
        have hlong : 4 ≤ lengthAt ies pos := by
          rw [isVendor, eq_comm, Bool.and_eq_true, Bool.and_eq_true] at hfound
          exact of_decide_eq_true hfound.1.2
        rw [if_pos rfl, List.filter_cons_of_pos hfound.symm, List.flatMap_cons, ← List.append_assoc]
        refine (returns_load (by omega)).bind fun octets hoctets => ?_
        have hdata : octets = vendorData ies pos := by rw [hoctets, vendorData, hlen]
        rw [hdata]
        exact ih _ (by omega) (by omega) rfl
      | false =>
        rw [if_neg Bool.false_ne_true, List.filter_cons_of_neg (by rw [← hfound]; exact Bool.false_ne_true)]
        exact ih _ (by omega) (by omega) rfl
    · have hnone : records (elemSize ies) pos ies.length = [] := records_nil (by rw [elemSize]; omega)
      rw [if_neg hend, hnone]
      exact .pure (List.append_nil buf).symm

theorem returns_vendorIeConcat : Returns (vendorIeConcat ies ouiType) fun b => b = vendorBuffer ies ouiType := by
  refine (returns_findVendorIe (Nat.zero_le _)).bind fun ie hie => ?_
  obtain ⟨hnone, hsome⟩ := hie
  cases ie with
  | none => exact .pure (if_pos (hnone rfl)).symm
  | some r =>
    obtain ⟨hr, hne, hsame⟩ := hsome r rfl
    refine (returns_concatVendorIes hr).map fun buf hbuf => ?_
    rw [hbuf, hsame, List.nil_append]
    exact (if_neg hne).symm

def ssidElem (ies : Octets) (r : ℕ) : Option Slice :=
  if (octet ies r).toNat = 0 then some ⟨r + 2, lengthAt ies r⟩ else none

theorem returns_parseElems (elems : Elems) (hpos : pos ≤ ies.length)
    (hds : ∀ s, elems.dsParams = some s → s.off + s.len ≤ ies.length) :
    Returns (parseElems ies pos elems) fun elems' =>
      elems'.ssid = (latest (ssidElem ies) (records (elemSize ies) pos ies.length)).or elems.ssid ∧
        ∀ s, elems'.dsParams = some s → s.off + s.len ≤ ies.length := by
  induction hn : ies.length - pos using Nat.strong_induction_on generalizing pos elems with
  | _ n ih =>
    rw [parseElems]
    by_cases hend : pos + 2 ≤ ies.length
    · rw [if_pos hend]
      refine (returns_octet (by omega)).bind fun id hid => ?_
      refine (returns_octet (by omega)).bind fun elen helen => ?_
      have hsize : elemSize ies pos = 2 + elen := congrArg (2 + ·) helen.symm
      by_cases hover : ies.length < pos + 2 + elen
      · rw [if_pos hover, records_nil (by omega)]
        exact .pure ⟨rfl, hds⟩
      have hrecords : records (elemSize ies) pos ies.length =
          pos :: records (elemSize ies) (pos + 2 + elen) ies.length := by
        rw [records_cons (by omega) (by omega), hsize, Nat.add_assoc]
      rw [if_neg hover, hrecords, latest, Option.or_assoc]
      split
      · rename_i hssid
        have helem : ssidElem ies pos = some ⟨pos + 2, elen⟩ := by
          rw [ssidElem, if_pos (hid.symm.trans hssid), lengthAt, ← helen]
        rw [helem, Option.some_or]
        exact ih _ (by omega) _ (by omega) hds rfl
      · rename_i hssid
        have helem : ssidElem ies pos = none := if_neg fun h => hssid (hid.trans h)
        rw [helem, Option.none_or]
        split
        · refine ih _ (by omega) _ (by omega) ?_ rfl
          intro s hs
          cases hs
          dsimp only
          omega
        · exact ih _ (by omega) _ (by omega) hds rfl
    · have hnone : records (elemSize ies) pos ies.length = [] := records_nil (by rw [elemSize]; omega)
      rw [if_neg hend, hnone]
      exact .pure ⟨rfl, hds⟩

end Elements

section Message

variable {ies buf : Octets} {msg msg' : P2pMessage}

structure WpsParsed (ies : Octets) (msg : P2pMessage) : Prop where
  attr : ∀ f, msg.attr f = none
  p2pDeviceAddr : msg.p2pDeviceAddr = none
  priDevType : msg.priDevType = none
  deviceName : msg.deviceName.length = 33
  wpsAttributes : msg.wpsAttributes = vendorBuffer ies wpsDevOuiWfa
  wps : WpsInside (msg.wpsAttributes.getD []) msg
  ssid : msg.ssid = (latest (ssidElem ies) (elements ies)).map (·.off - 2)
  dsParams : ∀ p, msg.dsParams = some p → p + 1 ≤ ies.length

structure Parsed (ies : Octets) (msg : P2pMessage) : Prop where
  p2pAttributes : msg.p2pAttributes = vendorBuffer ies p2pIeVendorType
  p2p : P2pInside (msg.p2pAttributes.getD []) msg
  attr : ∀ c ∈ p2pCases, msg.attr c.field =
    latest (value (msg.p2pAttributes.getD []) c) (attributes (msg.p2pAttributes.getD []))
  wpsAttributes : msg.wpsAttributes = vendorBuffer ies wpsDevOuiWfa
  wps : WpsInside (msg.wpsAttributes.getD []) msg
  ssid : msg.ssid = (latest (ssidElem ies) (elements ies)).map (·.off - 2)
  dsParams : ∀ p, msg.dsParams = some p → p + 1 ≤ ies.length

abbrev fresh (dialogToken : UInt8) : P2pMessage := { dialogToken := dialogToken }

theorem WpsInside.of_rest (h : WpsInside buf msg) (hrest : msg'.rest = msg.rest) : WpsInside buf msg' where
  wpsPriDevType p hp := h.wpsPriDevType p ((congrArg P2pMessage.wpsPriDevType hrest).symm.trans hp)
  wpsSecDevTypeList s hs := h.wpsSecDevTypeList s ((congrArg P2pMessage.wpsSecDevTypeList hrest).symm.trans hs)
  wpsVendorExt s hs := by
    have heq := congrArg P2pMessage.wpsVendorExt hrest
    change msg'.wpsVendorExt = msg.wpsVendorExt at heq
    rw [heq] at hs
    exact h.wpsVendorExt s hs
  manufacturer s hs := h.manufacturer s ((congrArg P2pMessage.manufacturer hrest).symm.trans hs)
  modelName s hs := h.modelName s ((congrArg P2pMessage.modelName hrest).symm.trans hs)
  modelNumber s hs := h.modelNumber s ((congrArg P2pMessage.modelNumber hrest).symm.trans hs)
  serialNumber s hs := h.serialNumber s ((congrArg P2pMessage.serialNumber hrest).symm.trans hs)

theorem wpsInside_fresh (hnone : msg.wpsPriDevType = none ∧ msg.wpsSecDevTypeList = none ∧ msg.wpsVendorExt = [] ∧
    msg.manufacturer = none ∧ msg.modelName = none ∧ msg.modelNumber = none ∧ msg.serialNumber = none) :
    WpsInside buf msg := by
  obtain ⟨h₁, h₂, h₃, h₄, h₅, h₆, h₇⟩ := hnone
  constructor
  · rw [h₁]
    exact fun p hp => by cases hp
  · rw [h₂]
    exact fun s hs => by cases hs
  · rw [h₃]
    exact fun s hs => by cases hs
  · rw [h₄]
    exact fun s hs => by cases hs
  · rw [h₅]
    exact fun s hs => by cases hs
  · rw [h₆]
    exact fun s hs => by cases hs
  · rw [h₇]
    exact fun s hs => by cases hs

theorem returns_wpsKind {token : UInt8} {dsParams ssid : Option ℕ}
    (hssid : ssid = (latest (ssidElem ies) (elements ies)).map (·.off - 2))
    (hds : ∀ p, dsParams = some p → p + 1 ≤ ies.length) :
    Returns
      (parseKind p2pParseWpsIe (vendorBuffer ies wpsDevOuiWfa)
        { fresh token with dsParams, ssid, wpsAttributes := vendorBuffer ies wpsDevOuiWfa })
      (Good (WpsParsed ies)) := by
  cases hbuf : vendorBuffer ies wpsDevOuiWfa with
  | none =>
    refine .pure (good_ok ?_)
    exact ⟨fun _ => rfl, rfl, rfl, rfl, hbuf.symm, wpsInside_fresh ⟨rfl, rfl, rfl, rfl, rfl, rfl, rfl⟩, hssid, hds⟩
  | some buf =>
    refine (returns_wps rfl rfl rfl).mono fun res hres msg hmsg => ?_
    obtain ⟨hin, hrest, hname⟩ := hres msg hmsg
    have hattributes : msg.wpsAttributes = some buf := congrArg P2pMessage.wpsAttributes hrest
    have hattr : msg.attr = fun _ => none := congrArg P2pMessage.attr hrest
    refine
      { attr := fun f => congrFun hattr f
        p2pDeviceAddr := congrArg P2pMessage.p2pDeviceAddr hrest
        priDevType := congrArg P2pMessage.priDevType hrest
        deviceName := hname
        wpsAttributes := hattributes.trans hbuf.symm
        wps := ?_
        ssid := (congrArg P2pMessage.ssid hrest).trans hssid
        dsParams := fun p hp => hds p ((congrArg P2pMessage.dsParams hrest).symm.trans hp) }
    rw [hattributes]
    exact hin

theorem returns_p2pKind (hmsg : WpsParsed ies msg)
    (hattributes : msg.p2pAttributes = vendorBuffer ies p2pIeVendorType) :
    Returns (parseKind p2pParseP2pIe msg.p2pAttributes msg) (Good (Parsed ies)) := by
  have hinside : ∀ buf, P2pInside buf msg := by
    intro buf
    refine ⟨fun c _ s hs => ?_, fun p hp => ?_, fun p hp => ?_, hmsg.deviceName⟩
    · rw [hmsg.attr] at hs
      cases hs
    · rw [hmsg.p2pDeviceAddr] at hp
      cases hp
    · rw [hmsg.priDevType] at hp
      cases hp
  cases hbuf : msg.p2pAttributes with
  | none =>
    refine .pure (good_ok ?_)
    have hempty : attributes (msg.p2pAttributes.getD []) = [] := by
      rw [hbuf]
      exact records_nil (by rw [attrSize, Option.getD_none, List.length_nil]; omega)
    refine ⟨hattributes, hinside _, fun c _ => ?_, hmsg.wpsAttributes, hmsg.wps, hmsg.ssid, hmsg.dsParams⟩
    rw [hmsg.attr, hempty]
    rfl
  | some buf =>
    refine (returns_parseP2pFrom (Nat.zero_le _) (hinside buf)).mono fun res hres msg' hmsg' => ?_
    obtain ⟨hin, hrest, hattr⟩ := hres msg' hmsg'
    have hp2p : msg'.p2pAttributes = some buf := (congrArg P2pMessage.p2pAttributes hrest).trans hbuf
    have hwps := congrArg P2pMessage.wpsAttributes hrest
    change msg'.wpsAttributes = msg.wpsAttributes at hwps
    refine
      { p2pAttributes := hp2p.trans (hbuf.symm.trans hattributes)
        p2p := ?_
        attr := ?_
        wpsAttributes := hwps.trans hmsg.wpsAttributes
        wps := ?_
        ssid := (congrArg P2pMessage.ssid hrest).trans hmsg.ssid
        dsParams := fun p hp => hmsg.dsParams p ((congrArg P2pMessage.dsParams hrest).symm.trans hp) }
    · rw [hp2p]
      exact hin
    · intro c hc
      rw [hp2p, hattr c hc, hmsg.attr, Option.or_none]
      rfl
    · rw [hwps]
      exact hmsg.wps.of_rest hrest

theorem returns_p2pParseIes (token : UInt8) : Returns (p2pParseIes ies (fresh token)) (Good (Parsed ies)) := by
  refine (returns_parseElems {} (Nat.zero_le _) fun s hs => by cases hs).bind fun elems helems => ?_
  obtain ⟨hssid, hds⟩ := helems
  rw [Option.or_none] at hssid
  refine (returns_vendorIeConcat).bind fun wpsAttributes hwps => ?_
  rw [hwps]
  refine (returns_wpsKind ?_ ?_).bind fun res hres => ?_
  · rw [Option.or_none, hssid]
    rfl
  · intro p hp
    rw [Option.or_none] at hp
    obtain ⟨s, hs, rfl⟩ := Option.map_eq_some_iff.1 hp
    obtain ⟨hs, hlen⟩ := Option.filter_eq_some_iff.1 hs
    have hin := hds s hs
    have hone : 1 ≤ s.len := of_decide_eq_true hlen
    omega
  · cases res with
    | error ret => exact .pure good_error
    | ok msg =>
      have hmsg := hres msg rfl
      refine (returns_vendorIeConcat).bind fun p2pAttributes hp2p => ?_
      rw [hp2p]
      have hnext : WpsParsed ies { msg with p2pAttributes := vendorBuffer ies p2pIeVendorType } :=
        { hmsg with wps := { hmsg.wps with } }
      exact returns_p2pKind hnext rfl

theorem returns_p2pParse (data : Octets) : Returns (p2pParse data) (Good (Parsed data.tail)) := by
  cases data with
  | nil => exact .pure good_error
  | cons token ies => exact returns_p2pParseIes token

end Message

section GroupInfo

variable {buf : Octets} {g gend cend : ℕ} {cli : P2pClientInfo}

def descSize (buf : Octets) (g : ℕ) : ℕ := 1 + (octet buf g).toNat

structure Describes (cend g : ℕ) (cli : P2pClientInfo) : Prop where
  p2pDeviceAddr : cli.p2pDeviceAddr = g + 1 ∧ cli.p2pDeviceAddr + 6 ≤ cend
  p2pInterfaceAddr : cli.p2pInterfaceAddr = g + 7 ∧ cli.p2pInterfaceAddr + 6 ≤ cend
  priDevType : cli.priDevType + 8 ≤ cend
  secDevTypes : cli.secDevTypes + 8 * cli.numSecDevTypes ≤ cend
  devName : cli.devName.off + cli.devName.len ≤ cend ∧ cli.devName.len ≤ 32

theorem returns_clientInfo (hcend : cend ≤ buf.length) (hshort : ¬ (cend = g + 13 ∧ cend = buf.length)) :
    Returns (clientInfo buf g cend) (Good (Describes cend g)) := by
  refine .ite (fun _ => .pure good_error) fun haddr => ?_
  refine (returns_loadBE (by omega)).bind fun devCapab _ => ?_
  refine .ite (fun _ => .pure good_error) fun hfixed => ?_
  refine (returns_loadBE (by omega)).bind fun methods _ => ?_
  refine (returns_loadBE (by omega)).bind fun num _ => ?_
  refine .ite (fun _ => .pure good_error) fun htypes => ?_
  refine .ite (fun _ => .pure good_error) fun hname => ?_
  refine (returns_loadBE (by omega)).bind fun header _ => ?_
  refine .ite (fun _ => .pure good_error) fun _ => ?_
  refine (returns_loadBE (by omega)).bind fun count _ => ?_
  refine .ite (fun _ => .pure good_error) fun hcount => .pure (good_ok ?_)
  constructor
  · dsimp only
    omega
  · dsimp only
    omega
  · dsimp only
    omega
  · dsimp only
    omega
  · dsimp only
    omega

theorem clientInfo_ok (hcend : cend ≤ buf.length) (h : clientInfo buf g cend = some (.ok cli)) :
    Describes cend g cli := by
  by_cases hshort : cend = g + 13 ∧ cend = buf.length
  · rw [clientInfo, if_neg (by omega)] at h
    obtain ⟨devCapab, -, h⟩ := Option.bind_eq_some_iff.mp h
    rw [if_pos (by omega)] at h
    cases h
  · obtain ⟨r, hr, hgood⟩ := returns_clientInfo hcend hshort
    rw [h] at hr
    cases hr
    exact hgood cli rfl

def descriptors (buf : Octets) (g gend : ℕ) : List ℕ := records (descSize buf) g gend

theorem descriptors_cons {len : ℕ} (hlen : len = (octet buf g).toNat) (hover : ¬ gend < g + 1 + len) :
    descriptors buf g gend = g :: descriptors buf (g + 1 + len) gend := by
  have hsize : descSize buf g = 1 + len := congrArg (1 + ·) hlen.symm
  rw [descriptors, records_cons (by omega) (by omega), hsize, ← Nat.add_assoc]
  rfl

theorem returns_groupInfoFrom (hgend : gend ≤ buf.length)
    (hshort : ∀ r ∈ descriptors buf g gend, ¬ ((octet buf r).toNat = 12 ∧ r + 13 = buf.length))
    (client : List P2pClientInfo) : Returns (groupInfoFrom buf g gend client) fun _ => True := by
  induction hn : gend - g using Nat.strong_induction_on generalizing g client with
  | _ n ih =>
    rw [groupInfoFrom]
    refine .ite (fun hend => ?_) fun _ => .pure trivial
    refine (returns_octet (by omega)).bind fun len hlen => ?_
    refine .ite (fun _ => .pure trivial) fun hover => ?_
    rw [descriptors_cons hlen hover] at hshort
    obtain ⟨hhere, hrest⟩ := List.forall_mem_cons.1 hshort
    refine (returns_clientInfo (by omega) ?_).bind fun res _ => ?_
    · rintro ⟨htwelve, hlast⟩
      exact hhere ⟨by omega, by omega⟩
    · cases res with
      | error ret => exact .pure trivial
      | ok cli => exact .ite (fun _ => .pure trivial) fun _ => ih _ (by omega) hrest _ rfl

theorem groupInfoFrom_ok (hgend : gend ≤ buf.length) (client : List P2pClientInfo) {client' : List P2pClientInfo}
    (h : groupInfoFrom buf g gend client = some (.ok client')) :
    ∃ more, client' = client ++ more ∧
      List.Forall₂ (fun r cli => Describes (r + descSize buf r) r cli) (descriptors buf g gend) more := by
  induction hn : gend - g using Nat.strong_induction_on generalizing g client with
  | _ n ih =>
    rw [groupInfoFrom] at h
    by_cases hend : g < gend
    · rw [if_pos hend] at h
      obtain ⟨len, hload, h⟩ := Option.bind_eq_some_iff.mp h
      rw [loadBE_one (by omega)] at hload
      have hlen : len = (octet buf g).toNat := (Option.some.inj hload).symm
      by_cases hover : gend < g + 1 + len
      · rw [if_pos hover] at h
        cases h
      rw [if_neg hover] at h
      obtain ⟨res, hinfo, h⟩ := Option.bind_eq_some_iff.mp h
      cases res with
      | error ret => cases h
      | ok cli =>
        dsimp only at h
        by_cases hfull : client.length + 1 = maxGroupEntries
        · rw [if_pos hfull] at h
          cases h
        rw [if_neg hfull] at h
        obtain ⟨more, rfl, hmore⟩ := ih _ (by omega) (client ++ [cli]) h rfl
        rw [descriptors_cons hlen hover]
        refine ⟨cli :: more, by rw [List.append_assoc, List.singleton_append], .cons ?_ hmore⟩
        have hsize : descSize buf g = 1 + len := congrArg (1 + ·) hlen.symm
        rw [hsize, ← Nat.add_assoc]
        exact clientInfo_ok (by omega) hinfo
    · rw [if_neg hend] at h
      cases h
      rw [descriptors, records_nil (by rw [descSize]; omega)]
      exact ⟨[], (List.append_nil _).symm, .nil⟩

end GroupInfo

def KeptLast (buf : Octets) (c : Case) (s : Slice) : Prop :=
  ∃ before r after, attributes buf = before ++ r :: after ∧ (octet buf r).toNat = c.id ∧
    s.off = r + 3 ∧ s.off + s.len ≤ buf.length ∧
    ((c.field = .channelList → attrLen buf r < 256) → s.len = attrLen buf r) ∧
    ∀ a ∈ after, (octet buf a).toNat = c.id → c.nullIgnored = true ∧ attrLen buf a = 0

theorem p2pCases_width : ∀ c ∈ p2pCases, c.width = if c.field = .channelList then 8 else 64 := by decide

theorem stored_eq {buf : Octets} {c : Case} {r : ℕ} (hc : c ∈ p2pCases)
    (h : c.field = .channelList → attrLen buf r < 256) : c.stored (attrLen buf r) = attrLen buf r := by
  have hlt : attrLen buf r < 65536 := by
    have hbound := ofBE_lt (field buf (r + 1) 2).reverse
    have hlen : (field buf (r + 1) 2).reverse.length ≤ 2 := by
      rw [List.length_reverse, field]
      exact List.length_take_le _ _
    exact Nat.lt_of_lt_of_le hbound (Nat.pow_le_pow_right (by decide) hlen)
  rw [Case.stored, p2pCases_width c hc]
  by_cases hchannel : c.field = .channelList
  · rw [if_pos hchannel]
    exact Nat.mod_eq_of_lt (h hchannel)
  · rw [if_neg hchannel]
    exact Nat.mod_eq_of_lt (Nat.lt_of_lt_of_le hlt (by decide))

theorem keptLast_of_latest {buf : Octets} {c : Case} {s : Slice} (hc : c ∈ p2pCases)
    (h : latest (value buf c) (attributes buf) = some s) : KeptLast buf c s := by
  obtain ⟨before, r, after, hsplit, hvalue, hafter⟩ := latest_eq_some h
  have hmem : r ∈ attributes buf := by
    rw [hsplit]
    exact List.mem_append_right _ List.mem_cons_self
  obtain ⟨-, -, hfin⟩ := mem_records hmem
  rw [attrSize] at hfin
  rw [value] at hvalue
  split at hvalue
  · rename_i hkept
    cases hvalue
    have hstored := c.stored_le (attrLen buf r)
    refine ⟨before, r, after, hsplit, hkept.1, rfl, ?_, fun hlen => stored_eq hc hlen, ?_⟩
    · dsimp only
      omega
    · intro a ha hid
      have hnone := hafter a ha
      rw [value] at hnone
      by_contra hnull
      rw [if_pos ⟨hid, hnull⟩] at hnone
      cases hnone
  · cases hvalue

-- The parser reads inside the frame and inside the elements that it puts together; what it keeps is for
-- the last attribute of its type that is not an empty channel. The clients of a group lie in their
-- descriptors; they are read inside the attributes unless these end in a descriptor of 12 octets.
theorem attributes_last (data : Octets) :
    (∃ r, p2pParse data = some r) ∧
      (∀ msg, p2pParse data = some (.ok msg) →
        msg.p2pAttributes = vendorBuffer data.tail p2pIeVendorType ∧
          ∀ buf, msg.p2pAttributes = some buf →
            ∀ c ∈ p2pCases, ∀ s, msg.attr c.field = some s → KeptLast buf c s) ∧
      ∀ (buf : Octets) (gi : Slice), gi.off + gi.len ≤ buf.length →
        ((∀ g ∈ descriptors buf gi.off (gi.off + gi.len), ¬ ((octet buf g).toNat = 12 ∧ g + 13 = buf.length)) →
          ∃ r, p2pGroupInfoParse buf (some gi) = some r) ∧
        ∀ clients, p2pGroupInfoParse buf (some gi) = some (.ok clients) →
          List.Forall₂ (fun g cli => Describes (g + 1 + (octet buf g).toNat) g cli)
            (descriptors buf gi.off (gi.off + gi.len)) clients := by
  obtain ⟨r, hr, hgood⟩ := returns_p2pParse data
  refine ⟨⟨r, hr⟩, ?_, ?_⟩
  · intro msg hmsg
    rw [hr] at hmsg
    have hparsed := hgood msg (Option.some.inj hmsg)
    refine ⟨hparsed.p2pAttributes, ?_⟩
    intro buf hbuf c hc s hs
    have hattr := hparsed.attr c hc
    rw [hbuf, Option.getD_some] at hattr
    exact keptLast_of_latest hc (hattr.symm.trans hs)
  · intro buf gi hgi
    refine ⟨fun hshort => ?_, fun clients hclients => ?_⟩
    · obtain ⟨res, hres, -⟩ := returns_groupInfoFrom hgi hshort []
      exact ⟨res, hres⟩
    · obtain ⟨more, rfl, hmore⟩ := groupInfoFrom_ok hgi [] hclients
      refine hmore.imp fun g cli hdescribes => ?_
      rw [descSize, ← Nat.add_assoc] at hdescribes
      exact hdescribes

def p2pFrame (elems : List Octets) : Octets :=
  1 :: elems.flatMap fun e => [221, UInt8.ofNat (4 + e.length), 0x50, 0x6f, 0x9a, 9] ++ e

def emptyChannel : Octets := [6, 5, 0, 0x44, 0x45, 4, 81, 6, 6, 0, 0]

def longChannelList : Octets := [11, 0, 1] ++ List.replicate 248 0

def shortDescriptor : Octets := [14, 13, 0, 12] ++ List.replicate 12 0

theorem attributes_not_exact :
    ((p2pParse (p2pFrame [emptyChannel])).map fun r => r.toOption.map fun msg =>
        (msg.p2pAttributes, msg.attr .listenChannel)) = some (some (some emptyChannel, some ⟨3, 5⟩)) ∧
      attributes emptyChannel = [0, 8] ∧ octet emptyChannel 8 = 6 ∧
      ((p2pParse (p2pFrame [longChannelList, List.replicate 8 0])).map fun r => r.toOption.map fun msg =>
        msg.attr .channelList) = some (some (some ⟨3, 0⟩)) ∧
      attrLen longChannelList 0 = 256 ∧
      ((p2pParse (p2pFrame [shortDescriptor])).map fun r => r.toOption.map fun msg =>
        (msg.p2pAttributes, msg.attr .groupInfo)) = some (some (some shortDescriptor, some ⟨3, 13⟩)) ∧
      p2pGroupInfoParse shortDescriptor (some ⟨3, 13⟩) = none := by
  refine ⟨?_, ?_, ?_, ?_, ?_, ?_, ?_⟩ <;> decide +kernel

end WpaSupplicant.P2p.Pointers

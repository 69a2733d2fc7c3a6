import Mathlib.Logic.Function.Basic
import WpaSupplicant.KeyData.Pointers
import WpaSupplicant.Lib.Checked
import WpaSupplicant.Lib.Records
import WpaSupplicant.Wps.Attr

namespace WpaSupplicant.Wps.Pointers

open Lib.Octets Lib.Buffer Lib.Checked Lib.Records KeyData.Pointers

-- `wps_parse_msg` with the pointers that it returns, as offsets into the message. Every octet is read
-- with a check that the message has it; a read of another one is `none`.

-- The fields of `struct wps_parse_attr` but its three arrays
inductive Field where
  | version
  | version2
  | msgType
  | enrolleeNonce
  | registrarNonce
  | uuidR
  | uuidE
  | authTypeFlags
  | encrTypeFlags
  | connTypeFlags
  | configMethods
  | selRegConfigMethods
  | primaryDevType
  | rfBands
  | assocState
  | configError
  | devPasswordId
  | oobDevPassword
  | osVersion
  | wpsState
  | authenticator
  | rHash1
  | rHash2
  | eHash1
  | eHash2
  | rSnonce1
  | rSnonce2
  | eSnonce1
  | eSnonce2
  | keyWrapAuth
  | authType
  | encrType
  | networkIdx
  | networkKeyIdx
  | macAddr
  | keyProvAuto
  | dot1xEnabled
  | selectedRegistrar
  | requestType
  | responseType
  | apSetupLocked
  | settingsDelayTime
  | networkKeyShareable
  | requestToEnroll
  | manufacturer
  | modelName
  | modelNumber
  | serialNumber
  | devName
  | publicKey
  | encrSettings
  | ssid
  | networkKey
  | eapType
  | eapIdentity
  | authorizedMacs
  | secDevTypeList
  deriving DecidableEq, Repr

-- The size that `struct wps_parse_attr` declares for its fixed length fields
def Field.octets : Field → Option ℕ
  | .version | .version2 | .msgType | .connTypeFlags | .rfBands | .wpsState | .networkIdx
  | .networkKeyIdx | .keyProvAuto | .dot1xEnabled | .selectedRegistrar | .requestType | .responseType
  | .apSetupLocked | .settingsDelayTime | .networkKeyShareable | .requestToEnroll => some 1
  | .authTypeFlags | .encrTypeFlags | .configMethods | .selRegConfigMethods | .assocState
  | .configError | .devPasswordId | .authType | .encrType => some 2
  | .osVersion => some 4
  | .macAddr => some 6
  | .primaryDevType | .authenticator | .keyWrapAuth => some 8
  | .enrolleeNonce | .registrarNonce | .uuidR | .uuidE | .rSnonce1 | .rSnonce2 | .eSnonce1
  | .eSnonce2 => some 16
  | .rHash1 | .rHash2 | .eHash1 | .eHash2 => some 32
  | .oobDevPassword => some 54
  | .manufacturer | .modelName | .modelNumber | .serialNumber | .devName | .publicKey | .encrSettings
  | .ssid | .networkKey | .eapType | .eapIdentity | .authorizedMacs | .secDevTypeList => none

-- `struct wps_parse_attr`. A field that is a pointer alone has the length that was checked for it.
@[ext] structure WpsParseAttr where
  single : Field → Option Slice := fun _ => none
  cred : List Slice := []
  reqDevType : List ℕ := []
  vendorExt : List Slice := []

-- The lengths that a case of a `switch` takes
inductive Size where
  | exactly (n : ℕ)
  | any
  | listOf (n most : ℕ)
  deriving DecidableEq, Repr

def Size.accepts : Size → ℕ → Bool
  | .exactly n, len => len = n
  | .any, _ => true
  | .listOf n most, len => len ≤ most && len % n = 0

-- A case of a `switch` that stores a pointer
structure Case where
  type : ℕ
  field : Field
  size : Size
  deriving DecidableEq, Repr

-- The types of `enum wps_attribute` that only the parser knows
def attrRequestType : ℕ := 0x103a
def attrResponseType : ℕ := 0x103b
def attrSelectedRegistrar : ℕ := 0x1041
def attrEapIdentity : ℕ := 0x104d
def attrOobDevicePassword : ℕ := 0x102c
def attrSelectedRegistrarConfigMethods : ℕ := 0x1053
def attrApSetupLocked : ℕ := 0x1057
def attrEapType : ℕ := 0x1059
def attrKeyProvidedAuto : ℕ := 0x1061
def attr8021xEnabled : ℕ := 0x1062
def attrRequestedDevType : ℕ := 0x106a

def devTypeLen : ℕ := 8
def secDevTypeMaxLen : ℕ := 128
def maxCredCount : ℕ := 10
def maxReqDevTypeCount : ℕ := 10
def maxParseVendorExt : ℕ := 10
def maxVendorExtLen : ℕ := 1024

-- The `switch` of `wps_set_attr`
def attrCases : List Case :=
  [⟨attrVersion, .version, .exactly 1⟩, ⟨attrMsgType, .msgType, .exactly 1⟩,
    ⟨attrEnrolleeNonce, .enrolleeNonce, .exactly 16⟩, ⟨attrRegistrarNonce, .registrarNonce, .exactly 16⟩,
    ⟨attrUuidE, .uuidE, .exactly 16⟩, ⟨attrUuidR, .uuidR, .exactly 16⟩,
    ⟨attrAuthTypeFlags, .authTypeFlags, .exactly 2⟩, ⟨attrEncrTypeFlags, .encrTypeFlags, .exactly 2⟩,
    ⟨attrConnTypeFlags, .connTypeFlags, .exactly 1⟩, ⟨attrConfigMethods, .configMethods, .exactly 2⟩,
    ⟨attrSelectedRegistrarConfigMethods, .selRegConfigMethods, .exactly 2⟩,
    ⟨attrPrimaryDevType, .primaryDevType, .exactly devTypeLen⟩, ⟨attrRfBands, .rfBands, .exactly 1⟩,
    ⟨attrAssocState, .assocState, .exactly 2⟩, ⟨attrConfigError, .configError, .exactly 2⟩,
    ⟨attrDevPasswordId, .devPasswordId, .exactly 2⟩, ⟨attrOobDevicePassword, .oobDevPassword, .exactly 54⟩,
    ⟨attrOsVersion, .osVersion, .exactly 4⟩, ⟨attrWpsState, .wpsState, .exactly 1⟩,
    ⟨attrAuthenticator, .authenticator, .exactly 8⟩, ⟨attrRHash1, .rHash1, .exactly 32⟩,
    ⟨attrRHash2, .rHash2, .exactly 32⟩, ⟨attrEHash1, .eHash1, .exactly 32⟩,
    ⟨attrEHash2, .eHash2, .exactly 32⟩, ⟨attrRSnonce1, .rSnonce1, .exactly 16⟩,
    ⟨attrRSnonce2, .rSnonce2, .exactly 16⟩, ⟨attrESnonce1, .eSnonce1, .exactly 16⟩,
    ⟨attrESnonce2, .eSnonce2, .exactly 16⟩, ⟨attrKeyWrapAuth, .keyWrapAuth, .exactly 8⟩,
    ⟨attrAuthType, .authType, .exactly 2⟩, ⟨attrEncrType, .encrType, .exactly 2⟩,
    ⟨attrNetworkIndex, .networkIdx, .exactly 1⟩, ⟨attrNetworkKeyIndex, .networkKeyIdx, .exactly 1⟩,
    ⟨attrMacAddr, .macAddr, .exactly 6⟩, ⟨attrKeyProvidedAuto, .keyProvAuto, .exactly 1⟩,
    ⟨attr8021xEnabled, .dot1xEnabled, .exactly 1⟩, ⟨attrSelectedRegistrar, .selectedRegistrar, .exactly 1⟩,
    ⟨attrRequestType, .requestType, .exactly 1⟩, ⟨attrResponseType, .responseType, .exactly 1⟩,
    ⟨attrManufacturer, .manufacturer, .any⟩, ⟨attrModelName, .modelName, .any⟩,
    ⟨attrModelNumber, .modelNumber, .any⟩, ⟨attrSerialNumber, .serialNumber, .any⟩,
    ⟨attrDevName, .devName, .any⟩, ⟨attrPublicKey, .publicKey, .any⟩, ⟨attrEncrSettings, .encrSettings, .any⟩,
    ⟨attrSsid, .ssid, .any⟩, ⟨attrNetworkKey, .networkKey, .any⟩, ⟨attrEapType, .eapType, .any⟩,
    ⟨attrEapIdentity, .eapIdentity, .any⟩, ⟨attrApSetupLocked, .apSetupLocked, .exactly 1⟩,
    ⟨attrSecondaryDevTypeList, .secDevTypeList, .listOf devTypeLen secDevTypeMaxLen⟩]

-- The `switch` of `wps_set_vendor_ext_wfa_subelem`, by the identifier of the subelement
def wfaCases : List Case :=
  [⟨0, .version2, .exactly 1⟩, ⟨1, .authorizedMacs, .any⟩, ⟨2, .networkKeyShareable, .exactly 1⟩,
    ⟨3, .requestToEnroll, .exactly 1⟩, ⟨4, .settingsDelayTime, .exactly 1⟩]

section Code

variable (msg : Octets)

-- `WPA_GET_BE16` and the like
def loadBE (pos n : ℕ) : Option ℕ := (load msg pos n).map ofBE

-- What a case does with the pointer and the length
def WpsParseAttr.keep (attr : WpsParseAttr) (c : Case) (s : Slice) : Except ℤ WpsParseAttr :=
  if c.size.accepts s.len then .ok { attr with single := Function.update attr.single c.field (some s) }
  else .error (-1)

def wpsSetVendorExtWfaSubelem (attr : WpsParseAttr) (id len pos : ℕ) : Except ℤ WpsParseAttr :=
  match wfaCases.find? (·.type = id) with
  | some c => attr.keep c ⟨pos, len⟩
  | none => .ok attr

def wpsParseVendorExtWfa (attr : WpsParseAttr) (pos fin : ℕ) : Option (Except ℤ WpsParseAttr) :=
  if pos + 2 < fin then
    (loadBE msg pos 1).bind fun id =>
    (loadBE msg (pos + 1) 1).bind fun elen =>
      if fin < pos + 2 + elen then some (.ok attr)
      else
        match wpsSetVendorExtWfaSubelem attr id elen (pos + 2) with
        | .error ret => some (.error ret)
        | .ok attr => wpsParseVendorExtWfa attr (pos + 2 + elen) fin
  else some (.ok attr)
termination_by fin - pos

def wpsParseVendorExt (attr : WpsParseAttr) (pos len : ℕ) : Option (Except ℤ WpsParseAttr) :=
  if len < 3 then some (.ok attr)
  else
    (loadBE msg pos 3).bind fun vendorId =>
      if vendorId = vendorIdWfa then wpsParseVendorExtWfa msg attr (pos + 3) (pos + len)
      else if maxVendorExtLen < len then some (.error (-1))
      else if maxParseVendorExt ≤ attr.vendorExt.length then some (.error (-1))
      else some (.ok { attr with vendorExt := attr.vendorExt ++ [⟨pos, len⟩] })

def wpsSetAttr (attr : WpsParseAttr) (type pos len : ℕ) : Option (Except ℤ WpsParseAttr) :=
  match attrCases.find? (·.type = type) with
  | some c => some (attr.keep c ⟨pos, len⟩)
  | none =>
    if type = attrCred then
      if maxCredCount ≤ attr.cred.length then some (.ok attr)
      else some (.ok { attr with cred := attr.cred ++ [⟨pos, len⟩] })
    else if type = attrRequestedDevType then
      if len ≠ devTypeLen then some (.error (-1))
      else if maxReqDevTypeCount ≤ attr.reqDevType.length then some (.ok attr)
      else some (.ok { attr with reqDevType := attr.reqDevType ++ [pos] })
    else if type = attrVendorExt then wpsParseVendorExt msg attr pos len
    else some (.ok attr)

def onlyZeros (pos : ℕ) : ℕ → Option Bool
  | 0 => some true
  | n + 1 => (loadBE msg pos 1).bind fun octet => if octet ≠ 0 then some false else onlyZeros (pos + 1) n

-- The loop of `wps_parse_msg`. Where an octet seems to stand behind a Network Key, three of the four
-- octets of the header are read again.
def parseFrom (prevType pos : ℕ) (attr : WpsParseAttr) : Option (Except ℤ WpsParseAttr) :=
  if pos < msg.length then
    if msg.length - pos < 4 then some (.error (-1))
    else
      (loadBE msg pos 2).bind fun type =>
      (loadBE msg (pos + 2) 2).bind fun len =>
        if msg.length - (pos + 4) < len then
          if type / 256 ≠ 0x10 ∧ prevType = attrNetworkKey then parseFrom prevType (pos + 4 - 3) attr
          else some (.error (-1))
        else
          (if type = 0 ∧ len = 0 then onlyZeros msg (pos + 4) (msg.length - (pos + 4)) else some false).bind
            fun padding =>
              if padding then some (.ok attr)
              else
                (wpsSetAttr msg attr type (pos + 4) len).bind fun r =>
                  match r with
                  | .error ret => some (.error ret)
                  | .ok attr => parseFrom type (pos + 4 + len) attr
  else some (.ok attr)
termination_by msg.length - pos

def wpsParseMsg : Option (Except ℤ WpsParseAttr) := parseFrom msg 0 0 {}

end Code

section Reads

variable {msg : Octets} {pos n : ℕ}

theorem field_cons (hpos : pos < msg.length) : field msg pos (n + 1) = octet msg pos :: field msg (pos + 1) n := by
  rw [field, List.drop_eq_getElem_cons hpos, List.take_succ_cons, octet, List.getD_eq_getElem?_getD,
    List.getElem?_eq_getElem hpos]
  rfl

theorem loadBE_one (hpos : pos < msg.length) : loadBE msg pos 1 = some (octet msg pos).toNat := by
  rw [loadBE, load_eq (by omega), field_cons hpos]
  simp [field, ofBE]

end Reads

section Inside

-- What the parser stores lies in the message, fixed length fields with the size they are declared with,
-- and the arrays have room for it.
structure WpsParseAttr.Inside (attr : WpsParseAttr) (msg : Octets) : Prop where
  single : ∀ f s, attr.single f = some s → s.off + s.len ≤ msg.length
  fixed : ∀ f s n, attr.single f = some s → f.octets = some n → s.off + n ≤ msg.length
  secDevTypeList : ∀ s, attr.single .secDevTypeList = some s → s.len ≤ secDevTypeMaxLen
  cred : attr.cred.length ≤ maxCredCount ∧ ∀ s ∈ attr.cred, s.off + s.len ≤ msg.length
  reqDevType : attr.reqDevType.length ≤ maxReqDevTypeCount ∧ ∀ p ∈ attr.reqDevType, p + devTypeLen ≤ msg.length
  vendorExt : attr.vendorExt.length ≤ maxParseVendorExt ∧
    ∀ s ∈ attr.vendorExt, s.off + s.len ≤ msg.length ∧ s.len ≤ maxVendorExtLen

variable {msg : Octets} {attr attr' : WpsParseAttr} {c : Case} {s : Slice} {type pos len fin : ℕ}

theorem inside_empty : ({} : WpsParseAttr).Inside msg where
  single _ _ h := by cases h
  fixed _ _ _ h := by cases h
  secDevTypeList _ h := by cases h
  cred := ⟨Nat.zero_le _, fun _ h => by cases h⟩
  reqDevType := ⟨Nat.zero_le _, fun _ h => by cases h⟩
  vendorExt := ⟨Nat.zero_le _, fun _ h => by cases h⟩

-- The `switch` statements ask for the sizes that the fields are declared with.
theorem cases_fixed : ∀ c ∈ attrCases ++ wfaCases, ∀ n ∈ c.field.octets, c.size = .exactly n := by decide

theorem cases_secDevTypeList : ∀ c ∈ attrCases ++ wfaCases, c.field = .secDevTypeList →
    c.size = .listOf devTypeLen secDevTypeMaxLen := by decide

theorem keep_inside (hc : c ∈ attrCases ++ wfaCases) (hs : s.off + s.len ≤ msg.length) (h : attr.Inside msg)
    (hkeep : attr.keep c s = .ok attr') : attr'.Inside msg := by
  rw [WpsParseAttr.keep] at hkeep
  split at hkeep
  · rename_i haccepts
    cases hkeep
    refine { h with single := ?_, fixed := ?_, secDevTypeList := ?_ }
    · intro f t ht
      by_cases hf : f = c.field
      · rw [hf] at ht
        dsimp only at ht
        rw [Function.update_self] at ht
        cases ht
        exact hs
      · dsimp only at ht
        rw [Function.update_of_ne hf] at ht
        exact h.single f t ht
    · intro f t n ht hn
      by_cases hf : f = c.field
      · rw [hf] at ht hn
        dsimp only at ht
        rw [Function.update_self] at ht
        cases ht
        rw [cases_fixed c hc n hn] at haccepts
        have hlen : s.len = n := of_decide_eq_true haccepts
        omega
      · dsimp only at ht
        rw [Function.update_of_ne hf] at ht
        exact h.fixed f t n ht hn
    · intro t ht
      by_cases hf : .secDevTypeList = c.field
      · rw [hf] at ht
        dsimp only at ht
        rw [Function.update_self] at ht
        cases ht
        rw [cases_secDevTypeList c hc hf.symm, Size.accepts, Bool.and_eq_true, decide_eq_true_eq] at haccepts
        exact haccepts.1
      · dsimp only at ht
        rw [Function.update_of_ne hf] at ht
        exact h.secDevTypeList t ht
  · cases hkeep

theorem wfaSubelem_inside {id : ℕ} (hs : pos + len ≤ msg.length) (h : attr.Inside msg)
    (hset : wpsSetVendorExtWfaSubelem attr id len pos = .ok attr') : attr'.Inside msg := by
  unfold wpsSetVendorExtWfaSubelem at hset
  cases hcase : wfaCases.find? (·.type = id) with
  | none =>
    rw [hcase] at hset
    cases hset
    exact h
  | some c =>
    rw [hcase] at hset
    exact keep_inside (List.mem_append_right _ (List.mem_of_find?_eq_some hcase)) hs h hset

theorem wfa_inside (hfin : fin ≤ msg.length) (h : attr.Inside msg)
    (hparse : wpsParseVendorExtWfa msg attr pos fin = some (.ok attr')) : attr'.Inside msg := by
  fun_induction wpsParseVendorExtWfa msg attr pos fin with
  | case1 attr pos hpos ih =>
    obtain ⟨id, -, hparse⟩ := Option.bind_eq_some_iff.mp hparse
    obtain ⟨elen, -, hparse⟩ := Option.bind_eq_some_iff.mp hparse
    by_cases hlen : fin < pos + 2 + elen
    · rw [if_pos hlen] at hparse
      cases hparse
      exact h
    rw [if_neg hlen] at hparse
    cases hset : wpsSetVendorExtWfaSubelem attr id elen (pos + 2) with
    | error ret =>
      rw [hset] at hparse
      cases hparse
    | ok next =>
      rw [hset] at hparse
      exact ih elen hlen next (wfaSubelem_inside (by omega) h hset) hparse
  | case2 attr pos hpos =>
    cases hparse
    exact h

theorem vendorExt_inside (hfin : pos + len ≤ msg.length) (h : attr.Inside msg)
    (hparse : wpsParseVendorExt msg attr pos len = some (.ok attr')) : attr'.Inside msg := by
  rw [wpsParseVendorExt] at hparse
  by_cases hshort : len < 3
  · rw [if_pos hshort] at hparse
    cases hparse
    exact h
  rw [if_neg hshort] at hparse
  obtain ⟨vendorId, -, hparse⟩ := Option.bind_eq_some_iff.mp hparse
  split_ifs at hparse with hwfa hlong hroom
  · exact wfa_inside hfin h hparse
  · cases hparse
  · cases hparse
  cases hparse
  refine { h with vendorExt := ⟨?_, ?_⟩ }
  · rw [List.length_append, List.length_singleton]
    omega
  · intro s hs
    rcases List.mem_append.1 hs with hold | hnew
    · exact h.vendorExt.2 s hold
    · rw [List.mem_singleton.1 hnew]
      exact ⟨hfin, Nat.le_of_not_lt hlong⟩

theorem setAttr_inside (hfin : pos + len ≤ msg.length) (h : attr.Inside msg)
    (hset : wpsSetAttr msg attr type pos len = some (.ok attr')) : attr'.Inside msg := by
  unfold wpsSetAttr at hset
  cases hcase : attrCases.find? (·.type = type) with
  | some c =>
    rw [hcase] at hset
    exact keep_inside (List.mem_append_left _ (List.mem_of_find?_eq_some hcase)) hfin h (Option.some.inj hset)
  | none =>
    rw [hcase] at hset
    dsimp only at hset
    split_ifs at hset with hcred hfull hreq hlen hmany hvendor
    · cases hset
      exact h
    · cases hset
      refine { h with cred := ⟨?_, ?_⟩ }
      · rw [List.length_append, List.length_singleton]
        omega
      · intro s hs
        rcases List.mem_append.1 hs with hold | hnew
        · exact h.cred.2 s hold
        · rw [List.mem_singleton.1 hnew]
          exact hfin
    · cases hset
    · cases hset
      exact h
    · cases hset
      refine { h with reqDevType := ⟨?_, ?_⟩ }
      · rw [List.length_append, List.length_singleton]
        omega
      · intro p hp
        rcases List.mem_append.1 hp with hold | hnew
        · exact h.reqDevType.2 p hold
        · rw [List.mem_singleton.1 hnew]
          omega
    · exact vendorExt_inside hfin h hset
    · cases hset
      exact h

theorem parseFrom_inside {prevType : ℕ} (h : attr.Inside msg)
    (hparse : parseFrom msg prevType pos attr = some (.ok attr')) : attr'.Inside msg := by
  fun_induction parseFrom msg prevType pos attr with
  | case1 => cases hparse
  | case2 prevType pos attr hpos hroom ihskip ihnext =>
    obtain ⟨type, -, hparse⟩ := Option.bind_eq_some_iff.mp hparse
    obtain ⟨len, -, hparse⟩ := Option.bind_eq_some_iff.mp hparse
    by_cases hover : msg.length - (pos + 4) < len
    · rw [if_pos hover] at hparse
      split_ifs at hparse with hskip
      · exact ihskip type len hskip h hparse
      · cases hparse
    rw [if_neg hover] at hparse
    obtain ⟨padding, -, hparse⟩ := Option.bind_eq_some_iff.mp hparse
    split_ifs at hparse with hpadding
    · cases hparse
      exact h
    obtain ⟨r, hset, hparse⟩ := Option.bind_eq_some_iff.mp hparse
    cases r with
    | error ret => cases hparse
    | ok next => exact ihnext type len hover next (setAttr_inside (by omega) h hset) hparse
  | case3 =>
    cases hparse
    exact h

end Inside

end WpaSupplicant.Wps.Pointers

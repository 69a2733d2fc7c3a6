import WpaSupplicant.Ap.PmksaCacheAuth

namespace WpaSupplicant.Ap

open Lib.Octets KeyData Pmksa

namespace WpaIe

def wpaSelectorToBitfield (s : Octets) : Option Cipher :=
  if s = AuthIe.wpaCipherSuiteNone then some .none
  else if s = AuthIe.wpaCipherSuiteWep40 then some .wep40
  else if s = AuthIe.wpaCipherSuiteTkip then some .tkip
  else if s = AuthIe.wpaCipherSuiteCcmp then some .ccmp
  else if s = AuthIe.wpaCipherSuiteWep104 then some .wep104
  else none

def wpaKeyMgmtToBitfield (s : Octets) : Option KeyMgmt :=
  if s = AuthIe.wpaAuthKeyMgmtUnspec8021x then some .ieee8021x
  else if s = AuthIe.wpaAuthKeyMgmtPskOver8021x then some .psk
  else if s = rsnSelector 0x00 0x50 0xf2 0 then some .wpaNone
  else none

def group (data : WpaIeData) (l : Octets) : Except ℤ (WpaIeData × Octets) :=
  if 4 ≤ l.length then
    .ok ({ data with groupCipher := wpaSelectorToBitfield (l.take 4) }, l.drop 4)
  else if 0 < l.length then .error (-3)
  else .ok (data, l)

-- `wpa_parse_wpa_ie_wpa`; an error is the return value of the source.
def wpaParseWpaIeWpa (ie : Octets) : Except ℤ WpaIeData :=
  if ie.length < 8 then .error (-1)
  else if ie.getD 0 0 ≠ eidVendorSpecific ∨ (ie.getD 1 0).toNat ≠ ie.length - 2 ∨
      (ie.drop 2).take 4 ≠ wpaOuiType ∨ RsnIe.getLE16 (ie.drop 6) ≠ 1 then .error (-2)
  else do
    let data : WpaIeData :=
      { pairwiseCipher := [.tkip], groupCipher := some .tkip, mgmtGroupCipher := none }
    let (data, l) ← group data (ie.drop 8)
    let (ciphers, l) ← RsnIe.suites (-4) (-5) l
    let data := match ciphers with
      | none => data
      | some sels => { data with pairwiseCipher := sels.filterMap wpaSelectorToBitfield }
    let (akms, l) ← RsnIe.suites (-6) (-7) l
    let data := match akms with
      | none => data
      | some sels => { data with keyMgmt := sels.filterMap wpaKeyMgmtToBitfield }
    .ok (if 2 ≤ l.length then { data with capabilities := RsnIe.getLE16 l } else data)

end WpaIe

-- The return values of `wpa_validate_wpa_ie`. There is no Mobility Domain IE without FT.
inductive WpaValidateResult where
  | ieOk
  | invalidIe
  | invalidGroup
  | invalidPairwise
  | invalidAkmp
  | notEnabled
  | allocFail
  | mgmtFrameProtectionViolation
  | invalidMgmtGroupCipher
  | invalidProto
  deriving DecidableEq, Repr

def pmkidList (data : WpaIeData) : List (BitVec 128) :=
  let o := data.pmkids.getD []
  (List.range (o.length / 16)).map fun i => getBE 128 ((o.drop (16 * i)).take 16)

def ieVersion (wpaIe : Octets) : Proto := if wpaIe.getD 0 0 = eidRsn then .rsn else .wpa

def parseIe (wpaIe : Octets) : Except ℤ WpaIeData :=
  match ieVersion wpaIe with
  | .rsn => RsnIe.wpaParseWpaIeRsn wpaIe
  | .wpa => WpaIe.wpaParseWpaIeWpa wpaIe

-- The suite that is taken from those that both ends have
def pickKeyMgmt (l : List KeyMgmt) : KeyMgmt :=
  if .ieee8021xSha256 ∈ l then .ieee8021xSha256
  else if .pskSha256 ∈ l then .pskSha256
  else if .ieee8021x ∈ l then .ieee8021x
  else .psk

def commonPairwise (conf : WpaAuthConfig) (version : Proto) (data : WpaIeData) : List Cipher :=
  data.pairwiseCipher.filter (· ∈ match version with
    | .rsn => conf.rsnPairwise
    | .wpa => conf.wpaPairwise)

-- `WPA_CAPABILITY_MFPC`
def mfpCapable (data : WpaIeData) : Bool := data.capabilities.testBit 7

def checkMfp (conf : WpaAuthConfig) (data : WpaIeData) (ciphers : List Cipher) :
    Option WpaValidateResult :=
  if conf.ieee80211w ≠ .required then none
  else if !mfpCapable data then some .mgmtFrameProtectionViolation
  else if .tkip ∈ ciphers then some .mgmtFrameProtectionViolation
  else if data.mgmtGroupCipher ≠ some .aes128Cmac then some .invalidMgmtGroupCipher
  else none

-- `wpa_validate_wpa_ie` down to the lookup of the PMKSA: what it has assigned to the state machine
-- when it returns, or the PMKIDs to go on with
def negotiate (conf : WpaAuthConfig) (sm : Sm) (wpaIe : Octets) :
    Sm × (WpaValidateResult ⊕ List (BitVec 128)) :=
  if wpaIe.length < 1 then (sm, .inl .invalidIe)
  else if ieVersion wpaIe ∉ conf.protos then (sm, .inl .invalidProto)
  else
    match parseIe wpaIe with
    | .error _ => (sm, .inl .invalidIe)
    | .ok data =>
      let keyMgmt := data.keyMgmt.filter (· ∈ conf.wpaKeyMgmt)
      let ciphers := commonPairwise conf (ieVersion wpaIe) data
      if data.groupCipher ≠ some conf.wpaGroup then (sm, .inl .invalidGroup)
      else if keyMgmt = [] then (sm, .inl .invalidAkmp)
      else
        let sm := { sm with wpaKeyMgmt := pickKeyMgmt keyMgmt }
        if ciphers = [] then (sm, .inl .invalidPairwise)
        else
          match checkMfp conf data ciphers with
          | some res => (sm, .inl res)
          | none =>
            ({ sm with
                mgmtFrameProt :=
                  conf.ieee80211w ≠ .noMgmtFrameProtection && mfpCapable data
                pairwise := some (if .ccmp ∈ ciphers then .ccmp else .tkip)
                wpa := some (ieVersion wpaIe)
                pmksa := none },
              .inr (pmkidList data))

-- What the allocator answers: the address of an entry, and whether there is memory for the IE
structure IeAnswers where
  okc : Option Ptr := none
  ie : Bool := true
  deriving DecidableEq, Repr

inductive Selected where
  | cached (entry : Entry)
  | okc (old : Entry) (pmkid : BitVec 128)
  | nothing
  deriving DecidableEq, Repr

-- The loop over the PMKIDs for opportunistic key caching; `none` when it does not end
def selectOkc (cr : Crypto) (caches : List Cache) (aa spa : Addr) :
    List (BitVec 128) → Option Selected
  | [] => some .nothing
  | pmkid :: next =>
    match okcForEachAuth cr aa spa pmkid caches with
    | none => none
    | some (some old) => some (.okc old pmkid)
    | some none => selectOkc cr caches aa spa next

def selectPmksa (cr : Crypto) (caches : List Cache) (a : Auth) (spa : Addr)
    (pmkids : List (BitVec 128)) : Option Selected :=
  match pmkids.findSome? fun pmkid => pmksaCacheAuthGet a.cache (some spa) (some pmkid) with
  | some entry => some (.cached entry)
  | none => if a.okc then selectOkc cr caches a.addr spa pmkids else some .nothing

-- Assignments to the fields of a state machine
def setSm (a : Auth) (addr : Addr) (sm : Sm) : Auth :=
  { a with sms := Function.update a.sms addr (some sm) }

def usePmksa (a : Auth) (addr : Addr) (sm : Sm) (ans : IeAnswers) : Selected → Auth
  | .cached entry => setSm a addr { sm with pmksa := some entry.ptr }
  | .okc old pmkid =>
    let r := pmksaCacheAddOkc a ans.okc old pmkid
    setSm r.1 addr { sm with pmksa := r.2 }
  | .nothing => setSm a addr sm

def copyIe (a : Auth) (addr : Addr) (wpaIe : Octets) (ans : IeAnswers) : Auth × WpaValidateResult :=
  match a.sms addr with
  | none => (a, .notEnabled)
  | some sm =>
    if sm.wpaIe.length < wpaIe.length ∧ !ans.ie then
      (setSm a addr { sm with wpaIe := [] }, .allocFail)
    else (setSm a addr { sm with wpaIe := wpaIe }, .ieOk)

-- `wpa_validate_wpa_ie` for the station with an address; `caches` are those of the authenticators
-- in the order in which they are visited. `none` when it does not return.
def wpaValidateWpaIe (cr : Crypto) (caches : List Cache) (a : Auth) (addr : Addr) (wpaIe : Octets)
    (ans : IeAnswers) : Option (Auth × WpaValidateResult) :=
  match a.sms addr with
  | none => some (a, .notEnabled)
  | some sm =>
    match negotiate a.conf sm wpaIe with
    | (sm, .inl res) => some (setSm a addr sm, res)
    | (sm, .inr pmkids) =>
      (selectPmksa cr caches a addr pmkids).map fun selected =>
        copyIe (usePmksa a addr sm ans selected) addr wpaIe ans

end WpaSupplicant.Ap

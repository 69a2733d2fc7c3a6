import WpaSupplicant.Ap.StaTable
import WpaSupplicant.Ap.ValidateIe

namespace WpaSupplicant.Ap.Mlme

open Lib.Octets KeyData Pmksa

-- `WLAN_STATUS_*`. Where countermeasures are active, the code of a reason is sent; `minusOne` is what
-- becomes of -1.
inductive Status where
  | success
  | unspecifiedFailure
  | notSupportedAuthAlg
  | unknownAuthTransaction
  | challengeFail
  | apUnableToHandleNewSta
  | assocDeniedNoHt
  | assocRejectedTemporarily
  | robustMgmtFramePolicyViolation
  | invalidIe
  | groupCipherNotValid
  | pairwiseCipherNotValid
  | akmpNotValid
  | cipherRejectedPerPolicy
  | assocDeniedListenIntTooLarge
  | invalidPmkid
  | invalidMdie
  | invalidFtie
  | michaelMicFailure
  | minusOne
  deriving DecidableEq, Repr

-- `WLAN_AUTH_*`
def wlanAuthOpen : ℕ := 0
def wlanAuthSharedKey : ℕ := 1
def wlanAuthFt : ℕ := 2

-- The fields of `struct sta_info` that are for the MLME
structure MlmeSta where
  authAlg : ℕ := wlanAuthOpen
  challenge : Option Octets := none
  wmm : Bool := false
  ht : Bool := false
  supportedRates : Octets := []
  capability : ℕ := 0
  listenInterval : ℕ := 0
  deriving DecidableEq, Repr

instance : Inhabited MlmeSta := ⟨{}⟩

abbrev Sta := StaInfo MlmeSta

structure MlmeConfig where
  ownAddr : Addr
  ssid : Octets
  authAlgOpen : Bool := true
  authAlgShared : Bool := false
  maxListenInterval : ℕ := 65535
  wmmEnabled : Bool := false
  ieee80211n : Bool := false
  requireHt : Bool := false
  disable11n : Bool := false
  wpsState : Bool := false
  ieee8021x : Bool := false
  deriving DecidableEq, Repr

inductive Sent where
  | auth (da : Addr) (authAlg transaction : ℕ) (status : Status)
  | deauth (da : Addr)
  | assocResp (da : Addr) (reassoc : Bool) (status : Status)
  deriving DecidableEq, Repr

-- A BSS: its stations, and the authenticator with their state machines. The frames that were sent
-- are kept, the last one first; a call that does not return stops everything.
structure Bss where
  conf : MlmeConfig
  hapd : Hapd MlmeSta
  auth : Auth
  now : OsTime := ⟨0, 0⟩
  sent : List Sent := []
  hung : Bool := false

namespace Bss

def send (b : Bss) (frame : Sent) : Bss := { b with sent := frame :: b.sent }

def modify (b : Bss) (sta : StaPtr) (f : Sta → Sta) : Bss := { b with hapd := b.hapd.modify sta f }

-- `hapd->conf->wpa`
def wpa (b : Bss) : Bool := b.auth.conf.protos ≠ []

-- `wpa_auth_sta_deinit` is called when a station is freed.
def deinit (b : Bss) (hapd : Hapd MlmeSta) : Bss :=
  { b with
    hapd := hapd
    auth := { b.auth with
      sms := fun addr => if (apGetSta hapd addr).isSome then b.auth.sms addr else none } }

end Bss

-- An authentication frame; `challenge` is what follows where it is a challenge text of 128 octets.
structure AuthFrame where
  sa : Addr
  authAlg : ℕ
  transaction : ℕ
  challenge : Option Octets := none
  iswep : Bool := false
  deriving DecidableEq, Repr

-- The result of `hostapd_allowed_address`
inductive Acl where
  | reject
  | accept
  | pending
  | acceptTimeout
  deriving DecidableEq, Repr

structure AuthAnswers where
  tkipCountermeasures : Bool := false
  acl : Acl := .accept
  vlanInvalid : Bool := false
  alloc : Bool := true
  challenge : Option Octets := none
  deriving DecidableEq, Repr

def authSharedKey (f : AuthFrame) (ans : AuthAnswers) (s : Sta) : Sta × Status :=
  if f.transaction = 1 then
    match s.ext.challenge, ans.challenge with
    | some _, _ => (s, .success)
    | none, none => (s, .unspecifiedFailure)
    | none, some c => ({ s with ext.challenge := some c }, .success)
  else if f.transaction ≠ 3 then (s, .unspecifiedFailure)
  else if !f.iswep || s.ext.challenge.isNone || f.challenge.isNone ||
      s.ext.challenge ≠ f.challenge then (s, .challengeFail)
  else ({ s with flags.auth := true, ext.challenge := none }, .success)

-- The authentication of a station by the algorithm of the frame. The event for its state machine
-- changes nothing that was negotiated.
def authenticate (f : AuthFrame) (ans : AuthAnswers) (s : Sta) : Sta × Status :=
  if f.authAlg = wlanAuthOpen then
    ({ s with flags.auth := true, ext.authAlg := wlanAuthOpen }, .success)
  else
    let r := authSharedKey f ans s
    ({ r.1 with ext.authAlg := wlanAuthSharedKey }, r.2)

-- The algorithms that are in use
def authAlgAllowed (conf : MlmeConfig) (authAlg : ℕ) : Bool :=
  (conf.authAlgOpen && authAlg = wlanAuthOpen) || (conf.authAlgShared && authAlg = wlanAuthSharedKey)

-- The tests of `handle_auth` before it looks at the access list
def checkAuth (conf : MlmeConfig) (f : AuthFrame) (ans : AuthAnswers) : Status :=
  if ans.tkipCountermeasures then .michaelMicFailure
  else if !authAlgAllowed conf f.authAlg then .notSupportedAuthAlg
  else if !(f.transaction = 1 || (f.authAlg = wlanAuthSharedKey && f.transaction = 3)) then
    .unknownAuthTransaction
  else if f.sa = conf.ownAddr then .unspecifiedFailure
  else .success

def sendAuthReply (b : Bss) (f : AuthFrame) (resp : Status) : Bss :=
  b.send (.auth f.sa f.authAlg (f.transaction + 1) resp)

-- `handle_auth` for a station that was found or added
def authStation (b : Bss) (sta : StaPtr) (f : AuthFrame) (ans : AuthAnswers) : Bss :=
  if ans.vlanInvalid then sendAuthReply b f .unspecifiedFailure
  else
    let h := b.hapd.modify sta fun s => { s with flags.preauth := false }
    let h :=
      if ans.acl = .acceptTimeout then apStaSessionTimeout h sta else apStaNoSessionTimeout h sta
    match h.mem sta with
    | none => b
    | some s =>
      let r := authenticate f ans s
      sendAuthReply { b with hapd := h.modify sta fun _ => r.1 } f r.2

def handleAuth (b : Bss) (f : AuthFrame) (ans : AuthAnswers) : Bss :=
  if checkAuth b.conf f ans ≠ .success then sendAuthReply b f (checkAuth b.conf f ans)
  else
    match ans.acl with
    | .reject => sendAuthReply b f .unspecifiedFailure
    | .pending => b
    | .accept | .acceptTimeout =>
      match apStaAdd b.hapd f.sa ans.alloc with
      | (h, none) => sendAuthReply { b with hapd := h } f .unspecifiedFailure
      | (h, some sta) => authStation { b with hapd := h } sta f ans

-- The fields of `struct ieee802_11_elems` that are read here
structure Elems where
  ssid : Option Octets := none
  suppRates : Option Octets := none
  extSuppRates : Option Octets := none
  wmm : Option Octets := none
  htCapabilities : Option Octets := none
  rsnIe : Option Octets := none
  wpaIe : Option Octets := none
  wpsIe : Option Octets := none
  mdie : Option Octets := none
  deriving DecidableEq, Repr

-- `ieee802_11_parse_vendor_specific`; an element that is not known is passed over.
def parseVendorSpecific (body : Octets) (elems : Elems) : Elems :=
  if body.length < 4 ∨ body.take 3 ≠ [0x00, 0x50, 0xf2] then elems
  else if body.getD 3 0 = 1 then { elems with wpaIe := some body }
  else if body.getD 3 0 = 2 then
    if 5 ≤ body.length ∧ (body.getD 4 0 = 0 ∨ body.getD 4 0 = 1) then
      { elems with wmm := some body }
    else elems
  else if body.getD 3 0 = 4 then { elems with wpsIe := some body }
  else elems

def parseElem (id : UInt8) (body : Octets) (elems : Elems) : Elems :=
  if id = 0 then { elems with ssid := some body }
  else if id = 1 then { elems with suppRates := some body }
  else if id = 50 then { elems with extSuppRates := some body }
  else if id = eidVendorSpecific then parseVendorSpecific body elems
  else if id = eidRsn then { elems with rsnIe := some body }
  else if id = 45 then { elems with htCapabilities := some body }
  else if id = 54 then { elems with mdie := some body }
  else elems

-- The loop of `ieee802_11_parse_elems`; `none` is `ParseFailed`.
def parseElemsFrom : ℕ → Octets → Elems → Option Elems
  | _, [], elems => some elems
  | _, [_], _ => none
  | 0, _, _ => none
  | fuel + 1, id :: elen :: pos, elems =>
    if pos.length < elen.toNat then none
    else parseElemsFrom fuel (pos.drop elen.toNat) (parseElem id (pos.take elen.toNat) elems)

def ieee80211ParseElems (ies : Octets) : Option Elems := parseElemsFrom ies.length ies {}

-- `ieee802_11_vendor_ie_concat` for the WPS IEs
def wpsIeConcat : ℕ → Octets → Octets
  | fuel + 1, id :: elen :: pos =>
    let body := pos.take elen.toNat
    if pos.length < elen.toNat then []
    else
      (if id = eidVendorSpecific ∧ body.take 4 = [0x00, 0x50, 0xf2, 4] then body.drop 4 else []) ++
        wpsIeConcat fuel (pos.drop elen.toNat)
  | _, _ => []

-- What the environment answers: the allocator, and the caches of the BSSs that are visited before
-- and after this one
structure AssocAnswers where
  tkipCountermeasures : Bool := false
  htAlloc : Bool := true
  wpsAlloc : Bool := true
  smAlloc : Bool := true
  before : List Cache := []
  after : List Cache := []
  ie : IeAnswers := {}
  saQueryAlloc : Bool := true

def checkSsid (conf : MlmeConfig) (elems : Elems) : Status :=
  if elems.ssid = some conf.ssid then .success else .unspecifiedFailure

-- `hostapd_eid_wmm_valid`, true for a valid element
def wmmValid (eid : Octets) : Bool := 7 ≤ eid.length && eid.getD 4 0 = 0 && eid.getD 5 0 = 1

def checkWmm (conf : MlmeConfig) (elems : Elems) (s : Sta) : Sta :=
  { s with
    ext.wmm := match elems.wmm with
      | none => false
      | some wmm => conf.wmmEnabled && wmmValid wmm }

def copySuppRates (elems : Elems) (s : Sta) : Sta × Status :=
  match elems.suppRates with
  | none => (s, .unspecifiedFailure)
  | some rates =>
    if 32 < rates.length then (s, .unspecifiedFailure)
    else
      let s := { s with ext.supportedRates := rates }
      match elems.extSuppRates with
      | none => (s, .success)
      | some ext =>
        if 32 < rates.length + ext.length then (s, .unspecifiedFailure)
        else ({ s with ext.supportedRates := rates ++ ext }, .success)

-- `copy_sta_ht_capab`; a station has HT capabilities if its flag is set.
def copyStaHtCapab (conf : MlmeConfig) (elems : Elems) (alloc : Bool) (s : Sta) : Sta × Status :=
  if conf.disable11n || (elems.htCapabilities.all fun c => c.length < 26) then
    ({ s with ext.ht := false }, .success)
  else if !s.ext.ht && !alloc then (s, .unspecifiedFailure)
  else ({ s with ext.ht := true }, .success)

-- The tests of `check_assoc_ies` before the WPA/RSN IE
def checkCapabilities (conf : MlmeConfig) (elems : Elems) (alloc : Bool) (s : Sta) : Sta × Status :=
  if checkSsid conf elems ≠ .success then (s, checkSsid conf elems)
  else
    match copySuppRates elems (checkWmm conf elems s) with
    | (s, .success) =>
      match copyStaHtCapab conf elems alloc s with
      | (s, .success) =>
        (s, if conf.ieee80211n && conf.requireHt && !s.ext.ht then .assocDeniedNoHt else .success)
      | r => r
    | r => r

def selectWpaIe (protos : List Proto) (elems : Elems) : Option Octets :=
  match (if .rsn ∈ protos then elems.rsnIe else none), (if .wpa ∈ protos then elems.wpaIe else none)
  with
  | some rsnIe, _ => some (elem eidRsn rsnIe)
  | none, some wpaIe => some (elem eidVendorSpecific wpaIe)
  | none, none => none

def wpsFlags (conf : MlmeConfig) (elems : Elems) (wpaIe : Option Octets) (s : Sta) : Sta :=
  { s with
    flags := { s.flags with
      wps := conf.wpsState && elems.wpsIe.isSome
      maybeWps := conf.wpsState && elems.wpsIe.isNone && wpaIe.isNone } }

-- The WPA/RSN IE that is left where WPS is considered; `wpsValid` stands for
-- `wps_validate_assoc_req`.
def checkWps (conf : MlmeConfig) (wpsValid : Octets → Bool) (wpa alloc : Bool) (elems : Elems)
    (ies : Octets) (wpaIe : Option Octets) : Except Status (Option Octets) :=
  if conf.wpsState && elems.wpsIe.isSome then
    if alloc && !wpsValid (wpsIeConcat ies.length ies) then .error .invalidIe else .ok none
  else if conf.wpsState && wpaIe.isNone then .ok wpaIe
  else if wpa && wpaIe.isNone then .error .invalidIe
  else .ok wpaIe

-- The status for what `wpa_validate_wpa_ie` returned
def statusOf : WpaValidateResult → Status
  | .ieOk => .success
  | .invalidGroup => .groupCipherNotValid
  | .invalidPairwise => .pairwiseCipherNotValid
  | .invalidAkmp => .akmpNotValid
  | .allocFail => .unspecifiedFailure
  | .mgmtFrameProtectionViolation | .invalidMgmtGroupCipher => .robustMgmtFramePolicyViolation
  | .invalidIe | .notEnabled | .invalidProto => .invalidIe

-- `wpa_auth_sta_init`, where the station has no state machine yet
def wpaAuthStaInit (a : Auth) (addr : Addr) (alloc : Bool) : Auth :=
  if (a.sms addr).isNone && alloc then setSm a addr {} else a

def wpaAuthStaNoWpa (a : Auth) (addr : Addr) : Auth :=
  match a.sms addr with
  | none => a
  | some sm => setSm a addr { sm with wpaKeyMgmt := .unset }

-- A station that is associated with management frame protection, and whose SA Query procedure has
-- not timed out
def saQueryGuards (s : Sta) : Bool := s.flags.mfp && !s.saQueryTimedOut

-- The SA Query test of `check_assoc_ies`: the access point has found out whether the procedure has
-- timed out.
def checkSaQuery (h : Hapd MlmeSta) (sta : StaPtr) (now : OsTime) : Hapd MlmeSta :=
  match h.mem sta with
  | none => h
  | some s =>
    if saQueryGuards s && decide (0 < s.saQueryCount) then (apCheckSaQueryTimeout h sta now).1 else h

-- The part of `check_assoc_ies` after the WPA/RSN IE was validated
def checkMfpAssoc (b : Bss) (sta : StaPtr) (sm : Sm) (reassoc : Bool) (ans : AssocAnswers) :
    Bss × Status :=
  let h := checkSaQuery b.hapd sta b.now
  match h.mem sta with
  | none => (b, .unspecifiedFailure)
  | some s =>
    if saQueryGuards s && (!reassoc || s.ext.authAlg ≠ wlanAuthFt) then
      ({ b with
          hapd := if s.saQueryCount = 0 then apStaStartSaQuery h sta b.now ans.saQueryAlloc else h },
        .assocRejectedTemporarily)
    else
      ({ b with hapd := h.modify sta fun s => { s with flags.mfp := sm.mgmtFrameProt } },
        if s.ext.ht && sm.pairwise = some .tkip then .cipherRejectedPerPolicy else .success)

-- The part of `check_assoc_ies` for the WPA/RSN IE of a station. `none` when it does not return.
def checkWpaIe (cr : Crypto) (b : Bss) (sta : StaPtr) (addr : Addr) (wpaIe : Octets) (reassoc : Bool)
    (ans : AssocAnswers) : Option (Bss × Status) :=
  let a := wpaAuthStaInit b.auth addr ans.smAlloc
  if (a.sms addr).isNone then some (b, .unspecifiedFailure)
  else
    match wpaValidateWpaIe cr (ans.before ++ a.cache :: ans.after) a addr wpaIe ans.ie with
    | none => none
    | some (a, res) =>
      let b := { b with auth := a }
      if statusOf res ≠ .success then some (b, statusOf res)
      else
        match a.sms addr with
        | none => some (b, .unspecifiedFailure)
        | some sm => some (checkMfpAssoc b sta sm reassoc ans)

-- `check_assoc_ies`. The IEs for P2P are left out.
def checkAssocIes (cr : Crypto) (wpsValid : Octets → Bool) (b : Bss) (sta : StaPtr) (s : Sta)
    (ies : Octets) (reassoc : Bool) (ans : AssocAnswers) : Option (Bss × Status) :=
  match ieee80211ParseElems ies with
  | none => some (b, .unspecifiedFailure)
  | some elems =>
    let r := checkCapabilities b.conf elems ans.htAlloc s
    if r.2 ≠ .success then some (b.modify sta fun _ => r.1, r.2)
    else
      let wpaIe := selectWpaIe b.auth.conf.protos elems
      let b := b.modify sta fun _ => wpsFlags b.conf elems wpaIe r.1
      match checkWps b.conf wpsValid b.wpa ans.wpsAlloc elems ies wpaIe with
      | .error status => some (b, status)
      | .ok none => some ({ b with auth := wpaAuthStaNoWpa b.auth s.addr }, .success)
      | .ok (some wpaIe) => checkWpaIe cr b sta s.addr wpaIe reassoc ans

structure AssocFrame where
  sa : Addr
  reassoc : Bool := false
  capabInfo : ℕ := 0
  listenInterval : ℕ := 0
  ies : Octets
  deriving DecidableEq, Repr

-- `handle_assoc` for a request whose IEs are accepted. The counters of the stations that need
-- protection are left out.
def assocOk (b : Bss) (sta : StaPtr) (f : AssocFrame) : Bss :=
  match hostapdGetAid b.hapd sta with
  | (h, res) =>
    if res < 0 then
      { b with hapd := h }.send (.assocResp f.sa f.reassoc .apUnableToHandleNewSta)
    else
      let h := h.modify sta fun s =>
        { s with
          flags.assocReqOk := true
          timeoutNext := .nullfunc
          ext := { s.ext with capability := f.capabInfo, listenInterval := f.listenInterval } }
      { b with hapd := h }.send (.assocResp f.sa f.reassoc .success)

-- `handle_assoc`. `none` when it does not return.
def handleAssoc (cr : Crypto) (wpsValid : Octets → Bool) (b : Bss) (f : AssocFrame)
    (ans : AssocAnswers) : Option Bss :=
  match apGetSta b.hapd f.sa with
  | none => some (b.send (.deauth f.sa))
  | some sta =>
    match b.hapd.mem sta with
    | none => some (b.send (.deauth f.sa))
    | some s =>
      if !s.flags.auth then some (b.send (.deauth f.sa))
      else if ans.tkipCountermeasures then
        some (b.send (.assocResp f.sa f.reassoc .michaelMicFailure))
      else if b.conf.maxListenInterval < f.listenInterval then
        some (b.send (.assocResp f.sa f.reassoc .assocDeniedListenIntTooLarge))
      else
        match checkAssocIes cr wpsValid b sta s f.ies f.reassoc ans with
        | none => none
        | some (b, .success) => some (assocOk b sta f)
        | some (b, resp) => some (b.send (.assocResp f.sa f.reassoc resp))

-- `handle_assoc_cb` for a response that was acknowledged; `added` tells whether the driver took the
-- station. The events for its state machine change nothing that was negotiated.
def handleAssocCb (b : Bss) (da : Addr) (status : Status) (added : Bool) : Bss :=
  match apGetSta b.hapd da with
  | none => b
  | some sta =>
    if status ≠ .success then b
    else
      let h := b.hapd.modify sta fun s =>
        { s with
          flags := { s.flags with
            assoc := true
            authorized := s.flags.authorized || (!b.conf.ieee8021x && !b.wpa) ||
              s.ext.authAlg = wlanAuthFt }
          saQueryTimedOut := false }
      { b with hapd := if added then h else apStaDeauthenticate h sta }

def handleDisassoc (h : Hapd MlmeSta) (sta : StaPtr) : Hapd MlmeSta :=
  let h := h.modify sta fun s =>
    { s with flags := { s.flags with assoc := false, assocReqOk := false, authorized := false } }
  match h.mem sta with
  | none => h
  | some s =>
    if s.timeoutNext = .nullfunc ∨ s.timeoutNext = .disassoc then
      (h.modify sta fun s => { s with timeoutNext := .deauth }).rearm .apHandleTimer sta
    else h

end WpaSupplicant.Ap.Mlme

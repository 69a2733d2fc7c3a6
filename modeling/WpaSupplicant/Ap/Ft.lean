import WpaSupplicant.Ap.Mlme

namespace WpaSupplicant.Ap.Ft

open Lib.Octets KeyData

-- The functions of SHA-256 and AES that FT uses: `wpa_derive_pmk_r1_name`, `wpa_pmk_r1_to_ptk` for
-- a number of octets, and `omac1_aes_128`
structure FtCrypto where
  derivePmkR1Name : Octets → Octets → Addr → Octets
  pmkR1ToPtk : Octets → Octets → Octets → Addr → Addr → ℕ → Octets
  omac1 : Octets → Octets → Octets

def eidMobilityDomain : UInt8 := 54
def eidFastBssTransition : UInt8 := 55
def eidRicData : UInt8 := 57

-- `struct wpa_ft_ies`; `ric` goes on to the end of the protected IEs.
structure FtIes where
  mdie : Option Octets := none
  ftie : Option Octets := none
  r1khId : Option Octets := none
  r0khId : Option Octets := none
  rsn : Option Octets := none
  rsnPmkid : Option Octets := none
  ric : Option Octets := none
  deriving DecidableEq, Repr

-- The fixed fields of `struct rsn_ftie`
namespace Ftie

def len : ℕ := 82
def count (ftie : Octets) : ℕ := (ftie.getD 1 0).toNat
def mic (ftie : Octets) : Octets := (ftie.drop 2).take 16
def anonce (ftie : Octets) : Octets := (ftie.drop 18).take 32
def snonce (ftie : Octets) : Octets := (ftie.drop 50).take 32

def zeroMic (ftie : Octets) : Octets := ftie.take 2 ++ List.replicate 16 0 ++ ftie.drop 18

end Ftie

-- The loop of `wpa_ft_parse_ftie` over the subelements
def parseSubelems : ℕ → Octets → FtIes → Option FtIes
  | fuel + 1, id :: len :: pos, parse =>
    let body := pos.take len.toNat
    if pos.length < len.toNat then some parse
    else if id = 1 then
      if len.toNat ≠ 6 then none
      else parseSubelems fuel (pos.drop len.toNat) { parse with r1khId := some body }
    else if id = 3 then
      if len.toNat < 1 ∨ 48 < len.toNat then none
      else parseSubelems fuel (pos.drop len.toNat) { parse with r0khId := some body }
    else parseSubelems fuel (pos.drop len.toNat) parse
  | _, _, parse => some parse

def wpaFtParseFtie (ftie : Octets) (parse : FtIes) : Option FtIes :=
  parseSubelems ftie.length (ftie.drop Ftie.len) { parse with ftie := some ftie }

-- The RSN IE of `wpa_ft_parse_ies`: the PMKID is taken where there is one only.
def parseRsn (rsn : Octets) (parse : FtIes) : Option FtIes :=
  match RsnIe.wpaParseWpaIeRsn (elem eidRsn rsn) with
  | .error _ => none
  | .ok data =>
    let parse := { parse with rsn := some rsn }
    match data.pmkids with
    | none => some parse
    | some pmkids => some (if pmkids.length = 16 then { parse with rsnPmkid := some pmkids } else parse)

-- The loop of `wpa_ft_parse_ies`; `ric` is the rest of the buffer from its first IE on.
def parseFtElems : ℕ → Octets → FtIes → Option FtIes
  | fuel + 1, id :: len :: pos, parse =>
    let body := pos.take len.toNat
    let rest := pos.drop len.toNat
    if pos.length < len.toNat then some parse
    else if id = eidRsn then
      match parseRsn body parse with
      | none => none
      | some parse => parseFtElems fuel rest parse
    else if id = eidMobilityDomain then parseFtElems fuel rest { parse with mdie := some body }
    else if id = eidFastBssTransition then
      if len.toNat < Ftie.len then none
      else
        match wpaFtParseFtie body parse with
        | none => none
        | some parse => parseFtElems fuel rest parse
    else if id = eidRicData then
      parseFtElems fuel rest
        { parse with ric := some (parse.ric.getD (id :: len :: pos)) }
    else parseFtElems fuel rest parse
  | _, _, parse => some parse

-- The first IEs of a buffer, up to a number, and how many are missing
def takeIes : ℕ → Octets → Octets × ℕ
  | count + 1, id :: len :: pos =>
    if pos.length < len.toNat then ([], count + 1)
    else
      let r := takeIes count (pos.drop len.toNat)
      (id :: len :: pos.take len.toNat ++ r.1, r.2)
  | count, _ => ([], count)

-- The last part of `wpa_ft_parse_ies`: the IEs are those that the MIC covers.
def checkProtected (parse : FtIes) : Option FtIes :=
  let protCount := (parse.ftie.map Ftie.count).getD 0
  let present := parse.rsn.toList.length + parse.mdie.toList.length + parse.ftie.toList.length
  if protCount = 0 then some { parse with ric := parse.ric.map fun _ => [] }
  else if protCount < present then none
  else if protCount = present ∧ parse.ric.isSome then none
  else
    match parse.ric with
    | none => if protCount - present = 0 then some parse else none
    | some ric =>
      let r := takeIes (protCount - present) ric
      if r.2 = 0 then some { parse with ric := some r.1 } else none

def wpaFtParseIes (ies : Octets) : Option FtIes :=
  (parseFtElems ies.length ies {}).bind checkProtected

def ieee80211IeCount : ℕ → Octets → ℕ
  | fuel + 1, _ :: len :: pos =>
    if pos.length < len.toNat then 0 else 1 + ieee80211IeCount fuel (pos.drop len.toNat)
  | _, _ => 0

-- What the MIC of `wpa_ft_mic` covers
def ftMicData (staAddr apAddr : Addr) (transaction : UInt8) (mdie ftie rsnie ric : Octets) : Octets :=
  putBE 6 staAddr ++ putBE 6 apAddr ++ transaction :: elem eidRsn rsnie ++
    elem eidMobilityDomain mdie ++ elem eidFastBssTransition (Ftie.zeroMic ftie) ++ ric

end WpaSupplicant.Ap.Ft

namespace WpaSupplicant.Ap.Ft

open Lib.Octets KeyData Mlme

-- The key management suites of FT
inductive FtAkm where
  | ftIeee8021x
  | ftPsk
  deriving DecidableEq, Repr

-- The configuration of an access point with FT: the Mobility Domain, its key holder and the remote
-- ones, the suites of FT besides those of the authenticator
structure FtConfig where
  addr : Addr
  mlme : MlmeConfig
  wpa : WpaAuthConfig
  ftKeyMgmt : List FtAkm
  mobilityDomain : Octets
  r1KeyHolder : Octets
  r0khs : List Octets := []
  deriving DecidableEq, Repr

-- `struct wpa_ft_pmk_r1_sa`
structure PmkR1 where
  spa : Addr
  pmkR1 : Octets
  pmkR1Name : Octets
  pairwise : Option Cipher
  deriving DecidableEq, Repr

-- What the environment answers: the random ANonce, and whether the response IEs could be built
structure FtAnswers where
  anonce : Option Octets := none
  respIes : Bool := true
  setKey : Bool := true
  deriving DecidableEq, Repr

-- What happens to the PTK of a state machine: an FT request is processed, the PTK is cleared or
-- assigned by the state machine for the 4-way handshake, the association is completed, and the
-- temporal key is given to the driver.
inductive FtEvent where
  | request (ans : FtAnswers) (status : Status) (derived : Option (PmkR1 × Octets))
  | assigned
  | assocFt
  | setKey (alg : WpaAlg) (key : Octets)
  deriving DecidableEq, Repr

-- What `wpa_validate_wpa_ie` assigns
structure Terms where
  wpaKeyMgmt : Option (FtAkm ⊕ KeyMgmt) := none
  pairwise : Option Cipher := none
  wpa : Option Proto := none
  mgmtFrameProt : Bool := false
  deriving DecidableEq, Repr

-- `struct wpa_state_machine` after `wpa_auth_sta_init`; the PTK is that of `struct wpa_ptk`. What
-- happened to it is kept, the last event first.
structure FtSm where
  terms : Terms := {}
  snonce : Octets := List.replicate 32 0
  anonce : Octets := List.replicate 32 0
  r0khId : Octets := []
  pmkR1Name : Octets := List.replicate 16 0
  pmkR1NameValid : Bool := false
  ptk : Octets := List.replicate 64 0
  pairwiseSet : Bool := false
  ftCompleted : Bool := false
  history : List FtEvent := []
  deriving DecidableEq, Repr

def kck (ptk : Octets) : Octets := ptk.take 16

namespace FtSm

def log (sm : FtSm) (e : FtEvent) : FtSm := { sm with history := e :: sm.history }

end FtSm

section Request

variable (cr : FtCrypto) (conf : FtConfig)

def wpaFtFetchPmkR1 (cache : List PmkR1) (spa : Addr) (pmkR1Name : Octets) : Option PmkR1 :=
  cache.find? fun r1 => r1.spa = spa ∧ r1.pmkR1Name = pmkR1Name

def wpaFtInstallPtk (sm : FtSm) (setKey : Bool) : FtSm :=
  match sm.terms.pairwise with
  | some .tkip =>
    { sm.log (.setKey .tkip ((sm.ptk.drop 32).take 32)) with
      pairwiseSet := sm.pairwiseSet || setKey }
  | some .ccmp =>
    { sm.log (.setKey .ccmp ((sm.ptk.drop 32).take 16)) with
      pairwiseSet := sm.pairwiseSet || setKey }
  | _ => sm

def mdieValid (mdie : Option Octets) : Bool :=
  mdie.any fun mdie => 3 ≤ mdie.length && mdie.take 2 = conf.mobilityDomain

-- The checks of `wpa_ft_process_auth_req` on the IEs, and what it assigns before it looks for the
-- PMK-R1: the name of the PMK-R0 that is asked for
def checkAuthIes (sm : FtSm) (ies : Octets) : FtSm × Except Status Octets :=
  let sm := { sm with pmkR1NameValid := false }
  match wpaFtParseIes ies with
  | none => (sm, .error .unspecifiedFailure)
  | some parse =>
    if !mdieValid conf parse.mdie then (sm, .error .invalidMdie)
    else
      match parse.ftie with
      | none => (sm, .error .invalidFtie)
      | some ftie =>
        let sm := { sm with snonce := Ftie.snonce ftie }
        match parse.r0khId with
        | none => (sm, .error .invalidFtie)
        | some r0khId =>
          let sm := { sm with r0khId := r0khId }
          match parse.rsnPmkid with
          | none => (sm, .error .invalidPmkid)
          | some pmkR0Name => (sm, .ok pmkR0Name)

-- The PTK after `ptk_len` octets of it were derived
def derivePtk (addr : Addr) (sm : FtSm) (r1 : PmkR1) : Octets :=
  let len := if r1.pairwise = some .ccmp then 48 else 64
  cr.pmkR1ToPtk r1.pmkR1 sm.snonce sm.anonce addr conf.addr len ++ sm.ptk.drop len

-- `wpa_ft_process_auth_req` for a PMK-R1 that was found
def deriveKeys (addr : Addr) (sm : FtSm) (r1 : PmkR1) (ans : FtAnswers) : FtSm × Status :=
  let sm := { sm with pmkR1NameValid := true, pmkR1Name := r1.pmkR1Name }
  match ans.anonce with
  | none => (sm.log (.request ans .unspecifiedFailure none), .unspecifiedFailure)
  | some anonce =>
    let sm := { sm with anonce := anonce }
    let sm := { sm with ptk := derivePtk cr conf addr sm r1, terms.pairwise := r1.pairwise }
    let status := if ans.respIes then .success else .unspecifiedFailure
    ((wpaFtInstallPtk sm ans.setKey).log (.request ans status (some (r1, sm.ptk))), status)

-- `wpa_ft_process_auth_req` of the station with an address. A PMK-R1 that is not there may be asked
-- for, but the request is refused.
def wpaFtProcessAuthReq (cache : List PmkR1) (addr : Addr) (sm : FtSm) (ies : Octets)
    (ans : FtAnswers) : FtSm × Status :=
  match checkAuthIes conf sm ies with
  | (sm, .error status) => (sm.log (.request ans status none), status)
  | (sm, .ok pmkR0Name) =>
    match wpaFtFetchPmkR1 cache addr (cr.derivePmkR1Name pmkR0Name conf.r1KeyHolder addr) with
    | none => (sm.log (.request ans .invalidPmkid none), .invalidPmkid)
    | some r1 => deriveKeys cr conf addr sm r1 ans

-- `wpa_ft_validate_reassoc`; `alloc` is for the data of the MIC. `pmk_r1_name_valid` is not looked at.
def wpaFtValidateReassoc (addr : Addr) (sm : FtSm) (ies : Octets) (alloc : Bool) : Status :=
  match wpaFtParseIes ies with
  | none => .unspecifiedFailure
  | some parse =>
    match parse.rsn, parse.rsnPmkid, parse.mdie, parse.ftie with
    | none, _, _, _ => .unspecifiedFailure
    | some _, none, _, _ => .invalidPmkid
    | some rsn, some pmkid, mdie, ftie =>
      if pmkid ≠ sm.pmkR1Name then .invalidPmkid
      else if !mdieValid conf mdie then .invalidMdie
      else
        match mdie, ftie with
        | _, none => .invalidFtie
        | none, _ => .invalidMdie
        | some mdie, some ftie =>
          if Ftie.snonce ftie ≠ sm.snonce then .minusOne
          else if Ftie.anonce ftie ≠ sm.anonce then .minusOne
          else if parse.r0khId ≠ some sm.r0khId then .minusOne
          else if parse.r1khId ≠ some conf.r1KeyHolder then .minusOne
          else if Ftie.count ftie ≠ 3 + ((parse.ric.map fun ric =>
              ieee80211IeCount ric.length ric).getD 0) then .minusOne
          else if !alloc then .unspecifiedFailure
          else if cr.omac1 (kck sm.ptk)
              (ftMicData addr conf.addr 5 mdie ftie rsn (parse.ric.getD [])) ≠ Ftie.mic ftie then
            .invalidFtie
          else .success

-- The events of `wpa_auth_sm_event`
inductive SmEvent where
  | auth
  | assoc
  | deauth
  | disassoc
  | reauth
  | reauthEapol
  | assocFt
  deriving DecidableEq, Repr

-- `wpa_auth_sm_event`; `setKey` is the answer of the driver. The steps of the state machine that
-- follow are operations of their own.
def wpaAuthSmEvent (sm : FtSm) (event : SmEvent) (setKey : Bool) : FtSm :=
  if event = .assocFt then
    { (wpaFtInstallPtk sm setKey).log .assocFt with ftCompleted := true }
  else
    let sm := { sm with ftCompleted := false }
    if event = .auth ∧ sm.terms.mgmtFrameProt then sm
    else
      { sm.log .assigned with
        ptk := List.replicate 64 0
        pairwiseSet := sm.pairwiseSet && event = .reauthEapol }

end Request

def ftKeyMgmtOf (rsnIe : Octets) : List FtAkm :=
  let sels : Except ℤ (List Octets) := do
    let (data, l) ← RsnIe.group {} (rsnIe.drop 4)
    let (_, l) ← RsnIe.pairwise data l
    let (list, _) ← RsnIe.suites (-6) (-7) l
    .ok (list.getD [])
  sels.toOption.getD [] |>.filterMap fun s =>
    if s = rsnSelector 0x00 0x0f 0xac 3 then some .ftIeee8021x
    else if s = rsnSelector 0x00 0x0f 0xac 4 then some .ftPsk
    else none

def pickAkm (ft : List FtAkm) (other : List KeyMgmt) : FtAkm ⊕ KeyMgmt :=
  if .ftIeee8021x ∈ ft then .inl .ftIeee8021x
  else if .ftPsk ∈ ft then .inl .ftPsk
  else .inr (pickKeyMgmt other)

-- `wpa_validate_wpa_ie` with FT, and the status for what it returns. The PMKSA cache is left out.
def wpaValidateWpaIe (conf : FtConfig) (t : Terms) (wpaIe : Octets) (mdie : Option Octets)
    (alloc : Bool) : Terms × Status :=
  if ieVersion wpaIe ∉ conf.wpa.protos then (t, .invalidIe)
  else
    match parseIe wpaIe with
    | .error _ => (t, .invalidIe)
    | .ok data =>
      let ft := if ieVersion wpaIe = .rsn then
        (ftKeyMgmtOf wpaIe).filter (· ∈ conf.ftKeyMgmt) else []
      let other := data.keyMgmt.filter (· ∈ conf.wpa.wpaKeyMgmt)
      let ciphers := commonPairwise conf.wpa (ieVersion wpaIe) data
      if data.groupCipher ≠ some conf.wpa.wpaGroup then (t, .groupCipherNotValid)
      else if ft = [] ∧ other = [] then (t, .akmpNotValid)
      else
        let t := { t with wpaKeyMgmt := some (pickAkm ft other) }
        if ciphers = [] then (t, .pairwiseCipherNotValid)
        else if checkMfp conf.wpa data ciphers ≠ none then (t, .robustMgmtFramePolicyViolation)
        else
          let t := { t with
            mgmtFrameProt := conf.wpa.ieee80211w ≠ .noMgmtFrameProtection && mfpCapable data }
          if ft ≠ [] ∧ !mdieValid conf mdie then (t, .invalidMdie)
          else
            ({ t with
                pairwise := some (if .ccmp ∈ ciphers then .ccmp else .tkip)
                wpa := some (ieVersion wpaIe) },
              if alloc then .success else .unspecifiedFailure)

section AccessPoint

structure FtSta where
  info : Sta
  sm : Option FtSm := none
  deriving DecidableEq, Repr

-- An access point with FT. The station table is a map from addresses.
structure FtAp where
  conf : FtConfig
  cache : List PmkR1 := []
  stas : Addr → Option FtSta := fun _ => none
  sent : List Mlme.Sent := []

namespace FtAp

def send (ap : FtAp) (frame : Mlme.Sent) : FtAp := { ap with sent := frame :: ap.sent }

def set (ap : FtAp) (addr : Addr) (sta : FtSta) : FtAp :=
  { ap with stas := Function.update ap.stas addr (some sta) }

def free (ap : FtAp) (addr : Addr) : FtAp := { ap with stas := Function.update ap.stas addr none }

def apStaAdd (ap : FtAp) (addr : Addr) (alloc : Bool) : Option FtSta :=
  match ap.stas addr with
  | some sta => some sta
  | none => if alloc then some { info := { addr := addr, ext := default } } else none

end FtAp

-- `wpa_auth_sta_init`, where the station has no state machine yet
def wpaAuthStaInit (sta : FtSta) (alloc : Bool) : Option FtSm :=
  match sta.sm with
  | some sm => some sm
  | none => if alloc then some {} else none

variable (cr : FtCrypto)

structure FtAuthFrame extends AuthFrame where
  ies : Octets := []
  deriving DecidableEq, Repr

structure FtAuthAnswers extends AuthAnswers where
  smAlloc : Bool := true
  ft : FtAnswers := {}
  deriving DecidableEq, Repr

-- The tests of `handle_auth` before it looks at the access list
def checkAuthFt (conf : FtConfig) (f : FtAuthFrame) (ans : FtAuthAnswers) : Status :=
  if f.authAlg = wlanAuthFt ∧ conf.wpa.protos ≠ [] ∧ conf.ftKeyMgmt ≠ [] then
    if ans.tkipCountermeasures then .michaelMicFailure
    else if f.transaction ≠ 1 then .unknownAuthTransaction
    else if f.sa = conf.mlme.ownAddr then .unspecifiedFailure
    else .success
  else checkAuth conf.mlme f.toAuthFrame ans.toAuthAnswers

def authEvent (f : FtAuthFrame) (status : Status) (sm : FtSm) : FtSm :=
  if f.authAlg = wlanAuthOpen ∨ (f.transaction = 3 ∧ status = .success) then
    wpaAuthSmEvent sm .auth true
  else sm

-- `handle_auth` for a station that was found or added, with `handle_auth_ft_finish`
def authStation (ap : FtAp) (sta : FtSta) (f : FtAuthFrame) (ans : FtAuthAnswers) : FtAp :=
  let reply (status : Status) : Mlme.Sent := .auth f.sa f.authAlg (f.transaction + 1) status
  if ans.vlanInvalid then (ap.set f.sa sta).send (reply .unspecifiedFailure)
  else
    let sta := { sta with info := { sta.info with flags.preauth := false } }
    if f.authAlg = wlanAuthFt then
      let sta := { sta with info := { sta.info with ext.authAlg := wlanAuthFt } }
      match wpaAuthStaInit sta ans.smAlloc with
      | none => (ap.set f.sa sta).send (reply .unspecifiedFailure)
      | some sm =>
        let r := wpaFtProcessAuthReq cr ap.conf ap.cache f.sa sm f.ies ans.ft
        let info := { sta.info with flags.auth := sta.info.flags.auth || r.2 = .success }
        (ap.set f.sa { info := info, sm := some r.1 }).send (reply r.2)
    else
      let r := authenticate f.toAuthFrame ans.toAuthAnswers sta.info
      (ap.set f.sa { info := r.1, sm := sta.sm.map (authEvent f r.2) }).send (reply r.2)

def handleAuth (ap : FtAp) (f : FtAuthFrame) (ans : FtAuthAnswers) : FtAp :=
  let reply (status : Status) : Mlme.Sent := .auth f.sa f.authAlg (f.transaction + 1) status
  if checkAuthFt ap.conf f ans ≠ .success then ap.send (reply (checkAuthFt ap.conf f ans))
  else
    match ans.acl with
    | .reject => ap.send (reply .unspecifiedFailure)
    | .pending => ap
    | .accept | .acceptTimeout =>
      match ap.apStaAdd f.sa ans.alloc with
      | none => ap.send (reply .unspecifiedFailure)
      | some sta => authStation cr ap sta f ans

-- `wpa_ft_rrb_rx_request` for a request over the distribution system, with
-- `hostapd_wpa_auth_add_sta`
def wpaFtRrbRxRequest (ap : FtAp) (addr : Addr) (body : Octets) (ans : FtAuthAnswers) : FtAp :=
  match ap.apStaAdd addr ans.alloc with
  | none => ap
  | some sta =>
    match wpaAuthStaInit sta ans.smAlloc with
    | none => ap.free addr
    | some sm =>
      let info := { sta.info with ext.authAlg := wlanAuthFt }
      ap.set addr
        { info := info, sm := some (wpaFtProcessAuthReq cr ap.conf ap.cache addr sm body ans.ft).1 }

structure FtAssocAnswers where
  tkipCountermeasures : Bool := false
  htAlloc : Bool := true
  wpsAlloc : Bool := true
  smAlloc : Bool := true
  ieAlloc : Bool := true
  micAlloc : Bool := true
  saQueryTimesOut : Bool := false
  aid : Bool := true
  deriving DecidableEq, Repr

-- The SA Query test of `check_assoc_ies`; whether the procedure has timed out is answered.
def saQueryRejects (info : Sta) (reassoc : Bool) (ans : FtAssocAnswers) : Bool :=
  saQueryGuards info && !ans.saQueryTimesOut && (!reassoc || info.ext.authAlg ≠ wlanAuthFt)

-- The part of `check_assoc_ies` after the WPA/RSN IE was validated
def checkFtAssoc (conf : FtConfig) (addr : Addr) (info : Sta) (sm : FtSm) (ies : Octets)
    (reassoc : Bool) (ans : FtAssocAnswers) : FtSta × Status :=
  if saQueryRejects info reassoc ans then ({ info := info, sm := some sm }, .assocRejectedTemporarily)
  else
    let info := { info with
      saQueryTimedOut := info.saQueryTimedOut || (info.flags.mfp && ans.saQueryTimesOut)
      flags.mfp := sm.terms.mgmtFrameProt }
    let resp :=
      if info.ext.authAlg ≠ wlanAuthFt then .success
      else if !reassoc then .unspecifiedFailure
      else wpaFtValidateReassoc cr conf addr sm ies ans.micAlloc
    ({ info := info, sm := some sm },
      if resp ≠ .success then resp
      else if info.ext.ht && sm.terms.pairwise = some .tkip then .cipherRejectedPerPolicy
      else .success)

-- The part of `check_assoc_ies` for the WPA/RSN IE
def checkWpaIe (conf : FtConfig) (addr : Addr) (info : Sta) (sm : Option FtSm) (wpaIe : Octets)
    (mdie : Option Octets) (ies : Octets) (reassoc : Bool) (ans : FtAssocAnswers) : FtSta × Status :=
  match wpaAuthStaInit { info := info, sm := sm } ans.smAlloc with
  | none => ({ info := info, sm := sm }, .unspecifiedFailure)
  | some sm =>
    let r := wpaValidateWpaIe conf sm.terms wpaIe mdie ans.ieAlloc
    let sm := { sm with terms := r.1 }
    if r.2 ≠ .success then ({ info := info, sm := some sm }, r.2)
    else checkFtAssoc cr conf addr info sm ies reassoc ans

def wpaAuthStaNoWpa (sm : FtSm) : FtSm := { sm with terms.wpaKeyMgmt := none }

def checkAssocIes (wpsValid : Octets → Bool) (conf : FtConfig) (addr : Addr) (sta : FtSta)
    (ies : Octets) (reassoc : Bool) (ans : FtAssocAnswers) : FtSta × Status :=
  match ieee80211ParseElems ies with
  | none => (sta, .unspecifiedFailure)
  | some elems =>
    let r := checkCapabilities conf.mlme elems ans.htAlloc sta.info
    if r.2 ≠ .success then ({ sta with info := r.1 }, r.2)
    else
      let wpaIe := selectWpaIe conf.wpa.protos elems
      let info := wpsFlags conf.mlme elems wpaIe r.1
      match checkWps conf.mlme wpsValid (decide (conf.wpa.protos ≠ [])) ans.wpsAlloc elems ies wpaIe
      with
      | .error status => ({ sta with info := info }, status)
      | .ok none => ({ info := info, sm := sta.sm.map wpaAuthStaNoWpa }, .success)
      | .ok (some wpaIe) => checkWpaIe cr conf addr info sta.sm wpaIe elems.mdie ies reassoc ans

-- `handle_assoc`; a station that uses FT over the distribution system may associate before it is
-- authenticated.
def handleAssoc (wpsValid : Octets → Bool) (ap : FtAp) (f : AssocFrame) (ans : FtAssocAnswers) :
    FtAp :=
  match ap.stas f.sa with
  | none => ap.send (.deauth f.sa)
  | some sta =>
    if !sta.info.flags.auth && sta.info.ext.authAlg ≠ wlanAuthFt then ap.send (.deauth f.sa)
    else if ans.tkipCountermeasures then ap.send (.assocResp f.sa f.reassoc .michaelMicFailure)
    else if ap.conf.mlme.maxListenInterval < f.listenInterval then
      ap.send (.assocResp f.sa f.reassoc .assocDeniedListenIntTooLarge)
    else
      let r := checkAssocIes cr wpsValid ap.conf f.sa sta f.ies f.reassoc ans
      if r.2 ≠ .success then (ap.set f.sa r.1).send (.assocResp f.sa f.reassoc r.2)
      else if !ans.aid then
        (ap.set f.sa r.1).send (.assocResp f.sa f.reassoc .apUnableToHandleNewSta)
      else
        let info := { r.1.info with
          flags.assocReqOk := true
          timeoutNext := .nullfunc
          ext := { r.1.info.ext with capability := f.capabInfo, listenInterval := f.listenInterval } }
        (ap.set f.sa { r.1 with info := info }).send (.assocResp f.sa f.reassoc .success)

-- `handle_assoc_cb` for a response that was acknowledged; `added` tells whether the driver took the
-- station, `setKey` what it answers for the key.
def handleAssocCb (ap : FtAp) (da : Addr) (status : Status) (added setKey : Bool) : FtAp :=
  match ap.stas da with
  | none => ap
  | some sta =>
    if status ≠ .success then ap
    else
      let ft := decide (sta.info.ext.authAlg = wlanAuthFt)
      let info := { sta.info with
        flags := { sta.info.flags with
          assoc := true
          authorized := sta.info.flags.authorized || ft ||
            (!ap.conf.mlme.ieee8021x && ap.conf.wpa.protos = []) }
        saQueryTimedOut := false }
      if !added then
        ap.set da { sta with info := { info with
          flags := { info.flags with
            auth := false, assoc := false, authorized := false, pendingDeauthCb := true }
          timeoutNext := .remove } }
      else
        ap.set da
          { info := info
            sm := sta.sm.map fun sm => wpaAuthSmEvent sm (if ft then .assocFt else .assoc) setKey }

-- What the state machine for the 4-way handshake assigns
structure SmUpdate where
  snonce : Octets
  anonce : Octets
  pmkR1Name : Octets
  ptk : Octets
  pairwiseSet : Bool
  deriving DecidableEq, Repr

def FtSm.assign (sm : FtSm) (u : SmUpdate) : FtSm :=
  { sm.log .assigned with
    snonce := u.snonce
    anonce := u.anonce
    pmkR1Name := u.pmkR1Name
    ptk := u.ptk
    pairwiseSet := u.pairwiseSet }

-- What happens at the access point. An event is for the state machine of a station; its own steps
-- assign what they like. A PMK-R1 is stored when a key holder sends it or a handshake derives it.
inductive FtOp where
  | auth (f : FtAuthFrame) (ans : FtAuthAnswers)
  | rrbRequest (addr : Addr) (body : Octets) (ans : FtAuthAnswers)
  | assoc (f : AssocFrame) (ans : FtAssocAnswers)
  | assocCb (da : Addr) (status : Status) (added setKey : Bool)
  | event (addr : Addr) (event : SmEvent) (setKey : Bool)
  | stateMachine (addr : Addr) (u : SmUpdate)
  | storePmkR1 (r1 : PmkR1)
  | flags (addr : Addr) (flags : StaFlags)
  | free (addr : Addr)
  deriving DecidableEq, Repr

def FtAp.modifySm (ap : FtAp) (addr : Addr) (g : FtSm → FtSm) : FtAp :=
  match ap.stas addr with
  | none => ap
  | some sta => ap.set addr { sta with sm := sta.sm.map g }

def exec (wpsValid : Octets → Bool) (ap : FtAp) : FtOp → FtAp
  | .auth f ans => handleAuth cr ap f ans
  | .rrbRequest addr body ans => wpaFtRrbRxRequest cr ap addr body ans
  | .assoc f ans => handleAssoc cr wpsValid ap f ans
  | .assocCb da status added setKey => handleAssocCb ap da status added setKey
  | .event addr event setKey =>
    if event = .assocFt then ap
    else ap.modifySm addr fun sm => wpaAuthSmEvent sm event setKey
  | .stateMachine addr u => ap.modifySm addr fun sm => sm.assign u
  | .storePmkR1 r1 => { ap with cache := r1 :: ap.cache }
  | .flags addr flags =>
    match ap.stas addr with
    | none => ap
    | some sta => ap.set addr { sta with info := { sta.info with flags := flags } }
  | .free addr => ap.free addr

end AccessPoint

end WpaSupplicant.Ap.Ft

import WpaSupplicant.Lib.Machine
import WpaSupplicant.Wps.Enrollee

namespace WpaSupplicant.Wps.Registrar

open Lib.Octets
open Enrollee (refuse openSettings failEvent acceptControl saveMsg)

variable (c : Crypto)

def pbcPassword : Octets := List.replicate 8 48

-- `wps_get_dev_password`
def getDevPassword (env : Env) (wps : WpsData) : WpsData × Bool × List Event :=
  let wps := { wps with devPassword := none }
  match if wps.pbc then some pbcPassword else env.pin with
  | none => (wps, false, [.pinNeeded wps.uuidE])
  | some pin =>
    if !env.alloc .devPassword then (wps, false, [])
    else ({ wps with devPassword := some pin }, true, [])

def ownAttrs (ctx : Context) : List (ℕ × Octets) :=
  [buildAuthTypeFlags ctx, buildEncrTypeFlags ctx, buildConnTypeFlags,
    buildConfigMethods ctx.configMethods] ++
  buildDeviceAttrs ctx.dev ++ [buildRfBands ctx.dev, buildAssocState]

def m2Attrs (ctx : Context) (wps : WpsData) (publicKey : ℕ × Octets) : List (ℕ × Octets) :=
  [buildVersion, buildMsgType m2, buildEnrolleeNonce wps.nonceE, buildRegistrarNonce wps.nonceR,
    buildUuidR wps.uuidR, publicKey] ++ ownAttrs ctx ++
  [buildConfigError cfgNoError, buildDevPasswordId wps.devPwId, buildOsVersion ctx.dev] ++
  buildWfaExt ctx

-- `wps_build_m2`
def buildM2 (env : Env) (ctx : Context) (wps : WpsData) : WpsData × Option Octets :=
  match env.nonce with
  | none => (wps, none)
  | some nonce =>
    let wps := { wps with nonceR := nonce }
    if !env.alloc .msg then (wps, none)
    else
      match buildPublicKey env wps with
      | (wps, none) => (wps, none)
      | (wps, some pk) =>
        match deriveKeys c wps with
        | (wps, false) => (wps, none)
        | (wps, true) =>
          match buildAuthenticator c wps (encode (m2Attrs ctx wps pk)) with
          | none => (wps, none)
          | some msg => ({ wps with state := .recvM3 }, some msg)

-- `wps_build_m2d`
def buildM2d (env : Env) (ctx : Context) (wps : WpsData) : WpsData × Option Octets :=
  if !env.alloc .msg then (wps, none)
  else
    let err :=
      if ctx.ap ∧ ctx.apSetupLocked ≠ 0 ∧ wps.configError = cfgNoError then cfgSetupLocked
      else wps.configError
    ({ wps with state := .recvM2dAck },
      some (encode ([buildVersion, buildMsgType m2d, buildEnrolleeNonce wps.nonceE,
        buildRegistrarNonce wps.nonceR, buildUuidR wps.uuidR] ++ ownAttrs ctx ++
        [buildConfigError err, buildOsVersion ctx.dev] ++ buildWfaExt ctx)))

def m4Head (wps : WpsData) : List (ℕ × Octets) :=
  [buildVersion, buildMsgType m4, buildEnrolleeNonce wps.nonceE,
    (attrRHash1, putBE 32 (commitment1 c wps.toSecrets wps.snonce1)),
    (attrRHash2, putBE 32 (commitment2 c wps.toSecrets wps.snonce2))]

-- `wps_build_m4`, with `wps_build_r_hash`; there is a password in this state.
def buildM4 (env : Env) (ctx : Context) (wps : WpsData) : WpsData × Option Octets :=
  let wps := derivePsk c wps (wps.devPassword.getD [])
  if !env.alloc .plain || !env.alloc .msg || !env.snonceOk then (wps, none)
  else
    let wps := { wps with snonce1 := env.snonce1, snonce2 := env.snonce2 }
    if wps.dhPubkeyE = none ∨ wps.dhPubkeyR = none then (wps, none)
    else
      match buildSecured c env ctx wps (m4Head c wps) (tlv attrRSnonce1 (putBE 16 wps.snonce1)) with
      | none => (wps, none)
      | some msg => ({ wps with state := .recvM5 }, some msg)

def encryptedHead (wps : WpsData) (type : BitVec 8) : List (ℕ × Octets) :=
  [buildVersion, buildMsgType type, buildEnrolleeNonce wps.nonceE]

-- `wps_build_m6`
def buildM6 (env : Env) (ctx : Context) (wps : WpsData) : WpsData × Option Octets :=
  if !env.alloc .plain || !env.alloc .msg then (wps, none)
  else
    match buildSecured c env ctx wps (encryptedHead wps m6)
      (tlv attrRSnonce2 (putBE 16 wps.snonce2)) with
    | none => (wps, none)
    | some msg => ({ wps with pinRevealed := true, state := .recvM7 }, some msg)

-- `wps_build_credential`
def buildCredential (cred : Credential) : Octets :=
  encode [(attrNetworkIndex, [1]), (attrSsid, cred.ssid), (attrAuthType, putBE 2 cred.authType),
    (attrEncrType, putBE 2 cred.encrType), (attrNetworkKey, cred.key), buildMacAddr cred.macAddr]

def bestAuthType (authType : BitVec 16) : Option (BitVec 16) :=
  if authType &&& authWpa2psk ≠ 0 then some authWpa2psk
  else if authType &&& authWpapsk ≠ 0 then some authWpapsk
  else if authType &&& authOpen ≠ 0 then some authOpen
  else if authType &&& authShared ≠ 0 then some authShared
  else none

def bestEncrType (authType encrType : BitVec 16) : Option (BitVec 16) :=
  if authType = authWpa2psk ∨ authType = authWpapsk then
    if encrType &&& encrAes ≠ 0 then some encrAes
    else if encrType &&& encrTkip ≠ 0 then some encrTkip
    else none
  else if encrType &&& encrWep ≠ 0 then some encrWep
  else if encrType &&& encrNone ≠ 0 then some encrNone
  else none

-- `wpa_snprintf_hex`
def hexDigit (n : ℕ) : UInt8 := if n < 10 then UInt8.ofNat (48 + n) else UInt8.ofNat (87 + n)
def hexOctets (l : Octets) : Octets := l.flatMap fun b => [hexDigit (b.toNat / 16), hexDigit (b.toNat % 16)]

-- The key of a credential, with the new PSK of the session: a new passphrase for an AP that is not
-- configured, the PSK, the passphrase, or a new PSK for the device
def credKey (env : Env) (ctx : Context) (wps : WpsData) : Option (Octets × Option Octets) :=
  if ctx.wpsState = stateNotConfigured ∧ ctx.ap ∧ ¬ctx.disableAutoConf then
    env.passphrase.map fun p => (p, some p)
  else
    match if wps.usePskKey then ctx.psk else none, ctx.networkKey with
    | some psk, _ => some (hexOctets (putBE 32 psk), wps.newPsk)
    | none, some key => some (key, wps.newPsk)
    | none, none =>
      if wps.authType &&& (authWpapsk ||| authWpa2psk) = 0 then some ([], wps.newPsk)
      else if !env.alloc .newPsk then none
      else env.devicePsk.map fun k => (hexOctets (putBE 32 k), some (putBE 32 k))

-- The credential that `wps_build_cred` makes from the configuration
def makeCred (env : Env) (ctx : Context) (wps : WpsData) : WpsData × Bool :=
  let wps := { wps with cred := {} }
  match bestAuthType wps.authType with
  | none => (wps, false)
  | some authType =>
    let wps := { wps with authType := authType }
    match bestEncrType authType wps.encrType with
    | none => (wps, false)
    | some encrType =>
      let wps := { wps with encrType := encrType }
      match credKey env ctx wps with
      | none => (wps, false)
      | some (key, newPsk) =>
        ({ wps with
          newPsk := newPsk
          cred := {
            ssid := ctx.ssid
            authType := authType
            encrType := encrType
            key := key
            macAddr := wps.macAddrE } }, true)

-- `wps_build_cred`
def buildCred (env : Env) (ctx : Context) (wps : WpsData) : WpsData × Option Octets :=
  let extra := ctx.extraCred.getD []
  if ctx.skipCredBuild then (wps, some extra)
  else
    match (match wps.useCred with
      | some cred => ({ wps with cred := cred }, true)
      | none => makeCred env ctx wps) with
    | (wps, false) => (wps, none)
    | (wps, true) =>
      if !env.alloc .cred then (wps, none)
      else (wps, some (tlv attrCred (buildCredential wps.cred) ++ extra))

def m8Settings (env : Env) (ctx : Context) (wps : WpsData) : WpsData × Option Octets :=
  if ctx.ap ∨ wps.er then buildCred env ctx wps else (wps, some (buildCredential wps.cred))

-- `wps_build_m8`
def buildM8 (env : Env) (ctx : Context) (wps : WpsData) : WpsData × Option Octets :=
  if !env.alloc .plain || !env.alloc .msg then (wps, none)
  else
    match m8Settings env ctx wps with
    | (wps, none) => (wps, none)
    | (wps, some plain) =>
      match buildSecured c env ctx wps (encryptedHead wps m8) plain with
      | none => (wps, none)
      | some msg => ({ wps with state := .recvDone }, some msg)

def answerM1 (env : Env) (ctx : Context) (wps : WpsData) :
    WpsData × Option (OpCode × Octets) × List Event :=
  let p := getDevPassword env wps
  let r := saveMsg env (if p.2.1 then buildM2 c env ctx p.1 else buildM2d env ctx p.1)
  (r.1, r.2, p.2.2)

-- `wps_registrar_get_msg`
def getMsg (env : Env) (ctx : Context) (wps : WpsData) :
    WpsData × Option (OpCode × Octets) × List Event :=
  match wps.state with
  | .sendM2 => answerM1 c env ctx wps
  | .sendM2d =>
    let r := saveMsg env (buildM2d env ctx wps)
    (r.1, r.2, [])
  | .sendM4 =>
    let r := saveMsg env (buildM4 c env ctx wps)
    (r.1, r.2, [])
  | .sendM6 =>
    let r := saveMsg env (buildM6 c env ctx wps)
    (r.1, r.2, [])
  | .sendM8 =>
    let r := saveMsg env (buildM8 c env ctx wps)
    (r.1, r.2, [])
  | .recvDone => (wps, (buildWscAck env ctx wps).map (OpCode.ack, ·), [])
  | .sendWscNack => (wps, (buildWscNack env ctx wps).map (OpCode.nack, ·), [])
  | _ => (wps, none, [])

def commonTypes (own peer : BitVec 16) : BitVec 16 := if own &&& peer = 0 then own else own &&& peer

def devPwIdSupported (ctx : Context) (id : BitVec 16) : Bool :=
  0x10 ≤ id.toNat || id = devPwDefault || id = devPwUserSpecified || id = devPwMachineSpecified ||
    id = devPwRegistrarSpecified || (id = devPwPushbutton && ctx.registrarPbc)

def cString (s : Option Octets) : Octets := (s.getD []).takeWhile (· ≠ 0)

-- "Apple " and "AirPort": the workaround that asks for the PSK
def prefersPsk (attr : ParseAttr) : Bool :=
  (cString (attr.get attrManufacturer)).take 6 = [65, 112, 112, 108, 101, 32] &&
    cString (attr.get attrModelName) = [65, 105, 114, 80, 111, 114, 116]

-- What M1 says about the Enrollee: the fields in the order in which they are read. A field that is
-- missing ends it, and what was read before stays.
def readM1 (env : Env) (ctx : Context) (wps : WpsData) (attr : ParseAttr) : WpsData × Bool :=
  match attr.uuidE with
  | none => (wps, false)
  | some uuidE =>
    let wps := { wps with uuidE := uuidE }
    match attr.macAddr with
    | none => (wps, false)
    | some macAddr =>
      let wps := { wps with macAddrE := macAddr }
      match attr.enrolleeNonce with
      | none => (wps, false)
      | some nonceE =>
        let wps := { wps with nonceE := nonceE }
        match attr.publicKey with
        | none => (wps, false)
        | some pk =>
          if pk = [] then (wps, false)
          else if !env.alloc .pubkey then ({ wps with dhPubkeyE := none }, false)
          else
            let wps := { wps with dhPubkeyE := some pk }
            match attr.authTypeFlags with
            | none => (wps, false)
            | some authTypes =>
              let wps := { wps with authType := commonTypes ctx.authTypes authTypes }
              match attr.encrTypeFlags with
              | none => (wps, false)
              | some encrTypes =>
                let wps := { wps with encrType := commonTypes ctx.encrTypes encrTypes }
                match attr.get attrConnTypeFlags, attr.configMethods with
                | some _, some methods =>
                  let wps := { wps with
                    usePskKey := wps.usePskKey || methods &&& configDisplay = 0 }
                  if (attr.get attrWpsState).isSome ∧ processDeviceAttrs env attr ∧
                      (attr.get attrRfBands).isSome ∧
                      (attr.get attrAssocState).isSome then
                    match attr.devPasswordId with
                    | none => (wps, false)
                    | some id =>
                      ({ wps with devPwId := id },
                        attr.configError.isSome && (attr.get attrOsVersion).isSome)
                  else (wps, false)
                | _, _ => (wps, false)

-- `wps_process_m1`
def processM1 (env : Env) (ctx : Context) (wps : WpsData) (attr : ParseAttr) :
    WpsData × ProcessRes × List Event :=
  if wps.state ≠ .recvM1 then (wps, .failure, [])
  else
    match readM1 env ctx wps attr with
    | (wps, false) => (wps, .failure, [])
    | (wps, true) =>
      if !devPwIdSupported ctx wps.devPwId then ({ wps with state := .sendM2d }, .continue, [])
      else if wps.devPwId = devPwPushbutton ∧ env.pbcOverlap then
        ({ wps with state := .sendM2d, configError := cfgMultiplePbcDetected }, .continue,
          [.pbcOverlap, .fail m1 cfgMultiplePbcDetected 0])
      else
        ({ wps with
          pbc := wps.pbc || wps.devPwId = devPwPushbutton
          usePskKey := wps.usePskKey || prefersPsk attr
          state := .sendM2 }, .continue, [])

def pbcDenied (ctx : Context) (wps : WpsData) : Bool :=
  wps.pbc && ctx.forcePbcOverlap && !ctx.skipOverlap

def checkMsg (ctx : Context) (wps : WpsData) (msg : Octets) (attr : ParseAttr) (state : State) :
    Except WpsData Unit :=
  if wps.state ≠ state then .error (refuse wps)
  else if pbcDenied ctx wps then .error (refuse { wps with configError := cfgMultiplePbcDetected })
  else if attr.registrarNonce ≠ some wps.nonceR ∨
      ¬processAuthenticator c wps attr.authenticator msg then .error (refuse wps)
  else .ok ()

-- `wps_process_m3`
def processM3 (ctx : Context) (wps : WpsData) (msg : Octets) (attr : ParseAttr) : WpsData :=
  match checkMsg c ctx wps msg attr .recvM3 with
  | .error wps => wps
  | .ok _ =>
    match attr.eHash1 with
    | none => refuse wps
    | some h1 =>
      match attr.eHash2 with
      | none => refuse { wps with peerHash1 := h1 }
      | some h2 => { wps with peerHash1 := h1, peerHash2 := h2, state := .sendM4 }

-- `wps_process_e_snonce1`
def processESnonce1 (wps : WpsData) (snonce : Option (BitVec 128)) : WpsData × List Event × Bool :=
  match snonce with
  | none => (wps, [], false)
  | some n =>
    if wps.peerHash1 = commitment1 c wps.toSecrets n then (wps, [], true)
    else
      ({ wps with configError := cfgDevPasswordAuthFailure }, [.pwdAuthFail false 1], false)

-- `wps_process_e_snonce2`. A password that was proved is used up.
def processESnonce2 (wps : WpsData) (snonce : Option (BitVec 128)) : WpsData × List Event × Bool :=
  match snonce with
  | none => (wps, [], false)
  | some n =>
    if wps.peerHash2 = commitment2 c wps.toSecrets n then
      ({ wps with pinRevealed := false }, [.unlockPin wps.uuidE, .invalidatePin wps.uuidE], true)
    else
      ({ wps with configError := cfgDevPasswordAuthFailure },
        [.invalidatePin wps.uuidE, .pwdAuthFail false 2], false)

-- `wps_process_m5`
def processM5 (env : Env) (ctx : Context) (wps : WpsData) (msg : Octets) (attr : ParseAttr) :
    WpsData × List Event :=
  match checkMsg c ctx wps msg attr .recvM5 with
  | .error wps => (wps, [])
  | .ok _ =>
    match openSettings c env wps attr with
    | none => (refuse wps, [])
    | some (_, eattr) =>
      let r := processESnonce1 c wps eattr.eSnonce1
      (if r.2.2 then { r.1 with state := .sendM6 } else refuse r.1, r.2.1)

-- One authentication and one encryption type, as `wps_sta_cred_cb` wants them
def staCred (cred : Credential) : Credential :=
  { cred with
    authType :=
      if cred.authType &&& authWpa2psk ≠ 0 then authWpa2psk
      else if cred.authType &&& authWpapsk ≠ 0 then authWpapsk
      else cred.authType
    encrType :=
      if cred.encrType &&& encrAes ≠ 0 then encrAes
      else if cred.encrType &&& encrTkip ≠ 0 then encrTkip
      else cred.encrType }

-- `wps_process_ap_settings_r`: the settings of an AP are replaced by new ones, or are only learned, which
-- ends the run.
def processApSettingsR (env : Env) (ctx : Context) (wps : WpsData) (attr : ParseAttr) :
    WpsData × List Event × Bool :=
  if ctx.ap ∨ wps.er then (wps, [], true)
  else
    match processApSettings attr with
    | none => (wps, [], false)
    | some cred =>
      match wps.newApSettings with
      | some new => ({ wps with cred := { new with macAddr := cred.macAddr } }, [], true)
      | none =>
        if !env.alloc .msg || !env.alloc .plain then
          ({ wps with cred := cred }, [.pinCompleted], false)
        else if wps.apSettingsCb then
          ({ wps with cred := cred }, [.pinCompleted, .apSettingsCb cred], false)
        else
          ({ wps with cred := staCred cred }, [.pinCompleted, .credCb (staCred cred)], false)

def processM7Settings (env : Env) (ctx : Context) (wps : WpsData) (eattr : ParseAttr) :
    WpsData × List Event × Bool :=
  match processESnonce2 c wps eattr.eSnonce2 with
  | (wps, events, false) => (wps, events, false)
  | (wps, events, true) =>
    let r := processApSettingsR env ctx wps eattr
    (r.1, events ++ r.2.1, r.2.2)

-- `wps_process_m7`
def processM7 (env : Env) (ctx : Context) (wps : WpsData) (msg : Octets) (attr : ParseAttr) :
    WpsData × List Event :=
  match checkMsg c ctx wps msg attr .recvM7 with
  | .error wps => (wps, [])
  | .ok _ =>
    match openSettings c env wps attr with
    | none => (refuse wps, [])
    | some (_, eattr) =>
      let r := processM7Settings c env ctx wps eattr
      (if r.2.2 then { r.1 with state := .sendM8 } else refuse r.1, r.2.1)

-- The messages that `wps_process_wsc_msg` knows
def dispatch (env : Env) (ctx : Context) (wps : WpsData) (msg : Octets) (attr : ParseAttr)
    (type : BitVec 8) : WpsData × ProcessRes × List Event :=
  if type = m1 then processM1 env ctx wps attr
  else if type = m3 then
    let wps := processM3 c ctx wps msg attr
    (wps, .continue, failEvent wps m3)
  else if type = m5 then
    let r := processM5 c env ctx wps msg attr
    (r.1, .continue, r.2 ++ failEvent r.1 m5)
  else if type = m7 then
    let r := processM7 c env ctx wps msg attr
    (r.1, .continue, r.2 ++ failEvent r.1 m7)
  else (wps, .failure, [])

-- `wps_process_wsc_msg`
def processWscMsg (env : Env) (ctx : Context) (wps : WpsData) (msg : Octets) :
    WpsData × ProcessRes × List Event :=
  match parseMsg msg with
  | none => (wps, .failure, [])
  | some attr =>
    match attr.msgType with
    | none => (refuse wps, .continue, [])
    | some type =>
      if type ≠ m1 ∧ ¬nonceMatches wps.nonceR attr.registrarNonce then (wps, .failure, [])
      else
        match dispatch c env ctx wps msg attr type with
        | (wps, .continue, events) => (saveLast env wps msg, .continue, events)
        | r => r

-- `wps_process_wsc_ack`, without an external Registrar: there is no other Registrar to go on with.
def processWscAck (wps : WpsData) (msg : Octets) : WpsData × ProcessRes × List Event :=
  match acceptControl wps msg wscAck with
  | none => (wps, .failure, [])
  | some _ => (wps, .failure, [])

def nackEvent (wps : WpsData) (configError : BitVec 16) : List Event :=
  match wps.state with
  | .recvM3 => [.fail m2 configError wps.errorIndication]
  | .recvM5 => [.fail m4 configError wps.errorIndication]
  | .recvM7 => [.fail m6 configError wps.errorIndication]
  | .recvDone => [.fail m8 configError wps.errorIndication]
  | _ => []

-- `wps_process_wsc_nack`: the state changes before anything is checked.
def processWscNack (wps : WpsData) (msg : Octets) : WpsData × ProcessRes × List Event :=
  match (acceptControl wps msg wscNack).bind ParseAttr.configError with
  | none => (refuse wps, .failure, [])
  | some configError => (refuse wps, .failure, nackEvent wps configError)

-- An AP that was not configured takes the passphrase that it gave to its first Enrollee.
def moveToConfigured (ctx : Context) (wps : WpsData) : WpsData × List Event :=
  match wps.newPsk with
  | none => (wps, [])
  | some psk =>
    if ctx.wpsState = stateNotConfigured ∧ ctx.ap ∧ ¬ctx.disableAutoConf then
      ({ wps with newPsk := none },
        [.configured, .credCb {
          ssid := ctx.ssid
          authType := authWpapsk ||| authWpa2psk
          encrType := encrTkip ||| encrAes
          key := psk }])
    else (wps, [])

def ownCred (ctx : Context) (wps : WpsData) : WpsData × List Event :=
  if !ctx.ap ∧ ¬wps.er then
    ({ wps with cred := staCred wps.cred }, [.credCb (staCred wps.cred)])
  else (wps, [])

def finish (ctx : Context) (wps : WpsData) : WpsData × List Event :=
  let r := moveToConfigured ctx wps
  let r' := ownCred ctx r.1
  let newPsk :=
    match r'.1.newPsk with
    | some psk => [Event.newPsk wps.macAddrE psk]
    | none => []
  ({ r'.1 with newPsk := none },
    [.deviceStore wps.uuidE] ++ r.2 ++ r'.2 ++ newPsk ++
      [.regSuccess wps.macAddrE wps.uuidE, if wps.pbc then .pbcCompleted else .pinCompleted, .success])

-- `wps_process_wsc_done`, without an external Registrar
def processWscDone (ctx : Context) (wps : WpsData) (msg : Octets) :
    WpsData × ProcessRes × List Event :=
  if wps.state ≠ .recvDone then (wps, .failure, [])
  else
    match acceptControl wps msg wscDone with
    | none => (wps, .failure, [])
    | some _ =>
      let r := finish ctx wps
      (r.1, .done, r.2)

-- The end of `wps_registrar_process_msg` for WSC_Done, which a WSC_NACK runs into
def endDone (ctx : Context) (wps : WpsData) (msg : Octets) : WpsData × ProcessRes × List Event :=
  let r := processWscDone ctx wps msg
  if r.2.1 = .failure then
    (refuse r.1, .failure, r.2.2 ++ [.fail wscDone r.1.configError r.1.errorIndication])
  else r

-- `wps_registrar_process_msg`, without an external Registrar. There is no return after a WSC_NACK.
def processMsg (env : Env) (ctx : Context) (wps : WpsData) (opCode : OpCode) (msg : Octets) :
    WpsData × ProcessRes × List Event :=
  match opCode with
  | .msg => processWscMsg c env ctx wps msg
  | .ack => processWscAck wps msg
  | .nack =>
    let r := processWscNack wps msg
    let r' := endDone ctx r.1 msg
    (r'.1, r'.2.1, r.2.2 ++ r'.2.2)
  | .done => endDone ctx wps msg
  | _ => (wps, .failure, [])

end WpaSupplicant.Wps.Registrar

namespace WpaSupplicant.Wps

-- `struct wps_config`, with what an external Registrar sets afterwards
structure Config where
  registrar : Bool
  pin : Option Octets := none
  pbc : Bool := false
  devPwId : BitVec 16 := 0
  newApSettings : Option Credential := none
  usePskKey : Bool := false
  pbcInM1 : Bool := false
  er : Bool := false
  apSettingsCb : Bool := false
  useCred : Option Credential := none
  deriving DecidableEq, Repr

-- `wps_init`
def init (ctx : Context) (cfg : Config) : WpsData where
  registrar := cfg.registrar
  er := cfg.er
  state := if cfg.registrar then .recvM1 else .sendM1
  uuidE := if cfg.registrar then 0 else ctx.uuid
  uuidR := if cfg.registrar then ctx.uuid else 0
  macAddrE := if cfg.registrar then 0 else ctx.dev.macAddr
  devPassword := if cfg.pbc then some Registrar.pbcPassword else cfg.pin
  devPwId :=
    if cfg.pbc then devPwPushbutton else if cfg.pin.isSome then cfg.devPwId else devPwDefault
  pbc := cfg.pbc
  newApSettings := cfg.newApSettings
  apSettingsCb := cfg.apSettingsCb
  useCred := cfg.useCred
  usePskKey := cfg.usePskKey
  pbcInM1 := cfg.pbcInM1

variable (c : Crypto)

-- `wps_process_msg`
def processMsg (env : Env) (ctx : Context) (wps : WpsData) (opCode : OpCode) (msg : Octets) :
    WpsData × ProcessRes × List Event :=
  if wps.registrar then Registrar.processMsg c env ctx wps opCode msg
  else Enrollee.processMsg c env ctx wps opCode msg

-- `wps_get_msg`
def getMsg (env : Env) (ctx : Context) (wps : WpsData) :
    WpsData × Option (OpCode × Octets) × List Event :=
  if wps.registrar then Registrar.getMsg c env ctx wps else Enrollee.getMsg c env ctx wps

inductive Op where
  | processMsg (opCode : OpCode) (msg : Octets)
  | getMsg
  deriving DecidableEq, Repr

structure Step where
  env : Env
  ctx : Context
  op : Op

def stepData (wps : WpsData) (step : Step) : WpsData :=
  match step.op with
  | .processMsg opCode msg => (processMsg c step.env step.ctx wps opCode msg).1
  | .getMsg => (getMsg c step.env step.ctx wps).1

-- A session with its history: the calls and the states that they met, the last one first
structure Session where
  data : WpsData
  log : List (WpsData × Step) := []

def exec (s : Session) (step : Step) : Session :=
  ⟨stepData c s.data step, (s.data, step) :: s.log⟩

def lengthCrypto : Crypto where
  hmacSha256 key data := BitVec.ofNat 256 (key.length + data.length)
  sha256 data := BitVec.ofNat 256 data.length
  cbcEncrypt _ _ plain := some plain
  cbcDecrypt _ _ data := some data
  dhShared priv pub := some (priv ++ pub)

def enrolleeEnv : Env := { nonce := some 1, snonce1 := 2, snonce2 := 3, dh := some ([5], [5]) }
def registrarEnv : Env :=
  { nonce := some 4, snonce1 := 5, snonce2 := 6, dh := some ([7], [7]), pin := some [49, 50, 51, 52] }

end WpaSupplicant.Wps

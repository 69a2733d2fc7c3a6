import WpaSupplicant.Wps

namespace WpaSupplicant.Wps.Enrollee

open Lib.Octets

variable (c : Crypto)

def m1ConfigMethods (ctx : Context) (wps : WpsData) : BitVec 16 :=
  if ctx.ap ∧ ¬wps.pbcInM1 ∧
      ((wps.devPassword.getD []).length ≠ 0 ∨ ctx.configMethods &&& configDisplay ≠ 0) then
    let m := ctx.configMethods &&& ~~~configPushbutton
    if ctx.wps2 then m &&& ~~~(configVirtPushbutton ||| configPhyPushbutton) else m
  else ctx.configMethods

def m1Attrs (ctx : Context) (wps : WpsData) (publicKey : ℕ × Octets) : List (ℕ × Octets) :=
  [buildVersion, buildMsgType m1, buildUuidE wps.uuidE, buildMacAddr wps.macAddrE,
    buildEnrolleeNonce wps.nonceE, publicKey, buildAuthTypeFlags ctx, buildEncrTypeFlags ctx,
    buildConnTypeFlags, buildConfigMethods (m1ConfigMethods ctx wps),
    (attrWpsState, putBE 1 (if ctx.ap then ctx.wpsState else stateNotConfigured))] ++
  buildDeviceAttrs ctx.dev ++
  [buildRfBands ctx.dev, buildAssocState, buildDevPasswordId wps.devPwId,
    buildConfigError cfgNoError, buildOsVersion ctx.dev] ++
  buildWfaExt ctx

-- `wps_build_m1`
def buildM1 (env : Env) (ctx : Context) (wps : WpsData) : WpsData × Option Octets :=
  match env.nonce with
  | none => (wps, none)
  | some nonce =>
    let wps := { wps with nonceE := nonce }
    if !env.alloc .msg then (wps, none)
    else
      match buildPublicKey env wps with
      | (wps, none) => (wps, none)
      | (wps, some pk) => ({ wps with state := .recvM2 }, some (encode (m1Attrs ctx wps pk)))

def m3Attrs (ctx : Context) (wps : WpsData) : List (ℕ × Octets) :=
  [buildVersion, buildMsgType m3, buildRegistrarNonce wps.nonceR,
    (attrEHash1, putBE 32 (commitment1 c wps.toSecrets wps.snonce1)),
    (attrEHash2, putBE 32 (commitment2 c wps.toSecrets wps.snonce2))] ++ buildWfaExt ctx

-- `wps_build_m3`, with `wps_build_e_hash`
def buildM3 (env : Env) (ctx : Context) (wps : WpsData) : WpsData × Option Octets :=
  match wps.devPassword with
  | none => (wps, none)
  | some passwd =>
    let wps := derivePsk c wps passwd
    if !env.alloc .msg || !env.snonceOk then (wps, none)
    else
      let wps := { wps with snonce1 := env.snonce1, snonce2 := env.snonce2 }
      if wps.dhPubkeyE = none ∨ wps.dhPubkeyR = none then (wps, none)
      else
        match buildAuthenticator c wps (encode (m3Attrs c ctx wps)) with
        | none => (wps, none)
        | some msg => ({ wps with state := .recvM4 }, some msg)

-- `wps_build_m5` and `wps_build_m7`: a message with encrypted settings, and the next state
def buildEncrypted (env : Env) (ctx : Context) (wps : WpsData) (type : BitVec 8) (plain : Octets)
    (next : State) : WpsData × Option Octets :=
  if !env.alloc .plain || !env.alloc .msg then (wps, none)
  else
    match buildSecured c env ctx wps
      [buildVersion, buildMsgType type, buildRegistrarNonce wps.nonceR] plain with
    | none => (wps, none)
    | some msg => ({ wps with state := next }, some msg)

def buildM5 (env : Env) (ctx : Context) (wps : WpsData) : WpsData × Option Octets :=
  buildEncrypted c env ctx wps m5 (tlv attrESnonce1 (putBE 16 wps.snonce1)) .recvM6

def credAuthType (ctx : Context) : BitVec 16 :=
  if ctx.authTypes &&& authWpa2psk ≠ 0 then authWpa2psk
  else if ctx.authTypes &&& authWpapsk ≠ 0 then authWpapsk
  else if ctx.authTypes &&& authOpen ≠ 0 then authOpen
  else if ctx.authTypes &&& authShared ≠ 0 then authShared
  else ctx.authTypes

def credEncrType (ctx : Context) : BitVec 16 :=
  if ctx.authTypes &&& (authWpa2psk ||| authWpapsk) ≠ 0 then
    if ctx.encrTypes &&& encrAes ≠ 0 then encrAes
    else if ctx.encrTypes &&& encrTkip ≠ 0 then encrTkip
    else ctx.encrTypes
  else if ctx.encrTypes &&& encrWep ≠ 0 then encrWep
  else if ctx.encrTypes &&& encrNone ≠ 0 then encrNone
  else ctx.encrTypes

-- `wps_build_ap_settings`
def buildApSettings (ctx : Context) : Octets :=
  match ctx.apSettings with
  | some settings => settings
  | none =>
    encode [(attrSsid, ctx.ssid), buildMacAddr ctx.dev.macAddr,
      (attrAuthType, putBE 2 (credAuthType ctx)), (attrEncrType, putBE 2 (credEncrType ctx)),
      (attrNetworkKey, ctx.networkKey.getD [])]

def buildM7 (env : Env) (ctx : Context) (wps : WpsData) : WpsData × Option Octets :=
  buildEncrypted c env ctx wps m7
    (tlv attrESnonce2 (putBE 16 wps.snonce2) ++ if ctx.ap then buildApSettings ctx else []) .recvM8

-- `wps_build_wsc_done`
def buildWscDone (env : Env) (ctx : Context) (wps : WpsData) :
    WpsData × Option Octets × List Event :=
  if !env.alloc .msg then (wps, none, [])
  else
    let msg := encode ([buildVersion, buildMsgType wscDone, buildEnrolleeNonce wps.nonceE,
      buildRegistrarNonce wps.nonceR] ++ buildWfaExt ctx)
    if ctx.ap then ({ wps with state := .recvAck }, some msg, [])
    else ({ wps with state := .finished }, some msg, [.success])

def saveMsg (env : Env) (r : WpsData × Option Octets) : WpsData × Option (OpCode × Octets) :=
  match r.2 with
  | none => (r.1, none)
  | some msg => (saveLast env r.1 msg, some (.msg, msg))

-- `wps_enrollee_get_msg`
def getMsg (env : Env) (ctx : Context) (wps : WpsData) :
    WpsData × Option (OpCode × Octets) × List Event :=
  match wps.state with
  | .sendM1 =>
    let r := saveMsg env (buildM1 env ctx wps)
    (r.1, r.2, [])
  | .sendM3 =>
    let r := saveMsg env (buildM3 c env ctx wps)
    (r.1, r.2, [])
  | .sendM5 =>
    let r := saveMsg env (buildM5 c env ctx wps)
    (r.1, r.2, [])
  | .sendM7 =>
    let r := saveMsg env (buildM7 c env ctx wps)
    (r.1, r.2, if r.2.isSome && ctx.ap && ctx.registrar then [.deviceStore wps.uuidR] else [])
  | .receivedM2d =>
    if ctx.ap then (wps, (buildWscNack env ctx wps).map (OpCode.nack, ·), [])
    else
      match buildWscAck env ctx wps with
      | none => (wps, none, [])
      | some msg => ({ wps with state := .recvM2 }, some (.ack, msg), [])
  | .sendWscNack => (wps, (buildWscNack env ctx wps).map (OpCode.nack, ·), [])
  | .msgDone =>
    let r := buildWscDone env ctx wps
    (r.1, r.2.1.map (OpCode.done, ·), r.2.2)
  | _ => (wps, none, [])

def refuse (wps : WpsData) : WpsData := { wps with state := .sendWscNack }

def setupLocked (ctx : Context) (wps : WpsData) : Bool :=
  ctx.ap && ((ctx.apSetupLocked ≠ 0 && ctx.apSetupLocked ≠ 2) || wps.devPassword = none)

-- `wps_process_pubkey`
def processPubkey (env : Env) (wps : WpsData) (pk : Option Octets) : WpsData × Bool :=
  match pk with
  | none => (wps, false)
  | some pk =>
    if pk = [] then (wps, false)
    else if !env.alloc .pubkey then ({ wps with dhPubkeyR := none }, false)
    else deriveKeys c { wps with dhPubkeyR := some pk }

-- `wps_process_m2`
def processM2 (env : Env) (ctx : Context) (wps : WpsData) (msg : Octets) (attr : ParseAttr) :
    WpsData :=
  if wps.state ≠ .recvM2 then refuse wps
  else
    match attr.registrarNonce with
    | none => refuse wps
    | some nonceR =>
      let wps := { wps with nonceR := nonceR }
      if attr.enrolleeNonce ≠ some wps.nonceE then refuse wps
      else
        match attr.uuidR with
        | none => refuse wps
        | some uuidR =>
          let wps := { wps with uuidR := uuidR }
          if setupLocked ctx wps then refuse { wps with configError := cfgSetupLocked }
          else
            let r := processPubkey c env wps attr.publicKey
            if r.2 && processAuthenticator c r.1 attr.authenticator msg &&
                processDeviceAttrs env attr then
              { r.1 with state := .sendM3 }
            else refuse r.1

-- `wps_process_m2d`
def processM2d (wps : WpsData) : WpsData × List Event :=
  if wps.state ≠ .recvM2 then (refuse wps, [])
  else ({ wps with state := .receivedM2d }, [.m2d])

def openSettings (env : Env) (wps : WpsData) (attr : ParseAttr) : Option (Octets × ParseAttr) :=
  match decryptEncrSettings c env wps attr.encrSettings with
  | none => none
  | some plain =>
    match parseMsg plain with
    | none => none
    | some eattr =>
      if processKeyWrapAuth c wps plain eattr.keyWrapAuth then some (plain, eattr) else none

-- `wps_process_r_snonce1`
def processRSnonce1 (wps : WpsData) (snonce : Option (BitVec 128)) : WpsData × List Event × Bool :=
  match snonce with
  | none => (wps, [], false)
  | some n =>
    if wps.peerHash1 = commitment1 c wps.toSecrets n then (wps, [], true)
    else
      ({ wps with configError := cfgDevPasswordAuthFailure }, [.pwdAuthFail true 1], false)

-- `wps_process_r_snonce2`
def processRSnonce2 (wps : WpsData) (snonce : Option (BitVec 128)) : WpsData × List Event × Bool :=
  match snonce with
  | none => (wps, [], false)
  | some n =>
    if wps.peerHash2 = commitment2 c wps.toSecrets n then (wps, [], true)
    else
      ({ wps with configError := cfgDevPasswordAuthFailure }, [.pwdAuthFail true 2], false)

-- `wps_process_m4`
def processM4 (env : Env) (wps : WpsData) (msg : Octets) (attr : ParseAttr) :
    WpsData × List Event :=
  if wps.state ≠ .recvM4 then (refuse wps, [])
  else if attr.enrolleeNonce ≠ some wps.nonceE ∨
      ¬processAuthenticator c wps attr.authenticator msg then (refuse wps, [])
  else
    match attr.rHash1 with
    | none => (refuse wps, [])
    | some h1 =>
      let wps := { wps with peerHash1 := h1 }
      match attr.rHash2 with
      | none => (refuse wps, [])
      | some h2 =>
        let wps := { wps with peerHash2 := h2 }
        match openSettings c env wps attr with
        | none => (refuse wps, [])
        | some (_, eattr) =>
          let r := processRSnonce1 c wps eattr.rSnonce1
          (if r.2.2 then { r.1 with state := .sendM5 } else refuse r.1, r.2.1)

-- `wps_process_m6`
def processM6 (env : Env) (ctx : Context) (wps : WpsData) (msg : Octets) (attr : ParseAttr) :
    WpsData × List Event :=
  if wps.state ≠ .recvM6 then (refuse wps, [])
  else if attr.enrolleeNonce ≠ some wps.nonceE ∨
      ¬processAuthenticator c wps attr.authenticator msg then (refuse wps, [])
  else
    match openSettings c env wps attr with
    | none => (refuse wps, [])
    | some (_, eattr) =>
      let r := processRSnonce2 c wps eattr.rSnonce2
      if r.2.2 then
        ({ r.1 with state := .sendM7 }, r.2.1 ++ if ctx.ap then [.apPinSuccess] else [])
      else (refuse r.1, r.2.1)

-- The check of an encryption type in a build with `CONFIG_WPS2`
def encrTypeAccepted (ctx : Context) (encrType : BitVec 16) : Bool :=
  !ctx.wps2 || encrType &&& (encrNone ||| encrTkip ||| encrAes) ≠ 0

-- `wps_process_cred_e`: the credential, or whether it is skipped
def processCredE (ctx : Context) (wps : WpsData) (cred : Octets) :
    WpsData × List Event × Option Bool :=
  let wps := { wps with cred := {} }
  match (parseMsg cred).bind fun attr => processCred attr {} with
  | none => (wps, [], none)
  | some cred =>
    let wps := { wps with cred := cred }
    if encrTypeAccepted ctx cred.encrType then (wps, [.credCb cred], some true)
    else if cred.encrType &&& encrWep ≠ 0 then
      ({ wps with errorIndication := eiSecurityWepProhibited }, [], some false)
    else (wps, [], none)

-- The loop of `wps_process_creds`; `ok` says that there was a credential.
def processCredsLoop (ctx : Context) : List Octets → Bool → WpsData → WpsData × List Event × Bool
  | [], ok, wps => (wps, [], ok)
  | cred :: rest, ok, wps =>
    match processCredE ctx wps cred with
    | (wps, events, none) => (wps, events, false)
    | (wps, events, some added) =>
      let r := processCredsLoop ctx rest (ok || added) wps
      (r.1, events ++ r.2.1, r.2.2)

-- `wps_process_creds`
def processCreds (ctx : Context) (wps : WpsData) (creds : List Octets) :
    WpsData × List Event × Bool :=
  if ctx.ap then (wps, [], true)
  else processCredsLoop ctx creds false wps

-- The types of new AP settings in a build with `CONFIG_WPS2`
def upgradeTypes (ctx : Context) (cred : Credential) : Credential :=
  if ctx.wps2 then
    { cred with
      encrType :=
        if cred.encrType &&& (encrTkip ||| encrAes) = encrTkip then cred.encrType ||| encrAes
        else cred.encrType
      authType :=
        if cred.authType &&& (authWpapsk ||| authWpa2psk) = authWpapsk then
          cred.authType ||| authWpa2psk
        else cred.authType }
  else cred

-- `wps_process_ap_settings_e`
def processApSettingsE (ctx : Context) (wps : WpsData) (attr : ParseAttr) :
    WpsData × List Event × Bool :=
  if !ctx.ap then (wps, [], true)
  else
    match processApSettings attr with
    | none => (wps, [], false)
    | some cred =>
      if encrTypeAccepted ctx cred.encrType then (wps, [.credCb (upgradeTypes ctx cred)], true)
      else if cred.encrType &&& encrWep ≠ 0 then
        ({ wps with errorIndication := eiSecurityWepProhibited }, [], false)
      else (wps, [], false)

def processM8Settings (ctx : Context) (wps : WpsData) (eattr : ParseAttr) :
    WpsData × List Event × Bool :=
  match processCreds ctx wps eattr.cred with
  | (wps, events, false) => (wps, events, false)
  | (wps, events, true) =>
    let r := processApSettingsE ctx wps eattr
    (r.1, events ++ r.2.1, r.2.2)

-- `wps_process_m8`
def processM8 (env : Env) (ctx : Context) (wps : WpsData) (msg : Octets) (attr : ParseAttr) :
    WpsData × List Event :=
  if wps.state ≠ .recvM8 then (refuse wps, [])
  else if attr.enrolleeNonce ≠ some wps.nonceE ∨
      ¬processAuthenticator c wps attr.authenticator msg then (refuse wps, [])
  else if ctx.ap ∧ ctx.apSetupLocked ≠ 0 then
    (refuse { wps with configError := cfgSetupLocked }, [])
  else
    match openSettings c env wps attr with
    | none => (refuse wps, [])
    | some (_, eattr) =>
      let r := processM8Settings ctx wps eattr
      (if r.2.2 then { r.1 with state := .msgDone } else refuse r.1, r.2.1)

def failEvent (wps : WpsData) (type : BitVec 8) : List Event :=
  if wps.state = .sendWscNack then [.fail type wps.configError wps.errorIndication] else []

-- The messages that `wps_process_wsc_msg` knows
def dispatch (env : Env) (ctx : Context) (wps : WpsData) (msg : Octets) (attr : ParseAttr)
    (type : BitVec 8) : Option (WpsData × List Event) :=
  if type = m2 then some (processM2 c env ctx wps msg attr, [])
  else if type = m2d then some (processM2d wps)
  else if type = m4 then
    let r := processM4 c env wps msg attr
    some (r.1, r.2 ++ failEvent r.1 m4)
  else if type = m6 then
    let r := processM6 c env ctx wps msg attr
    some (r.1, r.2 ++ failEvent r.1 m6)
  else if type = m8 then
    let r := processM8 c env ctx wps msg attr
    some (r.1, r.2 ++ failEvent r.1 m8)
  else none

-- `wps_process_wsc_msg`. M2D is not authenticated, so it is not saved.
def processWscMsg (env : Env) (ctx : Context) (wps : WpsData) (msg : Octets) :
    WpsData × ProcessRes × List Event :=
  match parseMsg msg with
  | none => (wps, .failure, [])
  | some attr =>
    if !nonceMatches wps.nonceE attr.enrolleeNonce then (wps, .failure, [])
    else
      match attr.msgType with
      | none => (refuse wps, .continue, [])
      | some type =>
        match dispatch c env ctx wps msg attr type with
        | none => (wps, .failure, [])
        | some (wps, events) =>
          (if type = m2d then wps else saveLast env wps msg, .continue, events)

def acceptControl (wps : WpsData) (msg : Octets) (type : BitVec 8) : Option ParseAttr :=
  match parseMsg msg with
  | none => none
  | some attr =>
    if attr.msgType = some type ∧ nonceMatches wps.nonceR attr.registrarNonce ∧
        nonceMatches wps.nonceE attr.enrolleeNonce then some attr
    else none

-- `wps_process_wsc_ack`
def processWscAck (ctx : Context) (wps : WpsData) (msg : Octets) :
    WpsData × ProcessRes × List Event :=
  match acceptControl wps msg wscAck with
  | none => (wps, .failure, [])
  | some _ =>
    if wps.state = .recvAck ∧ ctx.ap then ({ wps with state := .finished }, .done, [.success])
    else (wps, .failure, [])

def nackEvent (wps : WpsData) (configError : BitVec 16) : List Event :=
  match wps.state with
  | .recvM4 => [.fail m3 configError wps.errorIndication]
  | .recvM6 => [.fail m5 configError wps.errorIndication]
  | .recvM8 => [.fail m7 configError wps.errorIndication]
  | _ => []

-- `wps_process_wsc_nack`
def processWscNack (wps : WpsData) (msg : Octets) : WpsData × ProcessRes × List Event :=
  match (acceptControl wps msg wscNack).bind ParseAttr.configError with
  | none => (wps, .failure, [])
  | some configError => (refuse wps, .failure, nackEvent wps configError)

def upnpOpCode (msg : Octets) : OpCode :=
  match (parseMsg msg).bind ParseAttr.msgType with
  | some type => if type = wscAck then .ack else if type = wscNack then .nack else .upnp
  | none => .upnp

-- `wps_enrollee_process_msg`
def processMsg (env : Env) (ctx : Context) (wps : WpsData) (opCode : OpCode) (msg : Octets) :
    WpsData × ProcessRes × List Event :=
  match if opCode = .upnp then upnpOpCode msg else opCode with
  | .msg => processWscMsg c env ctx wps msg
  | .upnp => processWscMsg c env ctx wps msg
  | .ack => processWscAck ctx wps msg
  | .nack => processWscNack wps msg
  | _ => (wps, .failure, [])

end WpaSupplicant.Wps.Enrollee

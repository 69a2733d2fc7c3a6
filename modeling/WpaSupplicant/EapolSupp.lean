import WpaSupplicant.EapTls
import WpaSupplicant.Lib.Checked
import WpaSupplicant.Lib.Machine

namespace WpaSupplicant.EapolSupp

open Lib.Octets Lib.Buffer Lib.StateMachine
open EapTls (eapMsg eapCodeRequest eapCodeResponse eapTypeExpanded)

def eapCodeSuccess : UInt8 := 3
def eapCodeFailure : UInt8 := 4

-- `EAP_TYPE_*`
def eapTypeNone : ℕ := 0
def eapTypeIdentity : ℕ := 1
def eapTypeNotification : ℕ := 2
def eapTypeNak : ℕ := 3
def eapTypeTls : ℕ := 13
def eapTypeLeap : ℕ := 17
def eapTypePeap : ℕ := 25
def typeExpanded : ℕ := 254

def eapVendorIetf : ℕ := 0

def eapMaxAuthRounds : ℕ := 50
def eapClientTimeoutDefault : ℕ := 60

inductive EapState where
  | initializing
  | disabled
  | idle
  | received
  | getMethod
  | method
  | sendResponse
  | discard
  | identity
  | notification
  | retransmit
  | success
  | failure
  deriving DecidableEq, Repr

-- `EapMethodState`
inductive MethodState where
  | none
  | init
  | cont
  | mayCont
  | done
  deriving DecidableEq, Repr

-- `EapDecision`
inductive Decision where
  | fail
  | condSucc
  | uncondSucc
  deriving DecidableEq, Repr

structure Method where
  vendor : ℕ
  method : ℕ
  deriving DecidableEq, Repr

-- What `struct eap_peer_config` says about methods and identities. The list of methods may be missing.
structure PeerConfig where
  eapMethods : Option (List Method) := none
  anonymousIdentity : Option Octets := none
  identity : Option Octets := none
  pcsc : Bool := false
  deriving DecidableEq, Repr

-- What happened in the EAP machine
inductive Event where
  | initializing
  | selected (m : Method) (allowed : Bool)
  | processed (m : Method) (decision : Decision) (key : Option Octets)
  | success
  | finished (resp noResp success fail : Bool)
  deriving DecidableEq, Repr

-- `struct eap_sm`. The private data of a method is there with the method. `lastId` is -1 in a new session.
structure EapSm where
  state : EapState := .initializing
  m : Option Method := none
  selectedMethod : ℕ := 0
  methodState : MethodState := .none
  lastId : ℤ := 0
  lastRespData : Option Octets := none
  decision : Decision := .fail
  rxReq : Bool := false
  rxResp : Bool := false
  rxSuccess : Bool := false
  rxFailure : Bool := false
  reqId : ℕ := 0
  reqMethod : ℕ := 0
  reqVendor : ℕ := 0
  reqVendorMethod : ℕ := 0
  ignore : Bool := false
  clientTimeout : ℕ := eapClientTimeoutDefault
  allowNotifications : Bool := false
  eapRespData : Option Octets := none
  eapKeyAvailable : Bool := false
  eapKeyData : Option Octets := none
  fastReauth : Bool := false
  leapDone : Bool := false
  peapDone : Bool := false
  reqMd5 : Octets := []
  lastMd5 : Octets := []
  workaround : Bool := false
  numRounds : ℕ := 0
  forceDisabled : Bool := false
  prevFailure : Bool := false
  trace : List Event := []
  deriving DecidableEq, Repr

-- `PortControl`
inductive PortControl where
  | auto
  | forceUnauthorized
  | forceAuthorized
  deriving DecidableEq, Repr

inductive PaeState where
  | unknown
  | disconnected
  | logoff
  | connecting
  | authenticating
  | authenticated
  | held
  | restart
  | sForceAuth
  | sForceUnauth
  deriving DecidableEq, Repr

inductive KeyRxState where
  | unknown
  | noKeyReceive
  | keyReceive
  deriving DecidableEq, Repr

inductive BeState where
  | unknown
  | initializing
  | idle
  | request
  | receive
  | response
  | fail
  | timeout
  | success
  deriving DecidableEq, Repr

-- `struct eapol_config`
structure Conf where
  accept8021xKeys : Bool := false
  requireKeyUnicast : Bool := false
  requireKeyBroadcast : Bool := false
  fastReauth : Bool := false
  workaround : Bool := false
  eapDisabled : Bool := false
  deriving DecidableEq, Repr

-- `struct eapol_sm` with its EAP machine. A new port has no frames, keys or results.
structure Sm where
  authWhile : ℕ := 0
  heldWhile : ℕ := 0
  startWhen : ℕ := 0
  idleWhile : ℕ := 0
  eapFail : Bool := false
  eapolEap : Bool := false
  eapSuccess : Bool := false
  initializing : Bool := false
  keyDone : Bool := false
  portControl : PortControl := .auto
  portEnabled : Bool := false
  portValid : Bool := false
  suppAbort : Bool := false
  suppStart : Bool := false
  suppTimeout : Bool := false
  pae : PaeState := .unknown
  userLogoff : Bool := false
  logoffSent : Bool := false
  startCount : ℕ := 0
  eapRestart : Bool := false
  sPortMode : PortControl := .auto
  heldPeriod : ℕ := 60
  startPeriod : ℕ := 30
  maxStart : ℕ := 3
  keyRx : KeyRxState := .unknown
  rxKey : Bool := false
  be : BeState := .unknown
  eapNoResp : Bool := false
  eapReq : Bool := false
  eapResp : Bool := false
  authPeriod : ℕ := 30
  config : Option PeerConfig := none
  lastRxKey : Option Octets := none
  eapReqData : Option Octets := none
  altAccept : Bool := false
  altReject : Bool := false
  replayCounterValid : Bool := false
  lastReplayCounter : Octets := []
  conf : Conf := {}
  cachedPmk : Bool := false
  unicastKeyReceived : Bool := false
  broadcastKeyReceived : Bool := false
  eap : EapSm := {}
  deriving DecidableEq, Repr

-- The methods of the build in the order of their list, and the hashes. No method has the type `EAP_TYPE_NONE`
-- of the IETF, which ends the lists of methods.
structure Ctx where
  methods : List Method
  md5 : Octets → Octets
  hmacMd5 : Octets → Octets → Octets
  noNone : ⟨eapVendorIetf, eapTypeNone⟩ ∉ methods

-- What a method returns from `process`, with the key if there is one, and the variables of the machine that
-- methods change
structure MethodRet where
  ignore : Bool := false
  methodState : MethodState := .mayCont
  decision : Decision := .fail
  allowNotifications : Bool := false
  resp : Option Octets := none
  keyAvailable : Bool := false
  key : Option Octets := none
  clientTimeout : ℕ := eapClientTimeoutDefault
  leapDone : Bool := false
  peapDone : Bool := false
  deriving DecidableEq, Repr

structure Answer where
  hasReauthData : Bool := false
  initOk : Bool := true
  initIgnore : Bool := false
  pendingReq : Bool := false
  ret : MethodRet := {}
  getIdentity : Option Octets := none
  scardPin : Bool := false
  scardIdentity : Option Octets := none
  alloc : Bool := true
  deriving DecidableEq, Repr

-- `eap_allowed_method`: the type `EAP_TYPE_NONE` of the IETF ends the list.
def eapAllowedMethod (config : Option PeerConfig) (m : Method) : Bool :=
  match config.bind PeerConfig.eapMethods with
  | none => true
  | some l => (l.takeWhile fun x => x ≠ ⟨eapVendorIetf, eapTypeNone⟩).contains m

-- `eap_sm_allowMethod` with `eap_peer_get_eap_method`
def eapSmAllowMethod (c : Ctx) (config : Option PeerConfig) (m : Method) : Bool :=
  eapAllowedMethod config m && c.methods.contains m

def reqTarget (eap : EapSm) : Method :=
  ⟨eap.reqVendor, if eap.reqMethod = typeExpanded then eap.reqVendorMethod else eap.reqMethod⟩

-- `eap_sm_build_expanded_nak`
def buildExpandedNak (c : Ctx) (config : Option PeerConfig) (eap : EapSm) : Octets :=
  let allowed := c.methods.filter fun m =>
    !(decide (eap.reqVendor = m.vendor) && decide (eap.reqVendorMethod = m.method)) && eapAllowedMethod config m
  let found := if allowed = [] then [⟨eapVendorIetf, eapTypeNone⟩] else allowed
  eapMsg eapTypeExpanded eapCodeResponse (UInt8.ofNat eap.reqId)
    (toBE 3 eapVendorIetf ++ toBE 4 eapTypeNak ++
      found.flatMap fun m => [eapTypeExpanded] ++ toBE 3 m.vendor ++ toBE 4 m.method)

def nakTypes : Bool → List Method → Octets
  | _, [] => []
  | expandedFound, m :: l =>
    if m.vendor ≠ eapVendorIetf then
      if expandedFound then nakTypes expandedFound l else eapTypeExpanded :: nakTypes true l
    else UInt8.ofNat m.method :: nakTypes expandedFound l

-- `eap_sm_buildNak`
def buildNak (c : Ctx) (a : Answer) (config : Option PeerConfig) (eap : EapSm) : Option Octets :=
  if c.methods = [] ∨ a.alloc = false then none
  else if eap.reqMethod = typeExpanded then some (buildExpandedNak c config eap)
  else
    let allowed := c.methods.filter fun m =>
      !(decide (m.vendor = eapVendorIetf) && decide (m.method = eap.reqMethod)) && eapAllowedMethod config m
    let types := nakTypes false allowed
    some (eapMsg (UInt8.ofNat eapTypeNak) eapCodeResponse (UInt8.ofNat eap.reqId) (if types = [] then [0] else types))

-- `eap_sm_buildIdentity`, with the configuration, in which the identity of the smart card is put
def buildIdentity (a : Answer) (config : Option PeerConfig) (eap : EapSm) : Option PeerConfig × Option Octets :=
  let resp (identity : Octets) := if a.alloc then
    some (eapMsg (UInt8.ofNat eapTypeIdentity) eapCodeResponse (UInt8.ofNat eap.reqId) identity) else none
  match config with
  | none => (none, none)
  | some conf =>
    match ((if eap.m.isSome then a.getIdentity else none).or conf.anonymousIdentity).or conf.identity with
    | some identity =>
      if conf.pcsc && !a.scardPin then (config, none) else (config, resp identity)
    | none =>
      if !conf.pcsc then (config, none)
      else if !a.scardPin then (config, none)
      else
        match a.scardIdentity with
        | none => (config, none)
        | some identity => (some { conf with identity := some identity }, resp identity)

-- `eap_sm_parseEapReq`
def parseEapReq (c : Ctx) (eap : EapSm) (reqData : Option Octets) : EapSm :=
  let eap := { eap with
    rxReq := false, rxResp := false, rxSuccess := false, rxFailure := false, reqId := 0,
    reqMethod := eapTypeNone, reqVendor := eapVendorIetf, reqVendorMethod := eapTypeNone }
  match reqData with
  | none => eap
  | some req =>
    let plen := ofBE (field req 2 2)
    if req.length < 4 ∨ req.length < plen then eap
    else
      let eap := { eap with
        reqId := ofBE (field req 1 1)
        reqMd5 := if eap.workaround then c.md5 (req.take plen) else eap.reqMd5 }
      if req[0]? = some eapCodeRequest then
        if plen < 5 then eap
        else
          let eap := { eap with rxReq := true, reqMethod := ofBE (field req 4 1) }
          if eap.reqMethod = typeExpanded ∧ 12 ≤ plen then
            { eap with reqVendor := ofBE (field req 5 3), reqVendorMethod := ofBE (field req 8 4) }
          else eap
      else if req[0]? = some eapCodeResponse then
        -- LEAP has the roles reversed.
        if eap.selectedMethod = eapTypeLeap ∧ 5 ≤ plen then
          { eap with rxResp := true, reqMethod := ofBE (field req 4 1) }
        else eap
      else if req[0]? = some eapCodeSuccess then { eap with rxSuccess := true }
      else if req[0]? = some eapCodeFailure then { eap with rxFailure := true }
      else eap

section Entries

variable (c : Ctx) (a : Answer)

-- `SM_STATE(EAP, INITIALIZE)`
def eapInitialize (sm : Sm) : Sm :=
  let kept := sm.eap.fastReauth && sm.eap.m.isSome && a.hasReauthData && !sm.eap.prevFailure
  { sm with
    idleWhile := eapClientTimeoutDefault
    eapSuccess := false
    eapFail := false
    eapRestart := false
    eapResp := false
    eapNoResp := false
    eap := { sm.eap with
      state := .initializing
      m := if kept then sm.eap.m else none
      selectedMethod := eapTypeNone
      methodState := .none
      allowNotifications := true
      decision := .fail
      clientTimeout := eapClientTimeoutDefault
      eapKeyData := none
      eapKeyAvailable := false
      lastId := -1
      numRounds := 0
      prevFailure := false
      trace := .initializing :: sm.eap.trace } }

-- `SM_STATE(EAP, RECEIVED)`
def eapReceived (sm : Sm) : Sm :=
  let eap := parseEapReq c sm.eap sm.eapReqData
  { sm with eap := { eap with state := .received, numRounds := eap.numRounds + 1 } }

-- `SM_STATE(EAP, GET_METHOD)`. A method that is allowed is found in the build.
def eapGetMethod (sm : Sm) : Sm :=
  let eap := { sm.eap with state := EapState.getMethod }
  let target := reqTarget eap
  if !eapSmAllowMethod c sm.config target then
    { sm with eap := { eap with eapRespData := buildNak c a sm.config eap } }
  else
    let eap := { eap with
      m := some target
      selectedMethod := eap.reqMethod
      clientTimeout := eapClientTimeoutDefault
      ignore := eap.ignore || a.initIgnore }
    if a.initOk then
      { sm with eap := { eap with
          methodState := .init
          trace := .selected target (eapAllowedMethod sm.config target) :: eap.trace } }
    else
      let eap := { eap with m := none, methodState := .none, selectedMethod := eapTypeNone }
      -- A PIN or a passphrase that is waited for: the request is tried again later.
      if eap.reqMethod = eapTypeTls ∧ sm.config.isSome = true ∧ a.pendingReq = true then { sm with eap := eap }
      else { sm with eap := { eap with eapRespData := buildNak c a sm.config eap } }

-- `SM_STATE(EAP, METHOD)`
def eapMethod (sm : Sm) : Sm :=
  match sm.eap.m with
  | none => { sm with eap := { sm.eap with state := .method } }
  | some m =>
    let eap := { sm.eap with
      state := EapState.method
      eapRespData := a.ret.resp
      ignore := a.ret.ignore
      clientTimeout := a.ret.clientTimeout
      leapDone := a.ret.leapDone
      peapDone := a.ret.peapDone }
    if a.ret.ignore then { sm with eap := eap }
    else
      { sm with eap := { eap with
          methodState := a.ret.methodState
          decision := a.ret.decision
          allowNotifications := a.ret.allowNotifications
          eapKeyData := if a.ret.keyAvailable then a.ret.key else eap.eapKeyData
          trace := .processed m a.ret.decision (if a.ret.keyAvailable then a.ret.key else none) :: eap.trace } }

-- `SM_STATE(EAP, SEND_RESPONSE)`
def eapSendResponse (sm : Sm) : Sm :=
  let sm := { sm with eapReq := false, idleWhile := sm.eap.clientTimeout }
  match sm.eap.eapRespData with
  | none => { sm with eap := { sm.eap with state := .sendResponse, lastRespData := none } }
  | some resp =>
    { sm with
      eapResp := true
      eap := { sm.eap with
        state := .sendResponse
        lastMd5 := if sm.eap.workaround then sm.eap.reqMd5 else sm.eap.lastMd5
        lastId := sm.eap.reqId
        lastRespData := if a.alloc then some resp else none } }

-- `SM_STATE(EAP, DISCARD)`
def eapDiscard (sm : Sm) : Sm :=
  { sm with eapReq := false, eapNoResp := true, eap := { sm.eap with state := .discard } }

-- `SM_STATE(EAP, IDENTITY)`
def eapIdentity (sm : Sm) : Sm :=
  let r := buildIdentity a sm.config sm.eap
  { sm with config := r.1, eap := { sm.eap with state := .identity, eapRespData := r.2 } }

-- `SM_STATE(EAP, NOTIFICATION)` with `eap_sm_buildNotify`
def eapNotification (sm : Sm) : Sm :=
  let resp := if a.alloc then
    some (eapMsg (UInt8.ofNat eapTypeNotification) eapCodeResponse (UInt8.ofNat sm.eap.reqId) []) else none
  { sm with eap := { sm.eap with state := .notification, eapRespData := resp } }

-- `SM_STATE(EAP, RETRANSMIT)`
def eapRetransmit (sm : Sm) : Sm :=
  { sm with eap := { sm.eap with
      state := .retransmit
      eapRespData := if a.alloc then sm.eap.lastRespData else none } }

-- `SM_STATE(EAP, SUCCESS)`
def eapSuccessEntry (sm : Sm) : Sm :=
  { sm with
    eapSuccess := true
    eapReq := false
    eapNoResp := true
    eap := { sm.eap with
      state := .success
      eapKeyAvailable := sm.eap.eapKeyAvailable || sm.eap.eapKeyData.isSome
      trace := .success :: sm.eap.trace } }

-- `SM_STATE(EAP, FAILURE)`
def eapFailureEntry (sm : Sm) : Sm :=
  { sm with
    eapFail := true
    eapReq := false
    eapNoResp := true
    eap := { sm.eap with state := .failure, prevFailure := true } }

def eapEntry : EapState → Sm → Sm
  | .initializing, sm => eapInitialize a sm
  | .disabled, sm => { sm with eap := { sm.eap with state := .disabled, numRounds := 0 } }
  | .idle, sm => { sm with eap := { sm.eap with state := .idle } }
  | .received, sm => eapReceived c sm
  | .getMethod, sm => eapGetMethod c a sm
  | .method, sm => eapMethod a sm
  | .sendResponse, sm => eapSendResponse a sm
  | .discard, sm => eapDiscard sm
  | .identity, sm => eapIdentity a sm
  | .notification, sm => eapNotification a sm
  | .retransmit, sm => eapRetransmit a sm
  | .success, sm => eapSuccessEntry sm
  | .failure, sm => eapFailureEntry sm

end Entries

def eapSuccessWorkaround (eap : EapSm) : Bool :=
  eap.workaround && (decide ((eap.reqId : ℤ) = (eap.lastId + 1) % 256) ||
    decide ((eap.reqId : ℤ) = (eap.lastId + 2) % 256))

def idMatches (eap : EapSm) : Bool := decide ((eap.reqId : ℤ) = eap.lastId) || eapSuccessWorkaround eap

-- `eap_peer_req_is_duplicate`
def reqIsDuplicate (eap : EapSm) : Bool :=
  decide ((eap.reqId : ℤ) = eap.lastId) && eap.rxReq && !(eap.workaround && decide (eap.reqMd5 ≠ eap.lastMd5))

-- `eap_peer_sm_step_idle`
def eapStepIdle (sm : Sm) : Move EapState :=
  if sm.eapReq = true then .enter .received
  else if (sm.altAccept = true ∧ sm.eap.decision ≠ .fail) ∨
      (sm.idleWhile = 0 ∧ sm.eap.decision = .uncondSucc) then .enter .success
  else if sm.altReject = true ∨ (sm.idleWhile = 0 ∧ sm.eap.decision ≠ .uncondSucc) ∨
      (sm.altAccept = true ∧ sm.eap.methodState ≠ .cont ∧ sm.eap.decision = .fail) then .enter .failure
  else if sm.eap.selectedMethod = eapTypeLeap ∧ sm.eap.leapDone = true ∧ sm.eap.decision ≠ .fail ∧
      sm.eap.methodState = .done then .enter .success
  else if sm.eap.selectedMethod = eapTypePeap ∧ sm.eap.peapDone = true ∧ sm.eap.decision ≠ .fail ∧
      sm.eap.methodState = .done then .enter .success
  else .stay

-- `eap_peer_sm_step_received`
def eapStepReceived (eap : EapSm) : EapState :=
  let duplicate := reqIsDuplicate eap
  if eap.rxSuccess = true ∧ eap.decision ≠ .fail ∧ idMatches eap = true then .success
  else if eap.methodState ≠ .cont ∧
      ((eap.rxFailure = true ∧ eap.decision ≠ .uncondSucc) ∨
        (eap.rxSuccess = true ∧ eap.decision = .fail ∧
          (eap.selectedMethod ≠ eapTypeLeap ∨ eap.methodState ≠ .mayCont))) ∧
      idMatches eap = true then .failure
  else if eap.rxReq = true ∧ duplicate = true then .retransmit
  else if eap.rxReq = true ∧ duplicate = false ∧ eap.reqMethod = eapTypeNotification ∧
      eap.allowNotifications = true then .notification
  else if eap.rxReq = true ∧ duplicate = false ∧ eap.selectedMethod = eapTypeNone ∧
      eap.reqMethod = eapTypeIdentity then .identity
  else if eap.rxReq = true ∧ duplicate = false ∧ eap.selectedMethod = eapTypeNone ∧
      eap.reqMethod ≠ eapTypeIdentity ∧ eap.reqMethod ≠ eapTypeNotification then .getMethod
  else if eap.rxReq = true ∧ duplicate = false ∧ eap.reqMethod = eap.selectedMethod ∧
      eap.methodState ≠ .done then .method
  else if eap.selectedMethod = eapTypeLeap ∧ (eap.rxSuccess = true ∨ eap.rxResp = true) then .method
  else .discard

-- `eap_peer_sm_step_local`
def eapStepLocal (sm : Sm) : Move EapState :=
  match sm.eap.state with
  | .initializing => .enter .idle
  | .disabled => if sm.portEnabled = true ∧ sm.eap.forceDisabled = false then .enter .initializing else .stay
  | .idle => eapStepIdle sm
  | .received => .enter (eapStepReceived sm.eap)
  | .getMethod => if sm.eap.selectedMethod = sm.eap.reqMethod then .enter .method else .enter .sendResponse
  | .method => if sm.eap.ignore then .enter .discard else .enter .sendResponse
  | .sendResponse | .discard => .enter .idle
  | .identity | .notification | .retransmit => .enter .sendResponse
  | .success | .failure => .stay

-- `SM_STEP(EAP)`: the variables that it writes itself, and what it decides
def eapStepMove (sm : Sm) : Sm × Move EapState :=
  if sm.eapRestart = true ∧ sm.portEnabled = true then (sm, .enterGlobal .initializing)
  else if sm.portEnabled = false ∨ sm.eap.forceDisabled = true then (sm, .enterGlobal .disabled)
  else if eapMaxAuthRounds < sm.eap.numRounds then
    if sm.eap.numRounds = eapMaxAuthRounds + 1 then
      ({ sm with eap := { sm.eap with numRounds := sm.eap.numRounds + 1 } }, .enterGlobal .failure)
    else (sm, .stay)
  else (sm, eapStepLocal sm)

def eapStep (c : Ctx) (a : Answer) (sm : Sm) : Sm × Bool :=
  (eapStepMove sm).2.run (fun s => s.eap.state) (eapEntry c a) (eapStepMove sm).1

-- The loop of `eap_peer_sm_step`
def eapLoop (c : Ctx) (answers : ℕ → Answer) : ℕ → Sm → Bool → Sm × Bool
  | 0, sm, res => (sm, res)
  | n + 1, sm, res =>
    let r := eapStep c (answers n) sm
    if r.2 then eapLoop c answers n r.1 true else (r.1, res)

-- More than the states that the machine enters at once
def eapLoopBound : ℕ := 12

-- `eap_peer_sm_step`. A packet is finished when its request is cleared.
def eapPeerSmStep (c : Ctx) (answers : ℕ → Answer) (sm : Sm) : Sm × Bool :=
  let r := eapLoop c answers eapLoopBound sm false
  if sm.eapReq && !r.1.eapReq then
    ({ r.1 with eap := { r.1.eap with
        trace := .finished r.1.eapResp r.1.eapNoResp r.1.eapSuccess r.1.eapFail :: r.1.eap.trace } }, r.2)
  else r

end WpaSupplicant.EapolSupp

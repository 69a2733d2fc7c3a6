import WpaSupplicant.EapolSupp

namespace WpaSupplicant.EapolSupp

open Lib.Octets Lib.Buffer Lib.StateMachine

-- `eap_notify_lower_layer_success`
def notifyLowerLayerSuccess (sm : Sm) : Sm :=
  if sm.eapSuccess = true ∨ sm.eap.decision = .fail ∨
      (sm.eap.methodState ≠ .mayCont ∧ sm.eap.methodState ≠ .done) then sm
  else
    { sm with
      eapSuccess := true
      eap := { sm.eap with
        eapKeyAvailable := sm.eap.eapKeyAvailable || sm.eap.eapKeyData.isSome
        trace := .success :: sm.eap.trace } }

-- What `eapol_sm_get_key` returns: -1, the length of a shorter key, or 0 and the key
inductive KeyResult where
  | unavailable
  | short (len : ℕ)
  | key (key : Octets)
  deriving DecidableEq, Repr

-- `eapol_sm_get_key`
def getKey (sm : Sm) (len : ℕ) : KeyResult :=
  if sm.eap.eapKeyAvailable then
    match sm.eap.eapKeyData with
    | none => .unavailable
    | some key => if key.length < len then .short key.length else .key (key.take len)
  else .unavailable

def signKey (sm : Sm) : Option Octets :=
  match getKey sm 64 with
  | .unavailable => none
  | .key key => some (key.drop 32)
  | .short len =>
    if len = 16 then
      match getKey sm 16 with
      | .key key => some key
      | _ => none
    else none

def keyFrameOk (c : Ctx) (sm : Sm) (frame sign : Octets) : Bool :=
  let len := ofBE (field frame 2 2)
  let keyLen := len - 44
  let rxKeyLength := ofBE (field frame 5 2)
  !(sm.replayCounterValid && decide (ofBE (field frame 7 8) ≤ ofBE sm.lastReplayCounter)) &&
    decide (c.hmacMd5 sign (patch (frame.take (4 + len)) 32 (List.replicate 16 0)) = field frame 32 16) &&
    decide (keyLen ≤ 32) && decide (rxKeyLength ≤ 32) &&
    (decide (keyLen = rxKeyLength) || decide (keyLen = 0))

def keyReceived (sm : Sm) (frame : Octets) : Sm :=
  let unicast := decide (128 ≤ ofBE (field frame 31 1))
  let sm := { sm with
    unicastKeyReceived := sm.unicastKeyReceived || unicast
    broadcastKeyReceived := sm.broadcastKeyReceived || !unicast }
  { sm with portValid := sm.portValid ||
      ((sm.unicastKeyReceived || !sm.conf.requireKeyUnicast) &&
        (sm.broadcastKeyReceived || !sm.conf.requireKeyBroadcast)) }

-- `eapol_sm_processKey`; the driver may refuse the key.
def processKey (c : Ctx) (setWepKey : Bool) (sm : Sm) : Sm :=
  match sm.lastRxKey with
  | none => sm
  | some frame =>
    if sm.conf.accept8021xKeys = false then sm
    else if frame.length < 4 + ofBE (field frame 2 2) then sm
    else
      let sm := notifyLowerLayerSuccess sm
      match signKey sm with
      | none => sm
      | some sign =>
        if keyFrameOk c sm frame sign then
          let sm := { sm with replayCounterValid := true, lastReplayCounter := field frame 7 8 }
          if setWepKey then keyReceived sm frame else sm
        else sm

def paeEntry : PaeState → Sm → Sm
  | .logoff, sm => { sm with pae := .logoff, logoffSent := true }
  | .disconnected, sm =>
    { sm with
      pae := .disconnected
      sPortMode := .auto
      startCount := 0
      logoffSent := false
      suppAbort := true
      unicastKeyReceived := false
      broadcastKeyReceived := false }
  | .connecting, sm =>
    let sendStart := decide (sm.pae = .connecting)
    { sm with
      pae := .connecting
      startWhen := if sendStart then sm.startPeriod else 1
      startCount := if sendStart then sm.startCount + 1 else sm.startCount
      eapolEap := false }
  | .authenticating, sm =>
    { sm with
      pae := .authenticating
      startCount := 0
      suppTimeout := false
      keyDone := false
      suppStart := true }
  | .held, sm => { sm with pae := .held, heldWhile := sm.heldPeriod }
  | .authenticated, sm => { sm with pae := .authenticated }
  | .restart, sm => { sm with pae := .restart, eapRestart := true }
  | .sForceAuth, sm => { sm with pae := .sForceAuth, sPortMode := .forceAuthorized }
  | .sForceUnauth, sm => { sm with pae := .sForceUnauth, sPortMode := .forceUnauthorized }
  | .unknown, sm => sm

-- The part of `SM_STEP(SUPP_PAE)` for one state
def paeStepLocal (sm : Sm) : Move PaeState :=
  match sm.pae with
  | .unknown | .sForceAuth | .sForceUnauth => .stay
  | .logoff => if sm.userLogoff = false then .enter .disconnected else .stay
  | .disconnected => .enter .connecting
  | .connecting =>
    if sm.startWhen = 0 ∧ sm.startCount < sm.maxStart then .enter .connecting
    else if sm.startWhen = 0 ∧ sm.maxStart ≤ sm.startCount ∧ sm.portValid = true then .enter .authenticated
    else if sm.eapSuccess = true ∨ sm.eapFail = true then .enter .authenticating
    else if sm.eapolEap = true then .enter .restart
    else if sm.startWhen = 0 ∧ sm.maxStart ≤ sm.startCount ∧ sm.portValid = false then .enter .held
    else .stay
  | .authenticating =>
    if sm.eapSuccess = true ∧ sm.portValid = true then .enter .authenticated
    else if sm.eapFail = true ∨ (sm.keyDone = true ∧ sm.portValid = false) then .enter .held
    else if sm.suppTimeout = true then .enter .connecting
    else .stay
  | .held =>
    if sm.heldWhile = 0 then .enter .connecting
    else if sm.eapolEap = true then .enter .restart
    else .stay
  | .authenticated =>
    if sm.eapolEap = true ∧ sm.portValid = true then .enter .restart
    else if sm.portValid = false then .enter .disconnected
    else .stay
  | .restart => if sm.eapRestart = false then .enter .authenticating else .stay

def acceptPlaintext (sm : Sm) : Sm :=
  if sm.pae = .authenticating ∧ sm.eapSuccess = true ∧ sm.portValid = false ∧ sm.conf.accept8021xKeys = true ∧
      sm.conf.requireKeyUnicast = false ∧ sm.conf.requireKeyBroadcast = false then { sm with portValid := true }
  else sm

-- `SM_STEP(SUPP_PAE)`: the variables that it writes itself, and what it decides
def paeStepMove (sm : Sm) : Sm × Move PaeState :=
  if sm.userLogoff = true ∧ sm.logoffSent = false ∧ sm.initializing = false ∧ sm.portEnabled = true then
    (sm, .enterGlobal .logoff)
  else if (sm.portControl = .auto ∧ sm.sPortMode ≠ sm.portControl) ∨ sm.initializing = true ∨
      sm.portEnabled = false then (sm, .enterGlobal .disconnected)
  else if sm.portControl = .forceAuthorized ∧ sm.sPortMode ≠ sm.portControl then (sm, .enterGlobal .sForceAuth)
  else if sm.portControl = .forceUnauthorized ∧ sm.sPortMode ≠ sm.portControl then (sm, .enterGlobal .sForceUnauth)
  else (acceptPlaintext sm, paeStepLocal (acceptPlaintext sm))

def paeStep (sm : Sm) : Sm × Bool := (paeStepMove sm).2.run Sm.pae paeEntry (paeStepMove sm).1

def keyRxEntry (c : Ctx) (setWepKey : Bool) : KeyRxState → Sm → Sm
  | .keyReceive, sm => { processKey c setWepKey { sm with keyRx := .keyReceive } with rxKey := false }
  | state, sm => { sm with keyRx := state }

-- `SM_STEP(KEY_RX)`: the global rule does not end it.
def keyRxGlobal (sm : Sm) : Move KeyRxState :=
  if sm.initializing = true ∨ sm.portEnabled = false then .enterGlobal .noKeyReceive else .stay

def keyRxLocal (sm : Sm) : Move KeyRxState :=
  if sm.keyRx ≠ .unknown ∧ sm.rxKey = true then .enter .keyReceive else .stay

def keyRxStep (c : Ctx) (setWepKey : Bool) (sm : Sm) : Sm × Bool :=
  let r := (keyRxGlobal sm).run Sm.keyRx (keyRxEntry c setWepKey) sm
  let r' := (keyRxLocal r.1).run Sm.keyRx (keyRxEntry c setWepKey) r.1
  (r'.1, r.2 || r'.2)

def eapSmAbort (sm : Sm) : Sm :=
  { sm with
    eapSuccess := false
    eap := { sm.eap with lastRespData := none, eapRespData := none, eapKeyData := none } }

def beEntry : BeState → Sm → Sm
  | .request, sm => { sm with be := .request, authWhile := 0, eapReq := true }
  | .response, sm => { sm with be := .response, eapResp := false, eap := { sm.eap with eapRespData := none } }
  | .success, sm =>
    { sm with
      be := .success
      replayCounterValid := if sm.eap.eapKeyAvailable then false else sm.replayCounterValid }
  | .fail, sm => { sm with be := .fail }
  | .timeout, sm => { sm with be := .timeout, suppTimeout := true }
  | .idle, sm => { sm with be := .idle, suppStart := false }
  | .initializing, sm =>
    { eapSmAbort sm with be := .initializing, lastRxKey := none, eapReqData := none, suppAbort := false }
  | .receive, sm =>
    { sm with be := .receive, authWhile := sm.authPeriod, eapolEap := false, eapNoResp := false }
  | .unknown, sm => sm

-- `SM_STEP(SUPP_BE)`
def beStepMove (sm : Sm) : Move BeState :=
  if sm.initializing = true ∨ sm.suppAbort = true then .enterGlobal .initializing
  else
    match sm.be with
    | .unknown => .stay
    | .request =>
      if sm.eapResp = true then .enter .response
      else if sm.eapNoResp = true then .enter .receive
      else if sm.eapFail = true then .enter .fail
      else if sm.eapSuccess = true then .enter .success
      else .stay
    | .response => .enter .receive
    | .success | .fail | .timeout | .initializing => .enter .idle
    | .idle =>
      if sm.eapFail = true ∧ sm.suppStart = true then .enter .fail
      else if sm.eapolEap = true ∧ sm.suppStart = true then .enter .request
      else if sm.eapSuccess = true ∧ sm.suppStart = true then .enter .success
      else .stay
    | .receive =>
      if sm.eapolEap = true then .enter .request
      else if sm.eapFail = true then .enter .fail
      else if sm.authWhile = 0 then .enter .timeout
      else if sm.eapSuccess = true then .enter .success
      else .stay

def beStep (sm : Sm) : Sm × Bool := (beStepMove sm).run Sm.be beEntry sm

structure Env where
  eap : ℕ → Answer := fun _ => {}
  setWepKey : Bool := true

-- One iteration of `eapol_sm_step`
def iteration (c : Ctx) (env : Env) (sm : Sm) : Sm × Bool :=
  let r₁ := paeStep sm
  let r₂ := keyRxStep c env.setWepKey r₁.1
  let r₃ := beStep r₂.1
  let r₄ := eapPeerSmStep c env.eap r₃.1
  (r₄.1, r₁.2 || r₂.2 || r₃.2 || r₄.2)

-- The iterations of `eapol_sm_step`, and whether the last one still changed something
def iterations (c : Ctx) (env : ℕ → Env) : ℕ → Sm → Sm × Bool
  | 0, sm => (sm, true)
  | n + 1, sm =>
    let r := iteration c (env n) sm
    if r.2 then iterations c env n r.1 else (r.1, false)

-- `eapol_sm_step`: with `true` it is called again at once.
def eapolSmStep (c : Ctx) (env : ℕ → Env) (sm : Sm) : Sm × Bool := iterations c env 100 sm

inductive Op where
  | step
  | tick
  | rxEapol (buf : Octets) (alloc : Bool)
  | configure (heldPeriod authPeriod startPeriod maxStart : ℤ)
  | notifyPortEnabled (enabled : Bool)
  | notifyPortValid (valid : Bool)
  | notifyEapSuccess (success : Bool)
  | notifyEapFail (fail : Bool)
  | notifyConfig (config : Option PeerConfig) (conf : Option Conf)
  | notifyLogoff (logoff : Bool)
  | notifyCached
  | notifyPmkidAttempt (attempt : Bool)
  | notifyPortControl (portControl : PortControl)
  | notifyCtrlResponse
  | notifyLowerLayer
  | invalidateCachedSession
  deriving DecidableEq, Repr

def eapNotifySuccess (sm : Sm) : Sm :=
  { sm with eap := { sm.eap with decision := .condSucc, state := .success } }

-- `eapol_sm_abort_cached`
def abortCached (sm : Sm) : Sm := { sm with cachedPmk := false, pae := .connecting, startWhen := 3 }

def eapolBodyLen (sm : Sm) (buf : Octets) : ℕ :=
  let plen := ofBE (field buf 2 2)
  let elen := ofBE (field buf 6 2)
  if sm.conf.workaround = true ∧ plen < buf.length - 4 ∧ buf[1]? = some 0 ∧ 4 < buf.length - 4 ∧
      plen < elen ∧ elen ≤ buf.length - 4 then elen
  else plen

-- `eapol_sm_rx_eapol` before the machines are stepped, if they are
def eapolSmRxEapol (buf : Octets) (alloc : Bool) (sm : Sm) : Sm × Bool :=
  if buf.length < 4 then (sm, false)
  else if buf.length - 4 < ofBE (field buf 2 2) then (sm, false)
  else
    let plen := eapolBodyLen sm buf
    if buf[1]? = some 0 then
      let sm := if sm.cachedPmk then abortCached sm else sm
      if alloc then ({ sm with eapReqData := some (field buf 4 plen), eapolEap := true }, true)
      else ({ sm with eapReqData := none }, false)
    else if buf[1]? = some 3 then
      if plen < 44 then (sm, false)
      else if buf[4]? ≠ some 1 then (sm, false)
      else if alloc then ({ sm with lastRxKey := some (buf.take (4 + plen)), rxKey := true }, true)
      else ({ sm with lastRxKey := none }, false)
    else (sm, false)

def eapolSmNotifyConfig (config : Option PeerConfig) (conf : Option Conf) (sm : Sm) : Sm :=
  match conf with
  | none => { sm with config := config }
  | some conf =>
    { sm with
      config := config
      conf := conf
      eap := { sm.eap with
        fastReauth := conf.fastReauth
        workaround := conf.workaround
        forceDisabled := conf.eapDisabled } }

-- What a call writes before the machines are stepped, and whether they are
def Op.apply : Op → Sm → Sm × Bool
  | .step, sm => (sm, true)
  | .tick, sm =>
    ({ sm with
      authWhile := sm.authWhile - 1
      heldWhile := sm.heldWhile - 1
      startWhen := sm.startWhen - 1
      idleWhile := sm.idleWhile - 1 }, true)
  | .rxEapol buf alloc, sm => eapolSmRxEapol buf alloc sm
  | .configure heldPeriod authPeriod startPeriod maxStart, sm =>
    ({ sm with
      heldPeriod := if 0 ≤ heldPeriod then heldPeriod.toNat else sm.heldPeriod
      authPeriod := if 0 ≤ authPeriod then authPeriod.toNat else sm.authPeriod
      startPeriod := if 0 ≤ startPeriod then startPeriod.toNat else sm.startPeriod
      maxStart := if 0 ≤ maxStart then maxStart.toNat else sm.maxStart }, false)
  | .notifyPortEnabled enabled, sm => ({ sm with portEnabled := enabled }, true)
  | .notifyPortValid valid, sm => ({ sm with portValid := valid }, true)
  | .notifyEapSuccess success, sm =>
    let sm := { sm with eapSuccess := success, altAccept := success }
    (if success then eapNotifySuccess sm else sm, true)
  | .notifyEapFail fail, sm => ({ sm with eapFail := fail, altReject := fail }, true)
  | .notifyConfig config conf, sm => (eapolSmNotifyConfig config conf sm, false)
  | .notifyLogoff logoff, sm => ({ sm with userLogoff := logoff }, true)
  | .notifyCached, sm => (eapNotifySuccess { sm with pae := .authenticated, portValid := true }, true)
  | .notifyPmkidAttempt attempt, sm => ({ sm with cachedPmk := attempt }, false)
  | .notifyPortControl portControl, sm => ({ sm with portControl := portControl }, true)
  | .notifyCtrlResponse, sm =>
    if sm.eapReqData.isSome && !sm.eapReq then ({ sm with eapolEap := true, eapReq := true }, true)
    else (sm, false)
  | .notifyLowerLayer, sm => (notifyLowerLayerSuccess sm, true)
  | .invalidateCachedSession, sm => ({ sm with eap := { sm.eap with m := none } }, false)

-- A call with what the environment answers in it
structure Input where
  op : Op
  env : ℕ → Env := fun _ => {}

def call (c : Ctx) (i : Input) (sm : Sm) : Sm × Bool :=
  let r := i.op.apply sm
  if r.2 then eapolSmStep c i.env r.1 else (r.1, false)

def exec (c : Ctx) (sm : Sm) (i : Input) : Sm := (call c i sm).1

def eapolSmInit (c : Ctx) (env env' : ℕ → Env) : Sm :=
  (eapolSmStep c env' { (eapolSmStep c env { initializing := true }).1 with initializing := false }).1

end WpaSupplicant.EapolSupp

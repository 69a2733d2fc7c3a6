import WpaSupplicant.P2p.GoNeg

namespace WpaSupplicant.P2p

-- `p2p_listen_in_find`
def listenInFind (env : Env) (s : P2pData) : P2pData :=
  let freq := s.listenFreq
  if freq < 0 then s
  else
    let tu := (env.random % 3 + 1) * 100
    let s := { s with
      pendingListenFreq := freq
      pendingListenSec := 0
      pendingListenUsec := 1024 * tu }
    if !env.alloc .probeRespIes then s
    else
      let s := s.log (.startListen freq)
      if env.startListen then s else { s with pendingListenFreq := 0 }

-- `p2p_listen`; the test for a pending operation is the one of the source.
def listen (env : Env) (s : P2pData) (timeout : ℕ) : P2pData × Bool :=
  let freq := s.listenFreq
  let s := s.log .listen
  if freq < 0 then (s, false)
  else
    let s := { s with
      pendingListenFreq := freq
      pendingListenSec := timeout / 1000
      pendingListenUsec := timeout % 1000 * 1000 }
    if s.scanRunning then
      if s.startAfterScan = .nothing then (s, true)
      else ({ s with startAfterScan := .listen }, true)
    else if !env.alloc .probeRespIes then (s, false)
    else
      let s := s.log (.startListen freq)
      if env.startListen then (s.setState .listenOnly, true)
      else ({ s with pendingListenFreq := 0 }, false)

-- `p2p_pending_sd_req`
def pendingSdReq (s : P2pData) (dev : Device) : Option SdQuery :=
  if dev.devCapab.serviceDiscovery then
    s.sdQueries.find? fun q =>
      match q.peer with
      | none => !dev.sdInfo
      | some peer => peer = dev.addr
  else none

-- `p2p_start_sd`
def startSd (env : Env) (s : P2pData) (dev : Device) : P2pData × Bool :=
  if dev.txFreq ≤ 0 then (s, false)
  else
    match pendingSdReq s dev with
    | none => (s, false)
    | some query =>
      if !env.alloc .sdQuery then (s, false)
      else
        let s := { s with
          sdPeer := some dev.addr
          sdQuery := some query.id
          pendingAction := .sd }
        sendAction env s dev.txFreq dev.addr .sdQuery

-- `p2p_send_prov_disc_req`
def sendProvDiscReq (env : Env) (s : P2pData) (dev : Device) : P2pData × Bool :=
  if dev.txFreq ≤ 0 then (s, false)
  else if dev.groupClientOnly && !dev.devCapab.clientDiscoverability then (s, false)
  else
    let token := nextToken dev.dialogToken
    let s := s.modifyDevice dev.addr fun d => { d with dialogToken := token }
    if !env.alloc (.provDiscReq dev.addr) then (s, false)
    else
      let s := { s with pendingAction := .pd }
      let r := sendAction env s dev.txFreq dev.addr (.provDiscReq token)
      if r.2 then ({ r.1 with pendingPdDevaddr := dev.addr }, true) else r

-- The loop of `p2p_continue_find`: whether a request was sent. A query that cannot be sent ends it.
def continueFindLoop (env : Env) : List Device → P2pData → P2pData × Bool
  | [], s => (s, false)
  | dev :: rest, s =>
    if dev.sdSchedule then startSd env s dev
    else if dev.reqConfigMethods ≠ 0 ∧ ¬dev.pdForJoin then
      let r := sendProvDiscReq env s dev
      if r.2 then r else continueFindLoop env rest r.1
    else continueFindLoop env rest s

-- `p2p_continue_find`
def continueFind (env : Env) (s : P2pData) : P2pData :=
  let s := s.setState .search
  let r := continueFindLoop env s.devices s
  if r.2 then r.1 else listenInFind env r.1

-- `p2p_search`. Every result of the scan request that is not negative counts as a running scan.
def search (env : Env) (s : P2pData) : P2pData :=
  if s.drvInListen ≠ 0 then s
  else
    let s := s.log .p2pScan
    if env.p2pScan = .failed then continueFind env s
    else { s with scanRunning := true, scanTimeout := true }

-- `p2p_run_after_scan`
def runAfterScan (env : Env) (s : P2pData) : P2pData × Bool :=
  match s.afterScanTx with
  | some tx =>
    ({ s.log (.sendAction tx.freq tx.dst tx.frame (env.sendAction tx.dst)) with
      afterScanTx := none }, true)
  | none =>
    let op := s.startAfterScan
    let s := { s with startAfterScan := .nothing }
    match op with
    | .nothing => (s, false)
    | .listen => ((listen env s (s.pendingListenSec * 1000 + s.pendingListenUsec / 1000)).1, true)
    | .connect =>
      match s.getDevice s.afterScanPeer with
      | none => (s, false)
      | some _ => ((connectSend env s s.afterScanPeer).1, true)

def scanEnded (s : P2pData) : P2pData := { s with scanRunning := false, scanTimeout := false }

-- `p2p_scan_timeout`
def scanTimeout (env : Env) (s : P2pData) : P2pData :=
  if s.scanRunning then (runAfterScan env (scanEnded s)).1 else scanEnded s

-- `p2p_scan_res_handled`
def scanResHandled (env : Env) (s : P2pData) : P2pData :=
  let r := runAfterScan env (scanEnded s)
  if r.2 then r.1
  else if r.1.state = .search then continueFind env r.1
  else r.1

-- `p2p_find`
def find (env : Env) (s : P2pData) (timeout numReqDevTypes : ℕ) : P2pData × Bool :=
  let s := s.log .find
  let s := { s with numReqDevTypes := 0 }
  if numReqDevTypes ≠ 0 ∧ ¬env.alloc .reqDevTypes then (s, false)
  else
    let s := s.clearTimeout.setState .search
    let s := { s with
      numReqDevTypes := numReqDevTypes
      startAfterScan := .nothing
      lastP2pFindTimeout := timeout
      findTimeout := timeout ≠ 0 }
    let s := s.log .p2pScan
    match env.p2pScan with
    | .started => ({ s with scanRunning := true, scanTimeout := true }, true)
    | .busy => ({ s.setState .searchWhenReady with findTimeout := false }, true)
    | .failed => ({ s.setState .idle with findTimeout := false }, false)

-- `p2p_other_scan_completed`
def otherScanCompleted (env : Env) (s : P2pData) : P2pData :=
  if s.state ≠ .searchWhenReady then s
  else (find env s s.lastP2pFindTimeout s.numReqDevTypes).1

-- `p2p_supported_freq`
def supportedFreq (s : P2pData) (freq : ℤ) : Bool :=
  match freqToChannel freq with
  | some c => channelsIncludes s.cfg.channels c.1 c.2
  | none => false

def preferredChannel (s : P2pData) (freq : ℤ) : Option (UInt8 × UInt8) :=
  if !s.cfg.cfgOpChannel && 0 < freq && supportedFreq s freq then freqToChannel freq else none

-- `p2p_prepare_channel`
def prepareChannel (s : P2pData) (forceFreq : ℕ) : Option P2pData :=
  if forceFreq ≠ 0 then
    match freqToChannel forceFreq with
    | none => none
    | some c =>
      if channelsIncludes s.cfg.channels c.1 c.2 then
        some { s with opRegClass := c.1, opChannel := c.2, channels := [⟨c.1, [c.2]⟩] }
      else none
  else
    let op :=
      ((preferredChannel s s.bestFreqOverall).or (preferredChannel s s.bestFreq5)).or
        (preferredChannel s s.bestFreq24)
    let op := op.getD (s.cfg.opRegClass, s.cfg.opChannel)
    some { s with opRegClass := op.1, opChannel := op.2, channels := s.cfg.channels }

-- The parameters of `p2p_connect` and `p2p_authorize`
structure ConnectParams where
  peer : Addr
  wpsMethod : WpsMethod
  goIntent : UInt8
  ownInterfaceAddr : Addr := 0
  forceFreq : ℕ := 0
  deriving DecidableEq, Repr

-- The part of `p2p_connect` that starts over with the peer: what was going on is stopped, and a frame
-- that waits for the end of a scan is dropped.
def startConnect (s : P2pData) (p : ConnectParams) : P2pData :=
  let s := s.modifyDevice p.peer fun d =>
    { d with
      notYetReady := false
      userRejected := false
      waitGoNegResponse := false
      waitGoNegConfirm := false
      connectReqs := 0
      goNegReqSent := 0
      goState := .unknownGo }
  let s := { s with goIntent := p.goIntent, intendedAddr := p.ownInterfaceAddr }
  let s := if s.state ≠ .idle then stopFind s else s
  let s := { s with afterScanTx := none }
  s.modifyDevice p.peer fun d =>
    { d with
      wpsMethod := p.wpsMethod
      status := scSuccess
      forceFreq := p.forceFreq ≠ 0 }

-- `p2p_connect`
def connect (env : Env) (s : P2pData) (p : ConnectParams) : P2pData × Bool :=
  let s := s.log (.connect p.peer)
  match prepareChannel s p.forceFreq with
  | none => (s, false)
  | some s =>
    let s := { s with ssidSet := false }
    match s.getDevice p.peer with
    | none => (s, false)
    | some dev =>
      if dev.probeReqOnly then (s, false)
      else if dev.groupClientOnly ∧ ¬dev.devCapab.clientDiscoverability then (s, false)
      else if dev.groupClientOnly ∧ dev.operFreq ≤ 0 then (s, false)
      else
        let s := startConnect s p
        if s.scanRunning then
          ({ s with startAfterScan := .connect, afterScanPeer := p.peer }, true)
        else connectSend env { s with startAfterScan := .nothing } p.peer

-- `p2p_authorize`
def authorize (s : P2pData) (p : ConnectParams) : P2pData × Bool :=
  match prepareChannel s p.forceFreq with
  | none => (s, false)
  | some s =>
    match s.getDevice p.peer with
    | none => (s, false)
    | some _ =>
      let s := s.modifyDevice p.peer fun d =>
        { d with
          notYetReady := false
          userRejected := false
          goNegReqSent := 0
          goState := .unknownGo
          wpsMethod := p.wpsMethod
          status := scSuccess
          forceFreq := p.forceFreq ≠ 0 }
      ({ s with goIntent := p.goIntent, intendedAddr := p.ownInterfaceAddr }, true)

end WpaSupplicant.P2p

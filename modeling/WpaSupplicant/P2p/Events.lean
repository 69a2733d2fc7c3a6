import WpaSupplicant.Lib.Machine
import WpaSupplicant.P2p.Sd

namespace WpaSupplicant.P2p

-- `struct p2p_client_info`
structure ClientInfo where
  deviceAddr : Addr
  interfaceAddr : Addr
  devCapab : DevCapab
  deriving DecidableEq, Repr

-- What `p2p_add_device` reads from the elements of a frame: the address of the device, the Device
-- Capability, the channel of the DS Parameter Set, and the Group Info attribute with the clients
-- where it is well formed
structure PeerInfo where
  deviceAddr : Option Addr := none
  capability : Option DevCapab := none
  dsParams : Option UInt8 := none
  groupInfo : Option (Option (List ClientInfo)) := none
  deriving DecidableEq, Repr

-- The body of the loop of `p2p_add_group_clients`
def addGroupClient (env : Env) (goDevAddr goInterfaceAddr : Addr) (freq : ℤ) (s : P2pData)
    (cli : ClientInfo) : P2pData :=
  let member (d : Device) : Device :=
    { d with
      interfaceAddr := cli.interfaceAddr
      lastSeen := env.now
      memberInGoDev := goDevAddr
      memberInGoIface := goInterfaceAddr }
  match s.getDevice cli.deviceAddr with
  | some _ =>
    s.modifyDevice cli.deviceAddr fun d =>
      member { d with
        devCapab := if d.groupClientOnly ∨ d.probeReqOnly then cli.devCapab else d.devCapab
        probeReqOnly := false }
  | none =>
    let r := createDevice env s cli.deviceAddr
    if r.2 then
      r.1.modifyDevice cli.deviceAddr fun d =>
        member { d with groupClientOnly := true, devCapab := cli.devCapab, operFreq := freq }
    else r.1

-- `p2p_add_group_clients`; the old data of the group is cleared first.
def addGroupClients (env : Env) (s : P2pData) (goDevAddr goInterfaceAddr : Addr) (freq : ℤ)
    (clients : List ClientInfo) : P2pData :=
  let s := { s with
    devices := s.devices.map fun d =>
      if d.memberInGoIface = goInterfaceAddr then
        { d with memberInGoIface := 0, memberInGoDev := 0 }
      else d }
  clients.foldl (addGroupClient env goDevAddr goInterfaceAddr freq) s

def dsFreq (freq : ℤ) (dsParams : Option UInt8) : ℤ :=
  match dsParams with
  | some ch =>
    if 2412 ≤ freq ∧ freq ≤ 2484 ∧ 1 ≤ ch ∧ ch ≤ 14 then
      if ch = 14 then 2484 else 2407 + ch.toNat * 5
    else freq
  | none => freq

def addInfoClients (env : Env) (s : P2pData) (goDevAddr goInterfaceAddr : Addr) (freq : ℤ)
    (info : PeerInfo) : P2pData :=
  match info.groupInfo with
  | some (some clients) => addGroupClients env s goDevAddr goInterfaceAddr freq clients
  | _ => s

def scheduleSd (s : P2pData) (addr : Addr) : P2pData :=
  match s.getDevice addr with
  | none => s
  | some dev =>
    if (pendingSdReq s dev).isSome then
      s.modifyDevice addr fun d => { d with sdSchedule := true }
    else s

-- `p2p_add_device`
def addDevice (env : Env) (s : P2pData) (addr : Addr) (freq : ℤ) (info : PeerInfo) :
    P2pData × Bool :=
  match info.deviceAddr with
  | none => (s, false)
  | some devAddr =>
    if s.peerFilter ≠ 0 ∧ devAddr ≠ s.peerFilter then (s, true)
    else
      let r := createDevice env s devAddr
      if !r.2 then (r.1, false)
      else
        let freq := dsFreq freq info.dsParams
        let s := r.1.modifyDevice devAddr fun d =>
          { d with
            lastSeen := env.now
            probeReqOnly := false
            groupClientOnly := false
            interfaceAddr := if addr = devAddr then d.interfaceAddr else addr
            listenFreq := freq
            operFreq := if info.groupInfo.isSome then freq else d.operFreq
            devCapab := info.capability.getD d.devCapab }
        (scheduleSd (addInfoClients env s devAddr addr freq info) devAddr, true)

-- `P2P_PEER_EXPIRATION_AGE`
def peerExpirationAge : ℤ := 300

-- `p2p_expire_peers`
def expirePeers (env : Env) (s : P2pData) : P2pData :=
  s.devices.foldl (fun s dev =>
    if env.now.sec ≤ dev.lastSeen.sec + peerExpirationAge then s else removeDevice s dev) s

-- `p2p_add_dev_from_probe_req`, for a Probe Request of the P2P Device Discovery
def addDevFromProbeReq (env : Env) (s : P2pData) (addr : Addr) (listenChannel : Option ChannelAttr)
    (capability : Option DevCapab) : P2pData :=
  match s.getDevice addr with
  | some _ => s.modifyDevice addr fun d => { d with lastSeen := env.now }
  | none =>
    let r := createDevice env s addr
    if r.2 then
      r.1.modifyDevice addr fun d =>
        { d with
          lastSeen := env.now
          probeReqOnly := true
          listenFreq :=
            match listenChannel with
            | some c => channelToFreq c.country c.regClass c.channel
            | none => d.listenFreq
          devCapab := capability.getD d.devCapab }
    else r.1

-- `p2p_flush`
def flush (s : P2pData) : P2pData :=
  let s := s.clearTimeout.setState .idle
  let s := { s.log .flush with
    startAfterScan := .nothing
    goNegPeer := none
    findTimeout := false }
  let s := s.devices.foldl removeDevice s
  { s with sdQueries := [], afterScanTx := none }

-- `p2p_unauthorize`
def unauthorize (s : P2pData) (addr : Addr) : P2pData :=
  match s.getDevice addr with
  | none => s
  | some _ =>
    let s := if s.goNegPeer = some addr then { s with goNegPeer := none } else s
    let s := s.modifyDevice addr fun d =>
      { d with wpsMethod := .notReady, waitGoNegResponse := false, waitGoNegConfirm := false }
    match s.afterScanTx with
    | some tx => if tx.dst = addr then { s with afterScanTx := none } else s
    | none => s

-- `p2p_reject`
def reject (s : P2pData) (addr : Addr) : P2pData :=
  s.modifyDevice addr fun d => { d with status := scFailRejectedByUser, userRejected := true }

-- `p2p_clear_go_neg`
def clearGoNeg (s : P2pData) : P2pData :=
  { s.clearTimeout.setState .idle with goNegPeer := none }

-- `p2p_wps_success_cb`
def wpsSuccessCb (s : P2pData) (macAddr : Addr) : P2pData :=
  match s.deref s.goNegPeer with
  | none => s
  | some dev => if dev.intendedAddr = macAddr then clearGoNeg s else s

-- `p2p_group_formation_failed`
def groupFormationFailed (s : P2pData) : P2pData :=
  match s.goNegPeer with
  | none => s
  | some _ => clearGoNeg s

-- `p2p_reset_pending_pd`
def resetPendingPd (s : P2pData) : P2pData :=
  { s with userInitiatedPd := false, pendingPdDevaddr := 0, pdRetries := 0 }

-- `p2p_prov_disc_req`
def provDiscReq (env : Env) (s : P2pData) (peerAddr : Addr) (configMethods : ℕ) (join : Bool) :
    P2pData :=
  match (s.getDevice peerAddr).or (s.getDeviceInterface peerAddr) with
  | none => s
  | some dev =>
    if dev.probeReqOnly ∨ configMethods = 0 then s
    else
      let s := s.modifyDevice dev.addr fun d =>
        { d with reqConfigMethods := configMethods, pdForJoin := join }
      if s.goNegPeer ≠ none ∨ (s.state ≠ .idle ∧ s.state ≠ .search ∧ s.state ≠ .listenOnly) then s
      else
        let s := { s with userInitiatedPd := !join }
        let s := if !join && s.state = .idle then { s with pdRetries := 10 } else s
        (sendProvDiscReq env s { dev with reqConfigMethods := configMethods, pdForJoin := join }).1

-- The sender of a request is added, or its entry is updated, unless it is known well enough.
def learnPeer (env : Env) (s : P2pData) (known : Bool) (sa : Addr) (rxFreq : ℤ) (info : PeerInfo) :
    P2pData :=
  if known then s else (addDevice env s sa rxFreq info).1

-- `p2p_process_prov_disc_req`
def processProvDiscReq (env : Env) (s : P2pData) (sa : Addr) (dialogToken : UInt8) (info : PeerInfo)
    (rxFreq : ℤ) : P2pData :=
  let s := learnPeer env s ((s.getDevice sa).any (·.probeReqOnly)) sa rxFreq info
  if !env.alloc .provDiscResp then s
  else if s.respFreq rxFreq < 0 then s
  else
    (sendAction env { s with pendingAction := .noPendingAction } (s.respFreq rxFreq) sa
      (.provDiscResp dialogToken)).1

-- `p2p_process_prov_disc_resp`
def processProvDiscResp (s : P2pData) (sa : Addr) (dialogToken : UInt8) : P2pData :=
  match s.getDevice sa with
  | none => s
  | some dev =>
    if dev.reqConfigMethods = 0 then s
    else
      let s :=
        if s.pendingAction = .pd then
          { s with pendingPdDevaddr := 0, pendingAction := .noPendingAction }
        else s
      if dialogToken ≠ dev.dialogToken then s
      else
        let s := if s.userInitiatedPd ∧ s.pendingPdDevaddr = sa then resetPendingPd s else s
        s.modifyDevice sa fun d => { d with reqConfigMethods := 0 }

-- `p2p_retry_pd`
def retryPd (env : Env) (s : P2pData) : P2pData :=
  if s.state ≠ .idle then s
  else
    match s.devices.find? fun d =>
      d.addr = s.pendingPdDevaddr ∧ d.reqConfigMethods ≠ 0 ∧ ¬d.pdForJoin with
    | none => s
    | some dev => (sendProvDiscReq env s dev).1

-- `p2p_prov_disc_cb`
def provDiscCb (env : Env) (s : P2pData) (success : Bool) : P2pData :=
  if !success then
    let s := { s with pendingAction := .noPendingAction }
    if s.state ≠ .idle then continueFind env s
    else if s.userInitiatedPd then { s with pendingAction := .pd }.setTimeout
    else s
  else
    let s := { s with pendingAction := if s.userInitiatedPd then .pd else .noPendingAction }
    let s := if s.state = .search then s.setState .pdDuringFind else s
    s.setTimeout

-- `p2p_timeout_prov_disc_req`
def timeoutProvDiscReq (env : Env) (s : P2pData) : P2pData :=
  let s := { s with pendingAction := .noPendingAction }
  if !s.userInitiatedPd then s
  else if s.pdRetries ≠ 0 then retryPd env { s with pdRetries := s.pdRetries - 1 }
  else resetPendingPd s

-- `p2p_invite_send`
def inviteSend (env : Env) (s : P2pData) (peer : Addr) : P2pData × Bool :=
  match s.getDevice peer with
  | none => (s, false)
  | some dev =>
    if dev.txFreq ≤ 0 then (s, false)
    else if !env.alloc .invitationReq then (s, false)
    else
      let s := s.modifyDevice peer fun d =>
        { d with
          dialogToken := nextToken d.dialogToken
          invitationReqs := d.invitationReqs + 1 }
      let s := s.setState .invite
      let s := { s with pendingAction := .invitationRequest, invitePeer := some peer }
      let r := sendAction env s dev.txFreq peer .invitationReq
      (if r.2 then r.1 else r.1.setTimeout, true)

-- `p2p_invite`
def invite (env : Env) (s : P2pData) (peer : Addr) (activeGo : Bool) (forceFreq : ℕ) : P2pData :=
  match s.getDevice peer with
  | none => s
  | some dev =>
    if dev.listenFreq ≤ 0 ∧ dev.operFreq ≤ 0 then s
    else
      let s := s.modifyDevice peer fun d => { d with invitationReqs := 0 }
      let op :=
        if forceFreq ≠ 0 then (freqToChannel forceFreq).map fun c => (c, [⟨c.1, [c.2]⟩])
        else some ((s.cfg.opRegClass, s.cfg.opChannel), s.cfg.channels)
      match op with
      | none => s
      | some (c, channels) =>
        let s := { s with opRegClass := c.1, opChannel := c.2, channels := channels }
        let s := if s.state ≠ .idle then stopFind s else s
        (inviteSend env { s with invRoleActiveGo := activeGo } peer).1

def knownPeer (s : P2pData) (sa : Addr) : Bool := (s.getDevice sa).any (!·.probeReqOnly)

-- The channels of an Invitation Request
def checkChannelList (s : P2pData) (sa : Addr) (channelList : Option Octets) : P2pData :=
  match channelList with
  | some l => (peerChannelsCheck s s.cfg.channels sa l).1
  | none => s

-- `p2p_process_invitation_req`. The Channel List is read where the mandatory attributes are there;
-- the upper layer has a say in the status.
def processInvitationReq (env : Env) (s : P2pData) (sa : Addr) (info : PeerInfo)
    (channelList : Option Octets) (status : UInt8) (rxFreq : ℤ) : P2pData :=
  let s := checkChannelList (learnPeer env s (knownPeer s sa) sa rxFreq info) sa channelList
  if !env.alloc .invitationResp then s
  else if s.respFreq rxFreq < 0 then s
  else
    (sendAction env { s with pendingAction := .invitationResponse } (s.respFreq rxFreq) sa
      (.invitationResp status)).1

-- `p2p_process_invitation_resp`, for a frame with a Status attribute
def processInvitationResp (s : P2pData) (sa : Addr) : P2pData :=
  if (s.getDevice sa).isSome ∧ s.invitePeer = some sa then
    { s.clearTimeout.setState .idle with invitePeer := none }
  else s

-- `p2p_invitation_req_cb`
def invitationReqCb (s : P2pData) : P2pData :=
  if s.invitePeer = none then s else (s.setState .invite).setTimeout

-- `p2p_send_dev_disc_req`
def sendDevDiscReq (env : Env) (s : P2pData) (dev : Device) : P2pData :=
  match s.getDevice dev.memberInGoDev with
  | none => s
  | some go =>
    if dev.operFreq ≤ 0 then s
    else if !env.alloc .devDiscReq then s
    else
      let token := nextToken go.dialogToken
      let s := s.modifyDevice go.addr fun d => { d with dialogToken := token }
      let s := { s with
        pendingClientDiscGo := some go.addr
        pendingClientDiscAddr := dev.addr
        pendingAction := .devDiscRequest }
      (sendAction env s dev.operFreq go.addr (.devDiscReq token)).1

-- `p2p_dev_disc_req_cb`
def devDiscReqCb (s : P2pData) (success : Bool) : P2pData :=
  if success then s else (s.setState .connect).setTimeout

-- `p2p_send_dev_disc_resp`
def sendDevDiscResp (env : Env) (s : P2pData) (dialogToken : UInt8) (addr : Addr) (freq : ℤ)
    (status : UInt8) : P2pData :=
  if !env.alloc .devDiscResp then s
  else
    (sendAction env { s with pendingAction := .devDiscResponse } freq addr
      (.devDiscResp dialogToken status)).1

-- `p2p_process_dev_disc_req`; `client` is the interface address of the device where a group has it as
-- a client. `p2p_group_go_discover` does not wait for the end of a scan.
def processDevDiscReq (env : Env) (s : P2pData) (sa : Addr) (dialogToken : UInt8)
    (deviceId client : Option Addr) (rxFreq : ℤ) : P2pData :=
  if dialogToken = 0 ∨ deviceId = none then
    sendDevDiscResp env s dialogToken sa rxFreq scFailInvalidParams
  else
    match client with
    | some m =>
      { s.log (.sendAction rxFreq m .goDiscReq (env.sendAction m)) with
        pendingAction := .goDiscReq
        pendingDevDiscDialogToken := dialogToken
        pendingDevDiscAddr := sa
        pendingDevDiscFreq := rxFreq }
    | none => sendDevDiscResp env s dialogToken sa rxFreq scFailUnableToAccommodate

-- `p2p_process_dev_disc_resp`, for a frame with a Status attribute
def processDevDiscResp (s : P2pData) (sa : Addr) (dialogToken status : UInt8) : P2pData :=
  match s.deref s.pendingClientDiscGo, s.deref s.goNegPeer with
  | some go, some peer =>
    if sa ≠ go.addr ∨ dialogToken ≠ go.dialogToken then s
    else if s.pendingClientDiscAddr ≠ peer.addr ∨ peer.memberInGoDev ≠ go.addr then s
    else if status = 0 then
      (if s.state = .connect then s.setState .connectListen else s).setTimeout
    else s.setTimeout
  | _, _ => s

-- `p2p_go_disc_req_cb`
def goDiscReqCb (env : Env) (s : P2pData) (success : Bool) : P2pData :=
  if s.pendingDevDiscDialogToken = 0 then s
  else
    { sendDevDiscResp env s s.pendingDevDiscDialogToken s.pendingDevDiscAddr s.pendingDevDiscFreq
        (if success then scSuccess else scFailUnableToAccommodate) with
      pendingDevDiscDialogToken := 0 }

-- `p2p_process_go_disc_req`
def processGoDiscReq (env : Env) (s : P2pData) (rxFreq : ℤ) : P2pData :=
  if !env.alloc .probeRespIes then s
  else { s.log (.startListen rxFreq) with pendingClientDiscFreq := rxFreq }

-- `enum p2p_send_action_result`
inductive SendActionResult where
  | success
  | noAck
  | failed
  deriving DecidableEq, Repr

def countReqSent (s : P2pData) (peer : Addr) (success : Bool) : P2pData :=
  if success then s.modifyDevice peer fun d => { d with goNegReqSent := d.goNegReqSent + 1 } else s

-- `p2p_go_neg_req_cb`
def goNegReqCb (env : Env) (s : P2pData) (success : Bool) : P2pData :=
  match s.deref s.goNegPeer with
  | none => s
  | some dev =>
    let s := countReqSent s dev.addr success
    if success ∧ dev.userRejected then s.setState .idle
    else if ¬success ∧ dev.devCapab.clientDiscoverability ∧ dev.memberInGoDev ≠ 0 then
      sendDevDiscReq env s dev
    else (s.setState .connect).setTimeout

-- `p2p_go_neg_resp_cb`
def goNegRespCb (s : P2pData) : P2pData :=
  if s.goNegPeer = none ∧ s.state = .provisioning then s else (s.setState .connect).setTimeout

-- `p2p_go_neg_resp_failure_cb`
def goNegRespFailureCb (s : P2pData) : P2pData :=
  match s.deref s.goNegPeer with
  | none => s
  | some dev => if dev.status ≠ scSuccess then goNegFailed s (some dev) dev.status.toNat else s

-- `p2p_go_neg_conf_cb`
def goNegConfCb (s : P2pData) (result : SendActionResult) : P2pData :=
  if result = .failed then goNegFailed s (s.deref s.goNegPeer) (-1)
  else
    match s.deref s.goNegPeer with
    | none => s
    | some dev => goComplete s dev

-- `p2p_send_action_cb`
def sendActionCb (env : Env) (s : P2pData) (result : SendActionResult) : P2pData :=
  let success : Bool := result = .success
  let state := s.pendingAction
  let s := { s with pendingAction := .noPendingAction }
  match state with
  | .noPendingAction => s
  | .goNegRequest => goNegReqCb env s success
  | .goNegResponse => goNegRespCb s
  | .goNegResponseFailure => goNegRespFailureCb s
  | .goNegConfirm => goNegConfCb s result
  | .sd => sdCb env s success
  | .pd => provDiscCb env s success
  | .invitationRequest => invitationReqCb s
  | .invitationResponse => s
  | .devDiscRequest => devDiscReqCb s success
  | .devDiscResponse => s
  | .goDiscReq => goDiscReqCb env s success

-- `p2p_listen_cb`
def listenCb (s : P2pData) (freq : ℤ) : P2pData :=
  if freq = s.pendingClientDiscFreq then { s with pendingClientDiscFreq := 0 }
  else if freq ≠ s.pendingListenFreq then s
  else
    let s := { s with inListen := true, drvInListen := freq }
    let s := if s.pendingListenSec ≠ 0 ∨ s.pendingListenUsec ≠ 0 then s.setTimeout else s
    { s with pendingListenFreq := 0 }

def retryConnect (env : Env) (s : P2pData) (peer : Device) : P2pData :=
  if 120 ≤ peer.connectReqs then goNegFailed s (some peer) (-1)
  else (connectSend env (s.setState .connect) peer.addr).1

-- `p2p_listen_end`
def listenEnd (env : Env) (s : P2pData) : P2pData :=
  let s := { s with drvInListen := 0 }
  if s.inListen then s
  else
    match s.state, s.deref s.goNegPeer with
    | .connectListen, some peer => retryConnect env s peer
    | .search, _ => search env s
    | _, _ => s

-- `p2p_timeout_connect`
def timeoutConnect (env : Env) (s : P2pData) : P2pData := listenInFind env (s.setState .connectListen)

-- `p2p_timeout_connect_listen`
def timeoutConnectListen (env : Env) (s : P2pData) : P2pData :=
  match s.deref s.goNegPeer with
  | none => s.setState .idle
  | some peer => if s.drvInListen ≠ 0 then s else retryConnect env s peer

-- `p2p_timeout_wait_peer_connect`
def timeoutWaitPeerConnect (s : P2pData) : P2pData := (s.setState .waitPeerIdle).setTimeout

-- `p2p_timeout_wait_peer_idle`
def timeoutWaitPeerIdle (env : Env) (s : P2pData) : P2pData :=
  match s.deref s.goNegPeer with
  | none => s
  | some dev =>
    let s := s.modifyDevice dev.addr fun d => { d with waitCount := d.waitCount + 1 }
    if 120 ≤ dev.waitCount + 1 then goNegFailed s (some dev) (-1)
    else listenInFind env (s.setState .waitPeerConnect)

-- `p2p_timeout_invite`
def timeoutInvite (env : Env) (s : P2pData) : P2pData :=
  let s := s.setState .inviteListen
  if s.invRoleActiveGo then s.setTimeout else listenInFind env s

-- `p2p_timeout_invite_listen`
def timeoutInviteListen (env : Env) (s : P2pData) : P2pData :=
  match s.deref s.invitePeer with
  | some peer =>
    if peer.invitationReqs < 100 then (inviteSend env (s.setState .invite) peer.addr).1
    else s.setState .idle
  | none => s.setState .idle

def checkPdTimeout (env : Env) (s : P2pData) : P2pData :=
  if s.pendingAction = .pd then timeoutProvDiscReq env s else s

-- `p2p_state_timeout`
def stateTimeout (env : Env) (s : P2pData) : P2pData :=
  let s := { s with stateTimeout := false, inListen := false }
  match s.state with
  | .idle => checkPdTimeout env s
  | .search => search env (checkPdTimeout env s)
  | .connect => timeoutConnect env s
  | .connectListen => timeoutConnectListen env s
  | .goNeg => s
  | .listenOnly =>
    let s := checkPdTimeout env s
    if s.extListenOnly then { s.setState .idle with extListenOnly := false } else s
  | .waitPeerConnect => timeoutWaitPeerConnect s
  | .waitPeerIdle => timeoutWaitPeerIdle env s
  | .sdDuringFind => timeoutSdDuringFind env s
  | .provisioning => s
  | .pdDuringFind => continueFind env s
  | .invite => timeoutInvite env s
  | .inviteListen => timeoutInviteListen env s
  | .searchWhenReady => s

-- `p2p_ext_listen_timeout`
def extListenTimeout (env : Env) (s : P2pData) : P2pData :=
  let s := { s with extListenTimeout := s.extListenInterval ≠ 0 }
  let s : P2pData :=
    if s.state = .listenOnly ∧ s.extListenOnly then
      { s.setState .idle with extListenOnly := false }
    else s
  if s.state ≠ .idle then s
  else
    let r := listen env { s with extListenOnly := true } s.extListenPeriod
    if r.2 then r.1 else { r.1 with extListenOnly := false }

-- `p2p_ext_listen`
def extListen (s : P2pData) (period interval : ℕ) : P2pData :=
  if 65535 < period ∨ 65535 < interval ∨ interval < period ∨ (period = 0 ∧ 0 < interval) ∨
      (0 < period ∧ interval = 0) then s
  else
    { s with
      extListenPeriod := period
      extListenInterval := interval
      extListenTimeout := interval ≠ 0 }

-- `p2p_go_neg_start`
def goNegStart (env : Env) (s : P2pData) : P2pData :=
  let s := { s with goNegStart := false }
  match s.goNegPeer with
  | none => s
  | some peer => (connectSend env (s.modifyDevice peer fun d => { d with status := scSuccess }) peer).1

-- `p2p_invite_start`
def inviteStart (env : Env) (s : P2pData) : P2pData :=
  let s := { s with inviteStart := false }
  match s.invitePeer with
  | none => s
  | some peer => (inviteSend env s peer).1

-- `p2p_probe_req_rx`; `discovery` says that the Probe Request is part of the P2P Device Discovery.
def probeReqRx (env : Env) (s : P2pData) (addr : Addr) (discovery : Bool)
    (listenChannel : Option ChannelAttr) (capability : Option DevCapab) : P2pData :=
  let s := if discovery then addDevFromProbeReq env s addr listenChannel capability else s
  if (s.state = .connect ∨ s.state = .connectListen) ∧ s.goNegPeer = some addr then
    { s with goNegStart := true }
  else if (s.state = .invite ∨ s.state = .inviteListen) ∧ s.invitePeer = some addr then
    { s with inviteStart := true }
  else s

-- `p2p_scan_res_handler`
def scanResHandler (env : Env) (s : P2pData) (bssid : Addr) (freq : ℤ) (info : PeerInfo) : P2pData :=
  let s := (addDevice env s bssid freq info).1
  if s.state = .search ∧ s.goNegPeer = some bssid then (connectSend env s bssid).1 else s

-- `p2p_presence_req` and the response of `p2p_process_presence_req`
def sendPresence (env : Env) (s : P2pData) (dst : Addr) (freq : ℤ) (frame : Frame) (buf : Buf) :
    P2pData :=
  if !env.alloc buf then s
  else (sendAction env { s with pendingAction := .noPendingAction } freq dst frame).1

end WpaSupplicant.P2p

namespace WpaSupplicant.P2p

-- The calls that the module receives: requests of the upper layer, frames, events of the driver and
-- the timeouts
inductive Op where
  | listen (timeout : ℕ)
  | find (timeout numReqDevTypes : ℕ)
  | stopFind
  | connect (p : ConnectParams)
  | authorize (p : ConnectParams)
  | unauthorize (addr : Addr)
  | reject (addr : Addr)
  | flush
  | provDiscReq (peer : Addr) (configMethods : ℕ) (join : Bool)
  | invite (peer : Addr) (activeGo : Bool) (forceFreq : ℕ)
  | sdRequest (id : ℕ) (dst : Option Addr)
  | sdCancelRequest (id : ℕ)
  | sdResponse (freq : ℤ) (dst : Addr) (dialogToken : UInt8) (respTlvs : Octets)
  | extListen (period interval : ℕ)
  | presenceReq (go : Addr) (freq : ℤ)
  | rxGoNegReq (sa : Addr) (msg : Message) (rxFreq : ℤ)
  | rxGoNegResp (sa : Addr) (msg : Message) (rxFreq : ℤ)
  | rxGoNegConf (sa : Addr) (msg : Option Message)
  | rxInvitationReq (sa : Addr) (info : PeerInfo) (channelList : Option Octets) (status : UInt8)
      (rxFreq : ℤ)
  | rxInvitationResp (sa : Addr)
  | rxProvDiscReq (sa : Addr) (dialogToken : UInt8) (info : PeerInfo) (rxFreq : ℤ)
  | rxProvDiscResp (sa : Addr) (dialogToken : UInt8)
  | rxDevDiscReq (sa : Addr) (dialogToken : UInt8) (deviceId client : Option Addr) (rxFreq : ℤ)
  | rxDevDiscResp (sa : Addr) (dialogToken status : UInt8)
  | rxGoDiscReq (rxFreq : ℤ)
  | rxPresenceReq (sa : Addr) (rxFreq : ℤ)
  | rxGasInitialResp (sa : Addr) (data : Octets) (rxFreq : ℤ)
  | rxGasComebackReq (sa : Addr) (data : Octets) (rxFreq : ℤ)
  | rxGasComebackResp (sa : Addr) (data : Octets) (rxFreq : ℤ)
  | probeReqRx (addr : Addr) (discovery : Bool) (listenChannel : Option ChannelAttr)
      (capability : Option DevCapab)
  | scanResHandler (bssid : Addr) (freq : ℤ) (info : PeerInfo)
  | scanResHandled
  | otherScanCompleted
  | sendActionCb (result : SendActionResult)
  | listenCb (freq : ℤ)
  | listenEnd
  | wpsSuccessCb (macAddr : Addr)
  | groupFormationFailed
  | setCountry (country : Country)
  | setListenChannel (regClass channel : UInt8)
  | setOperChannel (opRegClass opChannel : UInt8) (cfgOpChannel : Bool)
  | updateChannelList (channels : Channels)
  | setBestChannels (freq24 freq5 freqOverall : ℤ)
  | setPeerFilter (addr : Addr)
  | setClientDiscoverability (enabled : Bool)
  | stateTimeout
  | findTimeout
  | scanTimeout
  | extListenTimeout
  | goNegStart
  | inviteStart
  | expirePeers
  deriving DecidableEq, Repr

-- A call with what the environment answers during it
structure Step where
  env : Env
  op : Op

def exec (s : P2pData) (step : Step) : P2pData :=
  let env := step.env
  match step.op with
  | .listen timeout => (listen env s timeout).1
  | .find timeout num => (find env s timeout num).1
  | .stopFind => stopFind s
  | .connect p => (connect env s p).1
  | .authorize p => (authorize s p).1
  | .unauthorize addr => unauthorize s addr
  | .reject addr => reject s addr
  | .flush => flush s
  | .provDiscReq peer configMethods join => provDiscReq env s peer configMethods join
  | .invite peer activeGo forceFreq => invite env s peer activeGo forceFreq
  | .sdRequest id dst => sdRequest s id dst
  | .sdCancelRequest id => sdCancelRequest s id
  | .sdResponse freq dst dialogToken tlvs => sdResponse env s freq dst dialogToken tlvs
  | .extListen period interval => extListen s period interval
  | .presenceReq go freq => sendPresence env s go freq .presenceReq .presenceReq
  | .rxGoNegReq sa msg rxFreq => processGoNegReq env s sa msg rxFreq
  | .rxGoNegResp sa msg rxFreq => processGoNegResp env s sa msg rxFreq
  | .rxGoNegConf sa msg => processGoNegConf s sa msg
  | .rxInvitationReq sa info channelList status rxFreq =>
    processInvitationReq env s sa info channelList status rxFreq
  | .rxInvitationResp sa => processInvitationResp s sa
  | .rxProvDiscReq sa dialogToken info rxFreq => processProvDiscReq env s sa dialogToken info rxFreq
  | .rxProvDiscResp sa dialogToken => processProvDiscResp s sa dialogToken
  | .rxDevDiscReq sa dialogToken deviceId client rxFreq =>
    processDevDiscReq env s sa dialogToken deviceId client rxFreq
  | .rxDevDiscResp sa dialogToken status => processDevDiscResp s sa dialogToken status
  | .rxGoDiscReq rxFreq => processGoDiscReq env s rxFreq
  | .rxPresenceReq sa rxFreq => sendPresence env s sa rxFreq .presenceResp .presenceResp
  | .rxGasInitialResp sa data rxFreq => rxGasInitialResp env s sa data rxFreq
  | .rxGasComebackReq sa data rxFreq => rxGasComebackReq env s sa data rxFreq
  | .rxGasComebackResp sa data rxFreq => rxGasComebackResp env s sa data rxFreq
  | .probeReqRx addr discovery listenChannel capability =>
    probeReqRx env s addr discovery listenChannel capability
  | .scanResHandler bssid freq info => scanResHandler env s bssid freq info
  | .scanResHandled => scanResHandled env s
  | .otherScanCompleted => otherScanCompleted env s
  | .sendActionCb result => sendActionCb env s result
  | .listenCb freq => listenCb s freq
  | .listenEnd => listenEnd env s
  | .wpsSuccessCb macAddr => wpsSuccessCb s macAddr
  | .groupFormationFailed => groupFormationFailed s
  | .setCountry country => { s with cfg := { s.cfg with country := country } }
  | .setListenChannel regClass channel =>
    if channelToFreq s.cfg.country regClass channel < 0 then s
    else { s with cfg := { s.cfg with regClass := regClass, channel := channel } }
  | .setOperChannel opRegClass opChannel cfgOpChannel =>
    if channelToFreq s.cfg.country opRegClass opChannel < 0 then s
    else
      { s with cfg := { s.cfg with
        opRegClass := opRegClass, opChannel := opChannel, cfgOpChannel := cfgOpChannel } }
  | .updateChannelList channels => { s with cfg := { s.cfg with channels := channels } }
  | .setBestChannels freq24 freq5 freqOverall =>
    { s with bestFreq24 := freq24, bestFreq5 := freq5, bestFreqOverall := freqOverall }
  | .setPeerFilter addr => { s with peerFilter := addr }
  | .setClientDiscoverability enabled => { s with devCapab.clientDiscoverability := enabled }
  | .stateTimeout => if s.stateTimeout then stateTimeout env s else s
  | .findTimeout => if s.findTimeout then stopFind { s with findTimeout := false } else s
  | .scanTimeout => if s.scanTimeout then scanTimeout env s else s
  | .extListenTimeout => if s.extListenTimeout then extListenTimeout env s else s
  | .goNegStart => if s.goNegStart then goNegStart env s else s
  | .inviteStart => if s.inviteStart then inviteStart env s else s
  | .expirePeers => expirePeers env s

-- `p2p_init`
def init (cfg : Config) (nextTieBreaker : Bool) (devCapab : DevCapab) : P2pData :=
  { cfg := cfg, nextTieBreaker := nextTieBreaker, devCapab := devCapab }

end WpaSupplicant.P2p

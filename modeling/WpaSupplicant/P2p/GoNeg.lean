import WpaSupplicant.P2p

namespace WpaSupplicant.P2p

-- `p2p_stop_find_for_freq`. The driver is told to stop listening, unless it is on the right channel
-- for a response.
def stopFindForFreq (s : P2pData) (freq : ℤ) : P2pData :=
  let s := s.clearTimeout.setState .idle
  let s := { s with
    findTimeout := false
    startAfterScan := .nothing
    goNegPeer := none
    sdPeer := none
    invitePeer := none }
  let s := s.log .stopFind
  if 0 < freq ∧ s.drvInListen = freq ∧ s.inListen then s else { s with drvInListen := 0 }

-- `p2p_stop_find`
def stopFind (s : P2pData) : P2pData := stopFindForFreq s 0

-- `P2P_MAX_GO_INTENT`
def maxGoIntent : UInt8 := 15

-- `p2p_go_det`; without a result where both devices want to become GO
def goDet (ownIntent peerValue : UInt8) : Option Bool :=
  let peerIntent := peerValue >>> 1
  if ownIntent = peerIntent then
    if ownIntent = maxGoIntent then none else some (peerValue &&& 0x01 = 0)
  else some (peerIntent < ownIntent)

-- `p2p_peer_channels_check`. The list of the peer is stored as far as it was read.
def peerChannelsCheck (s : P2pData) (own : Channels) (peer : Addr) (channelList : Octets) :
    P2pData × Bool :=
  match channelList with
  | c0 :: c1 :: c2 :: rest =>
    if c2 ≠ 0x04 ∧ ¬(c0 = s.cfg.country.c0 ∧ c1 = s.cfg.country.c1) then
      (s.modifyDevice peer fun d => { d with channels := [], country := ⟨c0, c1, c2⟩ }, false)
    else
      let r := peerChannelsLoop maxRegClasses rest
      (s.modifyDevice peer fun d => { d with channels := r.1, country := ⟨c0, c1, c2⟩ },
        r.2 && channelsIntersect own r.1 ≠ [])
  | _ => (s.modifyDevice peer fun d => { d with channels := [] }, false)

-- `p2p_wps_method_pw_id`
def wpsMethodPwId : WpsMethod → ℕ
  | .pinDisplay => devPwRegistrarSpecified
  | .pinKeypad => devPwUserSpecified
  | .pbc => devPwPushbutton
  | .notReady => devPwDefault

def pwIdCompatible (devPasswordId : ℕ) (wpsMethod : WpsMethod) : Bool :=
  if devPasswordId = devPwRegistrarSpecified then wpsMethod = .pinKeypad
  else if devPasswordId = devPwUserSpecified then wpsMethod = .pinDisplay
  else if devPasswordId = devPwPushbutton then wpsMethod = .pbc
  else false

def nextToken (token : UInt8) : UInt8 := if token + 1 = 0 then 1 else token + 1

def goIntentValue (intent : UInt8) (tieBreaker : Bool) : UInt8 :=
  (intent <<< 1) ||| (if tieBreaker then 1 else 0)

def P2pData.opChannelAttr (s : P2pData) : ChannelAttr := ⟨s.cfg.country, s.opRegClass, s.opChannel⟩

-- `p2p_buf_add_channel_list`
def P2pData.channelListAttr (s : P2pData) (channels : Channels) : Octets :=
  [s.cfg.country.c0, s.cfg.country.c1, s.cfg.country.c2] ++ channelListOctets channels

-- `p2p_build_go_neg_req`: the frame, for the dialog token that the peer is given
def buildGoNegReq (s : P2pData) (peer : Device) (dialogToken : UInt8) : Message :=
  { dialogToken := dialogToken
    capability := some s.devCapab
    goIntent := some (goIntentValue s.goIntent s.nextTieBreaker)
    listenChannel := some ⟨s.cfg.country, s.cfg.regClass, s.cfg.channel⟩
    intendedAddr := some s.intendedAddr
    channelList := some (s.channelListAttr s.channels)
    deviceAddr := some s.cfg.devAddr
    operatingChannel := some s.opChannelAttr
    devPasswordId := wpsMethodPwId peer.wpsMethod }

-- `p2p_connect_send`
def connectSend (env : Env) (s : P2pData) (peer : Addr) : P2pData × Bool :=
  match s.getDevice peer with
  | none => (s, false)
  | some dev =>
    if dev.txFreq ≤ 0 then (s, false)
    else if !env.alloc .goNegReq then (s, false)
    else
      let token := nextToken dev.dialogToken
      let req := buildGoNegReq s dev token
      let s := s.modifyDevice peer fun d =>
        { d with
          dialogToken := token
          waitGoNegResponse := true
          connectReqs := d.connectReqs + 1 }
      let s := s.setState .connect
      let s := { s with
        nextTieBreaker := !s.nextTieBreaker
        pendingAction := .goNegRequest
        goNegPeer := some peer }
      let r := sendAction env s dev.txFreq peer (.goNegReq req)
      (if r.2 then r.1 else r.1.setTimeout, true)

-- `p2p_build_go_neg_resp`
def buildGoNegResp (s : P2pData) (peer : Option Device) (dialogToken status : UInt8)
    (tieBreaker : Bool) : Message :=
  let goState := peer.map (·.goState)
  { dialogToken := dialogToken
    status := some status
    capability := some s.devCapab
    goIntent := some (goIntentValue s.goIntent tieBreaker)
    operatingChannel := if goState = some .remoteGo then none else some s.opChannelAttr
    intendedAddr := some s.intendedAddr
    channelList := some (s.channelListAttr
      (if status ≠ scSuccess ∨ goState = none ∨ goState = some .remoteGo then s.channels
       else channelsIntersect s.channels ((peer.map (·.channels)).getD [])))
    deviceAddr := some s.cfg.devAddr
    groupId := if goState = some .localGo then some (s.cfg.devAddr, s.ssid) else none
    devPasswordId := wpsMethodPwId ((peer.map (·.wpsMethod)).getD .notReady) }

def bestInIntersection (freq : ℤ) (intersection : Channels) : Option (UInt8 × UInt8) :=
  if 0 < freq then
    (freqToChannel freq).filter fun c => channelsIncludes intersection c.1 c.2
  else none

-- `p2p_reselect_channel`
def reselectChannel (s : P2pData) (intersection : Channels) : P2pData :=
  let freq := channelToFreq s.cfg.country s.opRegClass s.opChannel
  let best5 := if 2400 ≤ freq ∧ freq < 2500 then bestInIntersection s.bestFreq5 intersection else none
  let best24 :=
    if 4900 ≤ freq ∧ freq < 6000 then bestInIntersection s.bestFreq24 intersection else none
  match best5, best24 with
  | some c, _ => { s with opRegClass := c.1, opChannel := c.2 }
  | none, some c => { s with opRegClass := c.1, opChannel := c.2 }
  | none, none =>
    match intersection with
    | cl :: _ => { s with opRegClass := cl.regClass, opChannel := cl.channel.headD 0 }
    | [] => { s with opRegClass := 0, opChannel := 0 }

def setupGo (env : Env) (s : P2pData) (peer : Addr) : P2pData × Bool :=
  let intersection := channelsIntersect s.channels (((s.getDevice peer).map (·.channels)).getD [])
  match intersection with
  | [] => (s, false)
  | cl :: _ =>
    if cl.channel = [] then (s, false)
    else
      let s :=
        if channelsIncludes intersection s.opRegClass s.opChannel then s
        else reselectChannel s intersection
      (if s.ssidSet then s else { s with ssid := env.ssid, ssidSet := true }, true)

def setupRole (env : Env) (s : P2pData) (peer : Addr) (go : Bool) : P2pData × Bool :=
  if go then setupGo env s peer else (s, true)

-- `p2p_add_dev_info`
def addDevInfo (env : Env) (s : P2pData) (addr : Addr) (msg : Message) : P2pData :=
  s.modifyDevice addr fun d =>
    { d with
      lastSeen := env.now
      devCapab := msg.capability.getD d.devCapab
      listenFreq :=
        match msg.listenChannel with
        | some c =>
          let freq := channelToFreq c.country c.regClass c.channel
          if freq < 0 then d.listenFreq else freq
        | none => d.listenFreq
      probeReqOnly := false
      groupClientOnly := false }

-- `p2p_add_dev_from_go_neg_req`, where there is no entry yet
def addDevFromGoNegReq (env : Env) (s : P2pData) (addr : Addr) (msg : Message) : P2pData :=
  let r := createDevice env s addr
  if r.2 then addDevInfo env r.1 addr msg else r.1

def knowPeer (env : Env) (s : P2pData) (sa : Addr) (msg : Message) : P2pData :=
  match s.getDevice sa with
  | none => addDevFromGoNegReq env s sa msg
  | some dev => if dev.probeReqOnly then addDevInfo env s sa msg else s

def defaultChannels (s : P2pData) (dev : Device) : P2pData :=
  if s.goNegPeer = none ∧ ¬dev.forceFreq then
    { s with
      opRegClass := s.cfg.opRegClass
      opChannel := s.cfg.opChannel
      channels := s.cfg.channels }
  else s

def negotiated (s : P2pData) (sa : Addr) (goState : GoState) (operFreq : ℤ) (dialogToken : UInt8)
    (intended : Addr) (rxFreq : ℤ) : P2pData :=
  let s := s.modifyDevice sa fun d => { d with goState := goState, operFreq := operFreq }
  let s := if s.state ≠ .idle then stopFindForFreq s rxFreq else s
  let s := (s.setState .goNeg).clearTimeout
  let s := s.modifyDevice sa fun d =>
    { d with dialogToken := dialogToken, intendedAddr := intended }
  { s with goNegPeer := some sa }

-- The part of `p2p_process_go_neg_req` for a peer that was authorized: the status of the response,
-- or nothing where there is none. `opChannel` and the attributes after it are in the request.
def negotiateReq (env : Env) (s : P2pData) (dev : Device) (msg : Message) (opChannel : ChannelAttr)
    (channelList : Octets) (intended : Addr) (rxFreq : ℤ) : P2pData × Option UInt8 :=
  let sa := dev.addr
  let s := (defaultChannels s dev).modifyDevice sa fun d => { d with notYetReady := false }
  match msg.goIntent with
  | none => (s, some scFailInvalidParams)
  | some peerValue =>
    if maxGoIntent < peerValue >>> 1 then (s, some scFailInvalidParams)
    else if dev.goNegReqSent ≠ 0 ∧ s.cfg.devAddr < sa then (s, none)
    else
      match goDet s.goIntent peerValue with
      | none => (s, some scFailBothGoIntent15)
      | some go =>
        let r := peerChannelsCheck s s.channels sa channelList
        let s := r.1
        if !r.2 then (s, some scFailNoCommonChannels)
        else if !pwIdCompatible msg.devPasswordId dev.wpsMethod then
          (s, some scFailIncompatibleProvMethod)
        else
          let r := setupRole env s sa go
          let s := r.1
          if !r.2 then (s, some scFailNoCommonChannels)
          else
            let operFreq :=
              channelToFreq opChannel.country opChannel.regClass opChannel.channel
            (negotiated s sa (if go then .localGo else .remoteGo) operFreq msg.dialogToken intended
              rxFreq, some scSuccess)

def awaitConfirm (s : P2pData) (sa : Addr) (status : UInt8) : P2pData :=
  if status = scSuccess then
    { s.modifyDevice sa fun d => { d with waitGoNegConfirm := true } with
      pendingAction := .goNegResponse }
  else { s with pendingAction := .goNegResponseFailure }

-- The end of `p2p_process_go_neg_req`: the response; `peer` is the entry that was found for the
-- sender.
def respondGoNeg (env : Env) (s : P2pData) (sa : Addr) (peer : Option Addr) (msg : Message)
    (status : UInt8) (rxFreq : ℤ) : P2pData :=
  let tieBreaker := (msg.goIntent.getD 0) &&& 0x01 = 1
  let s := s.modifyPtr peer fun d => { d with status := status }
  let resp := buildGoNegResp s (s.deref peer) msg.dialogToken status (!tieBreaker)
  if !env.alloc .goNegResp then s
  else if s.respFreq rxFreq < 0 then s
  else
    (sendAction env (awaitConfirm s sa status) (s.respFreq rxFreq) sa (.goNegResp resp)).1

-- `p2p_process_go_neg_req`; a frame that `p2p_parse` does not accept is left out.
def processGoNegReq (env : Env) (s : P2pData) (sa : Addr) (msg : Message) (rxFreq : ℤ) : P2pData :=
  match msg.listenChannel, msg.operatingChannel, msg.channelList, msg.intendedAddr, msg.deviceAddr with
  | some _, some opChannel, some channelList, some intended, some deviceAddr =>
    if deviceAddr ≠ sa then respondGoNeg env s sa none msg scFailInvalidParams rxFreq
    else if msg.status.getD 0 ≠ 0 then
      respondGoNeg env s sa ((s.getDevice sa).map (·.addr)) msg scFailInvalidParams rxFreq
    else
      let s := knowPeer env s sa msg
      match s.getDevice sa with
      | none => respondGoNeg env s sa none msg scFailInfoCurrentlyUnavailable rxFreq
      | some dev =>
        if dev.userRejected then
          respondGoNeg env s sa (some sa) msg scFailRejectedByUser rxFreq
        else if dev.wpsMethod = .notReady then
          respondGoNeg env (s.modifyDevice sa fun d => { d with peerWaitingResponse := true }) sa
            (some sa) msg scFailInfoCurrentlyUnavailable rxFreq
        else if s.goNegPeer ≠ none ∧ s.goNegPeer ≠ some sa then
          respondGoNeg env s sa (some sa) msg scFailUnableToAccommodate rxFreq
        else
          let r := negotiateReq env s dev msg opChannel channelList intended rxFreq
          match r.2 with
          | none => r.1
          | some status => respondGoNeg env r.1 sa (some sa) msg status rxFreq
  | _, _, _, _, _ => respondGoNeg env s sa none msg scFailInvalidParams rxFreq

-- `p2p_build_go_neg_conf`; `go` is not known where the negotiation failed before the roles were
-- determined.
def buildGoNegConf (s : P2pData) (peer : Device) (dialogToken status : UInt8)
    (respChan : Option ChannelAttr) (go : Option Bool) : Message :=
  { dialogToken := dialogToken
    status := some status
    capability := some s.devCapab
    operatingChannel :=
      if go ≠ some false then some s.opChannelAttr else some (respChan.getD s.opChannelAttr)
    channelList := some (s.channelListAttr (channelsIntersect s.channels peer.channels))
    groupId := if go ≠ some false then some (s.cfg.devAddr, s.ssid) else none }

def storeSsid (s : P2pData) (client : Bool) (msg : Message) : P2pData :=
  if client then { s with ssid := (msg.groupId.map (·.2)).getD [] } else s

def Message.operFreq (msg : Message) : ℤ :=
  match msg.operatingChannel with
  | some c => channelToFreq c.country c.regClass c.channel
  | none => 0

-- The part of `p2p_process_go_neg_resp` after the status of the response: the status of the
-- confirmation and the role
def negotiateResp (env : Env) (s : P2pData) (dev : Device) (msg : Message) :
    P2pData × UInt8 × Option Bool :=
  let sa := dev.addr
  match msg.intendedAddr, msg.goIntent with
  | some intended, some peerValue =>
    if maxGoIntent < peerValue >>> 1 then (s, scFailInvalidParams, none)
    else
      match goDet s.goIntent peerValue with
      | none => (s, scFailIncompatibleParams, none)
      | some go =>
        let s := storeSsid s (!go) msg
        if msg.operatingChannel = none ∧ ¬go then (s, scFailInvalidParams, some go)
        else
          match msg.channelList with
          | none => (s, scFailInvalidParams, some go)
          | some channelList =>
            let r := peerChannelsCheck s s.channels sa channelList
            let s := r.1
            if !r.2 then (s, scFailNoCommonChannels, some go)
            else
              let s := s.modifyDevice sa fun d => { d with operFreq := msg.operFreq }
              if !pwIdCompatible msg.devPasswordId dev.wpsMethod then
                (s, scFailIncompatibleProvMethod, some go)
              else
                let r := setupRole env s sa go
                let s := r.1
                if !r.2 then (s, scFailNoCommonChannels, some go)
                else
                  let s := (s.setState .goNeg).clearTimeout
                  (s.modifyDevice sa fun d => { d with intendedAddr := intended },
                    scSuccess, some go)
  | _, _ => (s, scFailInvalidParams, none)

def awaitConfirmTx (s : P2pData) (sa : Addr) (status : UInt8) (go : Option Bool) : P2pData :=
  if status = scSuccess then
    { s.modifyDevice sa fun d =>
        { d with goState := if go ≠ some false then .localGo else .remoteGo } with
      pendingAction := .goNegConfirm }
  else { s with pendingAction := .noPendingAction }

def Device.confFreq (dev : Device) (rxFreq : ℤ) : ℤ :=
  if 0 < rxFreq then rxFreq else dev.listenFreq

-- The end of `p2p_process_go_neg_resp`: the confirmation
def confirmGoNeg (env : Env) (s : P2pData) (sa : Addr) (msg : Message) (status : UInt8)
    (go : Option Bool) (rxFreq : ℤ) : P2pData :=
  match s.getDevice sa with
  | none => s
  | some dev =>
    let conf := buildGoNegConf s dev msg.dialogToken status msg.operatingChannel go
    if !env.alloc .goNegConf then s
    else
      let r := sendAction env (awaitConfirmTx s sa status go) (dev.confFreq rxFreq) sa
        (.goNegConf conf)
      if r.2 then r.1 else goNegFailed r.1 (r.1.getDevice sa) (-1)

-- `p2p_process_go_neg_resp`
def processGoNegResp (env : Env) (s : P2pData) (sa : Addr) (msg : Message) (rxFreq : ℤ) : P2pData :=
  match s.getDevice sa with
  | none => s
  | some dev =>
    if dev.wpsMethod = .notReady ∨ s.goNegPeer ≠ some sa then s
    else if !dev.waitGoNegResponse then s
    else
      let s := s.modifyDevice sa fun d => { d with waitGoNegResponse := false }
      if msg.dialogToken ≠ dev.dialogToken then s
      else
        match msg.status with
        | none => confirmGoNeg env s sa msg scFailInvalidParams none rxFreq
        | some status =>
          if status ≠ scSuccess then
            let s := s.modifyDevice sa fun d => { d with goNegReqSent := 0 }
            if status = scFailInfoCurrentlyUnavailable then
              let s := s.modifyDevice sa fun d => { d with notYetReady := true, waitCount := 0 }
              (s.setState .waitPeerIdle).setTimeout
            else goNegFailed s (s.getDevice sa) status.toNat
          else
            let r := negotiateResp env s dev msg
            confirmGoNeg env r.1 sa msg r.2.1 r.2.2 rxFreq

-- `p2p_go_complete`
def goComplete (s : P2pData) (peer : Device) : P2pData :=
  let go : Bool := peer.goState = .localGo
  let res : GoNegResults :=
    { roleGo := go
      freq := if go then channelToFreq s.cfg.country s.opRegClass s.opChannel else peer.operFreq
      ssid := s.ssid
      peerDeviceAddr := peer.addr
      peerInterfaceAddr := peer.intendedAddr
      wpsMethod := peer.wpsMethod
      opRegClass := s.opRegClass
      opChannel := s.opChannel
      channels := s.channels }
  let s := { s.clearTimeout with ssidSet := false }
  let s := s.modifyDevice peer.addr fun d => { d with goNegReqSent := 0, wpsMethod := .notReady }
  (s.setState .provisioning).log (.goNegCompleted res)

def stopWaitingForTx (s : P2pData) : P2pData :=
  if s.pendingAction = .goNegResponse then { s with pendingAction := .noPendingAction } else s

-- `p2p_process_go_neg_conf`. A frame that `p2p_parse` does not accept ends the wait for the TX status
-- of the response too.
def processGoNegConf (s : P2pData) (sa : Addr) (msg : Option Message) : P2pData :=
  match s.getDevice sa with
  | none => s
  | some dev =>
    if dev.wpsMethod = .notReady ∨ s.goNegPeer ≠ some sa then s
    else
      let s := stopWaitingForTx s
      match msg with
      | none => s
      | some msg =>
        if !dev.waitGoNegConfirm then s
        else
          let s := s.modifyDevice sa fun d => { d with waitGoNegConfirm := false }
          if msg.dialogToken ≠ dev.dialogToken then s
          else if msg.status ≠ some scSuccess then s
          else
            let s := storeSsid s (dev.goState = .remoteGo) msg
            if dev.goState = .unknownGo then s
            else goComplete s { dev with waitGoNegConfirm := false }

end WpaSupplicant.P2p

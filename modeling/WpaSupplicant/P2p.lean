import WpaSupplicant.P2p.Channels

namespace WpaSupplicant.P2p

-- `enum p2p_state`
inductive State where
  | idle
  | search
  | connect
  | connectListen
  | goNeg
  | listenOnly
  | waitPeerConnect
  | waitPeerIdle
  | sdDuringFind
  | provisioning
  | pdDuringFind
  | invite
  | inviteListen
  | searchWhenReady
  deriving DecidableEq, Repr

-- `enum p2p_pending_action_state`
inductive PendingAction where
  | noPendingAction
  | goNegRequest
  | goNegResponse
  | goNegResponseFailure
  | goNegConfirm
  | sd
  | pd
  | invitationRequest
  | invitationResponse
  | devDiscRequest
  | devDiscResponse
  | goDiscReq
  deriving DecidableEq, Repr

-- `enum p2p_after_scan`
inductive AfterScan where
  | nothing
  | listen
  | connect
  deriving DecidableEq, Repr

-- `enum p2p_go_state`
inductive GoState where
  | unknownGo
  | localGo
  | remoteGo
  deriving DecidableEq, Repr

-- `enum p2p_wps_method`
inductive WpsMethod where
  | notReady
  | pinDisplay
  | pinKeypad
  | pbc
  deriving DecidableEq, Repr

-- `P2P_SC_*`
def scSuccess : UInt8 := 0
def scFailInfoCurrentlyUnavailable : UInt8 := 1
def scFailIncompatibleParams : UInt8 := 2
def scFailInvalidParams : UInt8 := 4
def scFailUnableToAccommodate : UInt8 := 5
def scFailNoCommonChannels : UInt8 := 7
def scFailBothGoIntent15 : UInt8 := 9
def scFailIncompatibleProvMethod : UInt8 := 10
def scFailRejectedByUser : UInt8 := 11

-- `DEV_PW_*`
def devPwDefault : ℕ := 0x0000
def devPwUserSpecified : ℕ := 0x0001
def devPwPushbutton : ℕ := 0x0004
def devPwRegistrarSpecified : ℕ := 0x0005

structure DevCapab where
  serviceDiscovery : Bool := false
  clientDiscoverability : Bool := false
  deriving DecidableEq, Repr

-- `struct p2p_device`; the bits of `flags` are fields of their own.
structure Device where
  addr : Addr
  interfaceAddr : Addr := 0
  memberInGoDev : Addr := 0
  memberInGoIface : Addr := 0
  lastSeen : OsTime := ⟨0, 0⟩
  listenFreq : ℤ := 0
  operFreq : ℤ := 0
  wpsMethod : WpsMethod := .notReady
  devCapab : DevCapab := {}
  goNegReqSent : ℕ := 0
  goState : GoState := .unknownGo
  dialogToken : UInt8 := 0
  intendedAddr : Addr := 0
  country : Country := ⟨0, 0, 0⟩
  channels : Channels := []
  reqConfigMethods : ℕ := 0
  probeReqOnly : Bool := false
  notYetReady : Bool := false
  sdInfo : Bool := false
  sdSchedule : Bool := false
  userRejected : Bool := false
  peerWaitingResponse : Bool := false
  waitGoNegResponse : Bool := false
  waitGoNegConfirm : Bool := false
  groupClientOnly : Bool := false
  forceFreq : Bool := false
  pdForJoin : Bool := false
  status : UInt8 := scSuccess
  waitCount : ℕ := 0
  connectReqs : ℕ := 0
  invitationReqs : ℕ := 0
  deriving DecidableEq, Repr

structure ChannelAttr where
  country : Country
  regClass : UInt8
  channel : UInt8
  deriving DecidableEq, Repr

-- The attributes of a GO Negotiation frame, as `p2p_parse` finds them
structure Message where
  dialogToken : UInt8
  capability : Option DevCapab := none
  goIntent : Option UInt8 := none
  status : Option UInt8 := none
  listenChannel : Option ChannelAttr := none
  operatingChannel : Option ChannelAttr := none
  channelList : Option Octets := none
  intendedAddr : Option Addr := none
  -- the P2P Device Address of P2P Device Info
  deviceAddr : Option Addr := none
  groupId : Option (Addr × Octets) := none
  devPasswordId : ℕ := devPwDefault
  deriving DecidableEq, Repr

inductive Frame where
  | goNegReq (msg : Message)
  | goNegResp (msg : Message)
  | goNegConf (msg : Message)
  | sdQuery
  | gasInitialResp (dialogToken : UInt8)
  | gasComebackReq (dialogToken : UInt8)
  | gasComebackResp (dialogToken : UInt8)
  | provDiscReq (dialogToken : UInt8)
  | provDiscResp (dialogToken : UInt8)
  | invitationReq
  | invitationResp (status : UInt8)
  | devDiscReq (dialogToken : UInt8)
  | devDiscResp (dialogToken status : UInt8)
  | goDiscReq
  | presenceReq
  | presenceResp
  deriving DecidableEq, Repr

-- `struct p2p_go_neg_results`, with the channel and the channel list of the module
structure GoNegResults where
  status : ℤ := 0
  roleGo : Bool := false
  freq : ℤ := 0
  ssid : Octets := []
  peerDeviceAddr : Addr := 0
  peerInterfaceAddr : Addr := 0
  wpsMethod : WpsMethod := .notReady
  opRegClass : UInt8 := 0
  opChannel : UInt8 := 0
  channels : Channels := []
  deriving DecidableEq, Repr

-- What the module calls: its own entry points that give up a request, and the callbacks of the
-- driver and of the upper layer that the results are about
inductive Call where
  | listen
  | find
  | stopFind
  | flush
  | connect (peer : Addr)
  | deviceFree (addr : Addr)
  | startListen (freq : ℤ)
  | p2pScan
  | sendAction (freq : ℤ) (dst : Addr) (frame : Frame) (ok : Bool)
  | goNegCompleted (res : GoNegResults)
  deriving DecidableEq, Repr

-- `struct p2p_pending_action_tx`
structure PendingTx where
  freq : ℤ
  dst : Addr
  frame : Frame
  deriving DecidableEq, Repr

-- `struct p2p_sd_query`, with its address for a name; without a peer it is for all peers.
structure SdQuery where
  id : ℕ
  peer : Option Addr
  deriving DecidableEq, Repr

-- The part of `struct p2p_config` that the functions of the model read
structure Config where
  devAddr : Addr
  country : Country
  regClass : UInt8
  channel : UInt8
  opRegClass : UInt8
  opChannel : UInt8
  cfgOpChannel : Bool := false
  channels : Channels
  maxPeers : ℕ := 100
  deriving DecidableEq, Repr

-- The fields of `struct p2p_data` that decide on what comes next: the state with its timeout, what is
-- done after a scan, the peers. What was called is kept, the last call first.
structure Control where
  state : State := .idle
  stateTimeout : Bool := false
  devices : List Device := []
  scanRunning : Bool := false
  startAfterScan : AfterScan := .nothing
  afterScanPeer : Addr := 0
  calls : List Call := []
  deriving DecidableEq, Repr

-- The GO Negotiation data. A pointer to a device is the address of the device.
structure GoNegData where
  goNegPeer : Option Addr := none
  intendedAddr : Addr := 0
  goIntent : UInt8 := 0
  nextTieBreaker : Bool := false
  ssid : Octets := []
  ssidSet : Bool := false
  opRegClass : UInt8 := 0
  opChannel : UInt8 := 0
  channels : Channels := []
  bestFreq24 : ℤ := 0
  bestFreq5 : ℤ := 0
  bestFreqOverall : ℤ := 0
  deriving DecidableEq, Repr

structure ListenData where
  pendingListenFreq : ℤ := 0
  pendingListenSec : ℕ := 0
  pendingListenUsec : ℕ := 0
  inListen : Bool := false
  drvInListen : ℤ := 0
  extListenOnly : Bool := false
  extListenPeriod : ℕ := 0
  extListenInterval : ℕ := 0
  pendingClientDiscFreq : ℤ := 0
  deriving DecidableEq, Repr

-- Service Discovery
structure SdData where
  sdPeer : Option Addr := none
  sdQuery : Option ℕ := none
  sdQueries : List SdQuery := []
  sdResp : Option Octets := none
  sdRespAddr : Addr := 0
  sdRespDialogToken : UInt8 := 0
  sdRespPos : ℕ := 0
  sdRxResp : Option Octets := none
  deriving DecidableEq, Repr

structure DiscData where
  invitePeer : Option Addr := none
  invRoleActiveGo : Bool := false
  pendingClientDiscGo : Option Addr := none
  pendingClientDiscAddr : Addr := 0
  pendingDevDiscDialogToken : UInt8 := 0
  pendingDevDiscAddr : Addr := 0
  pendingDevDiscFreq : ℤ := 0
  userInitiatedPd : Bool := false
  pendingPdDevaddr : Addr := 0
  pdRetries : ℕ := 0
  deriving DecidableEq, Repr

structure Timeouts where
  findTimeout : Bool := false
  scanTimeout : Bool := false
  extListenTimeout : Bool := false
  goNegStart : Bool := false
  inviteStart : Bool := false
  deriving DecidableEq, Repr

-- `struct p2p_data`
structure P2pData extends Control, GoNegData, ListenData, SdData, DiscData, Timeouts where
  cfg : Config
  devCapab : DevCapab := ⟨true, true⟩
  pendingAction : PendingAction := .noPendingAction
  afterScanTx : Option PendingTx := none
  lastP2pFindTimeout : ℕ := 0
  numReqDevTypes : ℕ := 0
  peerFilter : Addr := 0
  deriving DecidableEq, Repr

inductive Buf where
  | probeRespIes
  | goNegReq
  | goNegResp
  | goNegConf
  | sdQuery
  | sdRxResp
  | sdResp
  | gasComebackReq
  | gasComebackResp
  | provDiscReq (peer : Addr)
  | provDiscResp
  | invitationReq
  | invitationResp
  | devDiscReq
  | devDiscResp
  | presenceReq
  | presenceResp
  | afterScanTx
  | device (addr : Addr)
  | reqDevTypes
  deriving DecidableEq, Repr

-- The result of the `p2p_scan` callback: 0, 1 where another scan is running, -1
inductive ScanResult where
  | started
  | busy
  | failed
  deriving DecidableEq, Repr

-- What the environment answers in a step: the allocator, the driver, a random SSID and number, the
-- time
structure Env where
  alloc : Buf → Bool := fun _ => true
  sendAction : Addr → Bool := fun _ => true
  startListen : Bool := true
  p2pScan : ScanResult := .started
  ssid : Octets := []
  random : ℕ := 0
  now : OsTime := ⟨0, 0⟩

namespace P2pData

def log (s : P2pData) (c : Call) : P2pData := { s with calls := c :: s.calls }

-- `p2p_set_state`
def setState (s : P2pData) (newState : State) : P2pData := { s with state := newState }

-- `p2p_set_timeout` and `p2p_clear_timeout`
def setTimeout (s : P2pData) : P2pData := { s with stateTimeout := true }
def clearTimeout (s : P2pData) : P2pData := { s with stateTimeout := false }

-- `p2p_get_device` and `p2p_get_device_interface`
def getDevice (s : P2pData) (addr : Addr) : Option Device := s.devices.find? (·.addr = addr)
def getDeviceInterface (s : P2pData) (addr : Addr) : Option Device :=
  s.devices.find? (·.interfaceAddr = addr)

def deref (s : P2pData) (ptr : Option Addr) : Option Device := ptr.bind s.getDevice

def modifyDevice (s : P2pData) (addr : Addr) (f : Device → Device) : P2pData :=
  { s with
    devices := s.devices.map fun d => if d.addr = addr then { f d with addr := d.addr } else d }

def modifyPtr (s : P2pData) (ptr : Option Addr) (f : Device → Device) : P2pData :=
  match ptr with
  | some addr => s.modifyDevice addr f
  | none => s

def listenFreq (s : P2pData) : ℤ := channelToFreq s.cfg.country s.cfg.regClass s.cfg.channel

def respFreq (s : P2pData) (rxFreq : ℤ) : ℤ := if 0 < rxFreq then rxFreq else s.listenFreq

end P2pData

def Device.txFreq (dev : Device) : ℤ := if 0 < dev.listenFreq then dev.listenFreq else dev.operFreq

-- `p2p_send_action`
def sendAction (env : Env) (s : P2pData) (freq : ℤ) (dst : Addr) (frame : Frame) :
    P2pData × Bool :=
  if s.scanRunning then
    if env.alloc .afterScanTx then ({ s with afterScanTx := some ⟨freq, dst, frame⟩ }, true)
    else ({ s with afterScanTx := none }, false)
  else (s.log (.sendAction freq dst frame (env.sendAction dst)), env.sendAction dst)

-- `p2p_go_neg_failed`
def goNegFailed (s : P2pData) (peer : Option Device) (status : ℤ) : P2pData :=
  let s := s.clearTimeout.setState .idle
  let s := s.modifyPtr s.goNegPeer fun d => { d with wpsMethod := .notReady }
  let s := { s with goNegPeer := none }
  s.log (.goNegCompleted
    { status := status
      peerDeviceAddr := (peer.map (·.addr)).getD 0
      peerInterfaceAddr := (peer.map (·.intendedAddr)).getD 0 })

def clearPointers (s : P2pData) (dev : Device) : P2pData :=
  let s := if s.goNegPeer = some dev.addr then goNegFailed s (some dev) (-1) else s
  let s := if s.invitePeer = some dev.addr then { s with invitePeer := none } else s
  let s := if s.sdPeer = some dev.addr then { s with sdPeer := none } else s
  if s.pendingClientDiscGo = some dev.addr then { s with pendingClientDiscGo := none } else s

-- `p2p_device_free`, for a device that was taken off the list
def deviceFree (s : P2pData) (dev : Device) : P2pData :=
  (clearPointers s dev).log (.deviceFree dev.addr)

-- `dl_list_del` and `p2p_device_free`
def removeDevice (s : P2pData) (dev : Device) : P2pData :=
  deviceFree { s with devices := s.devices.filter (·.addr ≠ dev.addr) } dev

def oldestDevice : List Device → Option Device
  | [] => none
  | d :: l =>
    some (l.foldl (fun oldest dev =>
      if osTimeBefore dev.lastSeen oldest.lastSeen then dev else oldest) d)

def makeRoom (s : P2pData) : P2pData :=
  match oldestDevice s.devices with
  | some oldest => if s.cfg.maxPeers < s.devices.length + 1 then removeDevice s oldest else s
  | none => s

-- `p2p_create_device`: whether there is an entry afterwards
def createDevice (env : Env) (s : P2pData) (addr : Addr) : P2pData × Bool :=
  if (s.getDevice addr).isSome then (s, true)
  else
    let s := makeRoom s
    if env.alloc (.device addr) then ({ s with devices := { addr := addr } :: s.devices }, true)
    else (s, false)

end WpaSupplicant.P2p

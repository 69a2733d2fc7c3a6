import WpaSupplicant.P2p.PeerRecord

namespace WpaSupplicant.P2p.Frames

open Lib.Octets Pointers Wps.Pointers

-- The GO Negotiation frames as octets

structure Build where
  p2p : P2pData
  -- the bits of the Device Capability field that the module does not ask for
  otherCapab : UInt8 := 0
  crossConnect : Bool := false
  p2pIntraBss : Bool := false
  configMethods : ℕ := 0
  priDevType : List.Vector UInt8 8 := .replicate 8 0
  secDevType : List (List.Vector UInt8 8) := []
  devName : Octets := []
  wps2 : Bool := true
  wpsVendorExt : List Octets := []
  ssid_le : p2p.ssid.length ≤ 32
  secDevType_le : secDevType.length ≤ 5
  devName_le : devName.length ≤ 32
  wpsVendorExt_le : wpsVendorExt.length ≤ 10

-- `P2P_DEV_PREFER_PERSISTENT_GROUP` and `P2P_DEV_PREFER_PERSISTENT_RECONN`
structure PeerFlags where
  preferPersistentGroup : Bool := false
  preferPersistentReconn : Bool := false
  deriving DecidableEq, Repr

section Attributes

variable (b : Build)

def p2pAttr (a : ℕ × Octets) : Octets := UInt8.ofNat a.1 :: toLE 2 a.2.length ++ a.2

def Build.devCapab : UInt8 :=
  (if b.p2p.devCapab.serviceDiscovery then 1 else 0) ||| (if b.p2p.devCapab.clientDiscoverability then 2 else 0) |||
    (b.otherCapab &&& 0xfc)

def groupCapab (flags : PeerFlags) : UInt8 :=
  (if flags.preferPersistentGroup then (if flags.preferPersistentReconn then 0x22 else 0x02) else 0) |||
    (if b.crossConnect then 0x10 else 0) ||| (if b.p2pIntraBss then 0x08 else 0)

def p2pBufAddCapability (devCapab groupCapab : UInt8) : ℕ × Octets := (2, [devCapab, groupCapab])

def p2pBufAddGoIntent (goIntent : UInt8) : ℕ × Octets := (4, [goIntent])

def channelOctets (c : ChannelAttr) : Octets := [c.country.c0, c.country.c1, c.country.c2, c.regClass, c.channel]

-- `p2p_buf_add_listen_channel` and `p2p_buf_add_operating_channel`
def p2pBufAddListenChannel (c : ChannelAttr) : ℕ × Octets := (6, channelOctets c)
def p2pBufAddOperatingChannel (c : ChannelAttr) : ℕ × Octets := (17, channelOctets c)

def p2pBufAddChannelList (channels : Channels) : ℕ × Octets := (11, b.p2p.channelListAttr channels)

def p2pBufAddStatus (status : UInt8) : ℕ × Octets := (0, [status])

-- `WPS_CONFIG_DISPLAY`, `WPS_CONFIG_PUSHBUTTON` and `WPS_CONFIG_KEYPAD`
def wpsConfigDisplay : ℕ := 0x0008
def wpsConfigPushbutton : ℕ := 0x0080
def wpsConfigKeypad : ℕ := 0x0100

-- The Config Methods of `p2p_buf_add_device_info`
def methods (wpsMethod : WpsMethod) : ℕ :=
  match wpsMethod with
  | .pbc => wpsConfigPushbutton
  | .pinDisplay | .pinKeypad => wpsConfigDisplay ||| wpsConfigKeypad
  | .notReady =>
    if b.configMethods ≠ 0 then b.configMethods &&& (wpsConfigPushbutton ||| wpsConfigDisplay ||| wpsConfigKeypad)
    else wpsConfigPushbutton ||| wpsConfigDisplay ||| wpsConfigKeypad

def p2pBufAddDeviceInfo (wpsMethod : WpsMethod) : ℕ × Octets :=
  (attrDeviceInfo,
    putBE 6 b.p2p.cfg.devAddr ++ toBE 2 (methods b wpsMethod) ++ b.priDevType.val ++
      [UInt8.ofNat b.secDevType.length] ++ b.secDevType.flatMap (·.val) ++ toBE 2 Wps.attrDevName ++
      toBE 2 b.devName.length ++ b.devName)

def p2pBufAddConfigTimeout (goTimeout clientTimeout : UInt8) : ℕ × Octets := (5, [goTimeout, clientTimeout])

def p2pBufAddIntendedAddr (interfaceAddr : Addr) : ℕ × Octets := (9, putBE 6 interfaceAddr)

def p2pBufAddGroupId (devAddr : Addr) (ssid : Octets) : ℕ × Octets := (15, putBE 6 devAddr ++ ssid)

def p2pBufAddExtListenTiming (period interval : ℕ) : ℕ × Octets := (8, toLE 2 period ++ toLE 2 interval)

end Attributes

section Elements

variable (b : Build)

def element (content : Octets) : Octets := 221 :: UInt8.ofNat content.length :: content

def p2pContent (attrs : List (ℕ × Octets)) : Octets := toBE 4 p2pIeVendorType ++ attrs.flatMap p2pAttr

def vendorExts : ℕ → List Octets → List Octets
  | _, [] => []
  | tailroom, e :: l =>
    if tailroom < 4 + e.length then vendorExts tailroom l else e :: vendorExts (tailroom - (4 + e.length)) l

-- The attributes of a WPS element before the vendor extensions: `wps_build_version`, the Device Password ID and
-- `wps_build_wfa_ext`
def wpsFixed (pwId : ℕ) : List (ℕ × Octets) :=
  [(Wps.attrVersion, [0x10]), (Wps.attrDevPasswordId, toBE 2 pwId)] ++
    if b.wps2 then [(Wps.attrVendorExt, toBE 3 Wps.vendorIdWfa ++ [0, 1, 0x20])] else []

-- The room for vendor extensions in a buffer of 1000 octets, where some are used before the element
def tailroom (pwId used : ℕ) : ℕ := 1000 - (used + 2 + 4 + (plain (wpsFixed b pwId)).length)

-- `p2p_build_wps_ie` without the attributes of other frames
def p2pBuildWpsIe (pwId used : ℕ) : Octets :=
  toBE 4 wpsDevOuiWfa ++
    plain (wpsFixed b pwId ++ (vendorExts (tailroom b pwId used) b.wpsVendorExt).map fun e => (Wps.attrVendorExt, e))

def p2pBufAddPublicActionHdr (subtype dialogToken : UInt8) : Octets :=
  [4, 9, 0x50, 0x6f, 0x9a, 9, subtype, dialogToken]

def usedBy (p2pIe : Octets) : ℕ := 8 + (2 + p2pIe.length)

end Elements

section Frames

variable (b : Build)

-- The attributes of `p2p_build_go_neg_req`
def goNegReqAttrs (peer : Device) (flags : PeerFlags) : List (ℕ × Octets) :=
  [p2pBufAddCapability b.devCapab (groupCapab b flags),
    p2pBufAddGoIntent (goIntentValue b.p2p.goIntent b.p2p.nextTieBreaker), p2pBufAddConfigTimeout 100 20,
    p2pBufAddListenChannel ⟨b.p2p.cfg.country, b.p2p.cfg.regClass, b.p2p.cfg.channel⟩] ++
    (if b.p2p.extListenInterval ≠ 0 then [p2pBufAddExtListenTiming b.p2p.extListenPeriod b.p2p.extListenInterval]
      else []) ++
    [p2pBufAddIntendedAddr b.p2p.intendedAddr, p2pBufAddChannelList b b.p2p.channels,
      p2pBufAddDeviceInfo b peer.wpsMethod, p2pBufAddOperatingChannel b.p2p.opChannelAttr]

def goCapab (goState : Option GoState) (flags : PeerFlags) : UInt8 :=
  if goState = some .localGo then groupCapab b flags else 0

-- The attributes of `p2p_build_go_neg_resp`
def goNegRespAttrs (peer : Option Device) (flags : PeerFlags) (status : UInt8) (tieBreaker : Bool) :
    List (ℕ × Octets) :=
  let goState := peer.map (·.goState)
  [p2pBufAddStatus status, p2pBufAddCapability b.devCapab (goCapab b goState flags),
    p2pBufAddGoIntent (goIntentValue b.p2p.goIntent tieBreaker), p2pBufAddConfigTimeout 100 20] ++
    (if goState = some .remoteGo then [] else [p2pBufAddOperatingChannel b.p2p.opChannelAttr]) ++
    [p2pBufAddIntendedAddr b.p2p.intendedAddr,
      p2pBufAddChannelList b
        (if status ≠ scSuccess ∨ goState = none ∨ goState = some .remoteGo then b.p2p.channels
          else channelsIntersect b.p2p.channels ((peer.map (·.channels)).getD [])),
      p2pBufAddDeviceInfo b ((peer.map (·.wpsMethod)).getD .notReady)] ++
    (if goState = some .localGo then [p2pBufAddGroupId b.p2p.cfg.devAddr b.p2p.ssid] else [])

-- The attributes of `p2p_build_go_neg_conf`
def goNegConfAttrs (peer : Device) (flags : PeerFlags) (status : UInt8) (respChan : Option ChannelAttr)
    (go : Option Bool) : List (ℕ × Octets) :=
  [p2pBufAddStatus status, p2pBufAddCapability b.devCapab (goCapab b (some peer.goState) flags),
    p2pBufAddOperatingChannel (if go ≠ some false then b.p2p.opChannelAttr else respChan.getD b.p2p.opChannelAttr),
    p2pBufAddChannelList b (channelsIntersect b.p2p.channels peer.channels)] ++
    if go ≠ some false then [p2pBufAddGroupId b.p2p.cfg.devAddr b.p2p.ssid] else []

def withWps (attrs : List (ℕ × Octets)) (wpsMethod : WpsMethod) : List Octets :=
  [p2pContent attrs, p2pBuildWpsIe b (wpsMethodPwId wpsMethod) (usedBy (p2pContent attrs))]

-- `p2p_build_go_neg_req`, `p2p_build_go_neg_resp` and `p2p_build_go_neg_conf`, as their elements
def p2pBuildGoNegReq (peer : Device) (flags : PeerFlags) : List Octets :=
  withWps b (goNegReqAttrs b peer flags) peer.wpsMethod

def p2pBuildGoNegResp (peer : Option Device) (flags : PeerFlags) (status : UInt8) (tieBreaker : Bool) : List Octets :=
  withWps b (goNegRespAttrs b peer flags status tieBreaker) ((peer.map (·.wpsMethod)).getD .notReady)

def p2pBuildGoNegConf (peer : Device) (flags : PeerFlags) (status : UInt8) (respChan : Option ChannelAttr)
    (go : Option Bool) : List Octets :=
  [p2pContent (goNegConfAttrs b peer flags status respChan go)]

def frame (subtype dialogToken : UInt8) (elems : List Octets) : Octets :=
  p2pBufAddPublicActionHdr subtype dialogToken ++ elems.flatMap element

end Frames

def toChannel (l : Octets) : ChannelAttr :=
  ⟨⟨l.getD 0 0, l.getD 1 0, l.getD 2 0⟩, l.getD 3 0, l.getD 4 0⟩

def content (buf : Octets) (msg : P2pMessage) (f : P2p.Pointers.Field) : Option Octets :=
  (msg.attr f).map fun s => Lib.Buffer.field buf s.off s.len

def toMessage (msg : P2pMessage) : Message :=
  let data := content msg.p2pBuf msg
  { dialogToken := msg.dialogToken
    capability := (data .capability).map fun l => toDevCapab (l.getD 0 0).toNat
    goIntent := (data .goIntent).map (·.getD 0 0)
    status := (data .status).map (·.getD 0 0)
    listenChannel := (data .listenChannel).map toChannel
    operatingChannel := (data .operatingChannel).map toChannel
    channelList := data .channelList
    intendedAddr := (data .intendedAddr).map (getBE 48)
    deviceAddr := msg.p2pDeviceAddr.map fun p => getBE 48 (Lib.Buffer.field msg.p2pBuf p 6)
    groupId := (data .groupId).map fun l => (getBE 48 (l.take 6), l.drop 6)
    devPasswordId := msg.devPasswordId }

end WpaSupplicant.P2p.Frames

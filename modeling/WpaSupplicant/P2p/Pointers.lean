import WpaSupplicant.Wps.Pointers

namespace WpaSupplicant.P2p.Pointers

open Lib.Octets Lib.Buffer Lib.Checked KeyData.Pointers Wps.Pointers

-- The parser of P2P messages with the pointers that it keeps: an offset into the elements of the frame,
-- or into the P2P or WPS elements of the frame that were put together. Every octet is read with a check
-- that the buffer has it; a read of another one is `none`.

-- The attributes of which `struct p2p_message` keeps a pointer
inductive Field where
  | capability
  | goIntent
  | status
  | listenChannel
  | operatingChannel
  | channelList
  | configTimeout
  | intendedAddr
  | groupBssid
  | invitationFlags
  | groupInfo
  | groupId
  | deviceId
  | manageability
  | noa
  | extListenTiming
  | minorReasonCode
  | p2pDeviceInfo
  deriving DecidableEq, Repr

-- `struct p2p_message`. A field that is a pointer alone has the length of its attribute.
structure P2pMessage where
  p2pAttributes : Option Octets := none
  wpsAttributes : Option Octets := none
  dialogToken : UInt8 := 0
  attr : Field → Option Slice := fun _ => none
  -- P2P Device Info
  p2pDeviceAddr : Option ℕ := none
  priDevType : Option ℕ := none
  numSecDevTypes : ℕ := 0
  deviceName : Octets := List.replicate 33 0
  configMethods : ℕ := 0
  -- the WPS IE
  devPasswordId : ℕ := 0
  wpsConfigMethods : ℕ := 0
  wpsPriDevType : Option ℕ := none
  wpsSecDevTypeList : Option Slice := none
  wpsVendorExt : List Slice := []
  manufacturer : Option Slice := none
  modelName : Option Slice := none
  modelNumber : Option Slice := none
  serialNumber : Option Slice := none
  -- the DS Parameter Set and the SSID, with their headers for the latter
  dsParams : Option ℕ := none
  ssid : Option ℕ := none

-- A case of the `switch` of `p2p_parse_attribute`: the lengths that it takes, whether an empty attribute
-- is passed over, how many bits the length is kept in, and what the debug output reads
structure Case where
  id : ℕ
  field : Field
  least : ℕ
  most : ℕ := 65535
  nullIgnored : Bool := false
  width : ℕ := 64
  logged : ℕ := 0
  dumped : Bool := false
  deriving DecidableEq, Repr

-- The length that is kept
def Case.stored (c : Case) (len : ℕ) : ℕ := len % 2 ^ c.width

-- `P2P_ATTR_*`
def attrDeviceInfo : ℕ := 13

def p2pCases : List Case :=
  [{ id := 2, field := .capability, least := 2, logged := 2 },
    { id := 3, field := .deviceId, least := 6, logged := 6 },
    { id := 4, field := .goIntent, least := 1, logged := 1 },
    { id := 0, field := .status, least := 1, logged := 1 },
    { id := 6, field := .listenChannel, least := 5, nullIgnored := true, logged := 5 },
    { id := 17, field := .operatingChannel, least := 5, nullIgnored := true, logged := 5 },
    { id := 11, field := .channelList, least := 3, width := 8, logged := 3, dumped := true },
    { id := 14, field := .groupInfo, least := 0 },
    { id := attrDeviceInfo, field := .p2pDeviceInfo, least := 6 + 2 + 8 + 1, logged := 6 + 2 + 8 },
    { id := 5, field := .configTimeout, least := 2 },
    { id := 9, field := .intendedAddr, least := 6, logged := 6 },
    { id := 7, field := .groupBssid, least := 6, logged := 6 },
    { id := 15, field := .groupId, least := 6, most := 6 + 32, logged := 6, dumped := true },
    { id := 18, field := .invitationFlags, least := 1, logged := 1 },
    { id := 10, field := .manageability, least := 1, logged := 1 },
    { id := 12, field := .noa, least := 2 },
    { id := 8, field := .extListenTiming, least := 4, logged := 4 },
    { id := 1, field := .minorReasonCode, least := 1, logged := 1 }]

section Attributes

variable (buf : Octets)

-- `WPA_GET_LE16`
def loadLE16 (pos : ℕ) : Option ℕ := (load buf pos 2).map fun l => ofBE l.reverse

-- Control characters are replaced, up to an octet of zero.
def printable : ℕ → Octets → Octets
  | n + 1, c :: rest => if c = 0 then c :: rest else (if c < 32 then 0x5f else c) :: printable n rest
  | _, name => name

-- The P2P Device Info attribute of `p2p_parse_attribute`, which has room for the number of types at least
def deviceInfo (msg : P2pMessage) (pos len : ℕ) : Option (Except ℤ P2pMessage) :=
  (loadBE buf (pos + 6) 2).bind fun configMethods =>
  (loadBE buf (pos + 6 + 2 + 8) 1).bind fun numSecDevTypes =>
    let types := pos + 6 + 2 + 8 + 1
    if pos + len - types < numSecDevTypes * 8 then some (.error (-1))
    else
      let name := types + numSecDevTypes * 8
      if pos + len - name < 4 then some (.error (-1))
      else
        (loadBE buf name 2).bind fun header =>
          if header ≠ Wps.attrDevName then some (.error (-1))
          else
            (loadBE buf (name + 2) 2).bind fun nlen =>
              if pos + len - (name + 4) < nlen ∨ 32 < nlen then some (.error (-1))
              else
                (load buf (name + 4) nlen).bind fun octets =>
                (store msg.deviceName 0 (octets ++ [0])).map fun deviceName =>
                  .ok
                    { msg with
                      p2pDeviceAddr := some pos
                      configMethods := configMethods
                      priDevType := some (pos + 6 + 2)
                      numSecDevTypes := numSecDevTypes
                      deviceName := printable nlen deviceName }

def p2pParseAttribute (msg : P2pMessage) (id pos len : ℕ) : Option (Except ℤ P2pMessage) :=
  match p2pCases.find? (·.id = id) with
  | none => some (.ok msg)
  | some c =>
    if c.nullIgnored ∧ len = 0 then some (.ok msg)
    else if len < c.least ∨ c.most < len then some (.error (-1))
    else
      (load buf pos (max c.logged (if c.dumped then c.stored len else 0))).bind fun _ =>
        let msg := { msg with attr := Function.update msg.attr c.field (some ⟨pos, c.stored len⟩) }
        if id = attrDeviceInfo then deviceInfo buf msg pos len else some (.ok msg)

-- The loop of `p2p_parse_p2p_ie`
def parseP2pFrom (pos : ℕ) (msg : P2pMessage) : Option (Except ℤ P2pMessage) :=
  if pos < buf.length then
    if buf.length ≤ pos + 2 then some (.error (-1))
    else
      (loadLE16 buf (pos + 1)).bind fun attrLen =>
        if buf.length < pos + 3 + attrLen then some (.error (-1))
        else
          (loadBE buf pos 1).bind fun id =>
          (p2pParseAttribute buf msg id (pos + 3) attrLen).bind fun r =>
            match r with
            | .error _ => some (.error (-1))
            | .ok msg => parseP2pFrom (pos + 3 + attrLen) msg
  else some (.ok msg)
termination_by buf.length - pos

def p2pParseP2pIe (msg : P2pMessage) : Option (Except ℤ P2pMessage) := parseP2pFrom buf 0 msg

-- `WPA_GET_BE16` of an attribute that is there
def be16Or (s : Option Slice) (default : ℕ) : Option ℕ :=
  match s with
  | some s => loadBE buf s.off 2
  | none => some default

-- The Device Name of `p2p_parse_wps_ie`, where there is room for it and none yet
def wpsDeviceName (s : Option Slice) (deviceName : Octets) : Option Octets :=
  match s with
  | some s =>
    if s.len < deviceName.length ∧ deviceName.getD 0 0 = 0 then (load buf s.off s.len).bind (store deviceName 0)
    else some deviceName
  | none => some deviceName

def p2pParseWpsIe (msg : P2pMessage) : Option (Except ℤ P2pMessage) :=
  (wpsParseMsg buf).bind fun r =>
    match r with
    | .error _ => some (.error (-1))
    | .ok attr =>
      (wpsDeviceName buf (attr.single .devName) msg.deviceName).bind fun deviceName =>
      (be16Or buf (attr.single .configMethods) msg.wpsConfigMethods).bind fun wpsConfigMethods =>
      (be16Or buf (attr.single .devPasswordId) msg.devPasswordId).map fun devPasswordId =>
        .ok
          { msg with
            deviceName
            wpsConfigMethods
            devPasswordId
            wpsPriDevType := ((attr.single .primaryDevType).map (·.off)).or msg.wpsPriDevType
            wpsSecDevTypeList := (attr.single .secDevTypeList).or msg.wpsSecDevTypeList
            wpsVendorExt := attr.vendorExt
            manufacturer := attr.single .manufacturer
            modelName := attr.single .modelName
            modelNumber := attr.single .modelNumber
            serialNumber := attr.single .serialNumber }

end Attributes

section Elements

variable (ies : Octets)

-- What is needed of `struct ieee802_11_elems`
structure Elems where
  ssid : Option Slice := none
  dsParams : Option Slice := none
  deriving DecidableEq, Repr

-- The loop of `ieee802_11_parse_elems`; what was found before an element that is cut is kept.
def parseElems (pos : ℕ) (elems : Elems) : Option Elems :=
  if pos + 2 ≤ ies.length then
    (loadBE ies pos 1).bind fun id =>
    (loadBE ies (pos + 1) 1).bind fun elen =>
      if ies.length < pos + 2 + elen then some elems
      else if id = 0 then parseElems (pos + 2 + elen) { elems with ssid := some ⟨pos + 2, elen⟩ }
      else if id = 3 then parseElems (pos + 2 + elen) { elems with dsParams := some ⟨pos + 2, elen⟩ }
      else parseElems (pos + 2 + elen) elems
  else some elems
termination_by ies.length - pos

def isVendorIe (ouiType pos id elen : ℕ) : Option Bool :=
  if id = 221 ∧ 4 ≤ elen then (loadBE ies (pos + 2) 4).map (decide <| · = ouiType) else some false

-- The first loop of `ieee802_11_vendor_ie_concat`: the first element of the type
def findVendorIe (ouiType pos : ℕ) : Option (Option ℕ) :=
  if pos + 1 < ies.length then
    (loadBE ies (pos + 1) 1).bind fun elen =>
      if ies.length < pos + 2 + elen then some none
      else
        (loadBE ies pos 1).bind fun id =>
        (isVendorIe ies ouiType pos id elen).bind fun found =>
          if found then some (some pos) else findVendorIe ouiType (pos + 2 + elen)
  else some none
termination_by ies.length - pos

def concatVendorIes (ouiType pos : ℕ) (buf : Octets) : Option Octets :=
  if pos + 1 < ies.length then
    (loadBE ies (pos + 1) 1).bind fun elen =>
      if ies.length < pos + 2 + elen then some buf
      else
        (loadBE ies pos 1).bind fun id =>
        (isVendorIe ies ouiType pos id elen).bind fun found =>
          if found then
            (load ies (pos + 6) (elen - 4)).bind fun octets =>
              concatVendorIes ouiType (pos + 2 + elen) (buf ++ octets)
          else concatVendorIes ouiType (pos + 2 + elen) buf
  else some buf
termination_by ies.length - pos

-- `ieee802_11_vendor_ie_concat`, where the allocation succeeds
def vendorIeConcat (ouiType : ℕ) : Option (Option Octets) :=
  (findVendorIe ies ouiType 0).bind fun ie =>
    match ie with
    | none => some none
    | some pos => (concatVendorIes ies ouiType pos []).map some

-- `WPS_DEV_OUI_WFA` and `P2P_IE_VENDOR_TYPE`
def wpsDevOuiWfa : ℕ := 0x0050f204
def p2pIeVendorType : ℕ := 0x506f9a09

def parseKind (parse : Octets → P2pMessage → Option (Except ℤ P2pMessage)) (attributes : Option Octets)
    (msg : P2pMessage) : Option (Except ℤ P2pMessage) :=
  match attributes with
  | some buf => parse buf msg
  | none => some (.ok msg)

def p2pParseIes (msg : P2pMessage) : Option (Except ℤ P2pMessage) :=
  (parseElems ies 0 {}).bind fun elems =>
  (vendorIeConcat ies wpsDevOuiWfa).bind fun wpsAttributes =>
    let msg := { msg with
      dsParams := ((elems.dsParams.filter (1 ≤ ·.len)).map (·.off)).or msg.dsParams
      ssid := (elems.ssid.map (·.off - 2)).or msg.ssid
      wpsAttributes := wpsAttributes }
    (parseKind p2pParseWpsIe wpsAttributes msg).bind fun r =>
      match r with
      | .error _ => some (.error (-1))
      | .ok msg =>
        (vendorIeConcat ies p2pIeVendorType).bind fun p2pAttributes =>
          parseKind p2pParseP2pIe p2pAttributes { msg with p2pAttributes := p2pAttributes }

-- `p2p_parse`, for what follows the subtype of an Action frame
def p2pParse (data : Octets) : Option (Except ℤ P2pMessage) :=
  match data with
  | [] => some (.error (-1))
  | dialogToken :: ies => p2pParseIes ies { dialogToken := dialogToken }

end Elements

section GroupInfo

variable (buf : Octets)

-- `struct p2p_client_info`
structure P2pClientInfo where
  p2pDeviceAddr : ℕ
  p2pInterfaceAddr : ℕ
  devCapab : ℕ
  configMethods : ℕ
  priDevType : ℕ
  numSecDevTypes : ℕ
  secDevTypes : ℕ
  devName : Slice
  deriving DecidableEq, Repr

-- `P2P_MAX_GROUP_ENTRIES`
def maxGroupEntries : ℕ := 50

-- The body of the loop of `p2p_group_info_parse`: the descriptor at a position, up to `cend`
def clientInfo (g cend : ℕ) : Option (Except ℤ P2pClientInfo) :=
  let t := g + 1 + 2 * 6
  if cend < t then some (.error (-1))
  else
    -- the capabilities are read before the length is compared with more
    (loadBE buf t 1).bind fun devCapab =>
      if cend < t + 1 + 2 + 8 + 1 then some (.error (-1))
      else
        (loadBE buf (t + 1) 2).bind fun configMethods =>
        (loadBE buf (t + 1 + 2 + 8) 1).bind fun numSecDevTypes =>
          let types := t + 1 + 2 + 8 + 1
          if cend < types + 8 * numSecDevTypes then some (.error (-1))
          else
            let name := types + 8 * numSecDevTypes
            if cend < name + 2 + 2 then some (.error (-1))
            else
              (loadBE buf name 2).bind fun header =>
                if header ≠ Wps.attrDevName then some (.error (-1))
                else
                  (loadBE buf (name + 2) 2).bind fun count =>
                    if cend - (name + 4) < count then some (.error (-1))
                    else
                      some
                        (.ok
                          { p2pDeviceAddr := g + 1
                            p2pInterfaceAddr := g + 1 + 6
                            devCapab := devCapab
                            configMethods := configMethods
                            priDevType := t + 3
                            numSecDevTypes := numSecDevTypes
                            secDevTypes := types
                            devName := ⟨name + 4, min count 32⟩ })

-- The loop of `p2p_group_info_parse`
def groupInfoFrom (g gend : ℕ) (client : List P2pClientInfo) : Option (Except ℤ (List P2pClientInfo)) :=
  if g < gend then
    (loadBE buf g 1).bind fun len =>
      if gend < g + 1 + len then some (.error (-1))
      else
        (clientInfo buf g (g + 1 + len)).bind fun r =>
          match r with
          | .error ret => some (.error ret)
          | .ok cli =>
            if client.length + 1 = maxGroupEntries then some (.error (-1))
            else groupInfoFrom (g + 1 + len) gend (client ++ [cli])
  else some (.ok client)
termination_by gend - g

def p2pGroupInfoParse (gi : Option Slice) : Option (Except ℤ (List P2pClientInfo)) :=
  match gi with
  | none => some (.ok [])
  | some gi => groupInfoFrom buf gi.off (gi.off + gi.len) []

end GroupInfo

end WpaSupplicant.P2p.Pointers

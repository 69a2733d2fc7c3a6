import WpaSupplicant.Common

namespace WpaSupplicant.Wps

open Lib.Octets

-- `enum wps_attribute`, as far as the messages of the registration protocol use it
def attrAssocState : ℕ := 0x1002
def attrAuthType : ℕ := 0x1003
def attrAuthTypeFlags : ℕ := 0x1004
def attrAuthenticator : ℕ := 0x1005
def attrConfigMethods : ℕ := 0x1008
def attrConfigError : ℕ := 0x1009
def attrConnTypeFlags : ℕ := 0x100d
def attrCred : ℕ := 0x100e
def attrEncrType : ℕ := 0x100f
def attrEncrTypeFlags : ℕ := 0x1010
def attrDevName : ℕ := 0x1011
def attrDevPasswordId : ℕ := 0x1012
def attrEHash1 : ℕ := 0x1014
def attrEHash2 : ℕ := 0x1015
def attrESnonce1 : ℕ := 0x1016
def attrESnonce2 : ℕ := 0x1017
def attrEncrSettings : ℕ := 0x1018
def attrEnrolleeNonce : ℕ := 0x101a
def attrKeyWrapAuth : ℕ := 0x101e
def attrMacAddr : ℕ := 0x1020
def attrManufacturer : ℕ := 0x1021
def attrMsgType : ℕ := 0x1022
def attrModelName : ℕ := 0x1023
def attrModelNumber : ℕ := 0x1024
def attrNetworkIndex : ℕ := 0x1026
def attrNetworkKey : ℕ := 0x1027
def attrNetworkKeyIndex : ℕ := 0x1028
def attrOsVersion : ℕ := 0x102d
def attrPublicKey : ℕ := 0x1032
def attrRegistrarNonce : ℕ := 0x1039
def attrRfBands : ℕ := 0x103c
def attrRHash1 : ℕ := 0x103d
def attrRHash2 : ℕ := 0x103e
def attrRSnonce1 : ℕ := 0x103f
def attrRSnonce2 : ℕ := 0x1040
def attrSerialNumber : ℕ := 0x1042
def attrWpsState : ℕ := 0x1044
def attrSsid : ℕ := 0x1045
def attrUuidE : ℕ := 0x1047
def attrUuidR : ℕ := 0x1048
def attrVendorExt : ℕ := 0x1049
def attrVersion : ℕ := 0x104a
def attrPrimaryDevType : ℕ := 0x1054
def attrSecondaryDevTypeList : ℕ := 0x1055

-- The attributes of a fixed length in `wps_set_attr`, with that length
def fixedLengths : List (ℕ × ℕ) :=
  [(attrVersion, 1), (attrMsgType, 1), (attrEnrolleeNonce, 16), (attrRegistrarNonce, 16),
    (attrUuidE, 16), (attrUuidR, 16), (attrAuthTypeFlags, 2), (attrEncrTypeFlags, 2),
    (attrConnTypeFlags, 1), (attrConfigMethods, 2), (0x1053, 2), (attrPrimaryDevType, 8),
    (attrRfBands, 1), (attrAssocState, 2), (attrConfigError, 2), (attrDevPasswordId, 2),
    (0x102c, 54), (attrOsVersion, 4), (attrWpsState, 1), (attrAuthenticator, 8), (attrRHash1, 32),
    (attrRHash2, 32), (attrEHash1, 32), (attrEHash2, 32), (attrRSnonce1, 16), (attrRSnonce2, 16),
    (attrESnonce1, 16), (attrESnonce2, 16), (attrKeyWrapAuth, 8), (attrAuthType, 2),
    (attrEncrType, 2), (attrNetworkIndex, 1), (attrNetworkKeyIndex, 1), (attrMacAddr, 6),
    (0x1061, 1), (0x1062, 1), (0x1041, 1), (0x103a, 1), (0x103b, 1), (0x1057, 1), (0x106a, 8)]

structure Attr where
  type : ℕ
  pos : ℕ
  value : Octets
  deriving DecidableEq, Repr

-- `struct wps_parse_attr`: the attributes of a message, the last one first
abbrev ParseAttr := List Attr

-- `wps_set_vendor_ext_wfa_subelem`: the subelements but AuthorizedMACs are of one octet.
def wfaSubelemOk (id len : UInt8) : Bool := (id ∉ [0, 2, 3, 4]) || len = 1

-- `wps_parse_vendor_ext_wfa`; every round takes two octets, so the length is enough fuel.
def parseVendorExtWfa : ℕ → Octets → Bool
  | 0, _ => true
  | fuel + 1, id :: len :: c :: rest =>
    if (c :: rest).length < len.toNat then true
    else wfaSubelemOk id len && parseVendorExtWfa fuel ((c :: rest).drop len.toNat)
  | _, _ => true

-- `WPS_VENDOR_ID_WFA`
def vendorIdWfa : ℕ := 14122

def otherVendorExt (value : Octets) : Bool := 3 ≤ value.length && ofBE (value.take 3) ≠ vendorIdWfa

-- `wps_parse_vendor_ext`
def parseVendorExt (attrs : ParseAttr) (value : Octets) : Bool :=
  if value.length < 3 then true
  else if ofBE (value.take 3) = vendorIdWfa then parseVendorExtWfa value.length (value.drop 3)
  else
    value.length ≤ 1024 &&
      (attrs.filter fun a => a.type = attrVendorExt && otherVendorExt a.value).length < 10

-- `wps_set_attr`: whether the attribute is accepted
def setAttr (attrs : ParseAttr) (type : ℕ) (value : Octets) : Bool :=
  match fixedLengths.lookup type with
  | some n => value.length = n
  | none =>
    if type = attrSecondaryDevTypeList then value.length ≤ 128 && value.length % 8 = 0
    else if type = attrVendorExt then parseVendorExt attrs value
    else true

-- The loop of `wps_parse_msg`, with the workarounds for an octet behind a Network Key and for zero
-- octets at the end. Every round takes an octet at least.
def parseLoop : ℕ → ℕ → ℕ → ParseAttr → Octets → Option ParseAttr
  | 0, _, _, _, _ => none
  | _ + 1, _, _, attrs, [] => some attrs
  | fuel + 1, prev, pos, attrs, t1 :: t0 :: l1 :: l0 :: data =>
    let type := ofBE [t1, t0]
    let len := ofBE [l1, l0]
    if data.length < len then
      if t1 ≠ 0x10 ∧ prev = attrNetworkKey then
        parseLoop fuel prev (pos + 1) attrs (t0 :: l1 :: l0 :: data)
      else none
    else if type = 0 ∧ len = 0 ∧ data.all (· = 0) then some attrs
    else if setAttr attrs type (data.take len) then
      parseLoop fuel type (pos + 4 + len) (⟨type, pos + 4, data.take len⟩ :: attrs)
        (data.drop len)
    else none
  | _, _, _, _, _ => none

-- `wps_parse_msg`
def parseMsg (msg : Octets) : Option ParseAttr := parseLoop (msg.length + 1) 0 0 [] msg

namespace ParseAttr

variable (attrs : ParseAttr)

def find (type : ℕ) : Option Attr := List.find? (·.type = type) attrs
def get (type : ℕ) : Option Octets := (find attrs type).map (·.value)
def getField (w type : ℕ) : Option (BitVec w) := (get attrs type).map (getBE w)

def msgType : Option (BitVec 8) := getField attrs 8 attrMsgType
def enrolleeNonce : Option (BitVec 128) := getField attrs 128 attrEnrolleeNonce
def registrarNonce : Option (BitVec 128) := getField attrs 128 attrRegistrarNonce
def uuidE : Option (BitVec 128) := getField attrs 128 attrUuidE
def uuidR : Option (BitVec 128) := getField attrs 128 attrUuidR
def macAddr : Option Addr := getField attrs 48 attrMacAddr
def publicKey : Option Octets := get attrs attrPublicKey
def authTypeFlags : Option (BitVec 16) := getField attrs 16 attrAuthTypeFlags
def encrTypeFlags : Option (BitVec 16) := getField attrs 16 attrEncrTypeFlags
def configMethods : Option (BitVec 16) := getField attrs 16 attrConfigMethods
def configError : Option (BitVec 16) := getField attrs 16 attrConfigError
def devPasswordId : Option (BitVec 16) := getField attrs 16 attrDevPasswordId
def authenticator : Option (BitVec 64) := getField attrs 64 attrAuthenticator
def rHash1 : Option (BitVec 256) := getField attrs 256 attrRHash1
def rHash2 : Option (BitVec 256) := getField attrs 256 attrRHash2
def eHash1 : Option (BitVec 256) := getField attrs 256 attrEHash1
def eHash2 : Option (BitVec 256) := getField attrs 256 attrEHash2
def rSnonce1 : Option (BitVec 128) := getField attrs 128 attrRSnonce1
def rSnonce2 : Option (BitVec 128) := getField attrs 128 attrRSnonce2
def eSnonce1 : Option (BitVec 128) := getField attrs 128 attrESnonce1
def eSnonce2 : Option (BitVec 128) := getField attrs 128 attrESnonce2
def encrSettings : Option Octets := get attrs attrEncrSettings
def keyWrapAuth : Option Attr := find attrs attrKeyWrapAuth
def networkIdx : Option Octets := get attrs attrNetworkIndex
def networkKeyIdx : Option (BitVec 8) := getField attrs 8 attrNetworkKeyIndex
def ssid : Option Octets := get attrs attrSsid
def authType : Option (BitVec 16) := getField attrs 16 attrAuthType
def encrType : Option (BitVec 16) := getField attrs 16 attrEncrType
def networkKey : Option Octets := get attrs attrNetworkKey

-- `MAX_CRED_COUNT` Credentials are kept, in their order.
def cred : List Octets :=
  ((List.filter (·.type = attrCred) attrs).reverse.take 10).map (·.value)

end ParseAttr

def tlv (type : ℕ) (value : Octets) : Octets := toBE 2 type ++ toBE 2 value.length ++ value

-- Where the values of attributes are that are written one after the other
def place : ℕ → List (ℕ × Octets) → ParseAttr
  | _, [] => []
  | pos, a :: l => place (pos + 4 + a.2.length) l ++ [⟨a.1, pos + 4, a.2⟩]

end WpaSupplicant.Wps

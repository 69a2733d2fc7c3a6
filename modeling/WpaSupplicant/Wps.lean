import WpaSupplicant.Wps.Attr

namespace WpaSupplicant.Wps

open Lib.Octets

-- `enum wps_msg_type`
def m1 : BitVec 8 := 0x04
def m2 : BitVec 8 := 0x05
def m2d : BitVec 8 := 0x06
def m3 : BitVec 8 := 0x07
def m4 : BitVec 8 := 0x08
def m5 : BitVec 8 := 0x09
def m6 : BitVec 8 := 0x0a
def m7 : BitVec 8 := 0x0b
def m8 : BitVec 8 := 0x0c
def wscAck : BitVec 8 := 0x0d
def wscNack : BitVec 8 := 0x0e
def wscDone : BitVec 8 := 0x0f

def devPwDefault : BitVec 16 := 0
def devPwUserSpecified : BitVec 16 := 1
def devPwMachineSpecified : BitVec 16 := 2
def devPwPushbutton : BitVec 16 := 4
def devPwRegistrarSpecified : BitVec 16 := 5

def authOpen : BitVec 16 := 0x0001
def authWpapsk : BitVec 16 := 0x0002
def authShared : BitVec 16 := 0x0004
def authWpa2psk : BitVec 16 := 0x0020
def authTypesAll : BitVec 16 := 0x003f
def encrNone : BitVec 16 := 0x0001
def encrWep : BitVec 16 := 0x0002
def encrTkip : BitVec 16 := 0x0004
def encrAes : BitVec 16 := 0x0008
def encrTypesAll : BitVec 16 := 0x000f

def cfgNoError : BitVec 16 := 0
def cfgMultiplePbcDetected : BitVec 16 := 12
def cfgSetupLocked : BitVec 16 := 15
def cfgDevPasswordAuthFailure : BitVec 16 := 18
def configDisplay : BitVec 16 := 0x0008
def configPushbutton : BitVec 16 := 0x0080
def configVirtPushbutton : BitVec 16 := 0x0280
def configPhyPushbutton : BitVec 16 := 0x0480

-- `WPS_EI_SECURITY_WEP_PROHIBITED`
def eiSecurityWepProhibited : ℕ := 2

-- `enum wsc_op_code`, without the ones of the transport
inductive OpCode where
  | upnp
  | start
  | ack
  | nack
  | msg
  | done
  | fragAck
  deriving DecidableEq, Repr

-- `enum wps_process_res`
inductive ProcessRes where
  | done
  | continue
  | failure
  deriving DecidableEq, Repr

inductive State where
  | sendM1
  | recvM2
  | sendM3
  | recvM4
  | sendM5
  | recvM6
  | sendM7
  | recvM8
  | receivedM2d
  | msgDone
  | recvAck
  | finished
  | sendWscNack
  | recvM1
  | sendM2
  | recvM3
  | sendM4
  | recvM5
  | sendM6
  | recvM7
  | sendM8
  | recvDone
  | sendM2d
  | recvM2dAck
  deriving DecidableEq, Repr

-- `struct wps_credential`
structure Credential where
  ssid : Octets := []
  authType : BitVec 16 := 0
  encrType : BitVec 16 := 0
  keyIdx : BitVec 8 := 0
  key : Octets := []
  macAddr : Addr := 0
  deriving DecidableEq, Repr

-- What a session tells: events, callbacks and calls of the Registrar
inductive Event where
  | fail (msg : BitVec 8) (configError : BitVec 16) (errorIndication : ℕ)
  | success
  | pwdAuthFail (enrollee : Bool) (part : ℕ)
  | pbcOverlap
  | m2d
  | apPinSuccess
  | credCb (cred : Credential)
  | apSettingsCb (cred : Credential)
  | pinNeeded (uuid : BitVec 128)
  | invalidatePin (uuid : BitVec 128)
  | unlockPin (uuid : BitVec 128)
  | deviceStore (uuid : BitVec 128)
  | newPsk (addr : Addr) (psk : Octets)
  | regSuccess (addr : Addr) (uuid : BitVec 128)
  | pinCompleted
  | pbcCompleted
  | configured
  deriving DecidableEq, Repr

structure DeviceData where
  manufacturer : Octets := []
  modelName : Octets := []
  modelNumber : Octets := []
  serialNumber : Octets := []
  deviceName : Octets := []
  priDevType : BitVec 64 := 0
  osVersion : BitVec 32 := 0
  rfBands : BitVec 8 := 0
  macAddr : Addr := 0
  deriving DecidableEq, Repr

-- `struct wps_context` and its Registrar; `wps2` says that the build has `CONFIG_WPS2`.
structure Context where
  wps2 : Bool := false
  ap : Bool := false
  wpsState : BitVec 8 := 2
  apSetupLocked : ℕ := 0
  ssid : Octets := []
  authTypes : BitVec 16 := 0
  encrTypes : BitVec 16 := 0
  networkKey : Option Octets := none
  psk : Option (BitVec 256) := none
  apSettings : Option Octets := none
  registrar : Bool := true
  configMethods : BitVec 16 := 0
  uuid : BitVec 128 := 0
  dev : DeviceData := {}
  registrarPbc : Bool := false
  forcePbcOverlap : Bool := false
  skipOverlap : Bool := false
  disableAutoConf : Bool := false
  skipCredBuild : Bool := false
  extraCred : Option Octets := none
  deriving DecidableEq, Repr

-- `WPS_STATE_NOT_CONFIGURED`
def stateNotConfigured : BitVec 8 := 1

structure Crypto where
  hmacSha256 : Octets → Octets → BitVec 256
  sha256 : Octets → BitVec 256
  cbcEncrypt : BitVec 128 → BitVec 128 → Octets → Option Octets
  cbcDecrypt : BitVec 128 → BitVec 128 → Octets → Option Octets
  -- the shared secret of a private and a public key, padded to 192 octets
  dhShared : Octets → Octets → Option Octets

inductive Buf where
  | msg
  | plain
  | lastMsg
  | pubkey
  | decrypted
  | devAttr
  | devPassword
  | cred
  | newPsk
  deriving DecidableEq, Repr

-- What the environment answers during a call: the allocator, the random numbers, a DH key pair, the PIN
-- that the Registrar hands out, and whether PBC sessions overlap
structure Env where
  alloc : Buf → Bool := fun _ => true
  nonce : Option (BitVec 128) := some 0
  snonce1 : BitVec 128 := 0
  snonce2 : BitVec 128 := 0
  snonceOk : Bool := true
  iv : Option (BitVec 128) := some 0
  dh : Option (Octets × Octets) := none
  passphrase : Option Octets := none
  devicePsk : Option (BitVec 256) := none
  pin : Option Octets := none
  pbcOverlap : Bool := false

-- The part of `struct wps_data` that proves a password: the keys, the commitments of the peer, and the
-- public keys that they are over
structure Secrets where
  authkey : BitVec 256 := 0
  keywrapkey : BitVec 128 := 0
  psk1 : BitVec 128 := 0
  psk2 : BitVec 128 := 0
  peerHash1 : BitVec 256 := 0
  peerHash2 : BitVec 256 := 0
  dhPubkeyE : Option Octets := none
  dhPubkeyR : Option Octets := none
  devPassword : Option Octets := none
  nonceE : BitVec 128 := 0
  nonceR : BitVec 128 := 0
  deriving DecidableEq, Repr

-- `struct wps_data`
structure WpsData extends Secrets where
  registrar : Bool
  er : Bool := false
  state : State
  uuidE : BitVec 128 := 0
  uuidR : BitVec 128 := 0
  macAddrE : Addr := 0
  snonce1 : BitVec 128 := 0
  snonce2 : BitVec 128 := 0
  dhPrivkey : Option Octets := none
  lastMsg : Option Octets := none
  devPwId : BitVec 16 := 0
  pbc : Bool := false
  encrType : BitVec 16 := 0
  authType : BitVec 16 := 0
  newPsk : Option Octets := none
  pinRevealed : Bool := false
  cred : Credential := {}
  configError : BitVec 16 := 0
  errorIndication : ℕ := 0
  newApSettings : Option Credential := none
  apSettingsCb : Bool := false
  useCred : Option Credential := none
  usePskKey : Bool := false
  pbcInM1 : Bool := false
  deriving DecidableEq, Repr

section Keys

variable (c : Crypto)

-- "Wi-Fi Easy and Secure Key Derivation"
def kdfLabel : Octets :=
  [87, 105, 45, 70, 105, 32, 69, 97, 115, 121, 32, 97, 110, 100, 32, 83, 101, 99, 117, 114, 101,
    32, 75, 101, 121, 32, 68, 101, 114, 105, 118, 97, 116, 105, 111, 110]

-- `wps_kdf`
def kdf (key labelPrefix label : Octets) (resLen : ℕ) : Octets :=
  let iter := (resLen + 31) / 32
  ((List.range iter).flatMap fun i =>
    putBE 32 (c.hmacSha256 key (toBE 4 (i + 1) ++ labelPrefix ++ label ++ toBE 4 (resLen * 8)))).take
      resLen

-- The keys of `wps_derive_keys` from the shared secret
def sessionKeys (shared : Octets) (nonceE : BitVec 128) (macAddrE : Addr) (nonceR : BitVec 128) :
    BitVec 256 × BitVec 128 :=
  let dhkey := putBE 32 (c.sha256 shared)
  let kdk := c.hmacSha256 dhkey (putBE 16 nonceE ++ putBE 6 macAddrE ++ putBE 16 nonceR)
  let keys := kdf c (putBE 32 kdk) [] kdfLabel 80
  (getBE 256 (keys.take 32), getBE 128 ((keys.drop 32).take 16))

-- `wps_derive_keys`: the own private key is not needed any more afterwards.
def deriveKeys (wps : WpsData) : WpsData × Bool :=
  match wps.dhPrivkey, if wps.registrar then wps.dhPubkeyE else wps.dhPubkeyR with
  | some priv, some pub =>
    match c.dhShared priv pub with
    | none => (wps, false)
    | some shared =>
      let keys := sessionKeys c shared wps.nonceE wps.macAddrE wps.nonceR
      ({ wps with authkey := keys.1, keywrapkey := keys.2, dhPrivkey := none }, true)
  | _, _ => (wps, false)

-- The halves of a password as `wps_derive_psk` hashes them
def psk1Of (authkey : BitVec 256) (passwd : Octets) : BitVec 128 :=
  (c.hmacSha256 (putBE 32 authkey) (passwd.take ((passwd.length + 1) / 2))).extractLsb' 128 128
def psk2Of (authkey : BitVec 256) (passwd : Octets) : BitVec 128 :=
  (c.hmacSha256 (putBE 32 authkey) (passwd.drop ((passwd.length + 1) / 2))).extractLsb' 128 128

-- `wps_derive_psk`
def derivePsk (wps : WpsData) (passwd : Octets) : WpsData :=
  { wps with psk1 := psk1Of c wps.authkey passwd, psk2 := psk2Of c wps.authkey passwd }

def commitment (authkey : BitVec 256) (snonce psk : BitVec 128) (pke pkr : Octets) : BitVec 256 :=
  c.hmacSha256 (putBE 32 authkey) (putBE 16 snonce ++ putBE 16 psk ++ pke ++ pkr)

def keyOctets (pk : Option Octets) : Octets := pk.getD []

def commitment1 (s : Secrets) (snonce : BitVec 128) : BitVec 256 :=
  commitment c s.authkey snonce s.psk1 (keyOctets s.dhPubkeyE) (keyOctets s.dhPubkeyR)
def commitment2 (s : Secrets) (snonce : BitVec 128) : BitVec 256 :=
  commitment c s.authkey snonce s.psk2 (keyOctets s.dhPubkeyE) (keyOctets s.dhPubkeyR)

def authenticatorOf (authkey : BitVec 256) (last cur : Octets) : BitVec 64 :=
  (c.hmacSha256 (putBE 32 authkey) (last ++ cur)).extractLsb' 192 64
def keyWrapAuthOf (authkey : BitVec 256) (plain : Octets) : BitVec 64 :=
  (c.hmacSha256 (putBE 32 authkey) plain).extractLsb' 192 64

-- `wps_process_authenticator`
def processAuthenticator (wps : WpsData) (authenticator : Option (BitVec 64)) (msg : Octets) : Bool :=
  match authenticator, wps.lastMsg with
  | some a, some last => a = authenticatorOf c wps.authkey last (msg.take (msg.length - 12))
  | _, _ => false

-- `wps_process_key_wrap_auth`: the attribute is the last one.
def processKeyWrapAuth (wps : WpsData) (plain : Octets) (kwa : Option Attr) : Bool :=
  match kwa with
  | none => false
  | some a =>
    a.pos = plain.length - 8 &&
      getBE 64 a.value = keyWrapAuthOf c wps.authkey (plain.take (plain.length - 12))

-- The padding of `wps_decrypt_encr_settings`
def removePad (decrypted : Octets) : Option Octets :=
  let pad := (decrypted.getLast?.getD 0).toNat
  if decrypted.length < pad then none
  else if (decrypted.drop (decrypted.length - pad)).all (·.toNat = pad) then
    some (decrypted.take (decrypted.length - pad))
  else none

-- `wps_decrypt_encr_settings`
def decryptEncrSettings (env : Env) (wps : WpsData) (encr : Option Octets) : Option Octets :=
  match encr with
  | none => none
  | some encr =>
    if encr.length < 32 ∨ encr.length % 16 ≠ 0 then none
    else if !env.alloc .decrypted then none
    else
      (c.cbcDecrypt wps.keywrapkey (getBE 128 (encr.take 16)) (encr.drop 16)).bind removePad

end Keys

section Build

def encode (attrs : List (ℕ × Octets)) : Octets := attrs.flatMap fun a => tlv a.1 a.2

-- The `wps_build_*` functions for one attribute
def buildVersion : ℕ × Octets := (attrVersion, [0x10])
def buildMsgType (t : BitVec 8) : ℕ × Octets := (attrMsgType, putBE 1 t)
def buildUuidE (uuid : BitVec 128) : ℕ × Octets := (attrUuidE, putBE 16 uuid)
def buildUuidR (uuid : BitVec 128) : ℕ × Octets := (attrUuidR, putBE 16 uuid)
def buildMacAddr (addr : Addr) : ℕ × Octets := (attrMacAddr, putBE 6 addr)
def buildEnrolleeNonce (n : BitVec 128) : ℕ × Octets := (attrEnrolleeNonce, putBE 16 n)
def buildRegistrarNonce (n : BitVec 128) : ℕ × Octets := (attrRegistrarNonce, putBE 16 n)
def buildConnTypeFlags : ℕ × Octets := (attrConnTypeFlags, [0x01])
def buildConfigMethods (m : BitVec 16) : ℕ × Octets := (attrConfigMethods, putBE 2 m)
def buildAssocState : ℕ × Octets := (attrAssocState, putBE 2 (0 : BitVec 16))
def buildDevPasswordId (id : BitVec 16) : ℕ × Octets := (attrDevPasswordId, putBE 2 id)
def buildConfigError (err : BitVec 16) : ℕ × Octets := (attrConfigError, putBE 2 err)
def buildAuthTypeFlags (ctx : Context) : ℕ × Octets :=
  (attrAuthTypeFlags, putBE 2 (if ctx.wps2 then authTypesAll &&& ~~~authShared else authTypesAll))
def buildEncrTypeFlags (ctx : Context) : ℕ × Octets :=
  (attrEncrTypeFlags, putBE 2 (if ctx.wps2 then encrTypesAll &&& ~~~encrWep else encrTypesAll))
def buildRfBands (dev : DeviceData) : ℕ × Octets := (attrRfBands, putBE 1 dev.rfBands)
def buildOsVersion (dev : DeviceData) : ℕ × Octets :=
  (attrOsVersion, putBE 4 (0x80000000#32 ||| dev.osVersion))

def orSpace (s : Octets) : Octets := if s = [] then [0x20] else s

-- `wps_build_device_attrs`
def buildDeviceAttrs (dev : DeviceData) : List (ℕ × Octets) :=
  [(attrManufacturer, orSpace dev.manufacturer), (attrModelName, orSpace dev.modelName),
    (attrModelNumber, orSpace dev.modelNumber), (attrSerialNumber, orSpace dev.serialNumber),
    (attrPrimaryDevType, putBE 8 dev.priDevType), (attrDevName, orSpace dev.deviceName)]

-- `wps_build_wfa_ext`, as the messages use it
def buildWfaExt (ctx : Context) : List (ℕ × Octets) :=
  if ctx.wps2 then [(attrVendorExt, [0x00, 0x37, 0x2a, 0x00, 0x01, 0x20])] else []

variable (c : Crypto)

-- `wps_build_authenticator`
def buildAuthenticator (wps : WpsData) (msg : Octets) : Option Octets :=
  wps.lastMsg.map fun last =>
    msg ++ tlv attrAuthenticator (putBE 8 (authenticatorOf c wps.authkey last msg))

-- `wps_build_key_wrap_auth`
def buildKeyWrapAuth (wps : WpsData) (plain : Octets) : Octets :=
  plain ++ tlv attrKeyWrapAuth (putBE 8 (keyWrapAuthOf c wps.authkey plain))

-- The padding of `wps_build_encr_settings`
def addPad (plain : Octets) : Octets :=
  plain ++ List.replicate (16 - plain.length % 16) (UInt8.ofNat (16 - plain.length % 16))

-- `wps_build_encr_settings`
def buildEncrSettings (env : Env) (wps : WpsData) (plain : Octets) : Option (ℕ × Octets) :=
  match env.iv with
  | none => none
  | some iv =>
    (c.cbcEncrypt wps.keywrapkey iv (addPad plain)).map fun data =>
      (attrEncrSettings, putBE 16 iv ++ data)

-- The common end of M4 to M8: the settings with their authenticator are encrypted, and the message gets
-- its own.
def buildSecured (env : Env) (ctx : Context) (wps : WpsData) (head : List (ℕ × Octets))
    (plain : Octets) : Option Octets :=
  match buildEncrSettings c env wps (buildKeyWrapAuth c wps plain) with
  | none => none
  | some encr => buildAuthenticator c wps (encode (head ++ [encr] ++ buildWfaExt ctx))

-- `wps_build_public_key`
def buildPublicKey (env : Env) (wps : WpsData) : WpsData × Option (ℕ × Octets) :=
  match env.dh with
  | none => ({ wps with dhPrivkey := none }, none)
  | some (priv, pub) =>
    (if wps.registrar then { wps with dhPrivkey := some priv, dhPubkeyR := some pub }
     else { wps with dhPrivkey := some priv, dhPubkeyE := some pub },
      some (attrPublicKey, pub))

-- `wps_build_wsc_ack`
def buildWscAck (env : Env) (ctx : Context) (wps : WpsData) : Option Octets :=
  if !env.alloc .msg then none
  else
    some (encode ([buildVersion, buildMsgType wscAck, buildEnrolleeNonce wps.nonceE,
      buildRegistrarNonce wps.nonceR] ++ buildWfaExt ctx))

-- `wps_build_wsc_nack`
def buildWscNack (env : Env) (ctx : Context) (wps : WpsData) : Option Octets :=
  if !env.alloc .msg then none
  else
    some (encode ([buildVersion, buildMsgType wscNack, buildEnrolleeNonce wps.nonceE,
      buildRegistrarNonce wps.nonceR, buildConfigError wps.configError] ++ buildWfaExt ctx))

-- A copy of the last message is saved for the derivation of the Authenticator.
def saveLast (env : Env) (wps : WpsData) (msg : Octets) : WpsData :=
  { wps with lastMsg := if env.alloc .lastMsg then some msg else none }

end Build

-- The comparison of a nonce in the handlers: `os_memcmp(a, b, WPS_NONCE_LEN != 0)` compares one octet.
def nonceMatches (own : BitVec 128) (received : Option (BitVec 128)) : Bool :=
  match received with
  | none => false
  | some n => own.extractLsb' 120 8 = n.extractLsb' 120 8

-- `wps_process_device_attrs`
def processDeviceAttrs (env : Env) (attr : ParseAttr) : Bool :=
  [attrManufacturer, attrModelName, attrModelNumber, attrSerialNumber, attrPrimaryDevType,
    attrDevName].all (fun t => (ParseAttr.get attr t).isSome) && env.alloc .devAttr

def stripZeros (l : Octets) : Octets := (l.reverse.dropWhile (· = 0)).reverse

-- `wps_process_cred_ssid`
def processCredSsid (cred : Credential) (ssid : Option Octets) : Option Credential :=
  ssid.map fun s => if (stripZeros s).length ≤ 32 then { cred with ssid := stripZeros s } else cred

-- `wps_process_cred_network_key`
def processCredNetworkKey (cred : Credential) (key : Option Octets) : Option Credential :=
  match key with
  | none => if cred.authType = authOpen ∧ cred.encrType = encrNone then some cred else none
  | some k => some (if k.length ≤ 64 then { cred with key := k } else cred)

-- `wps_workaround_cred_key`
def workaroundCredKey (cred : Credential) : Credential :=
  if cred.authType &&& (authWpapsk ||| authWpa2psk) ≠ 0 ∧ 8 < cred.key.length ∧
      cred.key.length < 64 ∧ cred.key.getLast? = some 0 then
    { cred with key := cred.key.dropLast }
  else cred

-- What `wps_process_cred` and `wps_process_ap_settings` have in common
def processSettings (attr : ParseAttr) (cred : Credential) : Option Credential :=
  match processCredSsid cred attr.ssid, attr.authType, attr.encrType with
  | some cred, some authType, some encrType =>
    let cred := { cred with
      authType := authType
      encrType := encrType
      keyIdx := (attr.networkKeyIdx).getD cred.keyIdx }
    match processCredNetworkKey cred attr.networkKey, attr.macAddr with
    | some cred, some addr => some (workaroundCredKey { cred with macAddr := addr })
    | _, _ => none
  | _, _, _ => none

-- `wps_process_cred`
def processCred (attr : ParseAttr) (cred : Credential) : Option Credential :=
  if attr.networkIdx = none then none else processSettings attr cred

-- `wps_process_ap_settings`
def processApSettings (attr : ParseAttr) : Option Credential := processSettings attr {}

end WpaSupplicant.Wps

import WpaSupplicant.Eapol
import WpaSupplicant.KeyData

namespace WpaSupplicant.Supplicant

open Lib.Octets

-- `enum wpa_states`, as far as the key handshakes set it
inductive WpaState where
  | fourWayHandshake
  | groupHandshake
  | completed
  deriving DecidableEq, Repr

-- The algorithm argument of `wpa_sm_set_key`. The handlers of the STK handshake pass a
-- `WPA_CIPHER_*` value where the driver expects an `enum wpa_alg`.
inductive KeyAlg where
  | alg (a : WpaAlg)
  | cipher (c : Cipher)
  deriving DecidableEq, Repr

inductive KeyKind where
  | ptk
  | gtk
  | igtk
  | stk
  deriving DecidableEq, Repr

-- What the Supplicant does to its environment: the callbacks of `struct wpa_sm_ctx` and the
-- notifications of the EAPOL state machine. The last four constructors are history: a MIC
-- computed over a frame, the MIC of a received frame verified, the KEK used on received key
-- data, and a PTK derivation.
inductive Out where
  | setKey (kind : KeyKind) (alg : KeyAlg) (addr : Option Addr) (idx : ℕ) (setTx : Bool)
      (seq key : Octets)
  | etherSend (dst : Addr) (frame : EapolKey)
  | eapolStart (dst : Addr)
  | setState (state : WpaState)
  | deauthenticate
  | disassociate
  | setProtection (addr : Addr) (txToo : Bool)
  | portValid
  | eapSuccess
  | notifyCached
  | setRekeyOffload (kek kck : BitVec 128) (replayCtr : ReplayCounter)
  | micOver (kck : BitVec 128) (frame : EapolKey)
  | micVerified (kck : BitVec 128) (frame : EapolKey)
  | useKek (kek : BitVec 128)
  | derivePtk (input : PtkInput)
  deriving DecidableEq, Repr

-- `struct wpa_peerkey`. `smk_complete` and `expiration` are never read and are left out.
structure Peer where
  initiator : Bool := false
  addr : Addr
  inonce : Nonce := 0
  pnonce : Nonce := 0
  rsnieI : Octets := []
  rsnieP : Octets := []
  smk : Octets := List.replicate 32 0
  smkid : BitVec 128 := 0
  lifetime : BitVec 32 := 0
  cipher : Option Cipher := none
  replayCounter : ReplayCounter := 0
  replayCounterSet : Bool := false
  useSha256 : Bool := false
  stk : Ptk := .zero
  tstk : Ptk := .zero
  stkSet : Bool := false
  tstkSet : Bool := false
  deriving DecidableEq, Repr

-- What the `wpa_sm_set_*` functions store: the configuration, the negotiated suites and the
-- IEs. `eapol` and `networkCtx` say whether these pointers are set.
structure Config where
  ownAddr : Addr
  eapol : Bool := true
  networkCtx : Bool := true
  peerkeyEnabled : Bool := false
  allowedPairwiseCipher : List Cipher := []
  wpaPtkRekey : Bool := false
  proto : Proto := .rsn
  pairwiseCipher : Cipher := .ccmp
  groupCipher : Cipher := .ccmp
  keyMgmt : KeyMgmt := .psk
  mgmtGroupCipher : Option Cipher := none
  mfp : Mfp := .noMgmtFrameProtection
  rsnEnabled : Bool := true
  assocWpaIe : Option Octets := none
  apWpaIe : Option Octets := none
  apRsnIe : Option Octets := none
  eapolVersion : UInt8 := 1
  deriving DecidableEq, Repr

-- `struct wpa_sm`; `pmk` has the length `pmk_len`, and `rekeyTimer` says whether
-- `wpa_sm_rekey_ptk` is registered.
structure Sm where
  conf : Config
  pmk : Octets := []
  ptk : Ptk := .zero
  tptk : Ptk := .zero
  ptkSet : Bool := false
  tptkSet : Bool := false
  snonce : Nonce := 0
  anonce : Nonce := 0
  renewSnonce : Bool := true
  rxReplayCounter : ReplayCounter := 0
  rxReplayCounterSet : Bool := false
  requestCounter : ReplayCounter := 0
  curPmksa : Option PmksaEntry := none
  bssid : Addr := 0
  rekeyTimer : Bool := false
  peerkey : List Peer := []
  deriving DecidableEq, Repr

-- What `pmksa_cache_add` may do to the state machine through the callback for entries that it
-- removes
inductive PmksaAdd where
  | keep
  | replaced
  | removed
  deriving DecidableEq, Repr

-- The answers of the environment, numbered by the questions: memory, randomness, the driver,
-- the PMKSA cache, the EAPOL state machine and the scan results.
structure Env where
  alloc : ℕ → Bool
  randomGetBytes : ℕ → Option Octets
  setKey : ℕ → Bool
  getBssid : ℕ → Option Addr
  stateCompleted : ℕ → Bool
  pmksaCacheGet : ℕ → Option PmksaEntry
  pmksaCacheAdd : ℕ → PmksaAdd
  eapolGetKey : ℕ → ℕ → Option Octets
  getBeaconIe : ℕ → Option (Option Octets × Option Octets)

-- The state machine while one of its functions runs
structure Ctx where
  sm : Sm
  tick : ℕ := 0
  out : List Out := []

namespace Ctx

def emit (c : Ctx) (o : Out) : Ctx := { c with out := c.out ++ [o] }

def ask (c : Ctx) : Ctx := { c with tick := c.tick + 1 }

end Ctx

def Env.benign : Env where
  alloc _ := true
  randomGetBytes _ := some (List.replicate 32 7)
  setKey _ := true
  getBssid _ := some 1
  stateCompleted _ := true
  pmksaCacheGet _ := none
  pmksaCacheAdd _ := .keep
  eapolGetKey _ _ := none
  getBeaconIe _ := none

end WpaSupplicant.Supplicant

namespace WpaSupplicant.Supplicant

open Lib.Octets KeyData

def keyDescriptorType (sm : Sm) : UInt8 :=
  if sm.conf.proto = .rsn then eapolKeyTypeRsn else eapolKeyTypeWpa

-- A frame in the zeroed buffer of `wpa_sm_alloc_eapol`, with the fields a message fills in
def newFrame (sm : Sm) (type : UInt8) (keyInfo : KeyInfo) (keyLength : BitVec 16)
    (replayCounter : ReplayCounter) (nonce : Nonce) (keyData : Octets) : EapolKey where
  hdrVersion := sm.conf.eapolVersion
  hdrType := ieee8021xTypeEapolKey
  hdrLength := BitVec.ofNat 16 (EapolKey.keySize + keyData.length)
  type := type
  keyInfo := keyInfo
  keyLength := keyLength
  replayCounter := replayCounter
  keyNonce := nonce
  keyIv := 0
  keyRsc := 0
  keyId := 0
  keyMic := 0
  keyDataLength := BitVec.ofNat 16 keyData.length
  keyData := keyData

section

variable (cr : Crypto) (env : Env)

def sendDest (dest : Addr) (c : Ctx) : Addr × Ctx :=
  if dest = 0 ∧ c.sm.bssid = 0 then
    match env.getBssid c.tick with
    | none => (dest, c.ask)
    | some bssid => (bssid, { c.ask with sm := { c.sm with bssid := bssid } })
  else (dest, c)

-- `wpa_eapol_key_send`, with a MIC under `kck` if there is one
def wpaEapolKeySend (kck : Option (BitVec 128)) (ver : KeyInfo) (dest : Addr) (frame : EapolKey)
    (c : Ctx) : Ctx :=
  let (dest, c) := sendDest env dest c
  match kck with
  | none => c.emit (.etherSend dest frame)
  | some kck =>
    match cr.wpaEapolKeyMic kck ver frame.toOctets with
    | none => c
    | some mic =>
      let frame := { frame with keyMic := mic }
      (c.emit (.micOver kck frame)).emit (.etherSend dest frame)

-- `wpa_sm_alloc_eapol` for an EAPOL-Key frame and `wpa_eapol_key_send`; the flag is success.
def allocAndSend (kck : Option (BitVec 128)) (ver : KeyInfo) (dest : Addr) (frame : EapolKey)
    (c : Ctx) : Ctx × Bool :=
  let ok := env.alloc c.tick
  let c := c.ask
  if !ok then (c, false) else (wpaEapolKeySend cr env kck ver dest frame c, true)

def replyKeyLength (sm : Sm) (f : EapolKey) : BitVec 16 :=
  if sm.conf.proto = .rsn then 0 else f.keyLength

def wpaSupplicantSend2of4 (dst : Addr) (f : EapolKey) (ver : KeyInfo) (nonce : Nonce)
    (wpaIe : Option Octets) (ptk : Ptk) (c : Ctx) : Ctx × Bool :=
  match wpaIe with
  | none => (c, false)
  | some ie =>
    allocAndSend cr env (some ptk.kck) ver dst
      (newFrame c.sm (keyDescriptorType c.sm) (ver ||| KeyInfo.keyTypeBit ||| KeyInfo.micBit)
        (replyKeyLength c.sm f) f.replayCounter nonce ie) c

-- `wpa_supplicant_send_4_of_4`; no caller adds key data.
def wpaSupplicantSend4of4 (dst : Addr) (f : EapolKey) (ver : KeyInfo) (ptk : Ptk) (c : Ctx) :
    Ctx × Bool :=
  allocAndSend cr env (some ptk.kck) ver dst
    (newFrame c.sm (keyDescriptorType c.sm) (KeyInfo.flag f.keyInfo.secure KeyInfo.secureBit |||
      ver ||| KeyInfo.keyTypeBit ||| KeyInfo.micBit) (replyKeyLength c.sm f) f.replayCounter 0 []) c

def wpaSupplicantSend2of2 (f : EapolKey) (ver : KeyInfo) (c : Ctx) : Ctx × Bool :=
  allocAndSend cr env (some c.sm.ptk.kck) ver c.sm.bssid
    (newFrame c.sm (keyDescriptorType c.sm) ((f.keyInfo &&& KeyInfo.keyIndexMask) ||| ver |||
      KeyInfo.micBit ||| KeyInfo.secureBit) (replyKeyLength c.sm f) f.replayCounter 0 []) c

def requestVersion (sm : Sm) : KeyInfo :=
  if sm.conf.keyMgmt.sha256 then KeyInfo.typeAes128Cmac
  else if sm.conf.pairwiseCipher = .ccmp then KeyInfo.typeHmacSha1Aes
  else KeyInfo.typeHmacMd5Rc4

def nextRequestCounter (c : Ctx) : Ctx :=
  { c with sm := { c.sm with requestCounter := incField 8 c.sm.requestCounter } }

def wpaSmKeyRequest (error pairwise : Bool) (c : Ctx) : Ctx :=
  let ver := requestVersion c.sm
  let bssid := env.getBssid c.tick
  let c := c.ask
  match bssid with
  | none => c
  | some bssid =>
    let ok := env.alloc c.tick
    let c := c.ask
    if !ok then c
    else
      let frame := newFrame c.sm (keyDescriptorType c.sm) (KeyInfo.requestBit ||| ver |||
        KeyInfo.flag c.sm.ptkSet KeyInfo.micBit ||| KeyInfo.flag error KeyInfo.errorBit |||
        KeyInfo.flag pairwise KeyInfo.keyTypeBit) 0 c.sm.requestCounter 0 []
      let kck := if c.sm.ptkSet then some c.sm.ptk.kck else none
      wpaEapolKeySend cr env kck ver bssid frame (nextRequestCounter c)

end

end WpaSupplicant.Supplicant

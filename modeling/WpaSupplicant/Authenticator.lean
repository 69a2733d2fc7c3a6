import WpaSupplicant.Eapol
import WpaSupplicant.AuthIe
import WpaSupplicant.Lib.Window

namespace WpaSupplicant.Authenticator

open Lib.Octets Lib.Window KeyData

-- `wpa_ptk_state`; INITIALIZE has a name of its own because the bare word is a keyword.
inductive PtkState where
  | ptkInitialize
  | disconnect
  | disconnected
  | authentication
  | authentication2
  | initpmk
  | initpsk
  | ptkstart
  | ptkcalcnegotiating
  | ptkcalcnegotiating2
  | ptkinitnegotiating
  | ptkinitdone
  deriving DecidableEq, Repr

-- `wpa_ptk_group_state`
inductive PtkGroupState where
  | idle
  | rekeynegotiating
  | rekeyestablished
  | keyerror
  deriving DecidableEq, Repr

-- `wpa_group_state`
inductive GroupState where
  | gtkInit
  | setkeys
  | setkeysdone
  deriving DecidableEq, Repr

-- `wpa_eapol_variable`
inductive EapolVariable where
  | portEnabled
  | portValid
  | authorized
  | portControlAuto
  | keyRun
  | keyAvailable
  | keyDone
  | incEapolFramesTx
  deriving DecidableEq, Repr

-- One of the two key slots of a group: GN is 1 or 2 for the GTK and 4 or 5 for the IGTK. GM is
-- always the other slot.
inductive KeySlot where
  | first
  | second
  deriving DecidableEq, Repr

namespace KeySlot

def other : KeySlot → KeySlot
  | first => second
  | second => first

def gtkIndex : KeySlot → ℕ
  | first => 1
  | second => 2

def igtkIndex : KeySlot → ℕ
  | first => 4
  | second => 5

end KeySlot

-- The group Counter an ANonce was taken from: the group, and the number of times that group's
-- Counter had been set or had wrapped. This is history: nothing in the model reads it.
structure NonceOrigin where
  group : ℕ
  epoch : ℕ
  deriving DecidableEq, Repr

-- What the Authenticator does to its environment: the callbacks of
-- `struct wpa_auth_callbacks`. The last three constructors are history: an entry to
-- PTKINITDONE, a MIC that was computed over a frame, and a PTK derivation.
inductive Out where
  | setKey (vlanId : ℕ) (alg : WpaAlg) (addr : Addr) (idx : ℕ) (key : Octets)
  | setEapol (addr : Addr) (var : EapolVariable) (value : Bool)
  | sendEapol (addr : Addr) (frame : EapolKey) (encrypt : Bool)
  | disconnect (addr : Addr)
  | micFailureReport (addr : Addr)
  | ptkInitDone (addr : Addr) (anonce : Nonce) (origin : NonceOrigin)
  | micOver (kck : BitVec 128) (frame : EapolKey)
  | derivePtk (input : PtkInput)
  deriving DecidableEq, Repr

-- `struct wpa_state_machine`. `group` is the index of the group the station points to,
-- `eapolTimer` and `rekeyTimer` say whether `wpa_send_eapol_timeout` and `wpa_rekey_ptk` are
-- registered for it. `anonceOrigin` and `anonceUsed` are history: where the ANonce comes from, and
-- that there is none left that has not been used for a completed handshake.
structure Sta where
  group : ℕ
  addr : Addr
  ptkState : PtkState := .ptkInitialize
  ptkGroupState : PtkGroupState := .idle
  init : Bool := false
  deauthenticationRequest : Bool := false
  authenticationRequest : Bool := false
  reAuthenticationRequest : Bool := false
  disconnect : Bool := false
  timeoutCtr : ℕ := 0
  gTimeoutCtr : ℕ := 0
  timeoutEvt : Bool := false
  eapolKeyReceived : Bool := false
  eapolKeyPairwise : Bool := false
  eapolKeyRequest : Bool := false
  micVerified : Bool := false
  gUpdateStationKeys : Bool := false
  anonce : Nonce := 0
  snonce : Nonce := 0
  pmk : Octets := []
  ptk : Ptk := .zero
  ptkValid : Bool := false
  pairwiseSet : Bool := false
  pair : Bool := false
  keyReplay : List (Slot ReplayCounter) := List.replicate 4 ⟨0, false⟩
  pInitAKeys : Bool := false
  ptkRequest : Bool := false
  hasGtk : Bool := false
  ptkGroupInit : Bool := false
  lastRxEapolKey : Option EapolKey := none
  changed : Bool := false
  inStepLoop : Bool := false
  started : Bool := false
  mgmtFrameProt : Bool := false
  rxEapolKeySecure : Bool := false
  reqReplayCounter : ReplayCounter := 0
  reqReplayCounterUsed : Bool := false
  wpaIe : Option Octets := none
  wpa : Option Proto := none
  pairwise : Option Cipher := none
  wpaKeyMgmt : KeyMgmt := .unset
  pmksa : Option PmksaEntry := none
  pending1of4Timeout : Bool := false
  eapolTimer : Bool := false
  rekeyTimer : Bool := false
  anonceOrigin : Option NonceOrigin := none
  anonceUsed : Bool := true

-- `struct wpa_group`; `GTKAuthenticator` is TRUE from `wpa_group_init` on and is left out.
-- `epoch` is history: it counts how often the Counter was set anew or wrapped.
structure Group where
  vlanId : ℕ
  gInit : Bool := false
  gKeyDoneStations : ℤ := 0
  gtkReKey : Bool := false
  gtkLen : ℕ
  gn : KeySlot := .first
  counter : Nonce := 0
  state : GroupState := .gtkInit
  gmk : Octets := []
  gtk : KeySlot → Octets := fun _ => []
  gnonce : Nonce := 0
  changed : Bool := false
  firstStaSeen : Bool := false
  reject4wayHsForEntropy : Bool := false
  igtk : KeySlot → Octets := fun _ => []
  gnIgtk : KeySlot := .first
  epoch : ℕ := 0

structure Ap where
  conf : WpaAuthConfig
  addr : Addr
  wpaIe : Octets

-- `struct wpa_authenticator` with its groups and stations. Group 0 is `wpa_auth->group`.
-- `staIds` is the order in which `for_each_sta` visits the stations, `out` what the current
-- event has done so far, `tick` the number of questions the environment has answered.
structure Auth where
  ap : Ap
  groupIds : List ℕ
  group : ℕ → Group
  staIds : List ℕ
  sta : ℕ → Option Sta
  tick : ℕ
  out : List Out

-- The answers of the environment, numbered by the questions: memory, randomness, the driver,
-- the EAPOL state machines and the configured keys. `ntpTimestamp` also stands for the address
-- of the group structure, which is mixed into the first Counter behind the time.
structure Env where
  alloc : ℕ → Bool
  randomGetBytes : ℕ → Option Octets
  randomPoolReady : ℕ → Bool
  ntpTimestamp : ℕ → Octets
  setKey : ℕ → Bool
  getSeqnum : ℕ → Option Octets
  keyRun : ℕ → Bool
  keyAvailable : ℕ → Bool
  getPsk : ℕ → Addr → List Octets
  getMsk : ℕ → Addr → Option Octets
  countermeasures : ℕ → Bool

def Env.benign : Env where
  alloc _ := true
  randomGetBytes t := some [UInt8.ofNat t]
  randomPoolReady _ := true
  ntpTimestamp _ := []
  setKey _ := true
  getSeqnum _ := some []
  keyRun _ := true
  keyAvailable _ := true
  getPsk _ _ := [List.replicate 32 1]
  getMsk _ _ := some (List.replicate 64 1)
  countermeasures _ := false

structure Ctx where
  sm : Sta
  grp : Group
  tick : ℕ
  out : List Out

namespace Ctx

def emit (c : Ctx) (o : Out) : Ctx := { c with out := c.out ++ [o] }

def ask (c : Ctx) : Ctx := { c with tick := c.tick + 1 }

end Ctx

-- The octets of a buffer of `n` octets that `l` was written to
def fit (n : ℕ) (l : Octets) : Octets := (l ++ List.replicate n 0).take n

def wpaGroupSetKeyLen : Cipher → ℕ
  | .ccmp => 16
  | .tkip => 32
  | .wep104 => 13
  | .wep40 => 5
  | _ => 0

def wpaAlgEnum : Cipher → WpaAlg
  | .ccmp => .ccmp
  | .tkip => .tkip
  | .wep104 | .wep40 => .wep
  | _ => .none

-- `dot11RSNAConfigGroupUpdateCount`, `dot11RSNAConfigPairwiseUpdateCount`
def groupUpdateCount : ℕ := 4
def pairwiseUpdateCount : ℕ := 4

def wpaUseAesCmac (sm : Sta) : Bool := sm.wpaKeyMgmt.sha256

def wpaReplayCounterValid (sm : Sta) (replayCounter : ReplayCounter) : Bool :=
  accepts replayCounter sm.keyReplay

-- `wpa_verify_key_mic`; the frame type already holds both headers
def wpaVerifyKeyMic (c : Crypto) (ptk : Ptk) (f : EapolKey) : Bool :=
  c.wpaEapolKeyMic ptk.kck f.keyInfo.ver f.clearMic.toOctets = some f.keyMic

-- `inc_byte_array` on the group Counter
def Group.incCounter (g : Group) : Group :=
  let next := incField 32 g.counter
  { g with counter := next, epoch := if next = 0 then g.epoch + 1 else g.epoch }

end WpaSupplicant.Authenticator

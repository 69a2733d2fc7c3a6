import WpaSupplicant.Authenticator.Step

namespace WpaSupplicant.Authenticator

open Lib.Octets Lib.Window KeyData

-- The message types `wpa_receive` tells apart
inductive Msg where
  | pairwise2
  | pairwise4
  | group2
  | request
  | smkM1
  | smkM3
  | smkError
  deriving DecidableEq, Repr

def msgOf (f : EapolKey) : Msg :=
  if f.keyInfo.smkMessage && f.keyInfo.request then
    if f.keyInfo.error then .smkError else .smkM1
  else if f.keyInfo.smkMessage then .smkM3
  else if f.keyInfo.request then .request
  else if !f.keyInfo.keyType then .group2
  else if f.keyDataLength = 0 then .pairwise4
  else .pairwise2

def kdeOf (f : EapolKey) : Octets := f.keyData.take f.keyDataLength.toNat

-- The checks of `wpa_receive` that do not depend on the message type: lengths, descriptor type
-- and version, and the replay counter
def receiveHeaderOk (sm : Sta) (f : EapolKey) : Bool :=
  let msg := msgOf f
  let plain := msg = .request || msg = .pairwise2 || msg = .pairwise4 || msg = .group2
  decide (f.keyDataLength.toNat ≤ f.keyData.length) &&
  (if sm.wpa = some .rsn then f.type = eapolKeyTypeRsn else f.type = eapolKeyTypeWpa) &&
  !(plain && sm.pairwise = some .ccmp &&
    (if wpaUseAesCmac sm then f.keyInfo.ver ≠ KeyInfo.typeAes128Cmac
      else f.keyInfo.ver ≠ KeyInfo.typeHmacSha1Aes)) &&
  (if f.keyInfo.request then
      !(sm.reqReplayCounterUsed && decide (f.replayCounter ≤ sm.reqReplayCounter))
    else wpaReplayCounterValid sm f.replayCounter)

def eapolKeyIe (kde : EapolIeParse) : Option Octets :=
  if kde.rsnIe.isSome then kde.rsnIe else kde.wpaIe

-- `wpa_compare_rsn_ie` returns 0: both are there and they are identical
def wpaCompareRsnIe (ie1 ie2 : Option Octets) : Bool := ie1.isSome && ie1 = ie2

-- The switch of `wpa_receive` over the message type; the flag says whether to go on.
def receiveState (ap : Ap) (f : EapolKey) (c : Ctx) : Ctx × Bool :=
  match msgOf f with
  | .pairwise2 =>
    if c.sm.ptkState ≠ .ptkstart ∧ c.sm.ptkState ≠ .ptkcalcnegotiating then (c, false)
    else if c.grp.reject4wayHsForEntropy then
      (wpaStaDisconnect { c with grp := { c.grp with
        reject4wayHsForEntropy := false, firstStaSeen := false } }, false)
    else
      let kde := wpaParseKdeIes (kdeOf f)
      if !kde.1 then (c, false)
      else if !wpaCompareRsnIe c.sm.wpaIe (eapolKeyIe kde.2) then (wpaStaDisconnect c, false)
      else (c, true)
  | .pairwise4 => (c, c.sm.ptkState = .ptkinitnegotiating && c.sm.ptkValid)
  | .group2 => (c, c.sm.ptkGroupState = .rekeynegotiating && c.sm.ptkValid)
  | .smkM1 | .smkM3 | .smkError => (c, ap.conf.peerkey && c.sm.ptkValid)
  | .request => (c, true)

def receiveMic (cr : Crypto) (f : EapolKey) (c : Ctx) : Ctx × Bool :=
  if f.keyInfo.ack || !f.keyInfo.mic then (c, false)
  else
    let c := { c with sm := { c.sm with micVerified := false } }
    if c.sm.ptkValid then
      if !wpaVerifyKeyMic cr c.sm.ptk f then (c, false)
      else
        ({ c with sm := { c.sm with
          micVerified := true, eapolTimer := false, pending1of4Timeout := false } }, true)
    else (c, true)

def receiveCount (f : EapolKey) (c : Ctx) : Ctx × Bool :=
  if f.keyInfo.request then
    if c.sm.micVerified then
      ({ c with sm := { c.sm with
        reqReplayCounterUsed := true, reqReplayCounter := f.replayCounter } }, true)
    else (c, false)
  else ({ c with sm := { c.sm with keyReplay := retire c.sm.keyReplay } }, true)

-- Everything `wpa_receive` does on the station before it acts on the frame
def receivePre (cr : Crypto) (ap : Ap) (f : EapolKey) (c : Ctx) : Ctx × Bool :=
  if !receiveHeaderOk c.sm f then (c, false)
  else
    match receiveState ap f c with
    | (c, false) => (c, false)
    | (c, true) =>
      match receiveMic cr f c with
      | (c, false) => (c, false)
      | (c, true) => receiveCount f c

-- The end of `wpa_receive` before the state machines run; the flag says whether they do.
def receivePost (env : Env) (f : EapolKey) (c : Ctx) : Ctx × Bool :=
  if !env.alloc c.tick then
    ({ c.ask with sm := { c.sm with lastRxEapolKey := none } }, false)
  else
    ({ c.ask with sm := { c.sm with
      lastRxEapolKey := some f
      rxEapolKeySecure := f.keyInfo.secure
      eapolKeyReceived := true
      eapolKeyPairwise := f.keyInfo.keyType
      eapolKeyRequest := f.keyInfo.request
      snonce := f.keyNonce } }, true)

section Smk

variable (cr : Crypto) (env : Env)

-- `wpa_stsl_select_sta`
def stslSelectSta (W : Auth) (addr : Addr) : Option ℕ :=
  W.staIds.find? fun i => (W.sta i).any fun sm => sm.addr = addr

-- `__wpa_send_eapol` to a station
def sendTo (W : Auth) (j : ℕ) (keyInfo : KeyInfo) (nonce : Option Nonce) (kde : Octets)
    (encr : Bool) : Auth :=
  W.withSta j (wpaSendEapolRaw cr env W.ap keyInfo none nonce (some kde) 0 encr)

def macKde (addr : Addr) : Octets := wpaAddKde rsnKeyDataMacAddr (putBE 6 addr) []

def wpaSmkSendError (W : Auth) (j : ℕ) (peer : Addr) (mui errorType : BitVec 16) : Auth :=
  sendTo cr env W j (KeyInfo.secureBit ||| KeyInfo.micBit ||| KeyInfo.smkMessageBit |||
    KeyInfo.errorBit) none
    (macKde peer ++ wpaAddKde rsnKeyDataError (putBE 2 mui ++ putBE 2 errorType) []) false

-- `STK_MUI_SMK`, `STK_ERR_STA_NR`
def stkMuiSmk : BitVec 16 := 4
def stkErrStaNr : BitVec 16 := 1

def kdeAddr (kde : EapolIeParse) : Option Addr :=
  match kde.macAddr with
  | none => none
  | some mac => if mac.length < 6 then none else some (getBE 48 (mac.take 6))

def wpaSmkM1 (W : Auth) (i : ℕ) (f : EapolKey) : Auth :=
  let kde := wpaParseKdeIes (kdeOf f)
  match W.sta i, kde.2.rsnIe, kdeAddr kde.2 with
  | some sm, some rsnIe, some peer =>
    if !kde.1 then W
    else
      match stslSelectSta W peer with
      | none => wpaSmkSendError cr env W i peer stkMuiSmk stkErrStaNr
      | some j =>
        let ok := env.alloc W.tick
        let W := { W with tick := W.tick + 1 }
        if !ok then W
        else
          sendTo cr env W j (KeyInfo.secureBit ||| KeyInfo.micBit ||| KeyInfo.ackBit |||
            KeyInfo.smkMessageBit) (some f.keyNonce) (rsnIe ++ macKde sm.addr) false
  | _, _, _ => W

-- The Lifetime KDE of SMK M4 and M5: `dot11RSNAConfigSMKLifetime`
def smkLifetimeKde : Octets := wpaAddKde rsnKeyDataLifetime (toBE 4 43200) []

def wpaSendSmkM4 (W : Auth) (i : ℕ) (f : EapolKey) (initiator : Addr) (inonce smk : Octets) :
    Auth :=
  let ok := env.alloc W.tick
  let W := { W with tick := W.tick + 1 }
  if !ok then W
  else
    sendTo cr env W i (KeyInfo.secureBit ||| KeyInfo.micBit ||| KeyInfo.installBit |||
      KeyInfo.smkMessageBit) (some f.keyNonce)
      (macKde initiator ++ wpaAddKde rsnKeyDataNonce inonce [] ++
        wpaAddKde rsnKeyDataSmk smk (putBE 32 f.keyNonce) ++ smkLifetimeKde) true

def wpaSendSmkM5 (W : Auth) (j : ℕ) (f : EapolKey) (rsnIe inonce smk : Octets) (peer : Addr) :
    Auth :=
  let ok := env.alloc W.tick
  let W := { W with tick := W.tick + 1 }
  if !ok then W
  else
    sendTo cr env W j (KeyInfo.secureBit ||| KeyInfo.micBit ||| KeyInfo.smkMessageBit)
      (some (getBE 256 inonce))
      (rsnIe ++ macKde peer ++ wpaAddKde rsnKeyDataNonce (putBE 32 f.keyNonce) [] ++
        wpaAddKde rsnKeyDataSmk smk inonce ++ smkLifetimeKde) true

def wpaSmkM3 (W : Auth) (i : ℕ) (f : EapolKey) : Auth :=
  let kde := wpaParseKdeIes (kdeOf f)
  match W.sta i, kde.2.rsnIe, kdeAddr kde.2, kde.2.nonce with
  | some sm, some rsnIe, some initiator, some nonce =>
    if !kde.1 || decide (nonce.length < 32) then W
    else
      match stslSelectSta W initiator with
      | none => wpaSmkSendError cr env W i initiator stkMuiSmk stkErrStaNr
      | some j =>
        let random := env.randomGetBytes W.tick
        let time := env.ntpTimestamp W.tick
        let W := { W with tick := W.tick + 1 }
        match random with
        | none => W
        | some r =>
          let inonce := nonce.take 32
          let smk := fit 32 (cr.sha256Prf (fit 32 r) "SMK Derivation"
            (putBE 6 W.ap.addr ++ time ++ inonce ++ putBE 32 f.keyNonce) 32)
          let W := wpaSendSmkM4 cr env W i f initiator inonce smk
          wpaSendSmkM5 cr env W j f rsnIe inonce smk sm.addr
  | _, _, _, _ => W

def wpaSmkError (W : Auth) (i : ℕ) (f : EapolKey) : Auth :=
  let kde := wpaParseKdeIes (kdeOf f)
  match W.sta i, kdeAddr kde.2, kde.2.error with
  | some sm, some peer, some error =>
    if !kde.1 || decide (error.length < 4) then W
    else
      match stslSelectSta W peer with
      | none => W
      | some j =>
        wpaSmkSendError cr env W j sm.addr (getBE 16 (error.take 2))
          (getBE 16 ((error.drop 2).take 2))
  | _, _, _ => W

end Smk

section Receive

variable (cr : Crypto) (env : Env)

-- `wpa_receive_error_report`. The report may make the upper layer start countermeasures, which
-- replace the keys of the first group.
def wpaReceiveErrorReport (W : Auth) (i : ℕ) (group : Bool) : Auth :=
  match W.sta i with
  | none => W
  | some sm =>
    let ignored :=
      if group then W.ap.conf.wpaGroup ≠ .tkip else sm.pairwise ≠ some .tkip
    let W :=
      if ignored then W
      else
        let start := env.countermeasures W.tick
        let W := { W with tick := W.tick + 1, out := W.out ++ [.micFailureReport sm.addr] }
        if start then wpaGtkRekey cr env W else W
    W.modSta i wpaRequestNewPtk

-- What `wpa_receive` does with an accepted request; the flag says whether the frame goes on to
-- the state machines.
def receiveRequest (fuel : ℕ) (W : Auth) (i : ℕ) (f : EapolKey) : Option (Auth × Bool) :=
  if msgOf f = .smkError then some (wpaSmkError cr env W i f, false)
  else if f.keyInfo.error then
    some (wpaReceiveErrorReport cr env W i (!f.keyInfo.keyType), true)
  else if f.keyInfo.keyType then some (W.modSta i wpaRequestNewPtk, true)
  else if msgOf f = .smkM1 then some (wpaSmkM1 cr env W i f, true)
  else
    let kde := wpaParseKdeIes (kdeOf f)
    if f.keyDataLength ≠ 0 ∧ kde.1 ∧ kde.2.macAddr.isSome then some (W, true)
    else (wpaRekeyGtk cr env fuel W).map fun W => (W, true)

def receiveAct (fuel : ℕ) (W : Auth) (i : ℕ) (f : EapolKey) : Option (Auth × Bool) :=
  if f.keyInfo.request then receiveRequest cr env fuel W i f
  else if msgOf f = .smkM3 then some (wpaSmkM3 cr env W i f, false)
  else some (W, true)

def withStaCheck (W : Auth) (i : ℕ) (f : Ctx → Ctx × Bool) : Auth × Bool :=
  match W.sta i with
  | none => (W, false)
  | some sm =>
    (W.withSta i fun c => (f c).1, (f ⟨sm, W.group sm.group, W.tick, W.out⟩).2)

def wpaReceive (fuel : ℕ) (W : Auth) (i : ℕ) (data : Octets) : Option Auth :=
  if W.ap.conf.protos = [] then some W
  else
    match EapolKey.ofOctets? data with
    | none => some W
    | some f =>
      match withStaCheck W i (receivePre cr W.ap f) with
      | (W, false) => some W
      | (W, true) => do
          let (W, go) ← receiveAct cr env fuel W i f
          if !go then some W
          else
            match withStaCheck W i (receivePost env f) with
            | (W, false) => some W
            | (W, true) => wpaSmStep cr env fuel W i

end Receive

end WpaSupplicant.Authenticator

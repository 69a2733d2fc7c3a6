import WpaSupplicant.RsnIe
import WpaSupplicant.Supplicant.Handshake

namespace WpaSupplicant.Supplicant

open Lib.Octets KeyData

def setPeer (k : ℕ) (p : Peer) (c : Ctx) : Ctx :=
  { c with sm := { c.sm with peerkey := c.sm.peerkey.set k p } }

-- The head of the list of peers takes a new entry.
def addPeer (p : Peer) (c : Ctx) : Ctx :=
  { c with sm := { c.sm with peerkey := p :: c.sm.peerkey } }

def peerkeyMaxIeLen : ℕ := 80

-- `STK_MUI_SMK`, `STK_ERR_CPHR_NS`
def stkMuiSmk : BitVec 16 := 4
def stkErrCphrNs : BitVec 16 := 3

def kdeAddr (kde : EapolIeParse) : Option Addr :=
  match kde.macAddr with
  | none => none
  | some mac => if mac.length < 6 then none else some (getBE 48 (mac.take 6))

def peerCipher (sm : Sm) (ie : WpaIeData) : Option Cipher :=
  let both (c : Cipher) := c ∈ ie.pairwiseCipher ∧ c ∈ sm.conf.allowedPairwiseCipher
  if both .ccmp then some .ccmp else if both .tkip then some .tkip else none

def smkRsnIe (suites : List Octets) : Octets :=
  elem eidRsn (toLE 2 1 ++ AuthIe.rsnCipherSuiteCcmp ++ toLE 2 suites.length ++ suites.flatten)

def cipherSuite : Cipher → Octets
  | .tkip => AuthIe.rsnCipherSuiteTkip
  | _ => AuthIe.rsnCipherSuiteCcmp

def smkIe (ie : Octets) : Option WpaIeData :=
  if peerkeyMaxIeLen < ie.length then none else (RsnIe.wpaParseWpaIeRsn ie).toOption

section Smk

variable (cr : Crypto) (env : Env)

-- `wpa_supplicant_send_smk_error` for a peer
def wpaSupplicantSendSmkError (dst peer : Addr) (mui errorType : BitVec 16) (ver : KeyInfo)
    (c : Ctx) : Ctx :=
  let ok := env.alloc c.tick
  let c := c.ask
  if !ok then c
  else
    let frame := newFrame c.sm eapolKeyTypeRsn (ver ||| KeyInfo.smkMessageBit ||| KeyInfo.micBit |||
      KeyInfo.secureBit ||| KeyInfo.errorBit ||| KeyInfo.requestBit) 0 c.sm.requestCounter 0
      (wpaAddKde rsnKeyDataMacAddr (putBE 6 peer) [] ++
        wpaAddKde rsnKeyDataError (putBE 2 mui ++ putBE 2 errorType) [])
    wpaEapolKeySend cr env (some c.sm.ptk.kck) ver dst frame (nextRequestCounter c)

def wpaSupplicantSendSmkM3 (src : Addr) (f : EapolKey) (ver : KeyInfo) (p : Peer) (c : Ctx) : Ctx :=
  (allocAndSend cr env (some c.sm.ptk.kck) ver src
    (newFrame c.sm eapolKeyTypeRsn (ver ||| KeyInfo.smkMessageBit ||| KeyInfo.micBit |||
      KeyInfo.secureBit) 0 f.replayCounter p.pnonce
      (p.rsnieP ++ wpaAddKde rsnKeyDataMacAddr (putBE 6 p.addr) [] ++
        wpaAddKde rsnKeyDataNonce (putBE 32 p.inonce) [])) c).1

def wpaSupplicantProcessSmkM2 (src : Addr) (f : EapolKey) (ver : KeyInfo) (c : Ctx) : Ctx :=
  let kde := wpaSupplicantParseIes (keyDataOf f)
  if !c.sm.conf.peerkeyEnabled ∨ c.sm.conf.proto ≠ .rsn ∨ !kde.1 then c
  else
    match kde.2.rsnIe, kdeAddr kde.2 with
    | some rsnIe, some addr =>
      match smkIe rsnIe with
      | none => c
      | some ie =>
        match peerCipher c.sm ie with
        | none => wpaSupplicantSendSmkError cr env src addr stkMuiSmk stkErrCphrNs ver c
        | some cipher =>
          let ok := env.alloc c.tick
          let c := c.ask
          let random := env.randomGetBytes c.tick
          if !ok then c
          else
            match random with
            | none => c.ask
            | some r =>
              let p : Peer := {
                addr := addr
                inonce := f.keyNonce
                pnonce := getBE 256 (r.take 32)
                rsnieI := rsnIe
                rsnieP := smkRsnIe [cipherSuite cipher]
                cipher := some cipher
                useSha256 := .ieee8021xSha256 ∈ ie.keyMgmt ∨ .pskSha256 ∈ ie.keyMgmt }
              addPeer p (wpaSupplicantSendSmkM3 cr env src f ver p c.ask)
    | _, _ => c

def stkVersion (p : Peer) : KeyInfo :=
  if p.cipher = some .ccmp then KeyInfo.typeHmacSha1Aes else KeyInfo.typeHmacMd5Rc4

def stkKeyLength (p : Peer) : BitVec 16 := if p.cipher = some .ccmp then 16 else 32

-- `wpa_supplicant_send_stk_1_of_4`. The number is used up even if there is no random nonce.
def wpaSupplicantSendStk1of4 (p : Peer) (c : Ctx) : Ctx × Peer :=
  let ok := env.alloc c.tick
  let c := c.ask
  if !ok then (c, p)
  else
    let number := p.replayCounter
    let p := { p with replayCounter := incField 8 p.replayCounter }
    match env.randomGetBytes c.tick with
    | none => (c.ask, p)
    | some r =>
      let p := { p with inonce := getBE 256 (r.take 32) }
      let frame := newFrame c.sm eapolKeyTypeRsn (stkVersion p ||| KeyInfo.keyTypeBit |||
        KeyInfo.ackBit) (stkKeyLength p) number p.inonce
        (wpaAddKde rsnKeyDataPmkid (putBE 16 p.smkid) [])
      (wpaEapolKeySend cr env none (stkVersion p) p.addr frame c.ask, p)

def lifetimeKde (p : Peer) : Octets := wpaAddKde rsnKeyDataLifetime (putBE 4 p.lifetime) []

def wpaSupplicantSendStk3of4 (p : Peer) (c : Ctx) : Ctx × Peer :=
  let ok := env.alloc c.tick
  let c := c.ask
  if !ok then (c, p)
  else
    let frame := newFrame c.sm eapolKeyTypeRsn (stkVersion p ||| KeyInfo.keyTypeBit |||
      KeyInfo.ackBit ||| KeyInfo.micBit ||| KeyInfo.secureBit) (stkKeyLength p) p.replayCounter
      p.inonce (p.rsnieI ++ lifetimeKde p)
    (wpaEapolKeySend cr env (some p.stk.kck) (stkVersion p) p.addr frame c,
      { p with replayCounter := incField 8 p.replayCounter })

def smkNonce (smk : Octets) : Octets := (smk.drop 32).take 32

-- `wpa_supplicant_process_smk_m4` returns 0
def wpaSupplicantProcessSmkM4 (p : Peer) (smk nonce : Octets) : Bool :=
  smkNonce smk = putBE 32 p.pnonce && nonce.take 32 = putBE 32 p.inonce

-- `wpa_supplicant_process_smk_m5`; without an acceptable cipher the peer already has the new
-- RSN IE and nonce.
def wpaSupplicantProcessSmkM5 (src : Addr) (f : EapolKey) (ver : KeyInfo) (p : Peer)
    (addr : Addr) (kde : EapolIeParse) (smk nonce : Octets) (c : Ctx) : Ctx × Peer × Bool :=
  match kde.rsnIe.bind fun ie => (smkIe ie).map fun data => (ie, data) with
  | none => (c, p, false)
  | some (ie, data) =>
    if f.keyNonce ≠ p.inonce ∨ smkNonce smk ≠ putBE 32 p.inonce then (c, p, false)
    else
      let p := { p with rsnieP := ie, pnonce := getBE 256 (nonce.take 32) }
      match peerCipher c.sm data with
      | some cipher => (c, { p with cipher := some cipher }, true)
      | none =>
        (wpaSupplicantSendSmkError cr env src addr stkMuiSmk stkErrCphrNs ver c, p, false)

def findSmkPeer (sm : Sm) (addr : Addr) (nonce : Nonce) : Option ℕ :=
  sm.peerkey.findIdx? fun p =>
    p.addr = addr && (if p.initiator then p.inonce else p.pnonce) = nonce

def acceptSmk (smk lifetime : Octets) (p : Peer) (c : Ctx) : Ctx × Peer :=
  let life := min (ofBE (lifetime.take 4)) 1000000000
  let p := { p with smk := smk.take 32, lifetime := BitVec.ofNat 32 life }
  if p.initiator then
    wpaSupplicantSendStk1of4 cr env { p with
      smkid := cr.rsnSmkid p.smk p.pnonce p.addr p.inonce c.sm.conf.ownAddr p.useSha256 } c
  else
    (c, { p with
      smkid := cr.rsnSmkid p.smk p.pnonce c.sm.conf.ownAddr p.inonce p.addr p.useSha256 })

def wpaSupplicantProcessSmkM45 (src : Addr) (f : EapolKey) (ver : KeyInfo) (c : Ctx) : Ctx :=
  let kde := wpaSupplicantParseIes (keyDataOf f)
  if !c.sm.conf.peerkeyEnabled ∨ c.sm.conf.proto ≠ .rsn ∨ !kde.1 then c
  else
    match kdeAddr kde.2, kde.2.nonce, kde.2.smk, kde.2.lifetime with
    | some addr, some nonce, some smk, some lifetime =>
      if nonce.length < 32 ∨ smk.length < 64 ∨ lifetime.length < 4 then c
      else
        match findSmkPeer c.sm addr f.keyNonce with
        | none => c
        | some k =>
          match c.sm.peerkey[k]? with
          | none => c
          | some p =>
            let (c, p, ok) :=
              if p.initiator then
                wpaSupplicantProcessSmkM5 cr env src f ver p addr kde.2 smk nonce c
              else (c, p, wpaSupplicantProcessSmkM4 p smk nonce)
            if !ok then setPeer k p c
            else
              let (c, p) := acceptSmk cr env smk lifetime p c
              setPeer k p c
    | _, _, _, _ => c

-- `peerkey_rx_eapol_smk`; `wpa_supplicant_process_smk_error` only logs the error.
def peerkeyRxEapolSmk (src : Addr) (f : EapolKey) (ver : KeyInfo) (c : Ctx) : Ctx :=
  if f.keyInfo.error then c
  else if f.keyInfo.ack then wpaSupplicantProcessSmkM2 cr env src f ver c
  else wpaSupplicantProcessSmkM45 cr env src f ver c

end Smk

section Stk

variable (cr : Crypto) (env : Env)

-- The STK from a nonce of each end: `sizeof(struct wpa_ptk)` octets
def deriveStk (sm : Sm) (p : Peer) (own other : Nonce) : Ptk :=
  Ptk.write .zero (cr.wpaPmkToPtk p.smk "Peer key expansion" sm.conf.ownAddr p.addr own other 64
    p.useSha256) 64

def wpaSupplicantProcessStk1of4 (k : ℕ) (p : Peer) (f : EapolKey) (ver : KeyInfo) (c : Ctx) : Ctx :=
  let ie := wpaSupplicantParseIes (keyDataOf f)
  if !ie.1 ∨ ie.2.pmkid ≠ some (putBE 16 p.smkid) then c
  else
    match env.randomGetBytes c.tick with
    | none => c.ask
    | some r =>
      let pnonce := getBE 256 (r.take 32)
      let tstk := (deriveStk cr c.sm p pnonce f.keyNonce).swapMicKeys
      let p := { p with pnonce := pnonce, tstk := tstk, tstkSet := true }
      let c := setPeer k p c.ask
      let ok := env.alloc c.tick
      let c := c.ask
      if !ok then c
      else
        let kde := p.rsnieP ++ lifetimeKde p ++ wpaAddKde rsnKeyDataPmkid (putBE 16 p.smkid) []
        match wpaSupplicantSend2of4 cr env p.addr f ver p.pnonce (some kde) p.tstk c with
        | (c, false) => c
        | (c, true) => setPeer k { p with inonce := f.keyNonce } c

def wpaSupplicantUpdateSmkLifetime (kde : EapolIeParse) (p : Peer) : Peer :=
  match kde.lifetime with
  | none => p
  | some l =>
    if l.length < 4 ∨ p.lifetime.toNat ≤ ofBE (l.take 4) then p
    else { p with lifetime := getBE 32 (l.take 4) }

def wpaSupplicantProcessStk2of4 (k : ℕ) (p : Peer) (f : EapolKey) (c : Ctx) : Ctx :=
  let kde := wpaSupplicantParseIes (keyDataOf f)
  if !kde.1 ∨ kde.2.pmkid ≠ some (putBE 16 p.smkid) ∨ kde.2.rsnIe ≠ some p.rsnieP then c
  else
    let (c, p) := wpaSupplicantSendStk3of4 cr env (wpaSupplicantUpdateSmkLifetime kde.2 p) c
    setPeer k { p with pnonce := f.keyNonce } c

def stkKey (p : Peer) : Octets :=
  if p.cipher = some .tkip then
    putBE 16 p.stk.tk1 ++ putBE 8 p.stk.rxMicKey ++ putBE 8 p.stk.txMicKey
  else p.stk.tkOctets 16

-- `wpa_sm_set_key` for the STK of a peer; the handlers only log a failure.
def setStk (p : Peer) (key : Octets) (c : Ctx) : Ctx :=
  (wpaSmSetKey env .stk (.cipher (p.cipher.getD .none)) (some p.addr) 0 true (List.replicate 6 0)
    key c).1

def wpaSupplicantProcessStk3of4 (k : ℕ) (p : Peer) (f : EapolKey) (ver : KeyInfo) (c : Ctx) : Ctx :=
  let kde := wpaSupplicantParseIes (keyDataOf f)
  if !kde.1 ∨ kde.2.rsnIe.getD [] ≠ p.rsnieI ∨ p.inonce ≠ f.keyNonce then c
  else
    let p := wpaSupplicantUpdateSmkLifetime kde.2 p
    match wpaSupplicantSend4of4 cr env p.addr f ver p.stk (setPeer k p c) with
    | (c, false) => c
    | (c, true) => setStk env p (stkKey p) c

def wpaSupplicantProcessStk4of4 (p : Peer) (c : Ctx) : Ctx :=
  setStk env p (p.stk.tkOctets (if p.cipher = some .tkip then 32 else 16)) c

def peerkeyRxEapol4way (k : ℕ) (p : Peer) (f : EapolKey) (ver : KeyInfo) (c : Ctx) : Ctx :=
  if f.keyInfo.mic && f.keyInfo.ack then wpaSupplicantProcessStk3of4 cr env k p f ver c
  else if f.keyInfo.ack then wpaSupplicantProcessStk1of4 cr env k p f ver c
  else if f.keyInfo.secure then wpaSupplicantProcessStk4of4 env p c
  else wpaSupplicantProcessStk2of4 cr env k p f c

def initiatorStk (sm : Sm) (p : Peer) (f : EapolKey) : Peer :=
  if p.initiator && !p.stkSet then
    { p with stk := deriveStk cr sm p p.inonce f.keyNonce, stkSet := true }
  else p

-- Whether the MIC of a frame matches. The source does not look at the result of
-- `wpa_eapol_key_mic`; without a MIC algorithm the field stays zero.
def micMatches (kck : BitVec 128) (ver : KeyInfo) (f : EapolKey) : Bool :=
  (cr.wpaEapolKeyMic kck ver f.clearMic.toOctets).getD 0 = f.keyMic

def peerVerified (f : EapolKey) (p : Peer) : Peer :=
  { p with replayCounter := f.replayCounter, replayCounterSet := true }

-- `peerkey_verify_eapol_key_mic`; the flag is success.
def peerkeyVerifyEapolKeyMic (k : ℕ) (p : Peer) (f : EapolKey) (ver : KeyInfo) (c : Ctx) :
    Ctx × Bool :=
  let p := initiatorStk cr c.sm p f
  if p.tstkSet && micMatches cr p.tstk.kck ver f then
    let p := peerVerified f { p with tstkSet := false, stkSet := true, stk := p.tstk }
    ((setPeer k p c).emit (.micVerified p.stk.kck f), true)
  else if p.stkSet && micMatches cr p.stk.kck ver f then
    ((setPeer k (peerVerified f p) c).emit (.micVerified p.stk.kck f), true)
  else (setPeer k p c, false)

def apPeerkeyCapab (sm : Sm) : Bool :=
  match sm.conf.apRsnIe with
  | none => true
  | some ie =>
    match RsnIe.wpaParseWpaIeRsn ie with
    | .error _ => true
    | .ok data => data.capabilities / AuthIe.capabPeerkeyEnabled % 2 = 1

def wpaSmStkstart (peer : Addr) (c : Ctx) : Ctx :=
  if c.sm.conf.proto ≠ .rsn ∨ !c.sm.ptkSet ∨ !c.sm.conf.peerkeyEnabled ∨ !apPeerkeyCapab c.sm then c
  else
    let ver := if c.sm.conf.pairwiseCipher = .ccmp then KeyInfo.typeHmacSha1Aes
      else KeyInfo.typeHmacMd5Rc4
    let bssid := env.getBssid c.tick
    let ok := env.alloc c.tick
    let random := env.randomGetBytes c.tick
    let c := c.ask
    match bssid, ok with
    | some bssid, true =>
      let number := c.sm.requestCounter
      let c := nextRequestCounter c
      match random with
      | none => c
      | some r =>
        let suites := AuthIe.selected c.sm.conf.allowedPairwiseCipher
          [(.ccmp, AuthIe.rsnCipherSuiteCcmp), (.tkip, AuthIe.rsnCipherSuiteTkip)]
        let p : Peer := {
          initiator := true
          addr := peer
          inonce := getBE 256 (r.take 32)
          rsnieI := smkRsnIe suites
          useSha256 := c.sm.conf.keyMgmt.sha256 }
        let frame := newFrame c.sm eapolKeyTypeRsn (KeyInfo.smkMessageBit ||| KeyInfo.micBit |||
          KeyInfo.secureBit ||| KeyInfo.requestBit ||| ver) 0 number p.inonce
          (p.rsnieI ++ wpaAddKde rsnKeyDataMacAddr (putBE 6 peer) [])
        addPeer p (wpaEapolKeySend cr env (some c.sm.ptk.kck) ver bssid frame c)
    | _, _ => c

end Stk

end WpaSupplicant.Supplicant

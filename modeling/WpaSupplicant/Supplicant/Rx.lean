import WpaSupplicant.Supplicant.PeerKey

namespace WpaSupplicant.Supplicant

open Lib.Octets KeyData

def rxPeer (sm : Sm) (src : Addr) : Option ℕ := sm.peerkey.findIdx? fun p => p.addr = src

def rxHeaderOk (f : EapolKey) : Bool :=
  f.hdrType = ieee8021xTypeEapolKey &&
  decide (f.hdrLength.toNat ≤ EapolKey.keySize + f.keyData.length) &&
  decide (EapolKey.keySize ≤ f.hdrLength.toNat) &&
  (f.type = eapolKeyTypeWpa || f.type = eapolKeyTypeRsn)

def rxFrame (f : EapolKey) : EapolKey :=
  { f with keyData := f.keyData.take (f.hdrLength.toNat - EapolKey.keySize) }

-- The descriptor version must be known and fit the negotiated suites; a group key frame may
-- use version 1 if CCMP is not the group cipher.
def rxVersionOk (sm : Sm) (f : EapolKey) : Bool :=
  let ver := f.keyInfo.ver
  (ver = KeyInfo.typeHmacMd5Rc4 || ver = KeyInfo.typeAes128Cmac || ver = KeyInfo.typeHmacSha1Aes) &&
  (if sm.conf.keyMgmt.sha256 then ver = KeyInfo.typeAes128Cmac
    else !(sm.conf.pairwiseCipher = .ccmp && ver ≠ KeyInfo.typeHmacSha1Aes &&
      !(sm.conf.groupCipher ≠ .ccmp && !f.keyInfo.keyType)))

-- The replay counter: of the peer, as a replay or as an answer to its last frame, or of the
-- Authenticator. An SMK message from the address of a peer is not checked.
def rxReplayOk (sm : Sm) (peer : Option Peer) (f : EapolKey) : Bool :=
  match peer with
  | none => !(sm.rxReplayCounterSet && decide (f.replayCounter ≤ sm.rxReplayCounter))
  | some p =>
    f.keyInfo.smkMessage ||
    (if p.initiator then incField 8 f.replayCounter = p.replayCounter
      else !(p.replayCounterSet && decide (f.replayCounter ≤ p.replayCounter)))

def rxBitsOk (peer : Option Peer) (f : EapolKey) : Bool :=
  let initiator := peer.any Peer.initiator
  !(initiator && f.keyInfo.ack) &&
  (f.keyInfo.ack || f.keyInfo.smkMessage || initiator) &&
  !f.keyInfo.request

-- Everything `wpa_sm_rx_eapol` checks before the MIC
def rxChecks (sm : Sm) (src : Addr) (f : EapolKey) : Bool :=
  let peer := (rxPeer sm src).bind fun k => sm.peerkey[k]?
  rxVersionOk sm f && rxReplayOk sm peer f && rxBitsOk peer f

section

variable (cr : Crypto) (env : Env)

def smVerified (f : EapolKey) (sm : Sm) : Sm :=
  { sm with rxReplayCounter := f.replayCounter, rxReplayCounterSet := true }

-- `wpa_supplicant_verify_eapol_key_mic`: the temporary PTK is tried first and becomes the PTK
-- if it fits.
def wpaSupplicantVerifyEapolKeyMic (f : EapolKey) (ver : KeyInfo) (c : Ctx) : Ctx × Bool :=
  if c.sm.tptkSet && micMatches cr c.sm.tptk.kck ver f then
    let sm := smVerified f { c.sm with tptkSet := false, ptkSet := true, ptk := c.sm.tptk }
    ({ c with sm := sm }.emit (.micVerified sm.ptk.kck f), true)
  else if c.sm.ptkSet && micMatches cr c.sm.ptk.kck ver f then
    ({ c with sm := smVerified f c.sm }.emit (.micVerified c.sm.ptk.kck f), true)
  else (c, false)

def rxVerify (src : Addr) (f : EapolKey) (c : Ctx) : Ctx × Bool :=
  if !f.keyInfo.mic then (c, true)
  else
    match rxPeer c.sm src with
    | none => wpaSupplicantVerifyEapolKeyMic cr f f.keyInfo.ver c
    | some k =>
      match c.sm.peerkey[k]? with
      | none => (c, false)
      | some p => peerkeyVerifyEapolKeyMic cr k p f f.keyInfo.ver c

def withKeyData (f : EapolKey) (plain : Octets) : EapolKey :=
  { f with keyData := plain, keyDataLength := BitVec.ofNat 16 plain.length }

-- `wpa_supplicant_decrypt_key_data`. AES unwrap of no octets at all reads behind the frame
-- and is taken to fail.
def wpaSupplicantDecryptKeyData (f : EapolKey) (ver : KeyInfo) (c : Ctx) : Ctx × Option EapolKey :=
  let data := keyDataOf f
  let kek := c.sm.ptk.kek
  if !c.sm.ptkSet then (c, none)
  else if ver = KeyInfo.typeHmacMd5Rc4 then
    (c.emit (.useKek kek),
      some (withKeyData f (cr.rc4Skip (putBE 16 f.keyIv ++ putBE 16 kek) 256 data)))
  else if ver = KeyInfo.typeHmacSha1Aes ∨ ver = KeyInfo.typeAes128Cmac then
    if data.length % 8 ≠ 0 then (c, none)
    else
      let ok := env.alloc c.tick
      let c := c.ask
      if !ok then (c, none)
      else if data.length = 0 then (c.emit (.useKek kek), none)
      else (c.emit (.useKek kek), (cr.aesUnwrap kek data).map (withKeyData f))
  else (c, none)

def rxDecrypt (f : EapolKey) (c : Ctx) : Ctx × Option EapolKey :=
  if c.sm.conf.proto = .rsn ∧ f.keyInfo.encrKeyData then
    wpaSupplicantDecryptKeyData cr env f f.keyInfo.ver c
  else (c, some f)

-- The handlers of the messages; the second value is what `wpa_sm_rx_eapol` returns.
def rxDispatch (src : Addr) (f : EapolKey) (c : Ctx) : Ctx × ℤ :=
  let ver := f.keyInfo.ver
  let peer := (rxPeer c.sm src).bind fun k => c.sm.peerkey[k]?.map fun p => (k, p)
  if f.keyInfo.keyType then
    if f.keyInfo.keyIndex ≠ 0 then (c, -1)
    else
      match peer with
      | some (k, p) => (peerkeyRxEapol4way cr env k p f ver c, 1)
      | none =>
        if f.keyInfo.mic then (wpaSupplicantProcess3of4 cr env f ver c, 1)
        else (wpaSupplicantProcess1of4 cr env f ver c, 1)
  else if f.keyInfo.smkMessage then (peerkeyRxEapolSmk cr env src f ver c, 1)
  else if f.keyInfo.mic then (wpaSupplicantProcess1of2 cr env f ver c, 1)
  else (c, 1)

-- `wpa_sm_rx_eapol` behind the header checks
def rxKeyFrame (src : Addr) (f : EapolKey) (c : Ctx) : Ctx × ℤ :=
  if !rxChecks c.sm src f then (c, -1)
  else
    match rxVerify cr src f c with
    | (c, false) => (c, -1)
    | (c, true) =>
      if f.keyData.length < f.keyDataLength.toNat then (c, -1)
      else
        match rxDecrypt cr env f c with
        | (c, none) => (c, -1)
        | (c, some f) => rxDispatch cr env src f c

def wpaSmRxEapol (src : Addr) (data : Octets) (c : Ctx) : Ctx × ℤ :=
  match EapolKey.ofOctets? data with
  | none => (c, 0)
  | some f =>
    let ok := env.alloc c.tick
    let c := c.ask
    if !ok then (c, -1)
    else if !rxHeaderOk f then (c, 0)
    else rxKeyFrame cr env src (rxFrame f) c

end

def wpaSmNotifyAssoc (bssid : Addr) (sm : Sm) : Sm :=
  { sm with
    bssid := bssid
    rxReplayCounter := 0
    rxReplayCounterSet := false
    renewSnonce := true
    ptkSet := false
    tptkSet := false }

def wpaSmDropSa (sm : Sm) : Sm :=
  { sm with
    ptkSet := false
    tptkSet := false
    pmk := List.replicate sm.pmk.length 0
    ptk := .zero
    tptk := .zero }

-- One call into the Supplicant. `configure` stands for the functions that store configuration,
-- suites and IEs, `setCurPmksa` for those that select or drop a PMKSA cache entry.
inductive Event where
  | rxEapol (src : Addr) (data : Octets)
  | notifyAssoc (bssid : Addr)
  | setPmk (pmk : Octets)
  | setPmkFromPmksa
  | setCurPmksa (entry : Option PmksaEntry)
  | dropSa
  | configure (conf : Config)
  | keyRequest (error pairwise : Bool)
  | rekeyPtk
  | stkstart (peer : Addr)
  | updateReplayCtr (ctr : ReplayCounter)
  deriving DecidableEq, Repr

section

variable (cr : Crypto) (env : Env)

def exec (sm : Sm) : Event → Option Ctx
  | .rxEapol src data => some (wpaSmRxEapol cr env src data ⟨sm, 0, []⟩).1
  | .notifyAssoc bssid => some ⟨wpaSmNotifyAssoc bssid sm, 0, []⟩
  | .setPmk pmk => some ⟨{ sm with pmk := pmk }, 0, []⟩
  | .setPmkFromPmksa => some ⟨wpaSmSetPmkFromPmksa sm, 0, []⟩
  | .setCurPmksa entry => some ⟨{ sm with curPmksa := entry }, 0, []⟩
  | .dropSa => some ⟨wpaSmDropSa sm, 0, []⟩
  | .configure conf => some ⟨{ sm with conf := conf }, 0, []⟩
  | .keyRequest error pairwise => some (wpaSmKeyRequest cr env error pairwise ⟨sm, 0, []⟩)
  | .rekeyPtk =>
    if sm.rekeyTimer then
      some (wpaSmKeyRequest cr env false true ⟨{ sm with rekeyTimer := false }, 0, []⟩)
    else none
  | .stkstart peer => some (wpaSmStkstart cr env peer ⟨sm, 0, []⟩)
  | .updateReplayCtr ctr => some ⟨{ sm with rxReplayCounter := ctr }, 0, []⟩

end

def Step (cr : Crypto) (sm : Sm) (e : Event) (out : List Out) (sm' : Sm) : Prop :=
  ∃ env tick, exec cr env sm e = some ⟨sm', tick, out⟩

-- The state after `wpa_sm_init`
def initial (conf : Config) : Sm := { conf := conf }

structure Record where
  sm : Sm
  event : Event
  out : List Out
  sm' : Sm

-- The driver reports the replay counter of a group handshake that it has answered itself: it starts from the
-- counter that `set_rekey_offload` gave it, and does not go back.
def Record.counts (r : Record) : Bool :=
  match r.event with
  | .updateReplayCtr ctr => decide (r.sm.rxReplayCounter ≤ ctr)
  | _ => true

def DriverCounts (tr : List Record) : Prop := ∀ r ∈ tr, r.counts = true

instance (tr : List Record) : Decidable (DriverCounts tr) := inferInstanceAs (Decidable (∀ r ∈ tr, r.counts = true))

inductive Run (cr : Crypto) : List Record → Sm → Prop where
  | init (conf : Config) : Run cr [] (initial conf)
  | step {tr : List Record} {sm sm' : Sm} {e : Event} {out : List Out} (h : Run cr tr sm)
      (hs : Step cr sm e out sm') : Run cr (⟨sm, e, out, sm'⟩ :: tr) sm'

end WpaSupplicant.Supplicant

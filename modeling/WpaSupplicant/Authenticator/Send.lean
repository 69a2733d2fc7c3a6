import WpaSupplicant.Authenticator

namespace WpaSupplicant.Authenticator

open Lib.Octets Lib.Window KeyData

-- The descriptor version `__wpa_send_eapol` selects; no caller forces one.
def sendVersion (sm : Sta) : KeyInfo :=
  if wpaUseAesCmac sm then KeyInfo.typeAes128Cmac
  else if sm.pairwise = some .ccmp then KeyInfo.typeHmacSha1Aes
  else KeyInfo.typeHmacMd5Rc4

def sendKeyLength (ap : Ap) (sm : Sta) (keyInfo : KeyInfo) : BitVec 16 :=
  if keyInfo.smkMessage then 0
  else
    match (if keyInfo.keyType then sm.pairwise else some ap.conf.wpaGroup) with
    | some .ccmp => 16
    | some .tkip => 32
    | some .wep40 => 5
    | some .wep104 => 13
    | _ => 0

def sendKeyInfo (sm : Sta) (keyInfo : KeyInfo) (keyidx : ℕ) (encr : Bool) : KeyInfo :=
  keyInfo ||| sendVersion sm |||
    KeyInfo.flag (encr && sm.wpa = some .rsn) KeyInfo.encrKeyDataBit |||
    (if sm.wpa = some .rsn then 0 else BitVec.ofNat 16 (keyidx * 16))

-- AES key wrap is used for these two descriptor versions, RC4 for the other one.
def usesAesWrap (ver : KeyInfo) : Bool :=
  ver = KeyInfo.typeHmacSha1Aes || ver = KeyInfo.typeAes128Cmac

def sendKeyIv (ver : KeyInfo) (encr : Bool) (kde : Option Octets) (grp : Group) : BitVec 128 :=
  if encr && kde.isSome && !usesAesWrap ver then grp.counter.setWidth 128 else 0

-- The key data behind the fixed part of the frame; `none` if AES key wrap fails
def sendKeyData (cr : Crypto) (ver : KeyInfo) (kek iv : BitVec 128) (encr : Bool) :
    Option Octets → Option Octets
  | none => some []
  | some kde =>
    if !encr then some kde
    else if usesAesWrap ver then cr.aesWrap kek (padKeyData kde)
    else some (cr.rc4Skip (putBE 16 iv ++ putBE 16 kek) 256 kde)

def buildEapolKey (ap : Ap) (sm : Sta) (keyInfo : KeyInfo) (rsc : Option (BitVec 64))
    (nonce : Option Nonce) (keyidx : ℕ) (encr : Bool) (replayCounter : ReplayCounter)
    (iv : BitVec 128) (keyData : Octets) : EapolKey where
  hdrVersion := ap.conf.eapolVersion
  hdrType := ieee8021xTypeEapolKey
  hdrLength := BitVec.ofNat 16 (EapolKey.keySize + keyData.length)
  type := if sm.wpa = some .rsn then eapolKeyTypeRsn else eapolKeyTypeWpa
  keyInfo := sendKeyInfo sm keyInfo keyidx encr
  keyLength := sendKeyLength ap sm keyInfo
  replayCounter := replayCounter
  keyNonce := nonce.getD 0
  keyIv := iv
  keyRsc := rsc.getD 0
  keyId := 0
  keyMic := 0
  keyDataLength := BitVec.ofNat 16 keyData.length
  keyData := keyData

-- A frame that has been numbered goes out: with a MIC if its Key Information asks for one,
-- and not at all if there is no valid PTK to compute that MIC with.
def transmit (cr : Crypto) (ver : KeyInfo) (frame : EapolKey) (c : Ctx) : Ctx :=
  if frame.keyInfo.mic then
    if c.sm.ptkValid then
      let mic := cr.wpaEapolKeyMic c.sm.ptk.kck ver frame.toOctets
      let frame := { frame with keyMic := mic.getD 0 }
      ((c.emit (.micOver c.sm.ptk.kck frame)).emit
        (.setEapol c.sm.addr .incEapolFramesTx true)).emit
        (.sendEapol c.sm.addr frame c.sm.pairwiseSet)
    else c
  else
    (c.emit (.setEapol c.sm.addr .incEapolFramesTx true)).emit
      (.sendEapol c.sm.addr frame c.sm.pairwiseSet)

def nextReplayCounter (c : Ctx) : Ctx :=
  { c with sm := { c.sm with keyReplay := push (incField 8) c.sm.keyReplay } }

def lastReplayCounter (sm : Sta) : ReplayCounter :=
  match sm.keyReplay with
  | [] => 0
  | s :: _ => s.counter

-- The part of `__wpa_send_eapol` behind the replay counter. RC4 takes a fresh IV from the
-- group Counter; AES key wrap needs a buffer for the padded key data.
def fillAndTransmit (cr : Crypto) (env : Env) (ap : Ap) (keyInfo : KeyInfo)
    (rsc : Option (BitVec 64)) (nonce : Option Nonce) (kde : Option Octets) (keyidx : ℕ)
    (encr : Bool) (c : Ctx) : Ctx :=
  let ver := sendVersion c.sm
  let wraps := encr && kde.isSome
  let ok := !wraps || env.alloc c.tick
  let c := if wraps then c.ask else c
  if !ok then c
  else
    let iv := sendKeyIv ver encr kde c.grp
    match sendKeyData cr ver c.sm.ptk.kek iv encr kde with
    | none => c
    | some keyData =>
      let frame := buildEapolKey ap c.sm keyInfo rsc nonce keyidx encr
        (lastReplayCounter c.sm) iv keyData
      let c := if wraps && !usesAesWrap ver then { c with grp := c.grp.incCounter } else c
      transmit cr ver frame c

-- `__wpa_send_eapol`
def wpaSendEapolRaw (cr : Crypto) (env : Env) (ap : Ap) (keyInfo : KeyInfo)
    (rsc : Option (BitVec 64)) (nonce : Option Nonce) (kde : Option Octets) (keyidx : ℕ)
    (encr : Bool) (c : Ctx) : Ctx :=
  let ok := env.alloc c.tick
  let c := c.ask
  if !ok then c
  else fillAndTransmit cr env ap keyInfo rsc nonce kde keyidx encr (nextReplayCounter c)

-- `wpa_send_eapol`: the same with the retransmission timer. Its length is not modelled.
def wpaSendEapol (cr : Crypto) (env : Env) (ap : Ap) (keyInfo : KeyInfo)
    (rsc : Option (BitVec 64)) (nonce : Option Nonce) (kde : Option Octets) (keyidx : ℕ)
    (encr : Bool) (c : Ctx) : Ctx :=
  let c := wpaSendEapolRaw cr env ap keyInfo rsc nonce kde keyidx encr c
  let ctr := if keyInfo.keyType then c.sm.timeoutCtr else c.sm.gTimeoutCtr
  let pending := c.sm.pending1of4Timeout || (keyInfo.keyType && ctr = 1 && !keyInfo.mic)
  { c with sm := { c.sm with pending1of4Timeout := pending, eapolTimer := true } }

-- What `transmit` hands out for a frame
def transmitOut (cr : Crypto) (ver : KeyInfo) (frame : EapolKey) (sm : Sta) : List Out :=
  let sent (f : EapolKey) :=
    [.setEapol sm.addr .incEapolFramesTx true, .sendEapol sm.addr f sm.pairwiseSet]
  if frame.keyInfo.mic then
    if sm.ptkValid then
      let f := { frame with keyMic := (cr.wpaEapolKeyMic sm.ptk.kck ver frame.toOctets).getD 0 }
      .micOver sm.ptk.kck f :: sent f
    else []
  else sent frame

theorem transmit_eq (cr : Crypto) (ver : KeyInfo) (frame : EapolKey) (c : Ctx) :
    transmit cr ver frame c = { c with out := c.out ++ transmitOut cr ver frame c.sm } := by
  rw [transmit, transmitOut]
  split
  · split
    · simp [Ctx.emit]
    · simp
  · simp [Ctx.emit]

section

variable (cr : Crypto) (env : Env) (ap : Ap) (keyInfo : KeyInfo) (rsc : Option (BitVec 64))
  (nonce : Option Nonce) (kde : Option Octets) (keyidx : ℕ) (encr : Bool)

def Sends (sm : Sta) (out : List Out) : Prop :=
  out = [] ∨ ∃ iv keyData,
    sendKeyData cr (sendVersion sm) sm.ptk.kek iv encr kde = some keyData ∧
    out = transmitOut cr (sendVersion sm) (buildEapolKey ap sm keyInfo rsc nonce keyidx encr
      (lastReplayCounter sm) iv keyData) sm

theorem fillAndTransmit_cases (c : Ctx) :
    ∃ grp tick out, fillAndTransmit cr env ap keyInfo rsc nonce kde keyidx encr c =
        ⟨c.sm, grp, tick, c.out ++ out⟩ ∧
      (grp = c.grp ∨ grp = c.grp.incCounter) ∧
      Sends cr ap keyInfo rsc nonce kde keyidx encr c.sm out := by
  rw [fillAndTransmit]
  by_cases hwraps : (encr && kde.isSome) = true
  · rw [hwraps]
    simp only [Bool.not_true, Bool.false_or, Bool.true_and, if_true]
    by_cases halloc : env.alloc c.tick = true
    · rw [halloc]
      simp only [Bool.not_true, Bool.false_eq_true, if_false]
      cases hdata : sendKeyData cr (sendVersion c.sm) c.ask.sm.ptk.kek
          (sendKeyIv (sendVersion c.sm) encr kde c.ask.grp) encr kde with
      | none => exact ⟨c.grp, c.tick + 1, [], by simp [Ctx.ask], .inl rfl, .inl rfl⟩
      | some keyData =>
        simp only []
        split
        · rw [transmit_eq]
          exact ⟨_, _, _, rfl, .inr rfl, .inr ⟨_, _, hdata, rfl⟩⟩
        · rw [transmit_eq]
          exact ⟨_, _, _, rfl, .inl rfl, .inr ⟨_, _, hdata, rfl⟩⟩
    · rw [Bool.not_eq_true] at halloc
      rw [halloc]
      exact ⟨c.grp, c.tick + 1, [], by simp [Ctx.ask], .inl rfl, .inl rfl⟩
  · rw [Bool.not_eq_true] at hwraps
    rw [hwraps]
    simp only [Bool.not_false, Bool.true_or, Bool.not_true, Bool.false_eq_true, if_false,
      Bool.false_and]
    cases hdata : sendKeyData cr (sendVersion c.sm) c.sm.ptk.kek
        (sendKeyIv (sendVersion c.sm) encr kde c.grp) encr kde with
    | none => exact ⟨c.grp, c.tick, [], by simp, .inl rfl, .inl rfl⟩
    | some keyData =>
      simp only []
      rw [transmit_eq]
      exact ⟨_, _, _, rfl, .inl rfl, .inr ⟨_, _, hdata, rfl⟩⟩

def Sta.numbered (sm : Sta) : Sta := { sm with keyReplay := push (incField 8) sm.keyReplay }

-- Everything `__wpa_send_eapol` can do. Without memory for the frame it does nothing.
theorem wpaSendEapolRaw_cases (c : Ctx) :
    (env.alloc c.tick = false ∧
      wpaSendEapolRaw cr env ap keyInfo rsc nonce kde keyidx encr c = c.ask) ∨
    (env.alloc c.tick = true ∧ ∃ grp tick out,
      wpaSendEapolRaw cr env ap keyInfo rsc nonce kde keyidx encr c =
        ⟨c.sm.numbered, grp, tick, c.out ++ out⟩ ∧
      (grp = c.grp ∨ grp = c.grp.incCounter) ∧
      Sends cr ap keyInfo rsc nonce kde keyidx encr c.sm.numbered out) := by
  rw [wpaSendEapolRaw]
  by_cases halloc : env.alloc c.tick = true
  · rw [halloc]
    exact .inr ⟨rfl, fillAndTransmit_cases cr env ap keyInfo rsc nonce kde keyidx encr
      (nextReplayCounter c.ask)⟩
  · rw [Bool.not_eq_true] at halloc
    rw [halloc]
    exact .inl ⟨rfl, rfl⟩

end

def sentFrames (out : List Out) : List EapolKey :=
  out.filterMap fun
    | .sendEapol _ f _ => some f
    | _ => none

theorem sentFrames_of_sends {cr : Crypto} {ap : Ap} {keyInfo : KeyInfo}
    {rsc : Option (BitVec 64)} {nonce : Option Nonce} {kde : Option Octets} {keyidx : ℕ}
    {encr : Bool} {sm : Sta} {out : List Out}
    (h : Sends cr ap keyInfo rsc nonce kde keyidx encr sm out) :
    (sentFrames out).map EapolKey.replayCounter = [] ∨
      (sentFrames out).map EapolKey.replayCounter = [lastReplayCounter sm] := by
  obtain rfl | ⟨iv, keyData, -, rfl⟩ := h
  · exact .inl rfl
  rw [transmitOut]
  split
  · split
    · exact .inr rfl
    · exact .inl rfl
  · exact .inr rfl

end WpaSupplicant.Authenticator

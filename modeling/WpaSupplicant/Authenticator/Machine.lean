import WpaSupplicant.Authenticator.Send

namespace WpaSupplicant.Authenticator

open Lib.Octets KeyData

def wpaAuthSetEapol (var : EapolVariable) (value : Bool) (c : Ctx) : Ctx :=
  c.emit (.setEapol c.sm.addr var value)

-- `wpa_auth_set_key` for the station itself
def wpaAuthSetKey (alg : WpaAlg) (key : Octets) (c : Ctx) : Ctx :=
  c.ask.emit (.setKey 0 alg c.sm.addr 0 key)

-- `wpa_sta_disconnect`. The callback only schedules the disconnection: it does not come back
-- into the state machine before the event loop runs again.
def wpaStaDisconnect (c : Ctx) : Ctx := c.emit (.disconnect c.sm.addr)

def wpaRequestNewPtk (sm : Sta) : Sta := { sm with ptkRequest := true, ptkValid := false }

def wpaRemovePtk (c : Ctx) : Ctx :=
  let c := { c with sm := { c.sm with ptkValid := false, ptk := .zero } }
  let c := wpaAuthSetKey .none [] c
  { c with sm := { c.sm with pairwiseSet := false, rekeyTimer := false } }

section GroupKeys

variable (cr : Crypto) (env : Env) (ap : Ap)

-- `wpa_gmk_to_gtk` into a buffer of `len` octets; a failure to get random data is not noticed
-- by any caller.
def wpaGmkToGtk (gmk : Octets) (label : String) (gnonce : Nonce) (tick len : ℕ) : Octets :=
  fit len (cr.sha256Prf gmk label (putBE 6 ap.addr ++ putBE 32 gnonce ++ env.ntpTimestamp tick ++
    (env.randomGetBytes tick).getD []) len)

def wpaGtkUpdate (c : Ctx) : Ctx :=
  let g := { c.grp with gnonce := c.grp.counter }.incCounter
  let gtk := wpaGmkToGtk cr env ap g.gmk "Group key expansion" g.gnonce c.tick g.gtkLen
  let c := { c.ask with grp := { g with gtk := Function.update g.gtk g.gn gtk } }
  if ap.conf.ieee80211w = .noMgmtFrameProtection then c
  else
    let g := { c.grp with gnonce := c.grp.counter }.incCounter
    let igtk := wpaGmkToGtk cr env ap g.gmk "IGTK key expansion" g.gnonce c.tick 16
    { c.ask with grp := { g with igtk := Function.update g.igtk g.gnIgtk igtk } }

-- `wpa_group_config_group_keys`; no caller looks at the result.
def wpaGroupConfigGroupKeys (c : Ctx) : Ctx :=
  let c := c.ask.emit (.setKey c.grp.vlanId (wpaAlgEnum ap.conf.wpaGroup) broadcastEtherAddr
    c.grp.gn.gtkIndex (c.grp.gtk c.grp.gn))
  if ap.conf.ieee80211w = .noMgmtFrameProtection then c
  else
    c.ask.emit (.setKey c.grp.vlanId .igtk broadcastEtherAddr c.grp.gnIgtk.igtkIndex
      (c.grp.igtk c.grp.gnIgtk))

-- `wpa_group_init_gmk_and_counter`; the flag is success. The Counter is set only if both
-- requests for random data are answered.
def wpaGroupInitGmkAndCounter (c : Ctx) : Ctx × Bool :=
  match env.randomGetBytes c.tick with
  | none => (c.ask, false)
  | some gmk =>
    let c := { c.ask with grp := { c.grp with gmk := fit 32 gmk } }
    match env.randomGetBytes c.tick with
    | none => (c.ask, false)
    | some rkey =>
      let counter := getBE 256 (cr.sha1Prf (fit 32 rkey) "Init Counter"
        (putBE 6 ap.addr ++ env.ntpTimestamp c.tick) 32)
      ({ c.ask with grp := { c.grp with counter := counter, epoch := c.grp.epoch + 1 } }, true)

def wpaGroupFirstStation (c : Ctx) : Ctx :=
  let ready := env.randomPoolReady c.tick
  let c := c.ask
  let c := if ready then c else { c with grp := { c.grp with reject4wayHsForEntropy := true } }
  let c := (wpaGroupInitGmkAndCounter cr env ap c).1
  wpaGroupConfigGroupKeys ap (wpaGtkUpdate cr env ap c)

end GroupKeys

section PtkStates

variable (cr : Crypto) (env : Env) (ap : Ap)

-- `SM_ENTRY_MA`: `SM_ENTER` is never global, so that every entry counts as a change.
def enterPtk (st : PtkState) (c : Ctx) : Ctx :=
  { c with sm := { c.sm with ptkState := st, changed := true } }

def clearGUpdate (c : Ctx) : Ctx :=
  let grp := if c.sm.gUpdateStationKeys then
      { c.grp with gKeyDoneStations := c.grp.gKeyDoneStations - 1 }
    else c.grp
  { c with sm := { c.sm with gUpdateStationKeys := false }, grp := grp }

def ptkInitialize (c : Ctx) : Ctx :=
  let c := enterPtk .ptkInitialize c
  let c := { c with sm := { c.sm with changed := !c.sm.init } }
  let c := clearGUpdate c
  let c := { c with sm := { c.sm with
    pInitAKeys := c.sm.pInitAKeys && c.sm.wpa ≠ some .wpa, pair := true } }
  let c := wpaAuthSetEapol .portEnabled false c
  let c := wpaRemovePtk c
  let c := wpaAuthSetEapol .portValid false c
  let c := { c with sm := { c.sm with timeoutCtr := 0 } }
  if c.sm.wpaKeyMgmt.wpaPsk then wpaAuthSetEapol .authorized false c else c

def ptkDisconnect (c : Ctx) : Ctx :=
  let c := enterPtk .disconnect c
  wpaStaDisconnect { c with sm := { c.sm with disconnect := false } }

def ptkDisconnected (c : Ctx) : Ctx :=
  let c := enterPtk .disconnected c
  { c with sm := { c.sm with deauthenticationRequest := false } }

def ptkAuthentication (c : Ctx) : Ctx :=
  let c := enterPtk .authentication c
  let c := { c with sm := { c.sm with ptk := .zero, ptkValid := false } }
  let c := wpaAuthSetEapol .portEnabled true (wpaAuthSetEapol .portControlAuto true c)
  { c with sm := { c.sm with authenticationRequest := false } }

def ptkAuthentication2 (c : Ctx) : Ctx :=
  let c := enterPtk .authentication2 c
  let c :=
    if c.grp.firstStaSeen then c
    else
      let c := wpaGroupFirstStation cr env ap c
      { c with grp := { c.grp with firstStaSeen := true } }
  { c with
    sm := { c.sm with
      anonce := c.grp.counter
      anonceOrigin := some ⟨c.sm.group, c.grp.epoch⟩
      anonceUsed := false
      reAuthenticationRequest := false
      timeoutCtr := 0 }
    grp := c.grp.incCounter }

def ptkInitpmk (c : Ctx) : Ctx :=
  let c := enterPtk .initpmk c
  let c :=
    match c.sm.pmksa with
    | some e => { c with sm := { c.sm with pmk := e.pmk } }
    | none =>
      match env.getMsk c.tick c.sm.addr with
      | some msk => { c.ask with sm := { c.sm with pmk := msk.take 32 } }
      | none => c.ask
  let c := { c with sm := { c.sm with reqReplayCounterUsed := false } }
  wpaAuthSetEapol .keyRun false c

def ptkInitpsk (c : Ctx) : Ctx :=
  let c := enterPtk .initpsk c
  let c :=
    match env.getPsk c.tick c.sm.addr with
    | psk :: _ => { c.ask with sm := { c.sm with pmk := psk } }
    | [] => c.ask
  { c with sm := { c.sm with reqReplayCounterUsed := false } }

def msg1Kde (sm : Sta) : Option Octets :=
  if sm.wpa = some .rsn ∧ sm.wpaKeyMgmt.wpaIeee8021x then
    let pmkid :=
      match sm.pmksa with
      | some e => fit 16 e.pmkid
      | none => putBE 16 (cr.rsnPmkid sm.pmk ap.addr sm.addr sm.wpaKeyMgmt.sha256)
    some ([eidVendorSpecific, 20] ++ rsnKeyDataPmkid ++ pmkid)
  else none

def ptkPtkstart (c : Ctx) : Ctx :=
  let c := enterPtk .ptkstart c
  let c := { c with sm := { c.sm with
    ptkRequest := false, timeoutEvt := false, timeoutCtr := c.sm.timeoutCtr + 1 } }
  if pairwiseUpdateCount < c.sm.timeoutCtr then c
  else
    wpaSendEapol cr env ap (KeyInfo.ackBit ||| KeyInfo.keyTypeBit) none (some c.sm.anonce)
      (msg1Kde cr ap c.sm) 0 false c

-- The inputs of `wpa_derive_ptk` on the Authenticator side
def ptkInput (sm : Sta) (pmk : Octets) : PtkInput where
  pmk := pmk
  data := Crypto.ptkData ap.addr sm.addr sm.anonce sm.snonce
  ptkLen := if sm.pairwise = some .ccmp then 48 else 64
  sha256 := sm.wpaKeyMgmt.sha256

def wpaDerivePtk (sm : Sta) (pmk : Octets) : Ptk :=
  let ptkLen := if sm.pairwise = some .ccmp then 48 else 64
  Ptk.write .zero (cr.wpaPmkToPtk pmk "Pairwise key expansion" ap.addr sm.addr sm.anonce sm.snonce
    ptkLen sm.wpaKeyMgmt.sha256) ptkLen

-- The keys PTKCALCNEGOTIATING tries in turn: every PSK of the station, or the one PMK
def pmkCandidates (tick : ℕ) (sm : Sta) : List Octets :=
  if sm.wpaKeyMgmt.wpaPsk then env.getPsk tick sm.addr else [sm.pmk]

def ptkPtkcalcnegotiating (c : Ctx) : Ctx :=
  let c := enterPtk .ptkcalcnegotiating c
  let c := { c with sm := { c.sm with eapolKeyReceived := false } }
  let candidates := pmkCandidates env c.tick c.sm
  let c := c.ask
  match c.sm.lastRxEapolKey with
  | none => c
  | some f =>
    match candidates.find? fun pmk => wpaVerifyKeyMic cr (wpaDerivePtk cr ap c.sm pmk) f with
    | none => c
    | some pmk =>
      let c := c.emit (.derivePtk (ptkInput ap c.sm pmk))
      { c with sm := { c.sm with
        pending1of4Timeout := false
        eapolTimer := false
        pmk := pmk
        micVerified := true
        ptk := wpaDerivePtk cr ap c.sm pmk
        ptkValid := true } }

def ptkPtkcalcnegotiating2 (c : Ctx) : Ctx :=
  let c := enterPtk .ptkcalcnegotiating2 c
  { c with sm := { c.sm with timeoutCtr := 0 } }

def ieee80211wKdeAdd (c : Ctx) : Octets × Ctx :=
  if !c.sm.mgmtFrameProt then ([], c)
  else
    let pn :=
      if c.grp.state = .setkeysdone then fit 6 ((env.getSeqnum c.tick).getD []) else fit 6 []
    let c := if c.grp.state = .setkeysdone then c.ask else c
    if ap.conf.disableGtk then
      match env.randomGetBytes c.tick with
      | none => ([], c.ask)
      | some igtk => (igtkKde c.grp.gnIgtk.igtkIndex pn (fit 16 igtk), c.ask)
    else (igtkKde c.grp.gnIgtk.igtkIndex pn (fit 16 (c.grp.igtk c.grp.gnIgtk)), c)

def sentGtk (c : Ctx) : Option Octets × Ctx :=
  if ap.conf.disableGtk then
    ((env.randomGetBytes c.tick).map (fit c.grp.gtkLen), c.ask)
  else (some (fit c.grp.gtkLen (c.grp.gtk c.grp.gn)), c)

def ptkPtkinitnegotiating (c : Ctx) : Ctx :=
  let c := enterPtk .ptkinitnegotiating c
  let c := { c with sm := { c.sm with timeoutEvt := false, timeoutCtr := c.sm.timeoutCtr + 1 } }
  if pairwiseUpdateCount < c.sm.timeoutCtr then c
  else
    let rsc := getBE 64 (fit 8 ((env.getSeqnum c.tick).getD []))
    let c := c.ask
    let ie := AuthIe.msg3WpaIe ap.conf c.sm.wpa ap.wpaIe
    if c.sm.wpa = some .rsn then
      match sentGtk env ap c with
      | (none, c) => c
      | (some gtk, c) =>
        let ok := env.alloc c.tick
        let c := c.ask
        if !ok then c
        else
          let keyidx := c.grp.gn.gtkIndex
          let igtk := ieee80211wKdeAdd env ap c
          wpaSendEapol cr env ap (KeyInfo.secureBit ||| KeyInfo.micBit ||| KeyInfo.ackBit |||
            KeyInfo.installBit ||| KeyInfo.keyTypeBit) (some rsc) (some c.sm.anonce)
            (some (ie ++ gtkKde keyidx gtk ++ igtk.1)) keyidx true igtk.2
    else
      let ok := env.alloc c.tick
      let c := c.ask
      if !ok then c
      else
        let igtk := ieee80211wKdeAdd env ap c
        wpaSendEapol cr env ap (KeyInfo.flag c.sm.rxEapolKeySecure KeyInfo.secureBit |||
          KeyInfo.micBit ||| KeyInfo.ackBit ||| KeyInfo.installBit ||| KeyInfo.keyTypeBit)
          none (some c.sm.anonce) (some (ie ++ igtk.1)) 0 false igtk.2

def ptkPtkinitdoneRest (c : Ctx) : Ctx :=
  let c := wpaAuthSetEapol .portValid true c
  let c := wpaAuthSetEapol .keyAvailable false c
  let c := wpaAuthSetEapol .keyDone true c
  { c with sm := { c.sm with
    pInitAKeys := c.sm.pInitAKeys || c.sm.wpa = some .wpa
    hasGtk := c.sm.hasGtk || c.sm.wpa ≠ some .wpa } }

def ptkPtkinitdone (c : Ctx) : Ctx :=
  let c := enterPtk .ptkinitdone c
  let c := c.emit (.ptkInitDone c.sm.addr c.sm.anonce (c.sm.anonceOrigin.getD ⟨0, 0⟩))
  let c := { c with sm := { c.sm with eapolKeyReceived := false, anonceUsed := true } }
  if c.sm.pair then
    let alg := if c.sm.pairwise = some .tkip then WpaAlg.tkip else WpaAlg.ccmp
    let klen := if c.sm.pairwise = some .tkip then 32 else 16
    let ok := env.setKey c.tick
    let c := wpaAuthSetKey alg (c.sm.ptk.tkOctets klen) c
    if !ok then wpaStaDisconnect c
    else
      let c := { c with sm := { c.sm with
        pairwiseSet := true, rekeyTimer := c.sm.rekeyTimer || ap.conf.wpaPtkRekey } }
      let c := if c.sm.wpaKeyMgmt.wpaPsk then wpaAuthSetEapol .authorized true c else c
      ptkPtkinitdoneRest c
  else ptkPtkinitdoneRest c

-- `SM_STEP(WPA_PTK)`
def ptkStep (c : Ctx) : Ctx :=
  let sm := c.sm
  let keyFrame := sm.eapolKeyReceived && !sm.eapolKeyRequest && sm.eapolKeyPairwise
  if sm.init then ptkInitialize c
  else if sm.disconnect then ptkDisconnect c
  else if sm.deauthenticationRequest then ptkDisconnected c
  else if sm.authenticationRequest then ptkAuthentication c
  else if sm.reAuthenticationRequest then ptkAuthentication2 cr env ap c
  else if sm.ptkRequest then ptkPtkstart cr env ap c
  else
    match sm.ptkState with
    | .ptkInitialize => c
    | .disconnect => ptkDisconnected c
    | .disconnected => ptkInitialize c
    | .authentication => ptkAuthentication2 cr env ap c
    | .authentication2 =>
      if sm.wpaKeyMgmt.wpaIeee8021x then
        if env.keyRun c.tick then ptkInitpmk env c.ask else c.ask
      else if sm.wpaKeyMgmt.wpaPsk then ptkInitpsk env c
      else c
    | .initpmk =>
      if env.keyAvailable c.tick then ptkPtkstart cr env ap c.ask else ptkDisconnect c.ask
    | .initpsk =>
      if env.getPsk c.tick sm.addr ≠ [] then ptkPtkstart cr env ap c.ask else ptkDisconnect c.ask
    | .ptkstart =>
      if keyFrame then ptkPtkcalcnegotiating cr env ap c
      else if pairwiseUpdateCount < sm.timeoutCtr then ptkDisconnect c
      else if sm.timeoutEvt then ptkPtkstart cr env ap c
      else c
    | .ptkcalcnegotiating =>
      if sm.micVerified then ptkPtkcalcnegotiating2 c
      else if keyFrame then ptkPtkcalcnegotiating cr env ap c
      else if sm.timeoutEvt then ptkPtkstart cr env ap c
      else c
    | .ptkcalcnegotiating2 => ptkPtkinitnegotiating cr env ap c
    | .ptkinitnegotiating =>
      if keyFrame && sm.micVerified then ptkPtkinitdone env ap c
      else if pairwiseUpdateCount < sm.timeoutCtr then ptkDisconnect c
      else if sm.timeoutEvt then ptkPtkinitnegotiating cr env ap c
      else c
    | .ptkinitdone => c

end PtkStates

section PtkGroupStates

variable (cr : Crypto) (env : Env) (ap : Ap)

def enterPtkGroup (st : PtkGroupState) (c : Ctx) : Ctx :=
  { c with sm := { c.sm with ptkGroupState := st, changed := true } }

def groupIdle (c : Ctx) : Ctx :=
  let c := enterPtkGroup .idle c
  { c with sm := { c.sm with changed := !c.sm.init, gTimeoutCtr := 0 } }

def groupRekeySend (rsc : BitVec 64) (c : Ctx) : Ctx :=
  match sentGtk env ap c with
  | (none, c) => c
  | (some gtk, c) =>
    let keyInfo := KeyInfo.secureBit ||| KeyInfo.micBit ||| KeyInfo.ackBit |||
      KeyInfo.flag (!c.sm.pair) KeyInfo.installBit
    let keyidx := c.grp.gn.gtkIndex
    if c.sm.wpa = some .rsn then
      let ok := env.alloc c.tick
      let c := c.ask
      if !ok then c
      else
        let igtk := ieee80211wKdeAdd env ap c
        wpaSendEapol cr env ap keyInfo (some rsc) (some c.grp.gnonce)
          (some (gtkKde keyidx gtk ++ igtk.1)) keyidx true igtk.2
    else
      wpaSendEapol cr env ap keyInfo (some rsc) (some c.grp.gnonce) (some gtk) keyidx true c

def groupRekeynegotiating (c : Ctx) : Ctx :=
  let c := enterPtkGroup .rekeynegotiating c
  let c := { c with sm := { c.sm with gTimeoutCtr := c.sm.gTimeoutCtr + 1 } }
  if groupUpdateCount < c.sm.gTimeoutCtr then c
  else
    let c := { c with sm := { c.sm with
      pInitAKeys := c.sm.pInitAKeys && c.sm.wpa ≠ some .wpa, timeoutEvt := false } }
    if c.grp.state = .setkeysdone then
      let rsc := getBE 64 (fit 8 ((env.getSeqnum c.tick).getD []))
      groupRekeySend cr env ap rsc c.ask
    else groupRekeySend cr env ap 0 c

def groupRekeyestablished (c : Ctx) : Ctx :=
  let c := enterPtkGroup .rekeyestablished c
  let c := clearGUpdate { c with sm := { c.sm with eapolKeyReceived := false } }
  { c with sm := { c.sm with gTimeoutCtr := 0, hasGtk := true } }

def groupKeyerror (c : Ctx) : Ctx :=
  let c := clearGUpdate (enterPtkGroup .keyerror c)
  { c with sm := { c.sm with disconnect := true } }

-- `SM_STEP(WPA_PTK_GROUP)`
def ptkGroupStep (c : Ctx) : Ctx :=
  let sm := c.sm
  if sm.init || sm.ptkGroupInit then
    let c := groupIdle c
    { c with sm := { c.sm with ptkGroupInit := false } }
  else
    match sm.ptkGroupState with
    | .idle =>
      if sm.gUpdateStationKeys || (sm.wpa = some .wpa && sm.pInitAKeys) then
        groupRekeynegotiating cr env ap c
      else c
    | .rekeynegotiating =>
      if sm.eapolKeyReceived && !sm.eapolKeyRequest && !sm.eapolKeyPairwise && sm.micVerified then
        groupRekeyestablished c
      else if groupUpdateCount < sm.gTimeoutCtr then groupKeyerror c
      else if sm.timeoutEvt then groupRekeynegotiating cr env ap c
      else c
    | .keyerror => groupIdle c
    | .rekeyestablished => groupIdle c

end PtkGroupStates

end WpaSupplicant.Authenticator

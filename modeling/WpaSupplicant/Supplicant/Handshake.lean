import WpaSupplicant.Lib.Effect
import WpaSupplicant.Supplicant

namespace WpaSupplicant.Supplicant

open Lib.Octets Lib.Effect KeyData

-- The label `failed` at the end of the message handlers
def orDeauthenticate (r : Ctx × Bool) : Ctx :=
  if r.2 then r.1 else r.1.emit .deauthenticate

-- The key data of a frame: `key_data_length` octets behind the fixed part
def keyDataOf (f : EapolKey) : Octets := f.keyData.take f.keyDataLength.toNat

section Pmk

variable (env : Env)

-- How `wpa_supplicant_get_pmk` ends: 0, -1 or -2
inductive GetPmk where
  | ok
  | failed
  | eapolStart
  deriving DecidableEq, Repr

def wpaSmSetPmkFromPmksa (sm : Sm) : Sm :=
  match sm.curPmksa with
  | some e => { sm with pmk := e.pmk }
  | none => { sm with pmk := List.replicate 32 0 }

-- The callback `wpa_sm_pmksa_free_cb` during `pmksa_cache_add`
def pmksaCacheAdd (c : Ctx) : Ctx :=
  match env.pmksaCacheAdd c.tick with
  | .keep => c.ask
  | .replaced => { c.ask with sm := { c.sm with curPmksa := none } }
  | .removed =>
    { c.ask with sm := { c.sm with
      curPmksa := none, pmk := List.replicate c.sm.pmk.length 0 } }.emit .deauthenticate

-- The lookup of a PMKID that comes before any association information; the flag is
-- `abort_cached`.
def findPmksa (pmkid : Option Octets) (c : Ctx) : Ctx × Bool :=
  if pmkid.isSome ∧ c.sm.curPmksa.isNone then
    let e := env.pmksaCacheGet c.tick
    ({ c.ask with sm := { c.sm with curPmksa := e } }, e.isNone)
  else (c, false)

def eapolKey (c : Ctx) : Option Octets :=
  match env.eapolGetKey c.tick 32 with
  | some key => some (key.take 32)
  | none => (env.eapolGetKey c.tick 16).map fun key => key.take 16

-- The PMK from the EAPOL state machine, and what becomes of `abort_cached`; `none` is the
-- return value -1.
def pmkFromEapol (pmkid : Option Octets) (abortCached : Bool) (c : Ctx) : Ctx × Option Bool :=
  match eapolKey env c with
  | some key =>
    let c := { c.ask with sm := { c.sm with pmk := key } }
    let c := if c.sm.conf.proto = .rsn then pmksaCacheAdd env c else c
    if c.sm.curPmksa.isNone ∧ pmkid.isSome then
      let found := (env.pmksaCacheGet c.tick).isSome
      (c.ask, some (abortCached && !found))
    else (c, some abortCached)
  | none =>
    if c.sm.curPmksa.isSome then ({ c.ask with sm := { c.sm with curPmksa := none } }, some true)
    else (c.ask, if abortCached then some true else none)

def wpaSupplicantGetPmk (pmkid : Option Octets) (c : Ctx) : Ctx × GetPmk :=
  let (c, abortCached) := findPmksa env pmkid c
  let matches_ := pmkid.isSome && c.sm.curPmksa.any fun e => pmkid = some e.pmkid
  let (c, abort) :=
    if matches_ then
      ({ c with sm := wpaSmSetPmkFromPmksa c.sm }.emit .notifyCached, some abortCached)
    else if c.sm.conf.keyMgmt.wpaIeee8021x ∧ c.sm.conf.eapol then
      pmkFromEapol env pmkid abortCached c
    else (c, some abortCached)
  match abort with
  | none => (c, .failed)
  | some abort =>
    if abort ∧ c.sm.conf.keyMgmt.wpaIeee8021x then
      let ok := env.alloc c.tick
      let c := c.ask
      if ok then (c.emit (.eapolStart c.sm.bssid), .eapolStart) else (c, .failed)
    else (c, .ok)

end Pmk

section FourWay

variable (cr : Crypto) (env : Env)

-- The inputs of `wpa_derive_ptk` on the Supplicant side
def ptkInput (sm : Sm) (anonce : Nonce) : PtkInput where
  pmk := sm.pmk
  data := Crypto.ptkData sm.conf.ownAddr sm.bssid sm.snonce anonce
  ptkLen := if sm.conf.pairwiseCipher = .ccmp then 48 else 64
  sha256 := sm.conf.keyMgmt.sha256

-- `wpa_derive_ptk`, into the structure that holds `old`
def wpaDerivePtk (sm : Sm) (anonce : Nonce) (old : Ptk) : Ptk :=
  let ptkLen := if sm.conf.pairwiseCipher = .ccmp then 48 else 64
  Ptk.write old (cr.wpaPmkToPtk sm.pmk "Pairwise key expansion" sm.conf.ownAddr sm.bssid sm.snonce
    anonce ptkLen sm.conf.keyMgmt.sha256) ptkLen

def renewSnonce (c : Ctx) : Ctx × Bool :=
  if !c.sm.renewSnonce then (c, true)
  else
    match env.randomGetBytes c.tick with
    | none => (c.ask, false)
    | some r =>
      ({ c.ask with sm := { c.sm with snonce := getBE 256 (r.take 32), renewSnonce := false } },
        true)

def answer1of4 (f : EapolKey) (ver : KeyInfo) (c : Ctx) : Ctx × Bool :=
  andThen (renewSnonce env c) fun c =>
    let c := c.emit (.derivePtk (ptkInput c.sm f.keyNonce))
    let c := { c with sm := { c.sm with
      tptk := (wpaDerivePtk cr c.sm f.keyNonce c.sm.tptk).swapMicKeys, tptkSet := true } }
    andThen (wpaSupplicantSend2of4 cr env c.sm.bssid f ver c.sm.snonce c.sm.conf.assocWpaIe
      c.sm.tptk c) fun c =>
        ({ c with sm := { c.sm with anonce := f.keyNonce } }, true)

def wpaSupplicantProcess1of4 (f : EapolKey) (ver : KeyInfo) (c : Ctx) : Ctx :=
  if !c.sm.conf.networkCtx then c
  else
    let c := c.emit (.setState .fourWayHandshake)
    let pmkid :=
      if c.sm.conf.proto = .rsn then (wpaSupplicantParseIes (keyDataOf f)).2.pmkid else none
    match wpaSupplicantGetPmk env pmkid c with
    | (c, .eapolStart) => c
    | (c, .failed) => c.emit .deauthenticate
    | (c, .ok) => orDeauthenticate (answer1of4 cr env f ver c)

def wpaSupplicantKeyNegComplete (addr : Addr) (secure : Bool) (c : Ctx) : Ctx :=
  let c := c.emit (.setState .completed)
  if secure then
    let c := (c.emit (.setProtection addr true)).emit .portValid
    if c.sm.conf.keyMgmt.wpaPsk then c.emit .eapSuccess else c
  else c

-- `wpa_sm_set_key`; the flag is success.
def wpaSmSetKey (kind : KeyKind) (alg : KeyAlg) (addr : Option Addr) (idx : ℕ) (setTx : Bool)
    (seq key : Octets) (c : Ctx) : Ctx × Bool :=
  (c.ask.emit (.setKey kind alg addr idx setTx seq key), env.setKey c.tick)

def wpaSupplicantInstallPtk (f : EapolKey) (c : Ctx) : Ctx × Bool :=
  let install (alg : WpaAlg) (keylen : ℕ) : Ctx × Bool :=
    let rsc := if c.sm.conf.proto = .rsn then List.replicate 6 0 else (putBE 8 f.keyRsc).take 6
    andThen (wpaSmSetKey env .ptk (.alg alg) (some c.sm.bssid) 0 true rsc
      (c.sm.ptk.tkOctets keylen) c) fun c =>
        ({ c with sm := { c.sm with rekeyTimer := c.sm.rekeyTimer || c.sm.conf.wpaPtkRekey } },
          true)
  match c.sm.conf.pairwiseCipher with
  | .ccmp => install .ccmp 16
  | .tkip => install .tkip 32
  | .none => (c, true)
  | _ => (c, false)

-- `struct wpa_gtk_data`
structure GtkData where
  alg : WpaAlg
  tx : Bool
  keyRscLen : ℕ
  keyidx : ℕ
  gtk : Octets
  deriving DecidableEq, Repr

-- `wpa_supplicant_check_group_cipher`: the algorithm and the length of the receive sequence
-- counter
def wpaSupplicantCheckGroupCipher (groupCipher : Cipher) (keylen maxkeylen : ℕ) :
    Option (WpaAlg × ℕ) :=
  match groupCipher with
  | .ccmp => if keylen ≠ 16 ∨ maxkeylen < 16 then none else some (.ccmp, 6)
  | .tkip => if keylen ≠ 32 ∨ maxkeylen < 32 then none else some (.tkip, 6)
  | .wep104 => if keylen ≠ 13 ∨ maxkeylen < 13 then none else some (.wep, 0)
  | .wep40 => if keylen ≠ 5 ∨ maxkeylen < 5 then none else some (.wep, 0)
  | _ => none

def wpaSupplicantInstallGtk (gd : GtkData) (keyRsc : BitVec 64) (c : Ctx) : Ctx × Bool :=
  let rsc := (putBE 8 keyRsc).take gd.keyRscLen
  let gtk :=
    if c.sm.conf.groupCipher = .tkip then
      gd.gtk.take 16 ++ (gd.gtk.drop 24).take 8 ++ (gd.gtk.drop 16).take 8
    else gd.gtk
  if c.sm.conf.pairwiseCipher = .none then
    wpaSmSetKey env .gtk (.alg gd.alg) none gd.keyidx true rsc gtk c
  else wpaSmSetKey env .gtk (.alg gd.alg) (some broadcastEtherAddr) gd.keyidx gd.tx rsc gtk c

def wpaSupplicantGtkTxBitWorkaround (sm : Sm) (tx : Bool) : Bool :=
  tx && sm.conf.pairwiseCipher = .none

def gtkKeyidx (gtk : Octets) : ℕ := (gtk.getD 0 0).toNat % 4
def gtkTx (gtk : Octets) : Bool := (gtk.getD 0 0).toNat / 4 % 2 = 1

def wpaSupplicantPairwiseGtk (f : EapolKey) (gtk : Octets) (c : Ctx) : Ctx × Bool :=
  if gtk.length < 2 ∨ 32 < gtk.length - 2 then (c, false)
  else
    match wpaSupplicantCheckGroupCipher c.sm.conf.groupCipher (gtk.length - 2) (gtk.length - 2) with
    | none => (c, false)
    | some (alg, rscLen) =>
      andThen (wpaSupplicantInstallGtk env ⟨alg, wpaSupplicantGtkTxBitWorkaround c.sm (gtkTx gtk),
        rscLen, gtkKeyidx gtk, gtk.drop 2⟩ f.keyRsc c) fun c =>
          (wpaSupplicantKeyNegComplete c.sm.bssid f.keyInfo.secure c, true)

def ieee80211wSetKeys (ie : EapolIeParse) (c : Ctx) : Ctx × Bool :=
  if c.sm.conf.mgmtGroupCipher ≠ some .aes128Cmac then (c, true)
  else
    match ie.igtk with
    | none => (c, true)
    | some igtk =>
      let keyidx := (igtk.getD 0 0).toNat + 256 * (igtk.getD 1 0).toNat
      if igtk.length ≠ 24 ∨ 4095 < keyidx then (c, false)
      else
        wpaSmSetKey env .igtk (.alg .igtk) (some broadcastEtherAddr) keyidx false
          ((igtk.drop 2).take 6) ((igtk.drop 8).take 16) c

-- `wpa_supplicant_validate_ie`, without the elements of fast BSS transition
def wpaSupplicantValidateIe (ie : EapolIeParse) (c : Ctx) : Ctx × Bool :=
  let c :=
    if c.sm.conf.apWpaIe.isNone ∧ c.sm.conf.apRsnIe.isNone then
      match env.getBeaconIe c.tick with
      | none => c.ask
      | some (wpaIe, rsnIe) =>
        { c.ask with sm := { c.sm with conf := { c.sm.conf with
          apWpaIe := wpaIe, apRsnIe := rsnIe } } }
    else c
  let conf := c.sm.conf
  if ie.wpaIe.isNone ∧ ie.rsnIe.isNone ∧ (conf.apWpaIe.isSome ∨ conf.apRsnIe.isSome) then
    (c.emit .disassociate, false)
  else if (ie.wpaIe.isSome ∧ conf.apWpaIe.isSome ∧ ie.wpaIe ≠ conf.apWpaIe) ∨
      (ie.rsnIe.isSome ∧ conf.apRsnIe.isSome ∧ ie.rsnIe ≠ conf.apRsnIe) then
    (c.emit .disassociate, false)
  else if conf.proto = .wpa ∧ ie.rsnIe.isSome ∧ conf.apRsnIe.isNone ∧ conf.rsnEnabled then
    (c.emit .disassociate, false)
  else (c, true)

def keyData3of4Ok (f : EapolKey) (ie : EapolIeParse) : Bool :=
  !(ie.gtk.isSome && !f.keyInfo.encrKeyData) &&
  !(ie.igtk.isSome && !f.keyInfo.encrKeyData) &&
  (match ie.igtk with
    | none => true
    | some igtk => igtk.length = 24)

def keyLength3of4Ok (sm : Sm) (f : EapolKey) : Bool :=
  match sm.conf.pairwiseCipher with
  | .ccmp => f.keyLength = 16
  | .tkip => f.keyLength = 32
  | _ => true

def install3of4 (f : EapolKey) (ie : EapolIeParse) (c : Ctx) : Ctx × Bool :=
  -- the SNonce has been used, so that the next handshake takes a fresh one
  let c := { c with sm := { c.sm with renewSnonce := true } }
  andThen (if f.keyInfo.install then wpaSupplicantInstallPtk env f c else (c, true)) fun c =>
    let c :=
      if f.keyInfo.secure then (c.emit (.setProtection c.sm.bssid false)).emit .portValid else c
    let c := c.emit (.setState .groupHandshake)
    andThen (match ie.gtk with
      | none => (c, true)
      | some gtk => wpaSupplicantPairwiseGtk env f gtk c) fun c =>
        andThen (ieee80211wSetKeys env ie c) fun c =>
          (c.emit (.setRekeyOffload c.sm.ptk.kek c.sm.ptk.kck c.sm.rxReplayCounter), true)

def wpaSupplicantProcess3of4 (f : EapolKey) (ver : KeyInfo) (c : Ctx) : Ctx :=
  let c := c.emit (.setState .fourWayHandshake)
  let ie := (wpaSupplicantParseIes (keyDataOf f)).2
  orDeauthenticate <|
    andThen (c, keyData3of4Ok f ie) fun c =>
    andThen (wpaSupplicantValidateIe env ie c) fun c =>
    andThen (c, c.sm.anonce = f.keyNonce) fun c =>
    andThen (c, keyLength3of4Ok c.sm f) fun c =>
    andThen (wpaSupplicantSend4of4 cr env c.sm.bssid f ver c.sm.ptk c) fun c =>
    install3of4 env f ie c

end FourWay

section Group

variable (cr : Crypto) (env : Env)

-- `wpa_supplicant_process_1_of_2_rsn`; an IGTK that can not be set is only logged.
def wpaSupplicantProcess1of2Rsn (f : EapolKey) (c : Ctx) : Ctx × Option GtkData :=
  let ie := (wpaSupplicantParseIes (keyDataOf f)).2
  match ie.gtk with
  | none => (c, none)
  | some gtk =>
    if !f.keyInfo.encrKeyData then (c, none)
    else
      match wpaSupplicantCheckGroupCipher c.sm.conf.groupCipher (gtk.length - 2)
          (gtk.length - 2) with
      | none => (c, none)
      | some (alg, rscLen) =>
        if 32 < gtk.length - 2 then (c, none)
        else
          let gd : GtkData := ⟨alg, wpaSupplicantGtkTxBitWorkaround c.sm (gtkTx gtk), rscLen,
            gtkKeyidx gtk, gtk.drop 2⟩
          ((ieee80211wSetKeys env ie c).1, some gd)

-- `WPA_KEY_INFO_TXRX`: the bit that is INSTALL in a pairwise frame
def txrx (k : KeyInfo) : Bool := k.install

-- `wpa_supplicant_process_1_of_2_wpa`: the whole key data is the encrypted GTK.
def wpaSupplicantProcess1of2Wpa (f : EapolKey) (ver : KeyInfo) (c : Ctx) :
    Ctx × Option GtkData :=
  let data := keyDataOf f
  let gtkLen := f.keyLength.toNat
  let aes := ver = KeyInfo.typeHmacSha1Aes
  if aes ∧ data.length < 8 then (c, none)
  else
    let maxkeylen := if aes then data.length - 8 else data.length
    match wpaSupplicantCheckGroupCipher c.sm.conf.groupCipher gtkLen maxkeylen with
    | none => (c, none)
    | some (alg, rscLen) =>
      let gd (gtk : Octets) : GtkData :=
        ⟨alg, wpaSupplicantGtkTxBitWorkaround c.sm (txrx f.keyInfo), rscLen,
          f.keyInfo.keyIndex.toNat, (gtk ++ List.replicate 32 0).take gtkLen⟩
      if ver = KeyInfo.typeHmacMd5Rc4 then
        if 32 < data.length then (c, none)
        else
          (c.emit (.useKek c.sm.ptk.kek),
            some (gd (cr.rc4Skip (putBE 16 f.keyIv ++ putBE 16 c.sm.ptk.kek) 256 data)))
      else if aes then
        if data.length % 8 ≠ 0 ∨ 32 < maxkeylen then (c, none)
        else (c.emit (.useKek c.sm.ptk.kek), (cr.aesUnwrap c.sm.ptk.kek data).map gd)
      else (c, none)

def wpaSupplicantProcess1of2 (f : EapolKey) (ver : KeyInfo) (c : Ctx) : Ctx :=
  let rekey := env.stateCompleted c.tick
  let c := c.ask
  let (c, gd) :=
    if c.sm.conf.proto = .rsn then wpaSupplicantProcess1of2Rsn env f c
    else wpaSupplicantProcess1of2Wpa cr f ver c
  let c := c.emit (.setState .groupHandshake)
  match gd with
  | none => c.emit .deauthenticate
  | some gd =>
    orDeauthenticate <|
      andThen (wpaSupplicantInstallGtk env gd f.keyRsc c) fun c =>
      andThen (wpaSupplicantSend2of2 cr env f ver c) fun c =>
        if rekey then
          let c := c.emit (.setState .completed)
          (c.emit (.setRekeyOffload c.sm.ptk.kek c.sm.ptk.kck c.sm.rxReplayCounter), true)
        else (wpaSupplicantKeyNegComplete c.sm.bssid f.keyInfo.secure c, true)

end Group

end WpaSupplicant.Supplicant

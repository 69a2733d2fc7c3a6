import WpaSupplicant.Authenticator.Receive

namespace WpaSupplicant.Authenticator

open Lib.Octets Lib.Window KeyData

-- `wpa_event`. Without fast BSS transition `WPA_ASSOC_FT` does what `WPA_ASSOC` does.
inductive WpaEvent where
  | auth
  | assoc
  | deauth
  | disassoc
  | reauth
  | reauthEapol
  deriving DecidableEq, Repr

-- What `wpa_validate_wpa_ie` leaves in the station machine after an association request. The
-- model takes any values.
structure AssocRequest where
  wpaIe : Octets
  wpa : Proto
  pairwise : Cipher
  wpaKeyMgmt : KeyMgmt
  mgmtFrameProt : Bool
  pmksa : Option PmksaEntry
  deriving DecidableEq, Repr

-- What `ieee802_1x_new_station` may do to the station machine: bind it to the VLAN of a cached
-- PMKSA, or report a reauthentication.
inductive NewStation where
  | bindVlan (vlanId : ℕ)
  | reauthEapol
  deriving DecidableEq, Repr

-- How `hostapd_new_assoc_sta` ends
inductive NewAssoc where
  | associated
  | reassociated
  | rejected
  deriving DecidableEq, Repr

inductive Event where
  | receive (i : ℕ) (data : Octets)
  | sendEapolTimeout (i : ℕ)
  | rekeyPtk (i : ℕ)
  | rekeyGtk
  | rekeyGmk
  | gtkRekey
  | callStep (i : ℕ)
  | smEvent (i : ℕ) (event : WpaEvent)
  | assocCb (i : ℕ) (between : List NewStation) (last : NewAssoc)
  | deletekeys (i : ℕ)
  | validateIe (i : ℕ) (req : AssocRequest)
  | noWpa (i : ℕ)
  | pmksaClear (i : ℕ)
  | staInit (i : ℕ) (addr : Addr) (pos : ℕ)
  | staDeinit (i : ℕ)
  | staSetVlan (i : ℕ) (vlanId : ℕ)
  deriving DecidableEq, Repr

section Groups

variable (cr : Crypto) (env : Env)

-- `wpa_group_init` with both first steps of the group machine; `none` if there is no memory or
-- no randomness. `wpa_init` leaves the two steps to `wpa_init_keys`, and no station exists yet.
def wpaGroupInit (ap : Ap) (vlanId tick : ℕ) (out : List Out) : Option Ctx :=
  let c : Ctx := ⟨{ group := 0, addr := 0 },
    { vlanId := vlanId, gtkLen := wpaGroupSetKeyLen ap.conf.wpaGroup }, tick, out⟩
  if !env.alloc c.tick then none
  else
    match wpaGroupInitGmkAndCounter cr env ap c.ask with
    | (_, false) => none
    | (c, true) =>
      let c := wpaGroupGtkInit cr env ap { c with grp := { c.grp with gInit := true } }
      some (wpaGroupSetkeysdone ap { c with grp := { c.grp with gInit := false } })

-- `wpa_init` and `wpa_init_keys`
def wpaInit (conf : WpaAuthConfig) (addr : Addr) : Option Auth := do
  let wpaIe ← AuthIe.wpaAuthGenWpaIe conf
  let ap : Ap := ⟨conf, addr, wpaIe⟩
  let c ← wpaGroupInit cr env ap 0 0 []
  some {
    ap := ap
    groupIds := [0]
    group := fun _ => c.grp
    staIds := []
    sta := fun _ => none
    tick := c.tick
    out := c.out }

-- `wpa_auth_add_group`: the new group stands right behind the first one.
def wpaAuthAddGroup (W : Auth) (vlanId : ℕ) : Option (Auth × ℕ) :=
  match wpaGroupInit cr env W.ap vlanId W.tick W.out with
  | none => none
  | some c =>
    let g := W.groupIds.length
    some ({ W with
      groupIds := 0 :: g :: W.groupIds.tail
      group := Function.update W.group g c.grp
      tick := c.tick
      out := c.out }, g)

def findGroup (W : Auth) (vlanId : ℕ) : Option ℕ :=
  W.groupIds.find? fun g => (W.group g).vlanId = vlanId

-- `wpa_auth_sta_set_vlan`: the station points to the other group, and neither group's count of
-- stations follows it.
def wpaAuthStaSetVlan (W : Auth) (i vlanId : ℕ) : Auth :=
  match findGroup W vlanId with
  | some g => W.modSta i fun sm => { sm with group := g }
  | none =>
    match wpaAuthAddGroup cr env W vlanId with
    | none => W
    | some (W, g) => W.modSta i fun sm => { sm with group := g }

end Groups

section Events

variable (cr : Crypto) (env : Env) (fuel : ℕ)

def startSta (W : Auth) (i : ℕ) : Option Auth := do
  let W := W.modSta i fun sm => { sm with started := true, init := true }
  let W ← wpaSmStep cr env fuel W i
  some (W.modSta i fun sm => { sm with init := false, authenticationRequest := true })

def reauthenticate (c : Ctx) : Ctx :=
  let c :=
    if c.sm.gUpdateStationKeys then
      let c := clearGUpdate c
      { c with sm := { c.sm with ptkGroupInit := true } }
    else c
  { c with sm := { c.sm with reAuthenticationRequest := true } }

def smEventReauth (W : Auth) (i : ℕ) : Option Auth :=
  match W.sta i with
  | none => some W
  | some sm =>
    if !sm.started then startSta cr env fuel W i else some (W.withSta i reauthenticate)

-- The switch of `wpa_auth_sm_event`
def smEventRequest (W : Auth) (i : ℕ) (event : WpaEvent) : Option Auth :=
  match event with
  | .auth | .assoc => some W
  | .deauth | .disassoc => some (W.modSta i fun sm => { sm with deauthenticationRequest := true })
  | .reauth | .reauthEapol => smEventReauth cr env fuel W i

-- The removal of the PTK in `wpa_auth_sm_event`
def smEventRemove (event : WpaEvent) (c : Ctx) : Ctx :=
  if c.sm.mgmtFrameProt && event = .auth then c
  else
    let c := { c with sm := { c.sm with ptkValid := false, ptk := .zero } }
    if event = .reauthEapol then c else wpaRemovePtk c

def wpaAuthSmEvent (W : Auth) (i : ℕ) (event : WpaEvent) : Option Auth := do
  let W ← smEventRequest cr env fuel W i event
  wpaSmStep cr env fuel (W.withSta i (smEventRemove event)) i

def wpaAuthStaAssociated (W : Auth) (i : ℕ) : Option Auth :=
  match W.sta i with
  | none => some W
  | some sm =>
    if W.ap.conf.protos = [] then some W
    else if sm.started then
      wpaSmStep cr env fuel (W.modSta i fun sm => { sm with
        keyReplay := List.replicate 4 ⟨0, false⟩, reAuthenticationRequest := true }) i
    else do
      let W ← startSta cr env fuel W i
      wpaSmStep cr env fuel W i

-- One thing `ieee802_1x_new_station` does
def newStation (i : ℕ) (W : Auth) : NewStation → Option Auth
  | .bindVlan vlanId => some (wpaAuthStaSetVlan cr env W i vlanId)
  | .reauthEapol => wpaAuthSmEvent cr env fuel W i .reauthEapol

-- The calls `handle_assoc_cb` makes for a station that has been associated: the event
-- `WPA_ASSOC`, and then `hostapd_new_assoc_sta`
def handleAssocCb (W : Auth) (i : ℕ) (between : List NewStation) (last : NewAssoc) :
    Option Auth := do
  let W ← wpaAuthSmEvent cr env fuel W i .assoc
  let W ← between.foldlM (newStation cr env fuel i) W
  match last with
  | .associated => wpaAuthStaAssociated cr env fuel W i
  | .reassociated => wpaAuthSmEvent cr env fuel W i .reauth
  | .rejected => some W

def wpaSendEapolTimeout (W : Auth) (i : ℕ) : Option Auth :=
  wpaSmStep cr env fuel (W.modSta i fun sm => { sm with
    eapolTimer := false, pending1of4Timeout := false, timeoutEvt := true }) i

def wpaRekeyPtk (W : Auth) (i : ℕ) : Option Auth :=
  wpaSmStep cr env fuel
    (W.modSta i fun sm => wpaRequestNewPtk { sm with rekeyTimer := false }) i

def wpaRekeyGmk (W : Auth) : Auth :=
  match env.randomGetBytes W.tick with
  | none => { W with tick := W.tick + 1 }
  | some gmk => { W with tick := W.tick + 1 }.modGroup 0 fun g => { g with gmk := fit 32 gmk }

def applyAssocRequest (req : AssocRequest) (sm : Sta) : Sta :=
  { sm with
    wpaIe := some req.wpaIe
    wpa := some req.wpa
    pairwise := some req.pairwise
    wpaKeyMgmt := req.wpaKeyMgmt
    mgmtFrameProt := req.mgmtFrameProt
    pmksa := req.pmksa }

-- `wpa_auth_sta_init`; `pos` is the place of the station in the order of `for_each_sta`.
def wpaAuthStaInit (W : Auth) (i : ℕ) (addr : Addr) (pos : ℕ) : Auth :=
  if (W.sta i).isSome then W
  else
    { W with
      staIds := W.staIds.take pos ++ i :: W.staIds.drop pos
      sta := Function.update W.sta i (some { group := 0, addr := addr }) }

def wpaAuthStaDeinit (W : Auth) (i : ℕ) : Auth :=
  let W := W.withSta i clearGUpdate
  { W with staIds := W.staIds.filter (· ≠ i), sta := Function.update W.sta i none }

def armed (W : Auth) : Event → Bool
  | .sendEapolTimeout i => (W.sta i).any Sta.eapolTimer
  | .rekeyPtk i => (W.sta i).any Sta.rekeyTimer
  | _ => true

def run (W : Auth) : Event → Option Auth
  | .receive i data => wpaReceive cr env fuel W i data
  | .sendEapolTimeout i => wpaSendEapolTimeout cr env fuel W i
  | .rekeyPtk i => wpaRekeyPtk cr env fuel W i
  | .rekeyGtk => wpaRekeyGtk cr env fuel W
  | .rekeyGmk => some (wpaRekeyGmk env W)
  | .gtkRekey => some (wpaGtkRekey cr env W)
  | .callStep i => wpaSmStep cr env fuel W i
  | .smEvent i event => wpaAuthSmEvent cr env fuel W i event
  | .assocCb i between last => handleAssocCb cr env fuel W i between last
  | .deletekeys i => some (W.withSta i wpaRemovePtk)
  | .validateIe i req => some (W.modSta i (applyAssocRequest req))
  | .noWpa i => some (W.modSta i fun sm => { sm with wpaKeyMgmt := .unset })
  | .pmksaClear i => some (W.modSta i fun sm => { sm with pmksa := none })
  | .staInit i addr pos => some (wpaAuthStaInit W i addr pos)
  | .staDeinit i => some (wpaAuthStaDeinit W i)
  | .staSetVlan i vlanId => some (wpaAuthStaSetVlan cr env W i vlanId)

def Auth.start (W : Auth) : Auth := { W with out := [] }

def exec (W : Auth) (e : Event) : Option Auth :=
  if armed W e then run cr env fuel W.start e else none

end Events

def Step (cr : Crypto) (W : Auth) (e : Event) (W' : Auth) : Prop :=
  ∃ env fuel, exec cr env fuel W e = some W'

-- The states after `wpa_init`
def Initial (cr : Crypto) (W : Auth) : Prop := ∃ env conf addr, wpaInit cr env conf addr = some W

-- A run: the events so far, each with the state before and after it, newest first
inductive Run (cr : Crypto) : List (Auth × Event × Auth) → Auth → Prop where
  | init {W : Auth} (h : Initial cr W) : Run cr [] W
  | step {tr : List (Auth × Event × Auth)} {W W' : Auth} {e : Event} (h : Run cr tr W)
      (hs : Step cr W e W') : Run cr ((W, e, W') :: tr) W'

end WpaSupplicant.Authenticator

import WpaSupplicant.Authenticator.Machine

namespace WpaSupplicant.Authenticator

open Lib.Octets Lib.Window KeyData

namespace Auth

def withSta (W : Auth) (i : ℕ) (f : Ctx → Ctx) : Auth :=
  match W.sta i with
  | none => W
  | some sm =>
    let c := f ⟨sm, W.group sm.group, W.tick, W.out⟩
    { W with
      sta := Function.update W.sta i (some c.sm)
      group := Function.update W.group sm.group c.grp
      tick := c.tick
      out := c.out }

def modSta (W : Auth) (i : ℕ) (f : Sta → Sta) : Auth :=
  { W with sta := Function.update W.sta i ((W.sta i).map f) }

def modGroup (W : Auth) (g : ℕ) (f : Group → Group) : Auth :=
  { W with group := Function.update W.group g (f (W.group g)) }

-- Run a function of the group machine on a group. It reads no station, so that the station of
-- the context is a placeholder.
def withGroup (W : Auth) (g : ℕ) (f : Ctx → Ctx) : Auth :=
  let c := f ⟨{ group := g, addr := 0 }, W.group g, W.tick, W.out⟩
  { W with group := Function.update W.group g c.grp, tick := c.tick, out := c.out }

end Auth

section GroupMachine

variable (cr : Crypto) (env : Env)

def wpaGroupGtkInit (ap : Ap) (c : Ctx) : Ctx :=
  wpaGtkUpdate cr env ap { c with grp := { c.grp with
    changed := false
    state := .gtkInit
    gtk := fun _ => fit c.grp.gtkLen []
    gn := .first
    gnIgtk := .first } }

def wpaGroupSetkeysdone (ap : Ap) (c : Ctx) : Ctx :=
  wpaGroupConfigGroupKeys ap { c with grp := { c.grp with changed := true, state := .setkeysdone } }

-- `wpa_group_setkeys` up to the loop over the stations
def wpaGroupSetkeysStart (ap : Ap) (c : Ctx) : Ctx :=
  let c := wpaGtkUpdate cr env ap { c with grp := { c.grp with
    changed := true
    state := .setkeys
    gtkReKey := false
    gn := c.grp.gn.other
    gnIgtk := c.grp.gnIgtk.other } }
  { c with grp := { c.grp with gKeyDoneStations := 0 } }

-- `wpa_group_update_sta`; `step` is `wpa_sm_step`.
def wpaGroupUpdateSta (step : Auth → ℕ → Option Auth) (W : Auth) (i : ℕ) : Option Auth :=
  match W.sta i with
  | none => some W
  | some sm =>
    if sm.ptkState ≠ .ptkinitdone then
      some (W.modSta i fun sm => { sm with gUpdateStationKeys := false })
    else
      let W := W.modGroup sm.group fun g => { g with gKeyDoneStations := g.gKeyDoneStations + 1 }
      step (W.modSta i fun sm => { sm with gUpdateStationKeys := true }) i

-- `wpa_group_setkeys`: the loop visits the stations of all groups.
def wpaGroupSetkeys (step : Auth → ℕ → Option Auth) (W : Auth) (g : ℕ) : Option Auth :=
  let W := W.withGroup g (wpaGroupSetkeysStart cr env W.ap)
  W.staIds.foldlM (wpaGroupUpdateSta step) W

def wpaGroupSmStep (step : Auth → ℕ → Option Auth) (W : Auth) (g : ℕ) : Option Auth :=
  let grp := W.group g
  if (grp).gInit then some (W.withGroup g (wpaGroupGtkInit cr env W.ap))
  else
    match (grp).state with
    | .gtkInit => some (W.withGroup g (wpaGroupSetkeysdone W.ap))
    | .setkeysdone => if (grp).gtkReKey then wpaGroupSetkeys cr env step W g else some W
    | .setkeys =>
      if (grp).gKeyDoneStations = 0 then some (W.withGroup g (wpaGroupSetkeysdone W.ap))
      else if (grp).gtkReKey then wpaGroupSetkeys cr env step W g
      else some W

-- Both machines of station `i` in one round of the loop of `wpa_sm_step`
def staRound (W : Auth) (i : ℕ) : Auth :=
  let W := W.modSta i fun sm => { sm with changed := false }
  let W := W.modGroup 0 fun g => { g with changed := false }
  W.withSta i fun c => ptkGroupStep cr env W.ap (ptkStep cr env W.ap c)

-- One round of the loop of `wpa_sm_step` for station `i`
def wpaSmStepRound (step : Auth → ℕ → Option Auth) (W : Auth) (i : ℕ) : Option Auth :=
  let W := staRound cr env W i
  match W.sta i with
  | none => some W
  | some sm => wpaGroupSmStep cr env step W sm.group

def stepAgain (W : Auth) (i : ℕ) : Bool :=
  (match W.sta i with
    | none => false
    | some sm => sm.changed) || (W.group 0).changed

-- `wpa_sm_step` around a given loop: a recursive call for the same station returns at once.
-- `pending_deinit` is left out: no callback of the loop frees a station.
def wpaSmStepWith (loop : Auth → ℕ → Option Auth) (W : Auth) (i : ℕ) : Option Auth :=
  match W.sta i with
  | none => some W
  | some sm =>
    if sm.inStepLoop then some W
    else do
      let W ← loop (W.modSta i fun sm => { sm with inStepLoop := true }) i
      some (W.modSta i fun sm => { sm with inStepLoop := false })

-- The loop of `wpa_sm_step`. `none` means that the fuel did not suffice; the nested calls that
-- a group rekey makes for the other stations spend the same fuel.
def wpaSmLoop : ℕ → Auth → ℕ → Option Auth
  | 0, _, _ => none
  | fuel + 1, W, i => do
      let W ← wpaSmStepRound cr env (wpaSmStepWith (wpaSmLoop fuel)) W i
      if stepAgain W i then wpaSmLoop fuel W i else some W

def wpaSmStep (fuel : ℕ) : Auth → ℕ → Option Auth :=
  wpaSmStepWith (wpaSmLoop cr env fuel)

-- The loop of `wpa_rekey_gtk` for one group
def wpaRekeyGtkLoop (fuel : ℕ) : ℕ → Auth → ℕ → Option Auth
  | 0, _, _ => none
  | rounds + 1, W, g => do
      let W := W.modGroup g fun grp => { grp with changed := false }
      let W ← wpaGroupSmStep cr env (wpaSmStep cr env fuel) W g
      if (W.group g).changed then wpaRekeyGtkLoop fuel rounds W g else some W

def wpaRekeyGtk (fuel : ℕ) (W : Auth) : Option Auth :=
  W.groupIds.foldlM (fun W g =>
    wpaRekeyGtkLoop cr env fuel fuel (W.modGroup g fun grp => { grp with gtkReKey := true }) g) W

-- `wpa_gtk_rekey`: both keys of the first group are replaced, without a handshake.
def wpaGtkRekeyOnce (ap : Ap) (c : Ctx) : Ctx :=
  wpaGroupConfigGroupKeys ap (wpaGtkUpdate cr env ap { c with grp := { c.grp with
    gn := c.grp.gn.other, gnIgtk := c.grp.gnIgtk.other } })

def wpaGtkRekey (W : Auth) : Auth :=
  W.withGroup 0 fun c => wpaGtkRekeyOnce cr env W.ap (wpaGtkRekeyOnce cr env W.ap c)

end GroupMachine

end WpaSupplicant.Authenticator
